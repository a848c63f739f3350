import SqlDump.Proofs.Text.Pieces

/-!
# Balanced texts

Texts in which every quote is closed and every parenthesis has its partner, by a grammar that knows
nothing of scanning. The scanner of quotes and parentheses passes over exactly these: what it finds
in a group of parentheses is balanced, and so is each item of a list in it.

Main statements: `shields_iff_balanced`, scanning and the grammar agree; `group?_shields_of_eq`, the
content of a group that is found; `items_balanced`, the items in a group are balanced, and items
written again are the same items.
-/

namespace SqlDump.Text

variable {p q : Char → Bool} {t u inside rest : Text} {quote : Char} {depth : Nat}

/-- A text that may stand between quotes: no character of it closes them. A backslash, which means
nothing between backticks, takes along the character behind it. -/
inductive Enclosed (quote : Char) : Text → Prop
  | nil : Enclosed quote []
  | plain {c : Char} {t : Text} (hquote : c ≠ quote) (hslash : c = '\\' → quote = '\x60')
      (h : Enclosed quote t) : Enclosed quote (c :: t)
  | escaped {c : Char} {t : Text} (hquote : quote ≠ '\x60') (h : Enclosed quote t) :
      Enclosed quote ('\\' :: c :: t)

/-- A text of closed quotes, closed groups in parentheses and other characters, none of which
satisfies `p`. Within a group they may. -/
inductive Balanced : (Char → Bool) → Text → Prop
  | nil {p : Char → Bool} : Balanced p []
  | plain {p : Char → Bool} {c : Char} {t : Text} (hquote : isQuoteMark c = false)
      (hopen : c ≠ '(') (hclose : c ≠ ')') (hp : p c = false) (h : Balanced p t) :
      Balanced p (c :: t)
  | quoted {p : Char → Bool} {quote : Char} {inside t : Text} (hquote : isQuoteMark quote = true)
      (hinside : Enclosed quote inside) (h : Balanced p t) :
      Balanced p (quote :: (inside ++ quote :: t))
  | group {p : Char → Bool} {inside t : Text} (hinside : Balanced (fun _ => false) inside)
      (h : Balanced p t) : Balanced p ('(' :: (inside ++ ')' :: t))

/-! ## Quotes -/

section Quotes

variable {c : Char} {escaped : Bool}

theorem Nesting.step_inside : Nesting.step ⟨.inside quote escaped, depth⟩ c =
    ⟨(Quoting.inside quote escaped).step c, depth⟩ := rfl

theorem Nesting.step_open (hquote : isQuoteMark quote = true) :
    Nesting.step {} quote = ⟨.inside quote false, 0⟩ := by
  rcases (by simpa [isQuoteMark, or_assoc] using hquote) with rfl | rfl | rfl <;> rfl

end Quotes

/-- Between quotes scanning stays between them, and nothing shows. -/
theorem Enclosed.scan (h : Enclosed quote inside) (p : Char → Bool) (depth : Nat) :
    hides p ⟨.inside quote false, depth⟩ inside = true ∧
      Nesting.after ⟨.inside quote false, depth⟩ inside = ⟨.inside quote false, depth⟩ := by
  induction h with
  | nil => exact ⟨rfl, rfl⟩
  | plain hquote hslash _ ih =>
    rw [hides, Nesting.after, List.foldl_cons, Nesting.step_inside,
      Quoting.step_plain hquote hslash]
    exact ih
  | escaped hquote _ ih =>
    rw [hides, hides, Nesting.after, List.foldl_cons, List.foldl_cons, Nesting.step_inside,
      Quoting.step_escape hquote]
    exact ih

/-- Quotes that are open, and are not once the text ends, are closed somewhere in it. -/
theorem exists_enclosed : ∀ {t : Text},
    (Nesting.after ⟨.inside quote false, depth⟩ t).quoting = .outside →
      ∃ inside rest, t = inside ++ quote :: rest ∧ Enclosed quote inside
  | [], h => by cases h
  | c :: t, h => by
    rw [Nesting.after, List.foldl_cons, Nesting.step_inside] at h
    by_cases hescape : c = '\\' ∧ quote ≠ '\x60'
    · obtain ⟨rfl, hquote⟩ := hescape
      rw [Quoting.step_escape hquote] at h
      cases t with
      | nil => cases h
      | cons d t =>
        obtain ⟨inside, rest, rfl, hinside⟩ := exists_enclosed h
        exact ⟨'\\' :: d :: inside, rest, rfl, .escaped hquote hinside⟩
    · by_cases hclose : c = quote
      · subst hclose
        exact ⟨[], t, rfl, .nil⟩
      · have hslash : c = '\\' → quote = '\x60' := fun hc => not_not.mp fun hq => hescape ⟨hc, hq⟩
        rw [Quoting.step_plain hclose hslash] at h
        obtain ⟨inside, rest, rfl, hinside⟩ := exists_enclosed h
        exact ⟨c :: inside, rest, rfl, .plain hclose hslash hinside⟩

/-! ## What shows -/

/-- Where something shows, the text before the first of it hides all of it. -/
theorem exists_shown {n : Nesting} (h : hides p n t = false) : ∃ before c behind,
    t = before ++ c :: behind ∧ hides p n before = true ∧ (n.after before).isTop = true ∧
      p c = true := by
  induction t generalizing n with
  | nil => cases h
  | cons c t ih =>
    cases hc : n.isTop && p c with
    | true =>
      obtain ⟨htop, hc⟩ := Bool.and_eq_true_iff.mp hc
      exact ⟨[], c, t, rfl, rfl, htop, hc⟩
    | false =>
      rw [hides, hc, Bool.not_false, Bool.true_and] at h
      obtain ⟨before, d, behind, rfl, hbefore, htop, hd⟩ := ih h
      refine ⟨c :: before, d, behind, rfl, ?_, htop, hd⟩
      rw [hides, hc, hbefore]
      rfl

/-- What hides two kinds of characters hides both. -/
theorem hides_or (n : Nesting) (t : Text) :
    hides (fun c => p c || q c) n t = (hides p n t && hides q n t) := by
  induction t generalizing n with
  | nil => rfl
  | cons c t ih =>
    rw [hides, hides, hides, ih]
    cases n.isTop <;> cases p c <;> cases q c <;> simp

namespace Shields

/-- Behind a text that is passed over, scanning begins anew. -/
theorem append_iff (h : Shields p t) : Shields p (t ++ u) ↔ Shields p u := by
  refine ⟨fun hboth => ⟨?_, ?_⟩, h.append⟩
  · have hhides := hboth.hidden
    rwa [hides_append, h.hidden, h.closed, Bool.true_and] at hhides
  · have hafter := hboth.closed
    rwa [Nesting.after_append, h.closed] at hafter

/-- A text in quotes is passed over whole. -/
theorem quoted (hquote : isQuoteMark quote = true) (h : Enclosed quote inside)
    (hp : p quote = false) : Shields p (quote :: (inside ++ [quote])) := by
  obtain ⟨hhides, hafter⟩ := h.scan p 0
  have hopen := Nesting.step_open hquote
  have hslash : quote ≠ '\\' := by
    rintro rfl
    cases hquote
  constructor
  · rw [hides, hp, Bool.and_false, hopen, hides_append, hhides, hafter, hides, hp, Bool.and_false]
    rfl
  · rw [Nesting.after, List.foldl_cons, hopen, ← Nesting.after, Nesting.after_append, hafter,
      Nesting.after, List.foldl_cons, Nesting.step_inside, Quoting.step_close hslash]
    rfl

/-- A parenthesis that opens a group is closed within what is passed over. -/
theorem exists_group (h : Shields p ('(' :: t)) :
    ∃ inside rest, t = inside ++ ')' :: rest ∧ Shields (· == ')') inside := by
  have hopen : Nesting.after {} ('(' :: t) = (Nesting.deeper {}).after t := rfl
  cases hshown : hides (· == ')') {} t with
  | true =>
    -- The text would end within the group.
    have hclosed := h.closed
    rw [hopen, (Nesting.after_deeper p hshown).2] at hclosed
    exact absurd (congrArg Nesting.depth hclosed) (Nat.succ_ne_zero _)
  | false =>
    obtain ⟨inside, c, rest, rfl, hinside, htop, hc⟩ := exists_shown hshown
    obtain rfl := beq_iff_eq.mp hc
    exact ⟨inside, rest, rfl, hinside, Nesting.eq_of_isTop htop⟩

end Shields

/-! ## Scanning and the grammar -/

/-- What the scanner passes over without a parenthesis that closes nothing is balanced. -/
theorem Shields.balanced (hp : ∀ c, isQuoteMark c = true ∨ c = '(' → p c = false)
    (h : Shields (fun c => p c || c == ')') t) : Balanced p t := by
  induction hlength : t.length using Nat.strongRecOn generalizing p t with
  | ind n ih =>
    have hmark (c : Char) (hc : isQuoteMark c = true ∨ c = '(') : (p c || c == ')') = false := by
      rw [hp c hc, Bool.false_or, beq_eq_false_iff_ne]
      rintro rfl
      exact absurd hc (by decide)
    cases t with
    | nil => exact .nil
    | cons c t =>
      have hshown := h.hidden
      rw [hides, Bool.and_eq_true, Bool.not_eq_true'] at hshown
      obtain ⟨hpc, hclose⟩ : p c = false ∧ c ≠ ')' := by simpa [Nesting.isTop] using hshown.1
      rw [List.length_cons] at hlength
      by_cases hquote : isQuoteMark c = true
      · have hend := h.closed
        rw [Nesting.after, List.foldl_cons, Nesting.step_open hquote] at hend
        obtain ⟨inside, rest, rfl, hinside⟩ := exists_enclosed (congrArg Nesting.quoting hend)
        have hrest : Shields (fun c => p c || c == ')') rest := by
          rw [← (quoted hquote hinside (hmark c (.inl hquote))).append_iff]
          simpa using h
        rw [List.length_append, List.length_cons] at hlength
        exact .quoted hquote hinside (ih rest.length (by omega) hp hrest rfl)
      by_cases hopen : c = '('
      · subst hopen
        obtain ⟨inside, rest, rfl, hinside⟩ := h.exists_group
        have hrest : Shields (fun c => p c || c == ')') rest := by
          rw [← (hinside.group (hmark '(' (.inr rfl))).append_iff]
          simpa using h
        rw [List.length_append, List.length_cons] at hlength
        exact .group (ih inside.length (by omega) (fun _ _ => rfl) hinside rfl)
          (ih rest.length (by omega) hp hrest rfl)
      have hquote : isQuoteMark c = false := Bool.eq_false_iff.mpr hquote
      have hrest : Shields (fun c => p c || c == ')') t := by
        rw [← (cons hquote hopen hclose (by simp [hpc, hclose]) nil).append_iff]
        exact h
      exact .plain hquote hopen hclose hpc (ih t.length (by omega) hp hrest rfl)

/-- Balanced texts are passed over. -/
theorem Balanced.shields (hp : ∀ c, isQuoteMark c = true ∨ c = '(' → p c = false)
    (h : Balanced p t) : Shields (fun c => p c || c == ')') t := by
  induction h with
  | nil => exact .nil
  | plain hquote hopen hclose hpc _ ih =>
    exact .cons hquote hopen hclose (by simp [hpc, hclose]) (ih hp)
  | @quoted p quote inside t hquote hinside _ ih =>
    have hmark : (p quote || quote == ')') = false := by
      rw [hp quote (.inl hquote), Bool.false_or, beq_eq_false_iff_ne]
      rintro rfl
      cases hquote
    simpa using (Shields.quoted (p := fun c => p c || c == ')') hquote hinside hmark).append (ih hp)
  | @group p inside t _ _ hinside ih =>
    have hgroup := (hinside fun _ _ => rfl).group (p := fun c => p c || c == ')')
      (by rw [hp '(' (.inr rfl)]; rfl)
    simpa using hgroup.append (ih hp)

/-- The scanner and the grammar agree. -/
theorem shields_iff_balanced (hp : ∀ c, isQuoteMark c = true ∨ c = '(' → p c = false) :
    Shields (fun c => p c || c == ')') t ↔ Balanced p t :=
  ⟨Shields.balanced hp, Balanced.shields hp⟩

/-! ## Groups and their items -/

/-- A group that is found ends at its own parenthesis. -/
theorem closeGroup?_eq_some {inner content behind : Text}
    (h : closeGroup? {} inner t = some (content, behind)) :
    ∃ inside, t = inside ++ ')' :: behind ∧ content = inner.reverse ++ inside ∧
      Shields (· == ')') inside := by
  cases hshown : hides (· == ')') {} t with
  | true =>
    have hend := closeGroup?_hidden hshown inner []
    rw [List.append_nil, h] at hend
    cases hend
  | false =>
    obtain ⟨inside, c, rest, rfl, hinside, htop, hc⟩ := exists_shown hshown
    obtain rfl := beq_iff_eq.mp hc
    rw [closeGroup?_hidden hinside, closeGroup?, if_pos ⟨rfl, htop⟩] at h
    cases h
    refine ⟨inside, rfl, ?_, hinside, Nesting.eq_of_isTop htop⟩
    rw [List.reverse_append, List.reverse_reverse]

/-- A text that begins with a parenthesis begins with a group exactly where a balanced text and the
closing parenthesis follow. -/
theorem group?_open_eq_some_iff {inner behind : Text} :
    group? ('(' :: t) = some (inner, behind) ↔
      t = inner ++ ')' :: behind ∧ Shields (· == ')') inner := by
  constructor
  · intro h
    have hclose : closeGroup? {} [] t = some (inner, behind) := h
    obtain ⟨content, rfl, rfl, hinner⟩ := closeGroup?_eq_some hclose
    exact ⟨rfl, hinner⟩
  · rintro ⟨rfl, hinner⟩
    exact group?_shields hinner behind

theorem group?_open_eq_none_iff : group? ('(' :: t) = none ↔ hides (· == ')') {} t = true := by
  constructor
  · intro h
    cases hshown : hides (· == ')') {} t with
    | true => rfl
    | false =>
      obtain ⟨inner, c, behind, rfl, hinner, htop, hc⟩ := exists_shown hshown
      obtain rfl := beq_iff_eq.mp hc
      rw [group?_shields ⟨hinner, Nesting.eq_of_isTop htop⟩] at h
      cases h
  · intro hhidden
    have hend := closeGroup?_hidden hhidden [] []
    rw [List.append_nil] at hend
    exact hend

theorem shields_of_group? {inner behind : Text} (h : group? t = some (inner, behind)) :
    Shields (· == ')') inner := by
  obtain ⟨rest, -, hclose⟩ := Option.bind_eq_some_iff.mp h
  obtain ⟨inside, -, rfl, hinside⟩ := closeGroup?_eq_some hclose
  exact hinside

/-- The pieces of a text that is passed over are passed over one by one, and no comma shows in
them. -/
theorem Shields.splitTop (hp : p ',' = false) (h : Shields p t) {piece : Text}
    (hpiece : piece ∈ splitTop (· == ',') t) : Shields (fun c => c == ',' || p c) piece := by
  induction hlength : t.length using Nat.strongRecOn generalizing t with
  | ind n ih =>
    cases hshown : hides (· == ',') {} t with
    | true =>
      rw [splitTop_of_hidden hshown, List.mem_singleton] at hpiece
      subst hpiece
      exact ⟨by rw [hides_or, hshown, h.hidden]; rfl, h.closed⟩
    | false =>
      obtain ⟨before, c, behind, rfl, hbefore, htop, hc⟩ := exists_shown hshown
      obtain rfl := beq_iff_eq.mp hc
      have hclosed := Nesting.eq_of_isTop htop
      have hhides := h.hidden
      rw [hides_append, Bool.and_eq_true] at hhides
      rw [splitTop_append_cons ⟨hbefore, hclosed⟩ rfl rfl] at hpiece
      rcases List.mem_cons.mp hpiece with rfl | hlater
      · exact ⟨by rw [hides_or, hbefore, hhides.1]; rfl, hclosed⟩
      · have hfirst : Shields p (before ++ [',']) :=
          Shields.append ⟨hhides.1, hclosed⟩ (cons rfl (by decide) (by decide) hp nil)
        have hbehind : Shields p behind := by
          rw [← hfirst.append_iff]
          simpa using h
        rw [List.length_append, List.length_cons] at hlength
        exact ih behind.length (by omega) hbehind hlater rfl

/-- The items of a list within a group are balanced texts without a comma of their own, as the
scanner finds them too. The items of any text, with a comma and a blank between them, are read as
the same items. -/
theorem items_balanced (t body : Text) :
    (∀ inner behind, group? t = some (inner, behind) → ∀ item ∈ items inner,
      Balanced (· == ',') item ∧ hides (· == ',') {} item = true ∧ Nesting.after {} item = {}) ∧
    items (join ", " (items body)) = items body := by
  refine ⟨fun inner behind hgroup item hitem => ?_,
    items_join_listed (listed_items body) fun _ => mem_items⟩
  obtain ⟨hmem, -⟩ := List.mem_filter.mp hitem
  obtain ⟨piece, hpiece, rfl⟩ := List.mem_map.mp hmem
  have hshields : Shields (fun c => c == ',' || c == ')') (trim piece) :=
    ((shields_of_group? hgroup).splitTop rfl hpiece).trim
      (fun _ => Unicode.of_isBlank (p := fun c => (c == ',' || c == ')') = false) (by decide))
  refine ⟨hshields.balanced ?_, hides_mono (fun c hc => ?_) hshields.hidden, hshields.closed⟩
  · intro c hc
    rw [beq_eq_false_iff_ne]
    rintro rfl
    exact absurd hc (by decide)
  · rw [hc, Bool.true_or]

/-- Commas and parentheses in quotes belong to the item they stand in. -/
theorem items_balanced_quotes :
    ∃ inner behind : Text, group? "(`a,(` enum('x)', 'it\\'s, or'), b decimal(10, 2),) ENGINE=x" =
        some (inner, behind) ∧
      items inner = [("`a,(` enum('x)', 'it\\'s, or')" : Text), ("b decimal(10, 2)" : Text)] ∧
      (∀ item ∈ items inner,
        Balanced (· == ',') item ∧ hides (· == ',') {} item = true ∧ Nesting.after {} item = {}) ∧
      items (join ", " (items inner)) = items inner := by
  have hgroup : group? "(`a,(` enum('x)', 'it\\'s, or'), b decimal(10, 2),) ENGINE=x" =
      some (("`a,(` enum('x)', 'it\\'s, or'), b decimal(10, 2)," : Text),
        (" ENGINE=x" : Text)) := by
    decide +kernel
  obtain ⟨hitems, hagain⟩ := items_balanced
    "(`a,(` enum('x)', 'it\\'s, or'), b decimal(10, 2),) ENGINE=x"
    "`a,(` enum('x)', 'it\\'s, or'), b decimal(10, 2),"
  exact ⟨_, _, hgroup, by decide +kernel, hitems _ _ hgroup, hagain⟩

end SqlDump.Text
