import Mathlib.Data.List.TakeWhile
import SqlDump.Text.Nesting

/-!
# Items and groups

What scanning for a comma, a blank or a parenthesis passes over: characters inside quotes or
parentheses. Texts in which every quote and parenthesis is closed are passed over whole, so that a
list of them is split into them and a group of them ends behind the last.

Main statements: `splitTop_join`, a list is split into its pieces; `group?_shields`, a group ends at
its own parenthesis; `Spaced.tokens_eq`, tokens with blanks between are told apart; `items_join`,
the items of a list are its pieces without blanks around them.
-/

namespace SqlDump

/-- What is true of the blanks one by one is true of every blank. -/
theorem Unicode.of_isBlank {p : Char → Prop}
    (h : ∀ r ∈ blankRanges, ∀ k < r.2 + 1 - r.1, p (Char.ofNat (r.1 + k))) {c : Char}
    (hc : isBlank c = true) : p c := by
  obtain ⟨r, hr, hle, hge⟩ := (Ranges.mem_iff _ _).mp hc
  have hk := h r hr (c.toNat - r.1) (by omega)
  rwa [Nat.add_sub_cancel' hle, Char.ofNat_toNat] at hk

theorem Unicode.not_isBlank_of_isAlpha {c : Char} (h : c.isAlpha = true) : isBlank c = false := by
  rw [Bool.eq_false_iff]
  intro hblank
  have hletter := of_isBlank (p := fun c => c.isAlpha = false) (by decide) hblank
  rw [h] at hletter
  cases hletter

namespace Text

/-! ## Blanks at the ends -/

variable {t u v : Text}

section TrimEndWhile

variable {p : Char → Bool}

theorem trimEndWhile_append (h : trimEndWhile p u ≠ []) (t : Text) :
    trimEndWhile p (t ++ u) = t ++ trimEndWhile p u := by
  have hrest : (u.reverse.dropWhile p).isEmpty = false := by
    rw [Bool.eq_false_iff]
    intro hempty
    rw [List.isEmpty_iff] at hempty
    exact h (by rw [trimEndWhile, hempty, List.reverse_nil])
  rw [trimEndWhile, List.reverse_append, List.dropWhile_append, hrest]
  simp [trimEndWhile]

theorem exists_trimEndWhile (p : Char → Bool) (t : Text) :
    ∃ v, v.all p = true ∧ t = trimEndWhile p t ++ v := by
  refine ⟨(t.reverse.takeWhile p).reverse, ?_, ?_⟩
  · rw [List.all_reverse]
    exact List.all_eq_true.mpr fun c hc => List.mem_takeWhile_imp hc
  · rw [trimEndWhile, ← List.reverse_append, List.takeWhile_append_dropWhile, List.reverse_reverse]

theorem trimEndWhile_eq_nil_iff : trimEndWhile p t = [] ↔ t.all p = true := by
  rw [trimEndWhile, List.reverse_eq_nil_iff, List.dropWhile_eq_nil_iff, List.all_eq_true]
  simp

theorem trimEndWhile_singleton {c : Char} (h : p c = true) (t : Text) :
    trimEndWhile p (t ++ [c]) = trimEndWhile p t := by
  simp [trimEndWhile, h]

theorem trimEndWhile_append_of_all {u : Text} (h : u.all p = true) (t : Text) :
    trimEndWhile p (t ++ u) = trimEndWhile p t := by
  have hrest : u.reverse.dropWhile p = [] := by
    rw [List.dropWhile_eq_nil_iff]
    intro c hc
    exact List.all_eq_true.mp h c (List.mem_reverse.mp hc)
  rw [trimEndWhile, List.reverse_append, List.dropWhile_append, hrest]
  rfl

/-- What is taken off at the end stands behind a character that is not. -/
theorem trimEndWhile_cons {c : Char} (h : p c = false) (t : Text) :
    trimEndWhile p (c :: t) = c :: trimEndWhile p t := by
  have hsingle : trimEndWhile p [c] = [c] := by simp [trimEndWhile, h]
  by_cases hrest : trimEndWhile p t = []
  · have hall := trimEndWhile_append_of_all (trimEndWhile_eq_nil_iff.mp hrest) [c]
    rwa [hsingle, List.singleton_append, ← hrest] at hall
  · exact trimEndWhile_append hrest [c]

theorem trimEndWhile_last {c : Char} (h : p c = false) (t : Text) :
    trimEndWhile p (t ++ [c]) = t ++ [c] := by
  simp [trimEndWhile, h]

end TrimEndWhile

theorem dropWhile_isBlank (h : isBlank v = true) : v.dropWhile Unicode.isBlank = [] := by
  rw [List.dropWhile_eq_nil_iff]
  exact List.all_eq_true.mp h

theorem isBlank_reverse : isBlank v.reverse = isBlank v := List.all_reverse

theorem trimStart_blank_append (h : isBlank v = true) (t : Text) :
    trimStart (v ++ t) = trimStart t :=
  List.dropWhile_append_of_pos (List.all_eq_true.mp h)

theorem trimEnd_append_blank (h : isBlank v = true) (t : Text) : trimEnd (t ++ v) = trimEnd t := by
  rw [trimEnd, trimEndWhile, List.reverse_append]
  exact congrArg List.reverse (trimStart_blank_append (isBlank_reverse.trans h) t.reverse)

theorem trim_blank_append (h : isBlank v = true) (t : Text) : trim (v ++ t) = trim t := by
  rw [trim, trimStart_blank_append h, trim]

theorem trim_append_blank (h : isBlank v = true) (t : Text) : trim (t ++ v) = trim t := by
  rw [trim, trimStart, List.dropWhile_append]
  split
  · next hnil =>
    rw [dropWhile_isBlank h, trim, trimStart, List.isEmpty_iff.mp hnil]
  · exact trimEnd_append_blank h _

/-- Blanks are all that is taken off. -/
theorem exists_trim (t : Text) : ∃ lead tail, isBlank lead = true ∧ isBlank tail = true ∧
    t = lead ++ (trim t ++ tail) := by
  obtain ⟨tail, htail, ht⟩ := exists_trimEndWhile Unicode.isBlank (trimStart t)
  refine ⟨t.takeWhile Unicode.isBlank, tail, ?_, htail, ?_⟩
  · exact List.all_eq_true.mpr fun _ hc => List.mem_takeWhile_imp hc
  · rw [trim, trimEnd, ← ht, trimStart, List.takeWhile_append_dropWhile]

theorem mem_of_mem_trimEndWhile {p : Char → Bool} {c : Char} (h : c ∈ trimEndWhile p t) : c ∈ t :=
  List.mem_reverse.mp ((List.dropWhile_suffix _).subset (List.mem_reverse.mp h))

theorem trim_of_solid {c d : Char} (hc : Unicode.isBlank c = false) (hd : Unicode.isBlank d = false)
    (t : Text) : trim (c :: (t ++ [d])) = c :: (t ++ [d]) :=
  @trim_solid [] [] c d rfl rfl hc hd t

/-- Whether the text ends with a character that is no blank. -/
def endsSolid (t : Text) : Bool := t.getLast?.any (!Unicode.isBlank ·)

theorem endsSolid_iff :
    endsSolid t = true ↔ ∃ init last, Unicode.isBlank last = false ∧ t = init ++ [last] := by
  constructor
  · intro h
    obtain ⟨last, hlast, hsolid⟩ := (Option.any_eq_true _ _).mp h
    obtain ⟨init, rfl⟩ := List.getLast?_eq_some_iff.mp hlast
    exact ⟨init, last, by rwa [Bool.not_eq_true'] at hsolid, rfl⟩
  · rintro ⟨init, last, hsolid, rfl⟩
    simp [endsSolid, hsolid]

theorem endsSolid_append (t : Text) (h : endsSolid u = true) : endsSolid (t ++ u) = true := by
  obtain ⟨init, last, hsolid, rfl⟩ := endsSolid_iff.mp h
  exact endsSolid_iff.mpr ⟨t ++ init, last, hsolid, (List.append_assoc ..).symm⟩

theorem trim_of_endsSolid (hstart : trimStart t = t) (h : endsSolid t = true) : trim t = t := by
  obtain ⟨init, last, hsolid, rfl⟩ := endsSolid_iff.mp h
  rw [trim, hstart]
  exact trimEnd_solid hsolid init []

theorem trim_trim (t : Text) : trim (trim t) = trim t := by
  obtain ⟨lead, tail, hlead, htail, ht⟩ := exists_trim t
  have h : trim t = trim (lead ++ (trim t ++ tail)) := congrArg trim ht
  rwa [trim_blank_append hlead, trim_append_blank htail, eq_comm] at h

/-- A text without blanks around it begins with none. -/
theorem exists_solid (htrim : trim t = t) (hne : t ≠ []) :
    ∃ c rest, Unicode.isBlank c = false ∧ t = c :: rest := by
  cases t with
  | nil => exact absurd rfl hne
  | cons c rest =>
    refine ⟨c, rest, Bool.eq_false_iff.mpr fun hblank => ?_, rfl⟩
    have hrest := trim_blank_append (v := [c]) (by rw [isBlank, List.all_cons, hblank]; rfl) rest
    rw [List.singleton_append, htrim] at hrest
    obtain ⟨lead, tail, -, -, h⟩ := exists_trim rest
    have hlength := congrArg List.length h
    rw [← hrest] at hlength
    simp only [List.length_append, List.length_cons] at hlength
    omega

theorem trim_trimStart (t : Text) : trim (trimStart t) = trim t := by
  rw [trim, trimStart_trimStart, trim]

theorem trim_trimEnd (t : Text) : trim (trimEnd t) = trim t := by
  obtain ⟨v, hv, ht⟩ := exists_trimEndWhile Unicode.isBlank t
  have h : trim t = trim (trimEnd t ++ v) := congrArg trim ht
  rwa [trim_append_blank hv, eq_comm] at h

/-! ## Where a piece ends -/

/-- A piece ends where the rest begins with what cannot belong to it. -/
theorem takeWhile_append_rest {α : Type} {p : α → Bool} {piece rest : List α}
    (hpiece : ∀ a ∈ piece, p a = true) (hrest : ∀ a more, rest = a :: more → p a = false) :
    (piece ++ rest).takeWhile p = piece ∧ (piece ++ rest).dropWhile p = rest := by
  rw [List.takeWhile_append_of_pos hpiece, List.dropWhile_append_of_pos hpiece]
  cases rest with
  | nil => exact ⟨List.append_nil piece, rfl⟩
  | cons a more => simp [hrest a more rfl]

/-! ## Texts with a separator between -/

theorem join_singleton (sep t : Text) : join sep [t] = t := by
  simp [join, List.intercalate]

theorem join_cons_cons (sep t u : Text) (ts : List Text) :
    join sep (t :: u :: ts) = t ++ (sep ++ join sep (u :: ts)) := by
  simp [join, List.intercalate]

theorem join_append_singleton (sep last : Text) (init : List Text) :
    join sep (init ++ [last]) = init.flatMap (· ++ sep) ++ last := by
  induction init with
  | nil => exact join_singleton ..
  | cons t init ih =>
    have hjoin : join sep (t :: (init ++ [last])) = t ++ (sep ++ join sep (init ++ [last])) := by
      cases init <;> exact join_cons_cons ..
    rw [List.cons_append, hjoin, ih]
    simp

theorem exists_join_cons (sep t : Text) (ts : List Text) :
    ∃ rest, join sep (t :: ts) = t ++ rest := by
  cases ts with
  | nil => exact ⟨[], by rw [join_singleton, List.append_nil]⟩
  | cons u ts => exact ⟨_, join_cons_cons sep t u ts⟩

/-- Each of the texts stands in what they are joined to. -/
theorem exists_join (sep : Text) {ts : List Text} {t : Text} (h : t ∈ ts) :
    ∃ before behind, join sep ts = before ++ t ++ behind := by
  induction ts with
  | nil => cases h
  | cons u ts ih =>
    rcases List.mem_cons.mp h with rfl | hlater
    · obtain ⟨rest, hrest⟩ := exists_join_cons sep t ts
      exact ⟨[], rest, hrest⟩
    · obtain ⟨before, behind, hbehind⟩ := ih hlater
      obtain ⟨v, ts, rfl⟩ := List.exists_cons_of_ne_nil (List.ne_nil_of_mem hlater)
      refine ⟨u ++ sep ++ before, behind, ?_⟩
      rw [join_cons_cons, hbehind]
      simp only [List.append_assoc]

/-! ## What scanning passes over -/

/-- Whether no character that satisfies `p` stands outside quotes and parentheses, with `n` around
the text. -/
def hides (p : Char → Bool) (n : Nesting) : Text → Bool
  | [] => true
  | c :: t => !(n.isTop && p c) && hides p (n.step c) t

theorem hides_append (p : Char → Bool) (n : Nesting) (t u : Text) :
    hides p n (t ++ u) = (hides p n t && hides p (n.after t) u) := by
  induction t generalizing n with
  | nil => simp [hides, Nesting.after]
  | cons c t ih =>
    simp only [List.cons_append, hides, ih, Bool.and_assoc]
    rfl

/-- The closing parenthesis of a group stands behind what hides one. -/
theorem closeGroup?_hidden {n : Nesting} {t : Text} (h : hides (· == ')') n t = true)
    (inner u : Text) :
    closeGroup? n inner (t ++ u) = closeGroup? (n.after t) (t.reverse ++ inner) u := by
  induction t generalizing n inner with
  | nil => rfl
  | cons c t ih =>
    simp only [hides, Bool.and_eq_true, Bool.not_eq_true', Bool.and_eq_false_iff,
      beq_eq_false_iff_ne] at h
    have hc : ¬(c = ')' ∧ n.isTop = true) := by
      rintro ⟨he, htop⟩
      rcases h.1 with hn | hn
      · rw [htop] at hn
        cases hn
      · exact hn he
    rw [List.cons_append, closeGroup?, if_neg hc, ih h.2]
    simp [Nesting.after]

/-- A text that hides the separators is part of one piece. -/
theorem splitTopFrom_hidden {sep : Char → Bool} {n : Nesting} {t : Text}
    (h : hides sep n t = true) (done : List Text) (piece u : Text) :
    splitTopFrom sep n done piece (t ++ u) =
      splitTopFrom sep (n.after t) done (t.reverse ++ piece) u := by
  induction t generalizing n piece with
  | nil => rfl
  | cons c t ih =>
    simp only [hides, Bool.and_eq_true, Bool.not_eq_true'] at h
    rw [List.cons_append, splitTopFrom, if_neg (by simp [h.1]), ih h.2]
    simp [Nesting.after]

theorem hides_mono {p q : Char → Bool} (hpq : ∀ c, q c = true → p c = true) {n : Nesting}
    {t : Text} (h : hides p n t = true) : hides q n t = true := by
  induction t generalizing n with
  | nil => rfl
  | cons c t ih =>
    simp only [hides, Bool.and_eq_true, Bool.not_eq_true', Bool.and_eq_false_iff] at h ⊢
    refine ⟨h.1.imp id fun hc => Bool.eq_false_iff.mpr fun hq => ?_, ih h.2⟩
    exact Bool.eq_false_iff.mp hc (hpq c hq)

namespace Nesting

/-- One more parenthesis around a character. -/
def deeper (n : Nesting) : Nesting := { n with depth := n.depth + 1 }

theorem isTop_deeper (n : Nesting) : n.deeper.isTop = false := by
  simp [isTop, deeper]

/-- Only the parenthesis that closes the group feels what is around the group. -/
theorem step_deeper {n : Nesting} {c : Char} (h : (n.isTop && c == ')') = false) :
    n.deeper.step c = (n.step c).deeper := by
  obtain ⟨quoting, depth⟩ := n
  cases quoting with
  | inside quote escaped => rfl
  | outside =>
    cases depth with
    | succ depth =>
      simp only [step, deeper, if_true]
      split
      · rfl
      · split <;> rfl
    | zero =>
      have hc : c ≠ ')' := by simpa [isTop] using h
      simp only [step, deeper, if_true, if_neg hc]
      split <;> rfl

/-- Inside a group that the text does not close nothing shows. -/
theorem after_deeper (p : Char → Bool) {n : Nesting} {t : Text}
    (h : hides (· == ')') n t = true) :
    hides p n.deeper t = true ∧ n.deeper.after t = (n.after t).deeper := by
  induction t generalizing n with
  | nil => exact ⟨rfl, rfl⟩
  | cons c t ih =>
    simp only [hides, Bool.and_eq_true, Bool.not_eq_true'] at h
    obtain ⟨hhides, hafter⟩ := ih h.2
    have hstep := step_deeper h.1
    constructor
    · rw [hides, isTop_deeper, hstep, hhides]
      rfl
    · rw [after, List.foldl_cons, hstep]
      exact hafter

end Nesting

namespace Quoting

/-- Quotes are marks that are known. -/
def IsSound : Quoting → Prop
  | .outside => True
  | .inside quote _ => isQuoteMark quote = true

theorem IsSound.step {q : Quoting} (h : q.IsSound) (c : Char) : (q.step c).IsSound := by
  cases q with
  | outside =>
    unfold Quoting.step
    dsimp only
    split
    · assumption
    · trivial
  | inside quote escaped =>
    cases escaped with
    | true => exact h
    | false =>
      unfold Quoting.step
      dsimp only
      split
      · exact h
      · split
        · trivial
        · exact h

end Quoting

/-- The quotes and parentheses of the text are closed, and no character that satisfies `p` stands
outside them. -/
structure Shields (p : Char → Bool) (t : Text) : Prop where
  hidden : hides p {} t = true
  closed : Nesting.after {} t = {}

instance (p : Char → Bool) (t : Text) : Decidable (Shields p t) :=
  decidable_of_iff (hides p {} t = true ∧ Nesting.after {} t = {})
    ⟨fun h => ⟨h.1, h.2⟩, fun h => ⟨h.hidden, h.closed⟩⟩

namespace Shields

variable {p q : Char → Bool}

theorem nil : Shields p [] := ⟨rfl, rfl⟩

theorem append (ht : Shields p t) (hu : Shields p u) : Shields p (t ++ u) where
  hidden := by rw [hides_append, ht.hidden, ht.closed, hu.hidden, Bool.and_self]
  closed := by rw [Nesting.after_append, ht.closed, hu.closed]

theorem mono (h : Shields p t) (hpq : ∀ c, q c = true → p c = true) : Shields q t :=
  ⟨hides_mono hpq h.hidden, h.closed⟩

/-- Characters that are no quotes and no parentheses are passed over one by one. -/
theorem cons {c : Char} (hq : isQuoteMark c = false) (ho : c ≠ '(') (hc : c ≠ ')')
    (hp : p c = false) (ht : Shields p t) : Shields p (c :: t) := by
  have hstep : Nesting.step {} c = {} := by
    simp [Nesting.step, Quoting.step, hq, ho, hc]
  constructor
  · rw [hides, hstep, hp, ht.hidden]
    rfl
  · rw [Nesting.after, List.foldl_cons, hstep]
    exact ht.closed

theorem of_plain (h : ∀ c ∈ t, isQuoteMark c = false ∧ c ≠ '(' ∧ c ≠ ')' ∧ p c = false) :
    Shields p t := by
  induction t with
  | nil => exact nil
  | cons c t ih =>
    obtain ⟨hq, ho, hc, hp⟩ := h c List.mem_cons_self
    exact cons hq ho hc hp (ih fun d hd => h d (List.mem_cons_of_mem c hd))

theorem of_blank (hp : ∀ c, Unicode.isBlank c = true → p c = false) (h : isBlank t = true) :
    Shields p t := by
  refine of_plain fun c hc => ?_
  have hblank : Unicode.isBlank c = true := List.all_eq_true.mp h c hc
  have hplain : isQuoteMark c = false ∧ c ≠ '(' ∧ c ≠ ')' :=
    Unicode.of_isBlank (p := fun c => isQuoteMark c = false ∧ c ≠ '(' ∧ c ≠ ')') (by decide) hblank
  exact ⟨hplain.1, hplain.2.1, hplain.2.2, hp c hblank⟩

/-- A group in parentheses is passed over whole. -/
theorem group (h : Shields (· == ')') t) (hp : p '(' = false) :
    Shields p ('(' :: (t ++ [')'])) := by
  obtain ⟨hhides, hafter⟩ := Nesting.after_deeper p h.hidden
  have hopen : Nesting.step {} '(' = Nesting.deeper {} := rfl
  rw [h.closed] at hafter
  constructor
  · rw [hides, hopen, hides_append, hhides, hafter, hp]
    rfl
  · rw [Nesting.after, List.foldl_cons, hopen, ← Nesting.after, Nesting.after_append, hafter]
    rfl

theorem join {sep : Text} (hsep : Shields p sep) {ts : List Text} (h : ∀ t ∈ ts, Shields p t) :
    Shields p (join sep ts) := by
  induction ts with
  | nil => exact nil
  | cons t ts ih =>
    have ht := h t List.mem_cons_self
    cases ts with
    | nil => rwa [join_singleton]
    | cons u ts =>
      rw [join_cons_cons]
      exact ht.append (hsep.append (ih fun w hw => h w (List.mem_cons_of_mem t hw)))

theorem flatMap {α : Type} {f : α → Text} {as : List α} (h : ∀ a ∈ as, Shields p (f a)) :
    Shields p (as.flatMap f) := by
  induction as with
  | nil => exact nil
  | cons a as ih =>
    rw [List.flatMap_cons]
    exact (h a List.mem_cons_self).append (ih fun b hb => h b (List.mem_cons_of_mem a hb))

end Shields

/-! ## Groups, lists and tokens -/

/-- A group ends at its own parenthesis. -/
theorem group?_shields (h : Shields (· == ')') t) (rest : Text) :
    group? ('(' :: (t ++ ')' :: rest)) = some (t, rest) := by
  have hclose := closeGroup?_hidden h.hidden [] (')' :: rest)
  rw [h.closed] at hclose
  simpa [group?, openGroup?, closeGroup?, Nesting.isTop] using hclose

variable {sep : Char → Bool}

theorem splitTop_of_hidden (h : hides sep {} t = true) : splitTop sep t = [t] := by
  have hsplit := splitTopFrom_hidden h [] [] []
  rw [List.append_nil] at hsplit
  rw [splitTop, hsplit]
  simp [splitTopFrom]

theorem splitTop_of_shields (h : Shields sep t) : splitTop sep t = [t] :=
  splitTop_of_hidden h.hidden

/-- A separator behind a text that shields it ends the first piece. -/
theorem splitTop_append_cons (h : Shields sep t) {c : Char} (hc : sep c = true)
    (hn : Nesting.step {} c = {}) (u : Text) :
    splitTop sep (t ++ c :: u) = t :: splitTop sep u := by
  rw [splitTop, splitTopFrom_hidden h.hidden, h.closed, splitTopFrom, hc, hn,
    splitTopFrom_done]
  simp [Nesting.isTop, splitTop]

/-- A list is split into its pieces. -/
theorem splitTop_join {ts : List Text} (hne : ts ≠ []) (h : ∀ t ∈ ts, Shields (· == ',') t) :
    splitTop (· == ',') (join [','] ts) = ts := by
  induction ts with
  | nil => exact absurd rfl hne
  | cons t ts ih =>
    have ht := h t List.mem_cons_self
    cases ts with
    | nil => rw [join_singleton, splitTop_of_shields ht]
    | cons u ts =>
      rw [join_cons_cons, List.singleton_append, splitTop_append_cons ht rfl rfl,
        ih (List.cons_ne_nil _ _) fun w hw => h w (List.mem_cons_of_mem t hw)]

/-- What holds no separator is part of the last piece. -/
theorem splitTop_append {v : Text} (hv : ∀ c ∈ v, sep c = false) (t : Text) :
    ∃ init last, splitTop sep t = init ++ [last] ∧ splitTop sep (t ++ v) = init ++ [last ++ v] := by
  have hlast (n : Nesting) (piece : Text) :
      splitTopFrom sep n [] piece v = [piece.reverse ++ v] := by
    induction v generalizing n piece with
    | nil => simp [splitTopFrom]
    | cons c v ih =>
      rw [splitTopFrom, hv c List.mem_cons_self, Bool.and_false, if_neg Bool.false_ne_true,
        ih fun d hd => hv d (List.mem_cons_of_mem c hd)]
      simp
  have hsplit (n : Nesting) (piece : Text) : ∃ init last,
      splitTopFrom sep n [] piece t = init ++ [last] ∧
        splitTopFrom sep n [] piece (t ++ v) = init ++ [last ++ v] := by
    induction t generalizing n piece with
    | nil => exact ⟨[], piece.reverse, rfl, hlast n piece⟩
    | cons c t ih =>
      rw [List.cons_append, splitTopFrom, splitTopFrom]
      split
      · obtain ⟨init, last, h₁, h₂⟩ := ih (n.step c) []
        rw [splitTopFrom_done, h₁, splitTopFrom_done, h₂]
        exact ⟨piece.reverse :: init, last, rfl, rfl⟩
      · exact ih (n.step c) (c :: piece)
  exact hsplit {} []

/-- Blanks before a list are part of its first piece. -/
theorem splitTop_blank_append {v : Text} (hv : Shields sep v) (t : Text) :
    ∃ first rest, splitTop sep t = first :: rest ∧
      splitTop sep (v ++ t) = (v ++ first) :: rest := by
  have hsplit (n : Nesting) (t : Text) : ∃ first rest, ∀ piece,
      splitTopFrom sep n [] piece t = (piece.reverse ++ first) :: rest := by
    induction t generalizing n with
    | nil => exact ⟨[], [], fun piece => by simp [splitTopFrom]⟩
    | cons c t ih =>
      simp only [splitTopFrom]
      split
      · refine ⟨[], splitTopFrom sep (n.step c) [] [] t, fun piece => ?_⟩
        rw [splitTopFrom_done]
        simp
      · obtain ⟨first, rest, h⟩ := ih (n.step c)
        refine ⟨c :: first, rest, fun piece => ?_⟩
        rw [h]
        simp
  obtain ⟨first, rest, h⟩ := hsplit {} t
  refine ⟨first, rest, h [], ?_⟩
  rw [splitTop, splitTopFrom_hidden hv.hidden, hv.closed, h]
  simp

/-- The items of a list are its pieces without the blanks around them. -/
theorem items_join {ts : List Text} (h : ∀ t ∈ ts, Shields (· == ',') t) :
    items (join [','] ts) = (ts.map trim).filter (!·.isEmpty) := by
  cases ts with
  | nil => rfl
  | cons t ts => rw [items, splitTop_join (List.cons_ne_nil _ _) h]

theorem comma_not_isBlank {c : Char} (h : Unicode.isBlank c = true) : (c == ',') = false := by
  rw [beq_eq_false_iff_ne]
  rintro rfl
  cases h

theorem Shields.comma_of_blank (h : isBlank v = true) : Shields (· == ',') v :=
  of_blank (fun _ => comma_not_isBlank) h

/-- Blanks behind a list are in no item. -/
theorem items_append_blank (h : isBlank v = true) (t : Text) : items (t ++ v) = items t := by
  obtain ⟨init, last, hinit, hlast⟩ :=
    splitTop_append (fun c hc => comma_not_isBlank (List.all_eq_true.mp h c hc)) t
  rw [items, hlast, items, hinit, List.map_append, List.map_append, List.map_singleton,
    List.map_singleton, trim_append_blank h]

/-- Blanks before a list are in no item. -/
theorem items_blank_append (h : isBlank v = true) (t : Text) : items (v ++ t) = items t := by
  obtain ⟨first, rest, hfirst, hrest⟩ :=
    splitTop_blank_append (.comma_of_blank h) t
  rw [items, hrest, items, hfirst, List.map_cons, List.map_cons, trim_blank_append h]

theorem items_trimStart (t : Text) : items (trimStart t) = items t := by
  have hblank : isBlank (t.takeWhile Unicode.isBlank) = true :=
    List.all_eq_true.mpr fun _ hc => List.mem_takeWhile_imp hc
  have h := items_blank_append hblank (trimStart t)
  rwa [trimStart, List.takeWhile_append_dropWhile, eq_comm] at h

/-! ### Tokens -/

theorem step_of_isBlank {c : Char} (h : Unicode.isBlank c = true) : Nesting.step {} c = {} :=
  Unicode.of_isBlank (p := fun c => Nesting.step {} c = {}) (by decide) h

theorem tokens_blank_append (h : isBlank v = true) (t : Text) : tokens (v ++ t) = tokens t := by
  induction v with
  | nil => rfl
  | cons c v ih =>
    obtain ⟨hc, hv⟩ := (Bool.and_eq_true _ _).mp h
    have hsplit : splitTop Unicode.isBlank (c :: (v ++ t)) =
        [] :: splitTop Unicode.isBlank (v ++ t) :=
      splitTop_append_cons Shields.nil hc (step_of_isBlank hc) (v ++ t)
    rw [List.cons_append, ← ih hv, tokens, hsplit]
    rfl

/-- A text has the tokens, with blanks before each of them. -/
inductive Spaced : List Text → Text → Prop
  | nil : Spaced [] []
  | cons {gap token rest : Text} {tokens : List Text} (hgap : gap ≠ [])
      (hblank : isBlank gap = true) (h : Spaced tokens rest) :
      Spaced (token :: tokens) (gap ++ (token ++ rest))

namespace Spaced

theorem of_flatMap (ts : List Text) : Spaced ts (ts.flatMap (' ' :: ·)) := by
  induction ts with
  | nil => exact nil
  | cons t ts ih => exact cons (List.cons_ne_nil ' ' []) rfl ih

/-- Tokens with blanks between are told apart. -/
theorem tokens_eq {ts : List Text} (h : Spaced ts t)
    (hts : ∀ t ∈ ts, t ≠ [] ∧ Shields Unicode.isBlank t) : tokens t = ts := by
  induction h with
  | nil => rfl
  | @cons gap token rest ts _ hblank h ih =>
    obtain ⟨hne, htoken⟩ := hts token List.mem_cons_self
    have hrest := ih fun u hu => hts u (List.mem_cons_of_mem token hu)
    have hfilter (pieces : List Text) : (token :: pieces).filter (!·.isEmpty) =
        token :: pieces.filter (!·.isEmpty) := List.filter_cons_of_pos (by simpa using hne)
    rw [tokens_blank_append hblank]
    cases h with
    | nil =>
      rw [List.append_nil, tokens, splitTop_of_shields htoken, hfilter]
      rfl
    | @cons gap next more _ hgap hblank _ =>
      obtain ⟨c, gap, rfl⟩ := List.exists_cons_of_ne_nil hgap
      obtain ⟨hc, -⟩ := (Bool.and_eq_true _ _).mp hblank
      have hblanks : isBlank [c] = true := (Bool.and_eq_true _ _).mpr ⟨hc, rfl⟩
      have hskip : tokens (c :: (gap ++ (next ++ more))) = tokens (gap ++ (next ++ more)) :=
        tokens_blank_append hblanks _
      rw [List.cons_append, hskip] at hrest
      rw [List.cons_append, tokens, splitTop_append_cons htoken hc (step_of_isBlank hc), hfilter,
        ← hrest]
      rfl

theorem shields {ts : List Text} (h : Spaced ts t) {p : Char → Bool}
    (hblank : ∀ c, Unicode.isBlank c = true → p c = false) (hts : ∀ t ∈ ts, Shields p t) :
    Shields p t := by
  induction h with
  | nil => exact Shields.nil
  | @cons gap token rest ts _ hgap _ ih =>
    have hrest := ih fun u hu => hts u (List.mem_cons_of_mem token hu)
    exact (Shields.of_blank hblank hgap).append ((hts token List.mem_cons_self).append hrest)

theorem endsSolid {ts : List Text} (h : Spaced ts t) (hne : ts ≠ [])
    (hts : ∀ t ∈ ts, endsSolid t = true) : endsSolid t = true := by
  induction h with
  | nil => exact absurd rfl hne
  | @cons gap token rest ts _ _ h ih =>
    refine endsSolid_append gap ?_
    cases h with
    | nil =>
      rw [List.append_nil]
      exact hts token List.mem_cons_self
    | cons _ _ _ =>
      exact endsSolid_append token
        (ih (List.cons_ne_nil _ _) fun u hu => hts u (List.mem_cons_of_mem token hu))

end Spaced

theorem tokens_flatMap {ts : List Text} (h : ∀ t ∈ ts, t ≠ [] ∧ Shields Unicode.isBlank t) :
    tokens (ts.flatMap (' ' :: ·)) = ts :=
  (Spaced.of_flatMap ts).tokens_eq h

end Text

end SqlDump
