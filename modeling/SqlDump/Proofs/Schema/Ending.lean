import SqlDump.Proofs.Text.Items
import SqlDump.Schema.Alter

/-!
# What stands behind a key

A statement is cut off before its semicolons, so that a key at its end may lose some of its own. The
readers of keys find the same with blanks and semicolons behind a text as without.

Main statement: `TableItem.parse_of_append`, a key is the same without an ending behind it.
-/

namespace SqlDump

section Relations

variable {α β : Type} {r : α → α → Prop} {s : β → β → Prop} {a b : Option α}

theorem rel_bind {f g : α → Option β} (h : Option.Rel r a b)
    (hfg : ∀ x y, r x y → Option.Rel s (f x) (g y)) : Option.Rel s (a.bind f) (b.bind g) := by
  cases h with
  | none => exact .none
  | some hxy => exact hfg _ _ hxy

theorem rel_map {f g : α → β} (h : Option.Rel r a b) (hfg : ∀ x y, r x y → s (f x) (g y)) :
    Option.Rel s (a.map f) (b.map g) := by
  cases h with
  | none => exact .none
  | some hxy => exact .some (hfg _ _ hxy)

theorem rel_orElse {a' b' : Option α} (h : Option.Rel r a b) (h' : Option.Rel r a' b') :
    Option.Rel r (a <|> a') (b <|> b') := by
  cases h with
  | none => exact h'
  | some hxy => exact .some hxy

theorem eq_of_rel {a b : Option α} (h : Option.Rel Eq a b) : a = b := by
  cases h with
  | none => rfl
  | some hxy => rw [hxy]

end Relations

namespace Text

/-- Blanks and semicolons. -/
def isEnding (c : Char) : Bool := c == ';' || Unicode.isBlank c

/-- What the readers of keys need to know of the characters of an ending. -/
structure IsNeutral (c : Char) : Prop where
  fold : foldCase c = c
  word : isWordChar c = false
  letter : c ∉ ("abcdefghijklmnopqrstuvwxyz_" : Text)
  mark : c ∉ (['$', '.', '(', ')', '\x60', '\x22'] : Text)

theorem isNeutral {c : Char} (h : isEnding c = true) : IsNeutral c := by
  have hall : foldCase c = c ∧ isWordChar c = false ∧
      c ∉ ("abcdefghijklmnopqrstuvwxyz_" : Text) ∧
        c ∉ (['$', '.', '(', ')', '\x60', '\x22'] : Text) := by
    simp only [isEnding, Bool.or_eq_true, beq_iff_eq] at h
    obtain rfl | h := h
    · decide
    · exact Unicode.of_isBlank (p := fun c => foldCase c = c ∧ isWordChar c = false ∧
        c ∉ ("abcdefghijklmnopqrstuvwxyz_" : Text) ∧
          c ∉ (['$', '.', '(', ')', '\x60', '\x22'] : Text)) (by decide +kernel) h
  exact ⟨hall.1, hall.2.1, hall.2.2.1, hall.2.2.2⟩

/-- The second text is the first with an ending behind it. -/
inductive Follows : Text → Text → Prop
  | nil {v : Text} (h : v.all isEnding = true) : Follows [] v
  | cons {t u : Text} (c : Char) (h : Follows t u) : Follows (c :: t) (c :: u)

/-- What is found is the same, with an ending behind what is left. -/
def Leaves {α : Type} (a b : α × Text) : Prop := a.1 = b.1 ∧ Follows a.2 b.2

/-- The reader finds the same with an ending behind the text, up to `r`. -/
def Stable {α : Type} (r : α → α → Prop) (reader : Text → Option α) : Prop :=
  ∀ t u, Follows t u → Option.Rel r (reader t) (reader u)

theorem isEnding_cons {c : Char} {v : Text} (h : (c :: v).all isEnding = true) :
    isEnding c = true ∧ v.all isEnding = true := by
  simpa using h

namespace Follows

variable {t u v : Text}

theorem append (t : Text) (h : v.all isEnding = true) : Follows t (t ++ v) := by
  induction t with
  | nil => exact .nil h
  | cons c t ih => exact .cons c ih

theorem refl (t : Text) : Follows t t := by
  have h := append (v := []) t rfl
  rwa [List.append_nil] at h

theorem exists_append (h : Follows t u) : ∃ v, v.all isEnding = true ∧ u = t ++ v := by
  induction h with
  | @nil v hv => exact ⟨v, hv, rfl⟩
  | cons c _ ih =>
    obtain ⟨v, hv, rfl⟩ := ih
    exact ⟨v, hv, rfl⟩

theorem dropWhile (p : Char → Bool) (h : Follows t u) :
    Follows (t.dropWhile p) (u.dropWhile p) := by
  induction h with
  | @nil v hv =>
    refine .nil (List.all_eq_true.mpr fun c hc => ?_)
    exact List.all_eq_true.mp hv c ((List.dropWhile_suffix p).subset hc)
  | cons c h ih =>
    rw [List.dropWhile_cons, List.dropWhile_cons]
    split
    · exact ih
    · exact .cons c h

/-- A character that stands in no ending is not made by one. -/
theorem takeWhile_eq {p : Char → Bool} (hp : ∀ c, isEnding c = true → p c = false)
    (h : Follows t u) : t.takeWhile p = u.takeWhile p := by
  induction h with
  | @nil v hv =>
    cases v with
    | nil => rfl
    | cons c v => rw [List.takeWhile_cons, hp c (by simp_all)]; rfl
  | cons c h ih => rw [List.takeWhile_cons, List.takeWhile_cons, ih]

theorem trimStart (h : Follows t u) : Follows (trimStart t) (trimStart u) := h.dropWhile _

/-- Blanks are taken off the end of a text and off an ending behind it. -/
theorem trimEnd (h : Follows t u) : Follows (trimEnd t) (trimEnd u) := by
  obtain ⟨v, hv, rfl⟩ := h.exists_append
  obtain ⟨w, hw, ht⟩ := exists_trimEndWhile Unicode.isBlank t
  have hw' : w.all isEnding = true := List.all_eq_true.mpr fun c hc => by
    rw [isEnding, List.all_eq_true.mp hw c hc, Bool.or_true]
  by_cases hblank : isBlank v = true
  · rw [trimEnd_append_blank hblank]
    exact .refl _
  · have hne : Text.trimEnd v ≠ [] := fun hnil => hblank (trimEndWhile_eq_nil_iff.mp hnil)
    have hv' : (Text.trimEnd v).all isEnding = true :=
      List.all_eq_true.mpr fun c hc => List.all_eq_true.mp hv c (mem_of_mem_trimEndWhile hc)
    have hend : Text.trimEnd (t ++ v) = Text.trimEnd t ++ (w ++ Text.trimEnd v) := by
      rw [Text.trimEnd, trimEndWhile_append hne, ← List.append_assoc]
      exact congrArg (· ++ _) ht
    rw [hend]
    exact .append _ (by rw [List.all_append, hw', hv']; rfl)

theorem trim (h : Follows t u) : Follows (trim t) (trim u) := h.trimStart.trimEnd

end Follows

/-! ## Keywords -/

/-- The letters of keywords. -/
def IsKeyword (word : Text) : Prop := ∀ c ∈ word, c ∈ ("abcdefghijklmnopqrstuvwxyz_" : Text)

instance (word : Text) : Decidable (IsKeyword word) := List.decidableBAll _ word

theorem keyword?_stable {word : Text} (hword : IsKeyword word) :
    Stable Follows (keyword? word) := by
  induction word with
  | nil => exact fun t u h => .some h
  | cons a word ih =>
    intro t u h
    cases h with
    | nil hv =>
      cases u with
      | nil => exact .none
      | cons c v =>
        have hc := isNeutral (isEnding_cons hv).1
        have hne : foldCase c ≠ a := by
          rw [hc.fold]
          rintro rfl
          exact hc.letter (hword _ List.mem_cons_self)
        rw [keyword?, keyword?, if_neg hne]
        exact .none
    | cons c htu =>
      rw [keyword?, keyword?]
      split
      · exact ih (fun b hb => hword b (List.mem_cons_of_mem a hb)) _ _ htu
      · exact .none

theorem endsWord_follows {t u : Text} (h : Follows t u) : endsWord t = endsWord u := by
  cases h with
  | cons c _ => rfl
  | nil hv =>
    cases u with
    | nil => rfl
    | cons c v => rw [endsWord, endsWord, (isNeutral (isEnding_cons hv).1).word, Bool.not_false]

theorem wholeKeyword?_stable {word : Text} (hword : IsKeyword word) :
    Stable Follows (wholeKeyword? word) := by
  intro t u h
  have hfilter (x : Option Text) : x.filter endsWord =
      x.bind fun rest => if endsWord rest then some rest else none := by
    cases x <;> rfl
  rw [wholeKeyword?, wholeKeyword?, hfilter, hfilter]
  refine rel_bind (keyword?_stable hword t u h) fun x y hxy => ?_
  rw [endsWord_follows hxy]
  split
  · exact .some hxy
  · exact .none

/-- Blanks matter only where the reader behind them finds something. -/
theorem Stable.blanks {α : Type} {r : α → α → Prop} {reader : Text → Option α}
    (h : Stable r reader) (hnil : reader [] = none) :
    Stable r fun t => (blanks? t).bind reader := by
  intro t u htu
  cases htu with
  | cons c htu =>
    simp only [blanks?]
    split
    · exact h _ _ htu.trimStart
    · exact .none
  | nil hv =>
    cases u with
    | nil => exact .none
    | cons c v =>
      have hrel := h _ _ (Follows.nil (isEnding_cons hv).2).trimStart
      simp only [blanks?, Option.bind_none]
      split
      · rwa [Option.bind_some, ← hnil]
      · exact .none

theorem keywordThen_stable {α : Type} {r : α → α → Prop} {word : Text}
    {reader : Text → Option α} (hword : IsKeyword word) (h : Stable r reader)
    (hnil : reader [] = none) : Stable r fun t => (keywordBlanks? word t).bind reader := by
  intro t u htu
  simp only [keywordBlanks?, Option.bind_assoc]
  exact rel_bind (keyword?_stable hword t u htu) (h.blanks hnil)

theorem keywordPair?_stable {first second : Text} (hfirst : IsKeyword first)
    (hsecond : IsKeyword second) (hne : second ≠ []) :
    Stable Follows (keywordPair? first second) := by
  have hnil : keyword? second [] = none := by
    obtain ⟨c, word, rfl⟩ := List.exists_cons_of_ne_nil hne
    rfl
  exact keywordThen_stable hfirst (keyword?_stable hsecond) hnil

theorem anyKeyword?_stable {words : List Text} (hwords : ∀ word ∈ words, IsKeyword word) :
    Stable Follows (anyKeyword? words) := by
  intro t u h
  induction words with
  | nil => exact .none
  | cons word words ih =>
    have hor (t : Text) : anyKeyword? (word :: words) t =
        (keyword? word t <|> anyKeyword? words t) := by
      rw [anyKeyword?, List.findSome?_cons]
      cases keyword? word t <;> rfl
    rw [hor, hor]
    exact rel_orElse (keyword?_stable (hwords word List.mem_cons_self) t u h)
      (ih fun other hother => hwords other (List.mem_cons_of_mem word hother))

theorem optionally_follows {reader : Text → Option Text} (h : Stable Follows reader) {t u : Text}
    (htu : Follows t u) : Follows (optionally reader t) (optionally reader u) := by
  unfold optionally
  have hrel := h t u htu
  generalize reader t = a at hrel
  generalize reader u = b at hrel
  cases hrel with
  | none => exact htu
  | some hxy => exact hxy

/-! ## Groups -/

theorem openGroup?_stable (q : Quoting) : Stable Follows (openGroup? q) := by
  intro t u h
  induction h generalizing q with
  | @nil v hv =>
    suffices hnone : openGroup? q v = none by
      rw [hnone]
      exact .none
    induction v generalizing q with
    | nil => rfl
    | cons c v ih =>
      obtain ⟨hc, hv⟩ := isEnding_cons hv
      have hne : c ≠ '(' := by
        rintro rfl
        exact (isNeutral hc).mark (by decide)
      rw [openGroup?, if_neg fun h => hne h.1]
      exact ih hv _
  | cons c h ih =>
    rw [openGroup?, openGroup?]
    split
    · exact .some h
    · exact ih _

theorem closeGroup?_stable (n : Nesting) (inner : Text) : Stable Leaves (closeGroup? n inner) := by
  intro t u h
  induction h generalizing n inner with
  | @nil v hv =>
    suffices hnone : closeGroup? n inner v = none by
      rw [hnone]
      exact .none
    induction v generalizing n inner with
    | nil => rfl
    | cons c v ih =>
      obtain ⟨hc, hv⟩ := isEnding_cons hv
      have hne : c ≠ ')' := by
        rintro rfl
        exact (isNeutral hc).mark (by decide)
      rw [closeGroup?, if_neg fun h => hne h.1]
      exact ih hv _ _
  | cons c h ih =>
    rw [closeGroup?, closeGroup?]
    split
    · exact .some ⟨rfl, h⟩
    · exact ih _ _

theorem group?_stable : Stable Leaves group? := fun t u h =>
  rel_bind (openGroup?_stable _ t u h) (closeGroup?_stable _ _)

end Text

/-! ## Names -/

namespace Definition

open Text

section QuotedName

variable {quote : Char} {name : Text} {fallback : Option (Text × Text)}

theorem quotedNameFrom?_plain {c : Char} (hc : c ≠ quote) (t : Text) :
    quotedNameFrom? quote name fallback (c :: t) =
      quotedNameFrom? quote (c :: name) fallback t := by
  cases t with
  | nil => simp only [quotedNameFrom?, ne_eq, hc, not_false_eq_true, if_true]
  | cons d t => rw [quotedNameFrom?, if_pos hc]

theorem quotedNameFrom?_closed {t : Text} (h : ∀ more, t ≠ quote :: more) :
    quotedNameFrom? quote name fallback (quote :: t) =
      if name.isEmpty then none else some (name.reverse, t) := by
  cases t with
  | nil => rw [quotedNameFrom?, if_neg (not_not_intro rfl)]
  | cons d t =>
    have hd : d ≠ quote := fun hd => h t (hd ▸ rfl)
    rw [quotedNameFrom?, if_neg (not_not_intro rfl), if_neg hd]

theorem quotedNameFrom?_doubled (t : Text) :
    quotedNameFrom? quote name fallback (quote :: quote :: t) =
      quotedNameFrom? quote (quote :: name)
        ((if name.isEmpty then none else some (name.reverse, quote :: t)) <|> fallback) t := by
  rw [quotedNameFrom?, if_neg (not_not_intro rfl), if_pos rfl]

end QuotedName

theorem closed_rel (name : Text) {t u : Text} (h : Follows t u) :
    Option.Rel Leaves (if name.isEmpty then none else some (name.reverse, t))
      (if name.isEmpty then none else some (name.reverse, u)) := by
  split
  · exact .none
  · exact .some ⟨rfl, h⟩

theorem quotedNameFrom?_ending {quote : Char} (hquote : isEnding quote = false) (name : Text)
    (fallback : Option (Text × Text)) {v : Text} (hv : v.all isEnding = true) :
    quotedNameFrom? quote name fallback v = fallback := by
  induction v generalizing name with
  | nil => rw [quotedNameFrom?]
  | cons c v ih =>
    obtain ⟨hc, hv⟩ := isEnding_cons hv
    have hne : c ≠ quote := by
      rintro rfl
      rw [hc] at hquote
      cases hquote
    rw [quotedNameFrom?_plain hne, ih _ hv]

theorem quotedNameFrom?_stable {quote : Char} (hquote : isEnding quote = false) (name : Text)
    {a b : Option (Text × Text)} (hab : Option.Rel Leaves a b) {t u : Text} (h : Follows t u) :
    Option.Rel Leaves (quotedNameFrom? quote name a t) (quotedNameFrom? quote name b u) := by
  -- A quote may take the character behind it with it, so the induction is on the length.
  induction hlen : t.length using Nat.strongRecOn generalizing name a b t u with
  | ind n ih =>
    subst hlen
    cases h with
    | nil hv => rwa [quotedNameFrom?_ending hquote name b hv, quotedNameFrom?]
    | @cons t u c h =>
      by_cases hc : c = quote
      · subst hc
        by_cases hdouble : ∃ more, t = c :: more
        · obtain ⟨more, rfl⟩ := hdouble
          cases h with
          | cons _ h =>
            rw [quotedNameFrom?_doubled, quotedNameFrom?_doubled]
            have hlen : more.length < (c :: c :: more).length :=
              Nat.lt_succ_of_lt (Nat.lt_succ_self _)
            exact ih _ hlen _ (rel_orElse (closed_rel name (h.cons c)) hab) h rfl
        · have hfirst : ∀ more, u ≠ c :: more := by
            rintro more rfl
            cases h with
            | nil hv =>
              rw [(isEnding_cons hv).1] at hquote
              cases hquote
            | cons _ _ => exact hdouble ⟨_, rfl⟩
          rw [quotedNameFrom?_closed fun more ht => hdouble ⟨more, ht⟩,
            quotedNameFrom?_closed hfirst]
          exact closed_rel name h
      · rw [quotedNameFrom?_plain hc, quotedNameFrom?_plain hc]
        exact ih _ (Nat.lt_succ_self _) _ hab h rfl

theorem isNameChar_ending {c : Char} (h : isEnding c = true) : isNameChar c = false := by
  have hc := isNeutral h
  rw [isNameChar, hc.word, Bool.false_or, beq_eq_false_iff_ne]
  rintro rfl
  exact hc.mark (by decide)

theorem name?_stable : Stable Leaves name? := by
  have hquote {c : Char} (h : c = '\x60' ∨ c = '\x22') : isEnding c = false := by
    obtain rfl | rfl := h <;> decide
  intro t u h
  cases h with
  | nil hv =>
    cases u with
    | nil => exact .none
    | cons c u =>
      have hc := (isEnding_cons hv).1
      have hne : ¬(c = '\x60' ∨ c = '\x22') := fun h => by
        rw [hquote h] at hc
        cases hc
      rw [name?, name?, if_neg hne, isNameChar_ending hc, if_neg Bool.false_ne_true]
      exact .none
  | @cons t u c h =>
    rw [name?, name?]
    split
    · next hc => exact quotedNameFrom?_stable (hquote hc) [] .none h
    · split
      · have hcons := h.cons c
        exact .some ⟨hcons.takeWhile_eq fun _ => isNameChar_ending, hcons.dropWhile _⟩
      · exact .none

theorem qualifiedName?_stable : Stable Leaves qualifiedName? := by
  intro t u h
  refine rel_bind (name?_stable t u h) fun x y hxy => ?_
  obtain ⟨name, rest⟩ := x
  obtain ⟨name', rest'⟩ := y
  obtain ⟨rfl, hrest⟩ : name = name' ∧ Follows rest rest' := hxy
  have hfound : Option.Rel Leaves (some (name, rest)) (some (name, rest')) := .some ⟨rfl, hrest⟩
  have htrim := hrest.trimStart
  dsimp only
  generalize trimStart rest = r at htrim
  generalize trimStart rest' = r' at htrim
  cases htrim with
  | nil hv =>
    cases r' with
    | nil => exact hfound
    | cons c r' =>
      have hdot : c ≠ '.' := by
        rintro rfl
        exact (isNeutral (isEnding_cons hv).1).mark (by decide)
      change Option.Rel Leaves (some (name, rest)) _
      split
      · next heq => exact absurd (List.cons.inj heq).1 hdot
      · exact hfound
  | @cons r r' c hr =>
    by_cases hc : c = '.'
    · subst hc
      exact name?_stable _ _ hr.trimStart
    · split
      · next heq => exact absurd (List.cons.inj heq).1 hc
      · split
        · next heq => exact absurd (List.cons.inj heq).1 hc
        · exact hfound

theorem afterConstraint?_stable {α : Type} {r : α → α → Prop} {reader : Text → Option α}
    (h : Stable r reader) (hnil : reader [] = none) :
    Stable (fun x y => x.1 = y.1 ∧ r x.2 y.2) (afterConstraint? reader) := by
  intro t u htu
  have hword := keyword?_stable (by decide : IsKeyword "constraint") t u htu
  rw [afterConstraint?, afterConstraint?]
  generalize keyword? "constraint" t = a at hword
  generalize keyword? "constraint" u = b at hword
  cases hword with
  | none => exact rel_map (h t u htu) fun x y hxy => ⟨rfl, hxy⟩
  | some hrest =>
    refine rel_orElse ?_ ?_
    · -- a name is given
      refine rel_bind (name?_stable.blanks rfl _ _ hrest) fun x y hxy => ?_
      refine rel_bind (h.blanks hnil _ _ hxy.2) fun a b hab => .some ⟨?_, hab⟩
      rw [hxy.1]
    · exact rel_map (h.blanks hnil _ _ hrest) fun x y hxy => ⟨rfl, hxy⟩

end Definition

/-! ## Keys -/

open Text

namespace ReferentialAction

theorem begins_follows (a : ReferentialAction) {t u : Text} (h : Follows t u) :
    a.begins t = a.begins u := by
  have hsome {x y : Option Text} (hxy : Option.Rel Follows x y) : x.isSome = y.isSome := by
    cases hxy <;> rfl
  unfold begins
  cases a with
  | restrict => exact hsome (keyword?_stable (by decide) t u h)
  | cascade => exact hsome (keyword?_stable (by decide) t u h)
  | setNull => exact hsome (keywordPair?_stable (by decide) (by decide) (by decide) t u h)
  | setDefault => exact hsome (keywordPair?_stable (by decide) (by decide) (by decide) t u h)
  | noAction => exact hsome (keywordPair?_stable (by decide) (by decide) (by decide) t u h)

theorem read?_follows {t u : Text} (h : Follows t u) : read? t = read? u := by
  have hbegins : (fun a : ReferentialAction => a.begins t) = fun a => a.begins u :=
    funext fun a => a.begins_follows h
  rw [read?, read?, hbegins]

/-- The action of one clause `ON event action`. -/
theorem clause_follows {event : Text} (hevent : IsKeyword event) {t u : Text} (h : Follows t u) :
    ((keywordBlanks? "on" t).bind (keywordBlanks? event)).bind read? =
      ((keywordBlanks? "on" u).bind (keywordBlanks? event)).bind read? := by
  have hread : Stable Eq read? := by
    intro t u h
    rw [read?_follows h]
    cases read? u with
    | none => exact .none
    | some a => exact .some rfl
  have hclause : Stable Eq fun t => (keywordBlanks? event t).bind read? :=
    keywordThen_stable hevent hread rfl
  simp only [Option.bind_assoc]
  exact eq_of_rel (keywordThen_stable (by decide) hclause (by cases event <;> rfl) t u h)

theorem find?_follows {event : Text} (hevent : IsKeyword event) (inWord : Bool) {t u : Text}
    (h : Follows t u) : find? event inWord t = find? event inWord u := by
  induction h generalizing inWord with
  | cons c h ih => rw [find?, find?, ih, clause_follows hevent (h.cons c)]
  | @nil v hv =>
    induction v generalizing inWord with
    | nil => rfl
    | cons c v ih =>
      have hnone : ((keywordBlanks? "on" (c :: v)).bind (keywordBlanks? event)).bind read? = none :=
        (clause_follows hevent (.nil hv)).symm
      have hcons : find? event inWord (c :: v) = find? event (isWordChar c) v := by
        rw [find?, hnone, ite_self]
        rfl
      rw [hcons, ← ih (isEnding_cons hv).2]
      rfl

end ReferentialAction

theorem Reference.parse?_stable : Stable Eq parse? := by
  intro t u h
  refine rel_bind (keywordThen_stable (by decide : IsKeyword "references")
    Definition.qualifiedName?_stable rfl t u h) fun x y hxy => ?_
  obtain ⟨table, rest⟩ := x
  obtain ⟨table', rest'⟩ := y
  obtain ⟨rfl, hrest⟩ : table = table' ∧ Follows rest rest' := hxy
  have hopen : startsWith "(" (trimStart rest) = startsWith "(" (trimStart rest') := by
    have htrim := hrest.trimStart
    generalize trimStart rest = r at htrim
    generalize trimStart rest' = r' at htrim
    have hfirst (c : Char) (r : Text) : startsWith "(" (c :: r) = decide ('(' = c) := by
      by_cases hc : '(' = c
      · subst hc
        rfl
      · simp [startsWith, after?, hc]
    cases htrim with
    | cons c _ => rw [hfirst, hfirst]
    | nil hv =>
      cases r' with
      | nil => rfl
      | cons c r' =>
        have hc : '(' ≠ c := by
          rintro rfl
          exact (isNeutral (isEnding_cons hv).1).mark (by decide)
        rw [hfirst, decide_eq_false hc]
        rfl
  dsimp only
  rw [hopen]
  split
  · exact .none
  · refine rel_bind (group?_stable _ _ hrest.trimStart) fun x y hxy => .some ?_
    obtain ⟨columns, rest⟩ := x
    obtain ⟨columns', rest'⟩ := y
    obtain ⟨rfl, hrest⟩ : columns = columns' ∧ Follows rest rest' := hxy
    dsimp only
    rw [ReferentialAction.find?_follows (by decide) _ hrest,
      ReferentialAction.find?_follows (by decide) _ hrest]

namespace TableItem

/-- Whether the item is a key or an index. -/
def isKey : TableItem → Bool
  | .primaryKey _ | .foreignKey _ | .uniqueKey _ | .index => true
  | _ => false

/-- Both items are no keys, or they are the same. -/
def Alike (a b : TableItem) : Prop := a = b ∨ a.isKey = false ∧ b.isKey = false

theorem keyHead?_stable {kind : Text} (hkind : IsKeyword kind) : Stable Follows (keyHead? kind) :=
  keywordThen_stable hkind (wholeKeyword?_stable (by decide)) rfl

theorem uniqueHead?_stable : Stable Leaves uniqueHead? := by
  intro t u h
  have hkind : Stable Follows fun t => (blanks? t).bind (anyKeyword? ["key", "index"]) :=
    (anyKeyword?_stable (by decide)).blanks rfl
  refine rel_bind (wholeKeyword?_stable (by decide) t u h) fun x y hxy => ?_
  have hrest := optionally_follows hkind hxy
  have hname := Definition.name?_stable.blanks rfl _ _ hrest
  dsimp only at hname ⊢
  generalize optionally _ x = x at hrest hname
  generalize optionally _ y = y at hrest hname
  generalize (blanks? x).bind Definition.name? = a at hname
  generalize (blanks? y).bind Definition.name? = b at hname
  cases hname with
  | none => exact .some ⟨rfl, hrest⟩
  | some hab => exact .some ⟨congrArg some hab.1, hab.2⟩

theorem isIndexHead_follows {t u : Text} (h : Follows t u) : isIndexHead t = isIndexHead u := by
  have hsome (word : Text) (hword : IsKeyword word) :
      (wholeKeyword? word t).isSome = (wholeKeyword? word u).isSome := by
    have hrel := wholeKeyword?_stable hword t u h
    generalize wholeKeyword? word t = a at hrel
    generalize wholeKeyword? word u = b at hrel
    cases hrel <;> rfl
  rw [isIndexHead, isIndexHead]
  simp only [List.any_cons, List.any_nil]
  rw [hsome _ (by decide), hsome _ (by decide), hsome _ (by decide), hsome _ (by decide)]

theorem getD_alike {a b : Option TableItem} (h : a = b) (t u : Text) :
    Alike (a.getD (.verbatim t)) (b.getD (.verbatim u)) := by
  subst h
  cases a with
  | none => exact .inr ⟨rfl, rfl⟩
  | some item => exact .inl rfl

theorem map_group?_follows {t u : Text} (h : Follows t u) (f : Text → TableItem) :
    ((group? t).map fun found => f found.1) = (group? u).map fun found => f found.1 :=
  eq_of_rel (rel_map (group?_stable t u h) fun _ _ hxy => congrArg f hxy.1)

theorem readForeignKey?_follows (table : Text) (name : Option Text) {t u : Text}
    (h : Follows t u) : readForeignKey? table name t = readForeignKey? table name u := by
  refine eq_of_rel (rel_bind (group?_stable t u h) fun x y hxy => ?_)
  refine rel_bind (Reference.parse?_stable _ _ hxy.2.trimStart) fun a b hab => .some ?_
  rw [hxy.1, hab]

theorem parse_follows (table : Text) {t u : Text} (h : Follows (trim t) (trim u)) :
    Alike (parse table t) (parse table u) := by
  unfold parse
  dsimp only
  generalize trim t = t at h
  generalize trim u = u at h
  have hprimary := Definition.afterConstraint?_stable
    (keyHead?_stable (by decide : IsKeyword "primary")) rfl t u h
  generalize Definition.afterConstraint? (keyHead? "primary") t = a at hprimary
  generalize Definition.afterConstraint? (keyHead? "primary") u = b at hprimary
  cases hprimary with
  | @some x y hxy =>
    dsimp only
    rw [hxy.1]
    have hkey := map_group?_follows hxy.2 fun columns => .primaryKey ⟨y.1, nameList columns⟩
    exact getD_alike hkey t u
  | none =>
    have hforeign := Definition.afterConstraint?_stable
      (keyHead?_stable (by decide : IsKeyword "foreign")) rfl t u h
    dsimp only
    generalize Definition.afterConstraint? (keyHead? "foreign") t = a at hforeign
    generalize Definition.afterConstraint? (keyHead? "foreign") u = b at hforeign
    cases hforeign with
    | @some x y hxy =>
      dsimp only
      rw [hxy.1]
      exact getD_alike (readForeignKey?_follows table y.1 hxy.2) t u
    | none =>
      have hunique := Definition.afterConstraint?_stable uniqueHead?_stable rfl t u h
      dsimp only
      generalize Definition.afterConstraint? uniqueHead? t = a at hunique
      generalize Definition.afterConstraint? uniqueHead? u = b at hunique
      cases hunique with
      | @some x y hxy =>
        dsimp only
        rw [hxy.1, hxy.2.1]
        exact getD_alike (map_group?_follows hxy.2.2 fun columns =>
          .uniqueKey ⟨y.2.1 <|> y.1, nameList columns⟩) t u
      | none =>
        dsimp only
        rw [isIndexHead_follows h]
        split
        · exact .inl rfl
        · refine .inr ⟨?_, ?_⟩
          · split
            · rfl
            · split <;> rfl
          · split
            · rfl
            · split <;> rfl

/-- A key is the same without an ending behind it. -/
theorem parse_of_append (table : Text) {t v : Text} (hv : v.all isEnding = true)
    (h : (parse table (t ++ v)).isKey = true) : parse table t = parse table (t ++ v) := by
  obtain heq | ⟨-, hend⟩ := parse_follows table (Follows.append t hv).trim
  · exact heq
  · rw [h] at hend
    cases hend

end TableItem

end SqlDump
