import SqlDump.ColumnType
import SqlDump.Proofs.Text.Balance
import SqlDump.Proofs.Text.LowerCase

/-!
# Types in lower case

The name of a type and the place of its arguments may be looked for in the lower case of the whole
token, blanks taken off, and the arguments be cut from the token as it stands. The lower case may be
more than the letters it is made from, but the parentheses are the same, so that both ways find
the same parts.

Main statements: `exists_group_or_ungrouped`, a token has one group or none; `parseLowered_eq`, the
parts found in lower case are the parts of the token.
-/

namespace SqlDump.ColumnType

open Text

variable {t head rest inner behind : Text}

/-- The parts of a type, with the argument list looked for in the lower case of the whole token and
cut from the token itself. -/
def parseLowered (token : Text) : ColumnType :=
  let small := lower (trim token)
  match group? (small.dropWhile (· != '(')) with
  | some (inner, behind) =>
    { base := join " " (nameWords (trim (small.takeWhile (· != '('))) ++ nameWords behind)
      arguments :=
        match token.dropWhile (· != '(') with
        | [] => some inner
        | tail => (group? tail).map Prod.fst }
  | none => { base := join " " (nameWords small), arguments := none }

/-! ## The first parenthesis -/

theorem takeWhile_open (h : '(' ∉ head) (rest : Text) :
    (head ++ '(' :: rest).takeWhile (· != '(') = head ∧
      (head ++ '(' :: rest).dropWhile (· != '(') = '(' :: rest := by
  refine takeWhile_append_rest (fun c hc => ?_) fun c more hmore => ?_
  · rw [bne_iff_ne]
    rintro rfl
    exact h hc
  · cases hmore
    rfl

theorem dropWhile_unopened (h : '(' ∉ t) : t.dropWhile (· != '(') = [] := by
  rw [List.dropWhile_eq_nil_iff]
  intro c hc
  rw [bne_iff_ne]
  rintro rfl
  exact h hc

/-- A token without an argument list: nothing opens one, or nothing closes it. -/
inductive Ungrouped : Text → Prop
  | unopened {t : Text} (h : '(' ∉ t) : Ungrouped t
  | unclosed {head rest : Text} (h : '(' ∉ head) (hrest : hides (· == ')') {} rest = true) :
      Ungrouped (head ++ '(' :: rest)

theorem Ungrouped.group? (h : Ungrouped t) : group? (t.dropWhile (· != '(')) = none := by
  cases h with
  | unopened h =>
    rw [dropWhile_unopened h]
    rfl
  | unclosed h hrest =>
    rw [(takeWhile_open h _).2]
    exact group?_open_eq_none_iff.mpr hrest

/-- A token has an argument list or none. -/
theorem exists_group_or_ungrouped (t : Text) :
    (∃ head inner behind, t = head ++ '(' :: (inner ++ ')' :: behind) ∧ '(' ∉ head ∧
      Shields (· == ')') inner) ∨ Ungrouped t := by
  by_cases hopen : '(' ∈ t
  · obtain ⟨head, rest, rfl, hhead⟩ := List.eq_append_cons_of_mem hopen
    cases hgroup : Text.group? ('(' :: rest) with
    | none => exact .inr (.unclosed hhead (group?_open_eq_none_iff.mp hgroup))
    | some found =>
      obtain ⟨inner, behind⟩ := found
      obtain ⟨rfl, hinner⟩ := group?_open_eq_some_iff.mp hgroup
      exact .inl ⟨head, inner, behind, rfl, hhead, hinner⟩
  · exact .inr (.unopened hopen)

theorem parse_group (hhead : '(' ∉ head) (hinner : Shields (· == ')') inner) (behind : Text) :
    parse (head ++ '(' :: (inner ++ ')' :: behind)) =
      { base := join " " (nameWords (lower head) ++ nameWords (lower behind))
        arguments := some inner } := by
  obtain ⟨htake, hdrop⟩ := takeWhile_open hhead (inner ++ ')' :: behind)
  simp only [parse, htake, hdrop, group?_shields hinner]

theorem Ungrouped.parse (h : Ungrouped t) :
    ColumnType.parse t = { base := join " " (nameWords (lower t)), arguments := none } := by
  simp only [ColumnType.parse, h.group?]

/-! ## Blanks around a token -/

section Blanks

variable {v lead tail : Text}

theorem nameWords_lower_blank_before (hv : isBlank v = true) (t : Text) :
    nameWords (lower (v ++ t)) = nameWords (lower t) := by
  rw [lower, Unicode.lowercase_blank_append hv, nameWords, words_blank_before hv]
  rfl

theorem nameWords_lower_blank_behind (hv : isBlank v = true) (t : Text) :
    nameWords (lower (t ++ v)) = nameWords (lower t) := by
  rw [lower, Unicode.lowercase_append_blank hv, nameWords, words_blank_behind hv]
  rfl

theorem nameWords_trim (t : Text) : nameWords (trim t) = nameWords t := by
  obtain ⟨lead, tail, hlead, htail, ht⟩ := exists_trim t
  have hwords : words t = words (lead ++ (trim t ++ tail)) := congrArg words ht
  rw [words_blank_before hlead, words_blank_behind htail] at hwords
  rw [nameWords, nameWords, hwords]

theorem not_mem_of_isBlank {c : Char} (hc : Unicode.isBlank c = false) (hv : isBlank v = true) :
    c ∉ v := by
  intro hmem
  rw [List.all_eq_true.mp hv c hmem] at hc
  cases hc

theorem hides_of_isBlank (hv : isBlank v = true) (n : Nesting) : hides (· == ')') n v = true := by
  induction v generalizing n with
  | nil => rfl
  | cons c v ih =>
    obtain ⟨hc, hv⟩ := (Bool.and_eq_true _ _).mp hv
    have hclose : (c == ')') = false := by
      rw [beq_eq_false_iff_ne]
      rintro rfl
      cases hc
    rw [hides, hclose, Bool.and_false, ih hv]
    rfl

theorem Ungrouped.around (h : Ungrouped t) (hlead : isBlank lead = true)
    (htail : isBlank tail = true) : Ungrouped (lead ++ (t ++ tail)) := by
  have hnone {v : Text} (hv : isBlank v = true) : '(' ∉ v := not_mem_of_isBlank (by decide) hv
  cases h with
  | unopened h => exact .unopened (by simp [h, hnone hlead, hnone htail])
  | @unclosed head rest h hrest =>
    have htext : lead ++ (head ++ '(' :: rest ++ tail) =
        (lead ++ head) ++ '(' :: (rest ++ tail) := by
      simp
    rw [htext]
    refine .unclosed (by simp [h, hnone hlead]) ?_
    rw [hides_append, hrest, hides_of_isBlank htail]
    rfl

end Blanks

/-! ## Lower-case letters -/

theorem lower_append_open (head rest : Text) :
    lower (head ++ '(' :: rest) = lower head ++ '(' :: lower rest :=
  Unicode.lowercase_append_border ⟨by decide +kernel, by decide +kernel⟩ head rest

theorem lower_append_close (inner behind : Text) :
    lower (inner ++ ')' :: behind) = lower inner ++ ')' :: lower behind :=
  Unicode.lowercase_append_border ⟨by decide +kernel, by decide +kernel⟩ inner behind

theorem scan_lower (t : Text) :
    hides (· == ')') {} (lower t) = hides (· == ')') {} t ∧
      Nesting.after {} (lower t) = Nesting.after {} t := by
  refine scan_lowercase (Nesting.marked_after []) (fun c hc => ?_) t
  rw [beq_eq_false_iff_ne]
  rintro rfl
  cases hc

theorem shields_lower (h : Shields (· == ')') t) : Shields (· == ')') (lower t) := by
  obtain ⟨hhides, hafter⟩ := scan_lower t
  exact ⟨hhides.trans h.hidden, hafter.trans h.closed⟩

theorem not_mem_lower (h : '(' ∉ t) : '(' ∉ lower t :=
  fun hmem => h (mem_of_mem_lower rfl hmem)

theorem Ungrouped.lower (h : Ungrouped t) : Ungrouped (lower t) := by
  cases h with
  | unopened h => exact .unopened (not_mem_lower h)
  | unclosed h hrest =>
    rw [lower_append_open]
    exact .unclosed (not_mem_lower h) ((scan_lower _).1.trans hrest)

/-- The parts found in lower case are the parts of the token. -/
theorem parseLowered_eq (token : Text) : parseLowered token = parse token := by
  obtain ⟨lead, tail, hlead, htail, htoken⟩ := exists_trim token
  rcases exists_group_or_ungrouped (trim token) with
    ⟨head, inner, behind, htrim, hhead, hinner⟩ | hungrouped
  · have hgroup : token = (lead ++ head) ++ '(' :: (inner ++ ')' :: (behind ++ tail)) := by
      rw [htoken, htrim]
      simp
    have hfirst : '(' ∉ lead ++ head := by
      simp [hhead, not_mem_of_isBlank (c := '(') (by decide) hlead]
    have hsmall : lower (trim token) =
        lower head ++ '(' :: (lower inner ++ ')' :: lower behind) := by
      rw [htrim, lower_append_open, lower_append_close]
    obtain ⟨htake, hdrop⟩ :=
      takeWhile_open (not_mem_lower hhead) (lower inner ++ ')' :: lower behind)
    have hparse : parse token = _ := (congrArg parse hgroup).trans (parse_group hfirst hinner _)
    rw [hparse, nameWords_lower_blank_before hlead, nameWords_lower_blank_behind htail]
    have htail : token.dropWhile (· != '(') = '(' :: (inner ++ ')' :: (behind ++ tail)) := by
      rw [hgroup]
      exact (takeWhile_open hfirst _).2
    simp only [parseLowered, hsmall, htake, hdrop, htail, group?_shields (shields_lower hinner),
      group?_shields hinner, nameWords_trim, Option.map_some]
  · have hparse : parse token = _ :=
      (congrArg parse htoken).trans (hungrouped.around hlead htail).parse
    rw [hparse, nameWords_lower_blank_before hlead, nameWords_lower_blank_behind htail]
    simp only [parseLowered, hungrouped.lower.group?]

end SqlDump.ColumnType
