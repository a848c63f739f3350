import Mathlib.Data.List.Basic
import SqlDump.Document
import SqlDump.Proofs.Text.Balance
import SqlDump.Proofs.Text.Names

/-!
# The opening of an INSERT

What stands before the rows of an `INSERT` is read in the same way whatever the rows are. Each
reader of the opening has decided what it reads once it leaves a character unread, so that any text
may follow.

Main statements: `Insert.opening?_append`, the opening of a statement does not depend on its rows;
`Statement.parse_opening`, a statement with such an opening is its rows.
-/

namespace SqlDump

namespace Text

variable {t u r word other : Text}

/-- A reader that reads the same whatever stands behind what it leaves unread. -/
def Decided (reader : Text → Option Text) : Prop :=
  ∀ t r u, reader t = some r → r ≠ [] → reader (t ++ u) = some (r ++ u)

theorem keyword?_decided (h : keyword? word t = some r) (u : Text) :
    keyword? word (t ++ u) = some (r ++ u) := by
  induction word generalizing t with
  | nil =>
    simp only [keyword?, Option.some.injEq] at h ⊢
    rw [h]
  | cons a word ih =>
    cases t with
    | nil => cases h
    | cons c t =>
      simp only [keyword?, List.cons_append, Option.ite_none_right_eq_some] at h ⊢
      exact ⟨h.1, ih h.2⟩

/-- Two keywords of which neither begins with the other do not begin the same text. -/
def Apart (word other : Text) : Prop := ¬word <+: other ∧ ¬other <+: word

instance : Decidable (Apart word other) := inferInstanceAs (Decidable (_ ∧ _))

theorem keyword?_apart (h : keyword? word t = some r) (hne : Apart word other) (u : Text) :
    keyword? other (t ++ u) = none := by
  induction word generalizing other t with
  | nil => exact absurd List.nil_prefix hne.1
  | cons a word ih =>
    cases other with
    | nil => exact absurd List.nil_prefix hne.2
    | cons b other =>
      cases t with
      | nil => cases h
      | cons c t =>
        simp only [keyword?, Option.ite_none_right_eq_some] at h
        obtain ⟨rfl, hrest⟩ := h
        rw [List.cons_append, keyword?]
        by_cases hb : foldCase c = b
        · subst hb
          rw [if_pos rfl]
          refine ih hrest ⟨fun hp => hne.1 ?_, fun hp => hne.2 ?_⟩
          · exact (List.prefix_cons_inj _).mpr hp
          · exact (List.prefix_cons_inj _).mpr hp
        · rw [if_neg hb]

theorem trimStart_append (h : trimStart t ≠ []) (u : Text) :
    trimStart (t ++ u) = trimStart t ++ u := by
  unfold trimStart at h ⊢
  rw [List.dropWhile_append, if_neg (by simpa using h)]

theorem blanks?_decided : Decided blanks? := by
  intro t r u h hr
  cases t with
  | nil => cases h
  | cons c t =>
    simp only [blanks?, Option.ite_none_right_eq_some, Option.some.injEq] at h
    obtain ⟨hc, rfl⟩ := h
    rw [List.cons_append, blanks?, if_pos hc, trimStart_append hr]

theorem keywordBlanks?_decided (word : Text) : Decided (keywordBlanks? word) := by
  intro t r u h hr
  obtain ⟨t', hword, hblanks⟩ := Option.bind_eq_some_iff.mp h
  rw [keywordBlanks?, keyword?_decided hword, Option.bind_some, blanks?_decided t' r u hblanks hr]

/-- A text that is left empty has no keyword. -/
theorem ne_nil_of_keywordBlanks? (h : keywordBlanks? word t = some r) : t ≠ [] := by
  rintro rfl
  obtain ⟨t', hword, hblanks⟩ := Option.bind_eq_some_iff.mp h
  cases word with
  | nil =>
    simp only [keyword?, Option.some.injEq] at hword
    rw [← hword] at hblanks
    cases hblanks
  | cons a word => cases hword

theorem keywordBlanks?_apart (h : keywordBlanks? word t = some r) (hne : Apart word other)
    (u : Text) : keywordBlanks? other (t ++ u) = none := by
  obtain ⟨t', hword, -⟩ := Option.bind_eq_some_iff.mp h
  rw [keywordBlanks?, keyword?_apart hword hne, Option.bind_none]

theorem anyKeyword?_decided {words : List Text} (hwords : words.Pairwise Apart)
    (h : anyKeyword? words t = some r) (u : Text) : anyKeyword? words (t ++ u) = some (r ++ u) := by
  unfold anyKeyword? at h ⊢
  induction words with
  | nil => cases h
  | cons word words ih =>
    obtain ⟨hword, hrest⟩ := List.pairwise_cons.mp hwords
    rw [List.findSome?_cons] at h ⊢
    cases hk : keyword? word t with
    | some t' =>
      simp only [hk, Option.some.injEq] at h
      rw [keyword?_decided hk, h]
    | none =>
      simp only [hk] at h
      obtain ⟨other, hother, hkeyword⟩ := List.exists_of_findSome?_eq_some h
      obtain ⟨h₁, h₂⟩ := hword other hother
      rw [keyword?_apart hkeyword ⟨h₂, h₁⟩]
      exact ih hrest h

theorem anyKeyword?_apart {words : List Text} (h : keyword? word t = some r)
    (hne : ∀ other ∈ words, Apart word other) (u : Text) : anyKeyword? words (t ++ u) = none := by
  refine List.findSome?_eq_none_iff.mpr fun other hother => ?_
  exact keyword?_apart h (hne other hother) u

/-- An optional part that is there is read, and one that is not is not made by what follows. -/
theorem optionally_append {reader : Text → Option Text} (hreader : Decided reader)
    (hr : optionally reader t ≠ []) (hnone : reader t = none → reader (t ++ u) = none) :
    optionally reader (t ++ u) = optionally reader t ++ u := by
  unfold optionally at hr ⊢
  cases h : reader t with
  | none => rw [hnone h, Option.getD_none, Option.getD_none]
  | some r =>
    rw [h, Option.getD_some] at hr
    rw [hreader t r u h hr, Option.getD_some, Option.getD_some]

theorem after?_append_none (h : after? word t = none) (hlen : word.length ≤ t.length) (u : Text) :
    after? word (t ++ u) = none := by
  induction word generalizing t with
  | nil => cases h
  | cons a word ih =>
    cases t with
    | nil => exact absurd hlen (Nat.not_succ_le_zero _)
    | cons c t =>
      rw [List.cons_append, after?]
      rw [after?] at h
      split
      · next hc =>
        rw [if_pos hc] at h
        exact ih h (Nat.le_of_succ_le_succ hlen)
      · rfl

theorem length_le_of_afterFirst? (h : afterFirst? word t = some r) : word.length ≤ t.length := by
  have hafter {t : Text} (h : after? word t = some r) : word.length ≤ t.length := by
    rw [eq_append_of_after? h, List.length_append]
    exact Nat.le_add_right _ _
  induction t with
  | nil => exact hafter h
  | cons c t ih =>
    rw [afterFirst?] at h
    split at h
    · next hm =>
      obtain rfl := Option.some.inj h
      exact hafter hm
    · exact Nat.le_succ_of_le (ih h)

/-- The first occurrence of a mark stays the first. -/
theorem afterFirst?_append (h : afterFirst? word t = some r) (u : Text) :
    afterFirst? word (t ++ u) = some (r ++ u) := by
  induction t with
  | nil =>
    rw [afterFirst?] at h
    obtain ⟨rfl, rfl⟩ := List.append_eq_nil_iff.mp (eq_append_of_after? h).symm
    cases u <;> simp [afterFirst?, after?]
  | cons c t ih =>
    rw [afterFirst?] at h
    rw [List.cons_append, afterFirst?]
    split at h
    · next hm =>
      obtain rfl := Option.some.inj h
      rw [← List.cons_append, eq_append_of_after? hm, List.append_assoc, after?_append]
    · next hm =>
      have hlen := Nat.le_succ_of_le (length_le_of_afterFirst? h)
      rw [← List.cons_append, after?_append_none hm hlen]
      exact ih h

/-- What a group in parentheses holds does not depend on what follows it. -/
theorem group?_append {inner : Text} (h : group? t = some (inner, r)) (u : Text) :
    group? (t ++ u) = some (inner, r ++ u) := by
  have hopen {q : Quoting} {t r : Text} (h : openGroup? q t = some r) :
      openGroup? q (t ++ u) = some (r ++ u) := by
    induction t generalizing q with
    | nil => cases h
    | cons c t ih =>
      rw [List.cons_append, openGroup?]
      rw [openGroup?] at h
      split
      · next hc =>
        rw [if_pos hc] at h
        rw [Option.some.inj h]
      · next hc =>
        rw [if_neg hc] at h
        exact ih h
  obtain ⟨behind, hbehind, hgroup⟩ := Option.bind_eq_some_iff.mp h
  obtain ⟨rfl, hinner⟩ := group?_open_eq_some_iff.mp hgroup
  rw [group?, hopen hbehind, Option.bind_some, List.append_assoc, List.cons_append]
  exact group?_shields hinner (r ++ u)

end Text

namespace Identifier

open Text

variable {t u r name : Text}

theorem readQuoted_append {quote : Char} {start : Text}
    (h : readQuoted quote start t = some (name, r)) (hr : r ≠ []) (u : Text) :
    readQuoted quote start (t ++ u) = some (name, r ++ u) := by
  fun_induction readQuoted quote start t with
  | case1 => cases h
  | case2 start =>
    obtain ⟨-, rfl⟩ := Prod.mk.inj (Option.some.inj h)
    exact absurd rfl hr
  | case3 => cases h
  | case4 start rest ih =>
    simp only [List.cons_append, readQuoted, if_true]
    exact ih h
  | case5 start d rest hd =>
    obtain ⟨rfl, rfl⟩ := Prod.mk.inj (Option.some.inj h)
    simp [readQuoted, hd]
  | case6 start c d rest hc ih =>
    simp only [List.cons_append, readQuoted, if_neg hc]
    exact ih h

theorem read_append (h : read t = some (name, r)) (hr : r ≠ []) (u : Text) :
    read (t ++ u) = some (name, r ++ u) := by
  cases t with
  | nil => cases h
  | cons c t =>
    rw [List.cons_append, read]
    rw [read] at h
    split
    · next hc =>
      rw [if_pos hc] at h
      exact readQuoted_append h hr u
    next hc =>
    rw [if_neg hc] at h
    split
    · next hd =>
      rw [if_pos hd] at h
      cases h
    next hd =>
    rw [if_neg hd] at h
    obtain ⟨rfl, rfl⟩ := Prod.mk.inj (Option.some.inj h)
    have hdrop : ((c :: t).dropWhile fun d => !isDelimiter d).isEmpty = false := by simpa using hr
    have hlen : ¬((c :: t).takeWhile fun d => !isDelimiter d).length = (c :: t).length := by
      intro hlen
      have happend := congrArg List.length
        (List.takeWhile_append_dropWhile (p := fun d => !isDelimiter d) (l := c :: t))
      rw [List.length_append, hlen] at happend
      exact hr (List.length_eq_zero_iff.mp (by omega))
    rw [← List.cons_append, List.takeWhile_append, List.dropWhile_append, if_neg hlen, hdrop]
    rfl

/-- A name and the names before it do not depend on what follows them. -/
theorem readQualified_append (h : readQualified t = (some name, r)) (hr : trimStart r ≠ [])
    (u : Text) : readQualified (t ++ u) = (some name, r ++ u) := by
  have ne_nil {t : Text} (h : trimStart t ≠ []) : t ≠ [] := by
    rintro rfl
    exact h rfl
  induction t using readQualified.induct with
  | case1 t hread =>
    rw [readQualified_of_none hread] at h
    cases h
  | case2 t first rest hread more hdot ih =>
    rw [readQualified_dot hread hdot] at h
    have hrest : trimStart rest ≠ [] := by simp [hdot]
    have hmore : trimStart more ≠ [] := by
      intro hnil
      rw [hnil, readQualified_of_none rfl] at h
      cases h
    have hdot' : trimStart (rest ++ u) = '.' :: (more ++ u) := by
      rw [trimStart_append hrest, hdot, List.cons_append]
    rw [readQualified_dot (read_append hread (ne_nil hrest) u) hdot', trimStart_append hmore]
    exact ih h
  | case3 t last rest hread hdot =>
    rw [readQualified_last hread hdot] at h
    obtain ⟨hname, rfl⟩ := Prod.mk.inj h
    obtain rfl := Option.some.inj hname
    refine readQualified_last (read_append hread (ne_nil hr) u) fun more heq => ?_
    rw [trimStart_append hr] at heq
    obtain ⟨c, tail, hc⟩ := List.exists_cons_of_ne_nil hr
    rw [hc, List.cons_append] at heq
    obtain ⟨rfl, -⟩ := List.cons.inj heq
    exact absurd hc (hdot tail)

end Identifier

namespace Statement

open Text

variable {t u r : Text}

/-- The equation of the body, without what says that it ends. -/
theorem bodyOf_eq (t : Text) :
    bodyOf t = match trimStart t with
      | '-' :: '-' :: rest =>
        match rest.dropWhile (· != '\n') with
        | [] => []
        | _ :: more => bodyOf more
      | '/' :: '*' :: rest =>
        if startsWith "!" rest then '/' :: '*' :: rest
        else
          match afterFirst? "*/" rest with
          | none => []
          | some more => bodyOf more
      | body => body := by
  rw [bodyOf]
  split
  · next rest h =>
    rw [h]
    split
    · next hd => simp only [hd]
    · next hd => simp only [hd]
  · next rest h =>
    rw [h]
    split
    · next hc => simp only [hc, if_true]
    next hc =>
    split
    · next ha => simp only [hc, ha, Bool.false_eq_true, if_false]
    · next ha => simp only [hc, ha, Bool.false_eq_true, if_false]
  · next hdashes hcomment =>
    split
    · next heq => exact absurd heq (hdashes _)
    · next heq => exact absurd heq (hcomment _)
    · rfl

/-- The comments before a statement end where they do, whatever the statement. -/
theorem bodyOf_append {c : Char} (h : bodyOf t = c :: r) (hd : c ≠ '-') (hs : c ≠ '/') (u : Text) :
    bodyOf (t ++ u) = c :: (r ++ u) := by
  induction t using bodyOf.induct with
  | case1 t rest ht hrest =>
    rw [bodyOf_eq, ht] at h
    simp only [hrest] at h
    cases h
  | case2 t rest ht d more hrest ih =>
    rw [bodyOf_eq, ht] at h
    simp only [hrest] at h
    have ht' : trimStart (t ++ u) = '-' :: '-' :: (rest ++ u) := by
      rw [trimStart_append (by simp [ht]), ht]
      rfl
    have hrest' : (rest ++ u).dropWhile (· != '\n') = d :: (more ++ u) := by
      rw [List.dropWhile_append, if_neg (by simp [hrest]), hrest]
      rfl
    rw [bodyOf_eq, ht']
    simp only [hrest']
    exact ih h
  | case3 t rest ht hcond =>
    rw [bodyOf_eq, ht] at h
    simp only [if_pos hcond] at h
    exact absurd (List.cons.inj h).1.symm hs
  | case4 t rest ht hplain hrest =>
    rw [bodyOf_eq, ht] at h
    simp only [if_neg hplain, hrest] at h
    cases h
  | case5 t rest ht hplain more hrest ih =>
    rw [bodyOf_eq, ht] at h
    simp only [if_neg hplain, hrest] at h
    have ht' : trimStart (t ++ u) = '/' :: '*' :: (rest ++ u) := by
      rw [trimStart_append (by simp [ht]), ht]
      rfl
    have hplain' : ¬startsWith "!" (rest ++ u) = true := by
      have hlen := length_le_of_afterFirst? hrest
      have hnone : after? "!" rest = none := by simpa [startsWith] using hplain
      rw [startsWith, after?_append_none hnone (Nat.le_of_succ_le hlen)]
      exact Bool.false_ne_true
    rw [bodyOf_eq, ht']
    simp only [if_neg hplain', afterFirst?_append hrest]
    exact ih h
  | case6 t hdashes hcomment =>
    have ht : bodyOf t = trimStart t := by
      rw [bodyOf_eq]
      split
      · next heq => exact absurd heq (hdashes _)
      · next heq => exact absurd heq (hcomment _)
      · rfl
    rw [ht] at h
    rw [bodyOf_eq, trimStart_append (by simp [h]), h, List.cons_append]
    split
    · next heq => exact absurd (List.cons.inj heq).1 hd
    · next heq => exact absurd (List.cons.inj heq).1 hs
    · rfl

/-- The keyword that may stand between `INSERT` and the next. -/
def modifier? (t : Text) : Option Text :=
  (anyKeyword? ["low_priority", "delayed", "high_priority"] t).bind blanks?

theorem modifier?_decided : Decided modifier? := by
  intro t r u h hr
  obtain ⟨t', hword, hblanks⟩ := Option.bind_eq_some_iff.mp h
  rw [modifier?, anyKeyword?_decided (by decide) hword, Option.bind_some,
    blanks?_decided t' r u hblanks hr]

theorem modifier?_none {word : Text} (h : keywordBlanks? word t = some r)
    (hword : ∀ other ∈ [("low_priority" : Text), "delayed", "high_priority"], Apart word other)
    (u : Text) : modifier? (t ++ u) = none := by
  obtain ⟨t', hk, -⟩ := Option.bind_eq_some_iff.mp h
  rw [modifier?, anyKeyword?_apart hk hword, Option.bind_none]

theorem insertHead?_eq (t : Text) : insertHead? t =
    (keywordBlanks? "insert" t).bind fun t =>
      keywordBlanks? "into" (optionally (keywordBlanks? "ignore") (optionally modifier? t)) :=
  rfl

/-- What follows the keywords of an `INSERT` does not depend on what follows that. -/
theorem insertHead?_decided : Decided insertHead? := by
  intro t r u h hr
  rw [insertHead?_eq] at h ⊢
  obtain ⟨behind, hinsert, hinto⟩ := Option.bind_eq_some_iff.mp h
  have hignored := ne_nil_of_keywordBlanks? hinto
  have hsecond : optionally (keywordBlanks? "ignore") (optionally modifier? behind ++ u) =
      optionally (keywordBlanks? "ignore") (optionally modifier? behind) ++ u := by
    refine optionally_append (keywordBlanks?_decided _) hignored fun hnone => ?_
    rw [optionally, hnone, Option.getD_none] at hinto
    exact keywordBlanks?_apart hinto (by decide) u
  have hmodified : optionally modifier? behind ≠ [] := by
    intro hnil
    rw [hnil] at hignored
    exact hignored rfl
  have hfirst : optionally modifier? (behind ++ u) = optionally modifier? behind ++ u := by
    refine optionally_append modifier?_decided hmodified fun hnone => ?_
    have hsame : optionally modifier? behind = behind := by
      rw [optionally, hnone, Option.getD_none]
    rw [hsame] at hinto
    -- What comes next is `IGNORE` or `INTO`, with neither of which a modifier begins.
    cases hignore : keywordBlanks? "ignore" behind with
    | some t' => exact modifier?_none hignore (by decide) u
    | none =>
      rw [optionally, hignore, Option.getD_none] at hinto
      exact modifier?_none hinto (by decide) u
  have hbehind : behind ≠ [] := by
    rintro rfl
    exact hmodified rfl
  rw [keywordBlanks?_decided _ t behind u hinsert hbehind, Option.bind_some, hfirst, hsecond,
    keywordBlanks?_decided _ _ r u hinto hr]

/-- A statement that begins with `INSERT` begins with neither a dash nor a slash. -/
theorem head_of_insertHead? (h : insertHead? t = some r) :
    ∃ c rest, t = c :: rest ∧ foldCase c = 'i' := by
  rw [insertHead?_eq] at h
  obtain ⟨behind, hinsert, -⟩ := Option.bind_eq_some_iff.mp h
  obtain ⟨t', hword, -⟩ := Option.bind_eq_some_iff.mp hinsert
  cases t with
  | nil => cases hword
  | cons c rest =>
    refine ⟨c, rest, rfl, ?_⟩
    by_contra hc
    rw [show ("insert" : Text) = 'i' :: "nsert".toList from rfl, keyword?, if_neg hc] at hword
    cases hword

/-- A statement with the head of an `INSERT` is one. -/
theorem classify_of_insertHead? (h : insertHead? (bodyOf t) = some r) :
    classify t = (.insert, (Identifier.tableName? r).getD []) := by
  obtain ⟨c, rest, hbody, hc⟩ := head_of_insertHead? h
  have hplain : ((bodyOf t).isEmpty || startsWith "/*!" (bodyOf t)) = false := by
    have hslash : '/' ≠ c := by
      rintro rfl
      exact absurd hc (by decide)
    rw [hbody]
    simp [startsWith, after?, hslash]
  have hcreate : createHead? (bodyOf t) = none := by
    rw [insertHead?_eq] at h
    obtain ⟨behind, hinsert, -⟩ := Option.bind_eq_some_iff.mp h
    have hnone : keywordBlanks? "create" (bodyOf t ++ []) = none :=
      keywordBlanks?_apart hinsert (by decide) []
    rw [List.append_nil] at hnone
    rw [createHead?, hnone]
    rfl
  have hhead : tableHead? (bodyOf t) = some (.insert, r) := by
    simp only [tableHead?, List.findSome?, head?, hcreate, h, Option.map_none, Option.map_some]
  unfold classify
  simp only [hplain, Bool.false_eq_true, if_false, hhead]

end Statement

namespace Insert

open Text

variable {t u table values : Text} {columns : Option (List Text)}

theorem valuesKeyword?_decided : Decided valuesKeyword? := by
  intro t r u h hr
  unfold valuesKeyword? at h ⊢
  obtain ⟨behind, hvalue, hrest⟩ := Option.bind_eq_some_iff.mp h
  obtain ⟨hs, hends⟩ := Option.filter_eq_some_iff.mp hrest
  obtain rfl := Option.some.inj hs
  have hplural : optionally (keyword? "s") (behind ++ u) = optionally (keyword? "s") behind ++ u := by
    refine optionally_append ?_ hr fun hnone => ?_
    · intro t r u h _
      exact keyword?_decided h u
    · cases behind with
      | nil => exact absurd rfl hr
      | cons c behind =>
        have hc : foldCase c ≠ 's' := by
          intro hc
          simp [keyword?, hc] at hnone
        simp [keyword?, hc]
  rw [keyword?_decided hvalue, Option.bind_some, hplural]
  refine Option.filter_eq_some_iff.mpr ⟨rfl, ?_⟩
  obtain ⟨c, rest, hc⟩ := List.exists_cons_of_ne_nil hr
  rw [hc] at hends ⊢
  exact hends

/-- The list of columns before the rows, where there is one, and what follows it. -/
def columnList? (t : Text) : Option (Option (List Text) × Text) :=
  if startsWith "(" t then (group? t).map fun (list, after) => (some (nameList list), trimStart after)
  else some (none, t)

/-- The table and the columns that a statement names, and what follows the keyword `VALUES`. -/
def opening? (statement : Text) : Option (Text × Option (List Text) × Text) := do
  let rest ← Statement.insertHead? (Statement.bodyOf statement)
  let (some table, rest) := Identifier.readQualified rest | none
  let (columns, rest) ← columnList? (trimStart rest)
  let values ← valuesKeyword? rest
  return (table, columns, values)

/-- The rows that follow an opening. -/
def ofOpening (table : Text) (columns : Option (List Text)) (values : Text) : Insert where
  table := table
  columns := columns
  rows := (ParsedRows.ofText values).rows
  trailing := clause? (ParsedRows.ofText values).rest
  encoding := .utf8

/-- A statement is its opening and its rows. -/
theorem parse?_eq (t : Text) : parse? t = (opening? t).map fun (table, columns, values) =>
    (ofOpening table columns values, (ParsedRows.ofText values).fault.map fun f =>
      { f with offset := size t - size values + f.offset }) := by
  unfold parse? opening? columnList?
  cases Statement.insertHead? (Statement.bodyOf t) with
  | none => rfl
  | some head =>
    rcases hname : Identifier.readQualified head with ⟨_ | table, rest⟩
    · simp only [Option.bind_eq_bind, Option.bind_some, hname]
      rfl
    simp only [Option.bind_eq_bind, Option.bind_some, hname]
    by_cases hopen : startsWith "(" (trimStart rest) = true
    · simp only [if_pos hopen]
      cases group? (trimStart rest) with
      | none => rfl
      | some found =>
        simp only [Option.map_some, Option.bind_some]
        cases valuesKeyword? (trimStart found.2) with
        | none => rfl
        | some values => rfl
    · simp only [if_neg hopen, Option.bind_some]
      cases valuesKeyword? (trimStart rest) with
      | none => rfl
      | some values => rfl

theorem opening?_eq_some : opening? t = some (table, columns, values) ↔
    ∃ head rest behind, Statement.insertHead? (Statement.bodyOf t) = some head ∧
      Identifier.readQualified head = (some table, rest) ∧
      columnList? (trimStart rest) = some (columns, behind) ∧
      valuesKeyword? behind = some values := by
  unfold opening?
  constructor
  · intro h
    obtain ⟨head, hhead, h⟩ := Option.bind_eq_some_iff.mp h
    rcases hname : Identifier.readQualified head with ⟨_ | name, rest⟩
    · rw [hname] at h
      cases h
    · rw [hname] at h
      obtain ⟨⟨found, behind⟩, hlist, h⟩ := Option.bind_eq_some_iff.mp h
      obtain ⟨behind', hvalues, h⟩ := Option.bind_eq_some_iff.mp h
      cases h
      exact ⟨head, rest, behind, hhead, hname, hlist, hvalues⟩
  · rintro ⟨head, rest, behind, hhead, hname, hlist, hvalues⟩
    simp only [Option.bind_eq_bind, hhead, Option.bind_some, hname, hlist, hvalues]
    rfl

theorem columnList?_append (h : columnList? t = some (columns, values)) (ht : t ≠ [])
    (hv : values ≠ []) (u : Text) : columnList? (t ++ u) = some (columns, values ++ u) := by
  have hopen : startsWith "(" (t ++ u) = startsWith "(" t := by
    obtain ⟨c, rest, rfl⟩ := List.exists_cons_of_ne_nil ht
    simp only [startsWith, List.cons_append, after?, String.reduceToList]
    split
    · rfl
    · rfl
  unfold columnList? at h ⊢
  rw [hopen]
  split
  · next hgroup =>
    rw [if_pos hgroup] at h
    obtain ⟨⟨list, after⟩, hlist, hsome⟩ := Option.map_eq_some_iff.mp h
    obtain ⟨rfl, rfl⟩ := Prod.mk.inj hsome
    rw [group?_append hlist, Option.map_some]
    dsimp only
    rw [trimStart_append hv]
  · next hgroup =>
    rw [if_neg hgroup] at h
    obtain ⟨rfl, rfl⟩ := Prod.mk.inj (Option.some.inj h)
    rfl

/-- The opening of a statement does not depend on its rows. -/
theorem opening?_append (h : opening? t = some (table, columns, values)) (hv : values ≠ [])
    (u : Text) : opening? (t ++ u) = some (table, columns, values ++ u) := by
  obtain ⟨head, rest, behind, hhead, hname, hlist, hvalues⟩ := opening?_eq_some.mp h
  have hbehind : behind ≠ [] := by
    rintro rfl
    cases hvalues
  have hrest : trimStart rest ≠ [] := by
    intro hnil
    rw [hnil] at hlist
    cases hlist
    cases hvalues
  have hhead' : head ≠ [] := by
    rintro rfl
    rw [Identifier.readQualified_of_none rfl] at hname
    cases hname
  obtain ⟨c, body, hbody, hc⟩ := Statement.head_of_insertHead? hhead
  have hd : c ≠ '-' := by
    rintro rfl
    exact absurd hc (by decide)
  have hs : c ≠ '/' := by
    rintro rfl
    exact absurd hc (by decide)
  refine opening?_eq_some.mpr ⟨head ++ u, rest ++ u, behind ++ u, ?_, ?_, ?_, ?_⟩
  · rw [Statement.bodyOf_append hbody hd hs, ← List.cons_append, ← hbody]
    exact Statement.insertHead?_decided _ _ u hhead hhead'
  · exact Identifier.readQualified_append hname hrest u
  · rw [trimStart_append hrest]
    exact columnList?_append hlist hrest hbehind u
  · exact valuesKeyword?_decided _ _ u hvalues hv

end Insert

/-- A whole statement with the opening of an `INSERT` is its rows. -/
theorem Statement.parse_opening {t table values : Text} {columns : Option (List Text)}
    (h : Insert.opening? t = some (table, columns, values)) :
    ∃ notes, parse t true = (.insert (.ofOpening table columns values), notes) := by
  obtain ⟨head, rest, behind, hhead, -⟩ := Insert.opening?_eq_some.mp h
  unfold parse
  rw [classify_of_insertHead? hhead]
  simp only [Bool.not_true, Bool.false_eq_true, if_false, Insert.parse?_eq, h, Option.map_some]
  exact ⟨_, rfl⟩

/-- A whole segment with such an opening is its rows, read as the segment is. -/
theorem PlacedStatement.ofSegment_opening {s : Segment} {table values : Text}
    {columns : Option (List Text)} (hs : s.terminated = true)
    (h : Insert.opening? s.decode.1 = some (table, columns, values)) :
    ∃ i, (ofSegment s).statement = .insert i ∧ i.table = table ∧ i.columns = columns ∧
      i.rows = (ParsedRows.ofText values).rows ∧ i.encoding = s.decode.2 := by
  obtain ⟨notes, hparse⟩ := Statement.parse_opening h
  refine ⟨{ Insert.ofOpening table columns values with encoding := s.decode.2 }, ?_, rfl, rfl, rfl,
    rfl⟩
  unfold ofSegment ofText
  simp only [hs, hparse]
  rfl

end SqlDump
