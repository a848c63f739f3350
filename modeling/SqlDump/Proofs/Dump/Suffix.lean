import SqlDump.Proofs.Dump.Opening

/-!
# What readers leave

A reader takes the beginning of a text and leaves the end of it. So the rows of an `INSERT` are the
end of its statement, and a place in them can be counted from the start of the statement.

Main statement: `Insert.opening?_suffix`, the rows of a statement are the end of it.
-/

namespace SqlDump

namespace Text

variable {t r word : Text}

/-- A reader that leaves an end of its text. -/
def Shortens (reader : Text → Option Text) : Prop := ∀ t r, reader t = some r → r <:+ t

theorem keyword?_shortens (word : Text) : Shortens (keyword? word) := by
  intro t r h
  induction word generalizing t with
  | nil =>
    rw [keyword?, Option.some.injEq] at h
    exact h ▸ List.suffix_refl t
  | cons a word ih =>
    cases t with
    | nil => cases h
    | cons c t =>
      rw [keyword?] at h
      split at h
      · exact (ih t h).trans (List.suffix_cons c t)
      · cases h

theorem trimStart_suffix (t : Text) : trimStart t <:+ t := List.dropWhile_suffix _

theorem blanks?_shortens : Shortens blanks? := by
  intro t r h
  cases t with
  | nil => cases h
  | cons c t =>
    rw [blanks?] at h
    split at h
    · obtain rfl := Option.some.inj h
      exact (trimStart_suffix t).trans (List.suffix_cons c t)
    · cases h

theorem Shortens.bind {first second : Text → Option Text} (h : Shortens first)
    (k : Shortens second) : Shortens fun t => (first t).bind second := by
  intro t r hr
  obtain ⟨u, hu, hr⟩ := Option.bind_eq_some_iff.mp hr
  exact (k u r hr).trans (h t u hu)

theorem keywordBlanks?_shortens (word : Text) : Shortens (keywordBlanks? word) :=
  (keyword?_shortens word).bind blanks?_shortens

theorem anyKeyword?_shortens (words : List Text) : Shortens (anyKeyword? words) := by
  intro t r h
  obtain ⟨word, -, hword⟩ := List.exists_of_findSome?_eq_some h
  exact keyword?_shortens word t r hword

theorem optionally_suffix {reader : Text → Option Text} (h : Shortens reader) (t : Text) :
    optionally reader t <:+ t := by
  unfold optionally
  cases hr : reader t with
  | none => exact List.suffix_refl t
  | some r => exact h t r hr

theorem after?_shortens (start : Text) : Shortens (after? start) := by
  intro t r h
  obtain rfl := after?_eq_some_iff.mp h
  exact List.suffix_append start r

theorem afterFirst?_shortens (mark : Text) : Shortens (afterFirst? mark) := by
  intro t r h
  induction t with
  | nil => exact after?_shortens mark [] r h
  | cons c t ih =>
    rw [afterFirst?] at h
    split at h
    · next tail htail =>
      obtain rfl := Option.some.inj h
      exact after?_shortens mark _ _ htail
    · exact (ih h).trans (List.suffix_cons c t)

theorem openGroup?_shortens (q : Quoting) : Shortens (openGroup? q) := by
  intro t r h
  induction t generalizing q with
  | nil => cases h
  | cons c t ih =>
    rw [openGroup?] at h
    split at h
    · obtain rfl := Option.some.inj h
      exact List.suffix_cons c _
    · exact (ih _ h).trans (List.suffix_cons c t)

theorem group?_suffix {inner : Text} (h : group? t = some (inner, r)) : r <:+ t := by
  obtain ⟨u, hopen, hclose⟩ := Option.bind_eq_some_iff.mp h
  obtain ⟨rfl, -⟩ := group?_open_eq_some_iff.mp hclose
  have hbehind : r <:+ inner ++ ')' :: r := (List.suffix_cons ')' r).trans (List.suffix_append ..)
  exact hbehind.trans (openGroup?_shortens _ t _ hopen)

end Text

open Text

namespace Identifier

variable {t r name : Text}

theorem readQuoted_suffix {quote : Char} {start : Text}
    (h : readQuoted quote start t = some (name, r)) : r <:+ t := by
  fun_induction readQuoted quote start t with
  | case1 => cases h
  | case2 =>
    obtain ⟨-, rfl⟩ := Prod.mk.inj (Option.some.inj h)
    exact List.nil_suffix
  | case3 => cases h
  | case4 start rest ih =>
    exact (ih h).trans ((List.suffix_cons quote rest).trans (List.suffix_cons quote _))
  | case5 start d rest hd =>
    obtain ⟨-, rfl⟩ := Prod.mk.inj (Option.some.inj h)
    exact List.suffix_cons quote _
  | case6 start c d rest hc ih => exact (ih h).trans (List.suffix_cons c _)

theorem read_suffix (h : read t = some (name, r)) : r <:+ t := by
  cases t with
  | nil => cases h
  | cons c t =>
    rw [read] at h
    split at h
    · exact (readQuoted_suffix h).trans (List.suffix_cons c t)
    · split at h
      · cases h
      · obtain ⟨-, rfl⟩ := Prod.mk.inj (Option.some.inj h)
        exact List.dropWhile_suffix _

theorem readQualified_suffix (t : Text) : (readQualified t).2 <:+ t := by
  induction t using readQualified.induct with
  | case1 t hread => simp only [readQualified_of_none hread, List.suffix_refl]
  | case2 t name rest hread more hdot ih =>
    have hmore : more <:+ rest := (List.suffix_cons '.' more).trans (hdot ▸ trimStart_suffix rest)
    rw [readQualified_dot hread hdot]
    exact ih.trans ((trimStart_suffix more).trans (hmore.trans (read_suffix hread)))
  | case3 t name rest hread hdot =>
    rw [readQualified_last hread hdot]
    exact read_suffix hread

end Identifier

namespace Statement

theorem bodyOf_suffix (t : Text) : bodyOf t <:+ t := by
  induction hn : t.length using Nat.strongRecOn generalizing t with
  | ind n ih =>
    have htrim := trimStart_suffix t
    rw [bodyOf_eq]
    split
    · next rest hdashes =>
      rw [hdashes] at htrim
      have hrest : rest <:+ t :=
        ((List.suffix_cons '-' rest).trans (List.suffix_cons '-' _)).trans htrim
      split
      · exact List.nil_suffix
      · next c more hmore =>
        have hdrop : c :: more <:+ rest := hmore ▸ List.dropWhile_suffix _
        have hlt : more.length < n := by
          have hle := hdrop.length_le
          have hle' := htrim.length_le
          simp only [List.length_cons] at hle hle'
          omega
        exact (ih _ hlt _ rfl).trans ((List.suffix_cons c more).trans (hdrop.trans hrest))
    · next rest hcomment =>
      rw [hcomment] at htrim
      have hrest : rest <:+ t :=
        ((List.suffix_cons '*' rest).trans (List.suffix_cons '/' _)).trans htrim
      split
      · exact htrim
      · split
        · exact List.nil_suffix
        · next more hmore =>
          have hafter := afterFirst?_shortens _ _ _ hmore
          have hlt : more.length < n := by
            have hle := hafter.length_le
            have hle' := htrim.length_le
            simp only [List.length_cons] at hle'
            omega
          exact (ih _ hlt _ rfl).trans (hafter.trans hrest)
    · exact htrim

theorem insertHead?_shortens : Shortens insertHead? := by
  have hmodifier : Shortens modifier? := (anyKeyword?_shortens _).bind blanks?_shortens
  intro t r h
  rw [insertHead?_eq] at h
  obtain ⟨u, hu, h⟩ := Option.bind_eq_some_iff.mp h
  have hinto := keywordBlanks?_shortens _ _ _ h
  have hignore := optionally_suffix (keywordBlanks?_shortens "ignore") (optionally modifier? u)
  exact hinto.trans (hignore.trans ((optionally_suffix hmodifier u).trans
    (keywordBlanks?_shortens _ _ _ hu)))

end Statement

namespace Insert

variable {t values : Text} {table : Text} {columns : Option (List Text)}

theorem columnList?_suffix (h : columnList? t = some (columns, values)) : values <:+ t := by
  unfold columnList? at h
  split at h
  · obtain ⟨⟨list, after⟩, hgroup, h⟩ := Option.map_eq_some_iff.mp h
    obtain ⟨-, rfl⟩ := Prod.mk.inj h
    exact (trimStart_suffix after).trans (group?_suffix hgroup)
  · obtain ⟨-, rfl⟩ := Prod.mk.inj (Option.some.inj h)
    exact List.suffix_refl t

theorem valuesKeyword?_shortens : Shortens valuesKeyword? := by
  intro t r h
  obtain ⟨u, hu, h⟩ := Option.bind_eq_some_iff.mp h
  obtain ⟨h, -⟩ := Option.filter_eq_some_iff.mp h
  obtain rfl := Option.some.inj h
  exact (optionally_suffix (keyword?_shortens "s") u).trans (keyword?_shortens _ _ _ hu)

/-- The rows of a statement are the end of it. -/
theorem opening?_suffix (h : opening? t = some (table, columns, values)) : values <:+ t := by
  obtain ⟨head, rest, behind, hhead, hname, hlist, hvalues⟩ := opening?_eq_some.mp h
  have hrest : rest <:+ head := by
    have hread := Identifier.readQualified_suffix head
    rwa [hname] at hread
  have hhead := (Statement.insertHead?_shortens _ _ hhead).trans (Statement.bodyOf_suffix t)
  have hbehind := (columnList?_suffix hlist).trans ((trimStart_suffix rest).trans hrest)
  exact (valuesKeyword?_shortens _ _ hvalues).trans (hbehind.trans hhead)

end Insert

end SqlDump
