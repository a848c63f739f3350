import SqlDump.Proofs.Dump.Opening
import SqlDump.Proofs.Schema.Ending

/-!
# What one clause does

A clause of an `ALTER TABLE` statement that a table absorbs is one of three: it sets the next
AUTO_INCREMENT value, adds a key, or defines a column anew. It changes neither the name of the table
nor the names of its columns, and whether a table absorbs it depends on these alone.

Main statements: `absorb?_eq_some_iff`, what a clause makes of a table that absorbs it;
`Absorbs.like`, what it keeps; `Like.absorbs`, what it depends on.
-/

namespace SqlDump.Table

open Text

variable {t u v : Table} {clause : Text}

/-- The table with other columns. -/
def withColumns (t : Table) (columns : List Column) : Table := { t with columns }

/-- What a clause makes of a table that absorbs it. The next AUTO_INCREMENT value is no part of the
table, a key is added, and of the columns of a name the first is defined anew in its place. -/
inductive Absorbs (t : Table) (clause : Text) : Table → Prop
  | number (h : isAutoIncrementClause clause = true) : t.Absorbs clause t
  | key {item : Text} (h : keywordBlanks? "add" clause = some item)
      (hkey : (TableItem.parse t.name item).isKey = true) :
      t.Absorbs clause (t.addItem (TableItem.parse t.name item))
  | column {rest : Text} {before after : List Column} {old new : Column}
      {reference : Option Reference} (h : keywordBlanks? "modify" clause = some rest)
      (hparse : Column.parse? (optionally (keywordBlanks? "column") rest) = some (new, reference))
      (hcolumns : t.columns = before ++ old :: after) (hname : sameAscii old.name new.name = true)
      (hbefore : ∀ x ∈ before, sameAscii x.name new.name = false) :
      t.Absorbs clause ((t.withColumns (before ++ new :: after)).addColumnKeys new reference)

theorem addKey?_eq_some_iff {item : Text} :
    t.addKey? item = some u ↔
      (TableItem.parse t.name item).isKey = true ∧ t.addItem (TableItem.parse t.name item) = u := by
  unfold addKey?
  cases TableItem.parse t.name item <;> simp [TableItem.isKey, addItem]

/-- The first column of a name is replaced in its place. -/
theorem replaceColumn_first {before after : List Column} {old new : Column}
    (hcolumns : t.columns = before ++ old :: after) (hname : sameAscii old.name new.name = true)
    (hbefore : ∀ x ∈ before, sameAscii x.name new.name = false) :
    t.replaceColumn new = t.withColumns (before ++ new :: after) := by
  have hindex : t.columnIndex? new.name = some before.length := by
    rw [columnIndex?, hcolumns, List.findIdx?_append, List.findIdx?_eq_none_iff.mpr hbefore,
      List.findIdx?_cons, hname]
    simp
  rw [replaceColumn, hindex, withColumns, hcolumns]
  simp

theorem modifyColumn?_eq_some_iff {definition : Text} :
    t.modifyColumn? definition = some u ↔ ∃ new reference before old after,
      Column.parse? definition = some (new, reference) ∧ t.columns = before ++ old :: after ∧
      sameAscii old.name new.name = true ∧ (∀ x ∈ before, sameAscii x.name new.name = false) ∧
      (t.withColumns (before ++ new :: after)).addColumnKeys new reference = u := by
  unfold modifyColumn?
  constructor
  · intro h
    obtain ⟨⟨new, reference⟩, hparse, h⟩ := Option.bind_eq_some_iff.mp h
    dsimp only at h
    split at h
    · cases h
    · next hsome =>
      obtain ⟨old, hold⟩ := Option.ne_none_iff_exists'.mp (mt Option.isNone_iff_eq_none.mpr hsome)
      obtain ⟨hname, before, after, hcolumns, hbefore⟩ := List.find?_eq_some_iff_append.mp hold
      have hfirst : ∀ x ∈ before, sameAscii x.name new.name = false := fun x hx => by
        simpa using hbefore x hx
      rw [replaceColumn_first hcolumns hname hfirst] at h
      exact ⟨new, reference, before, old, after, hparse, hcolumns, hname, hfirst,
        Option.some.inj h⟩
  · rintro ⟨new, reference, before, old, after, hparse, hcolumns, hname, hbefore, rfl⟩
    have hfound : t.column? new.name = some old :=
      List.find?_eq_some_iff_append.mpr ⟨hname, before, after, hcolumns, fun x hx => by
        simpa using hbefore x hx⟩
    rw [hparse]
    simp [hfound, replaceColumn_first hcolumns hname hbefore]

/-- A clause begins with one keyword only. -/
theorem keyword?_eq_none {word other rest : Text} (h : keywordBlanks? word clause = some rest)
    (hne : Apart word other) : keyword? other clause = none := by
  obtain ⟨behind, hkeyword, -⟩ := Option.bind_eq_some_iff.mp h
  have hother := keyword?_apart hkeyword hne []
  rwa [List.append_nil] at hother

theorem keywordBlanks?_eq_none {word other rest : Text}
    (h : keywordBlanks? word clause = some rest) (hne : Apart word other) :
    keywordBlanks? other clause = none := by
  rw [keywordBlanks?, keyword?_eq_none h hne, Option.bind_none]

theorem not_isAutoIncrementClause {word rest : Text} (h : keywordBlanks? word clause = some rest)
    (hne : Apart word "auto_increment") : isAutoIncrementClause clause = false := by
  rw [isAutoIncrementClause, keyword?_eq_none h hne]

theorem absorb?_eq_some_iff : t.absorb? clause = some u ↔ t.Absorbs clause u := by
  unfold absorb?
  constructor
  · intro h
    split at h
    · next hnumber =>
      cases h
      exact .number hnumber
    split at h
    · next item hadd =>
      obtain ⟨hkey, rfl⟩ := addKey?_eq_some_iff.mp h
      exact .key hadd hkey
    · obtain ⟨rest, hmodify, h⟩ := Option.bind_eq_some_iff.mp h
      obtain ⟨new, reference, before, old, after, hparse, hcolumns, hname, hbefore, rfl⟩ :=
        modifyColumn?_eq_some_iff.mp h
      exact .column hmodify hparse hcolumns hname hbefore
  · intro h
    cases h with
    | number hnumber => rw [if_pos hnumber]
    | key hadd hkey =>
      rw [not_isAutoIncrementClause hadd (by decide), hadd]
      exact addKey?_eq_some_iff.mpr ⟨hkey, rfl⟩
    | column hmodify hparse hcolumns hname hbefore =>
      rw [not_isAutoIncrementClause hmodify (by decide),
        keywordBlanks?_eq_none hmodify (by decide), hmodify]
      exact modifyColumn?_eq_some_iff.mpr
        ⟨_, _, _, _, _, hparse, hcolumns, hname, hbefore, rfl⟩

theorem absorb?_eq_none_iff : t.absorb? clause = none ↔ ∀ u, ¬t.Absorbs clause u := by
  rw [Option.eq_none_iff_forall_ne_some]
  exact forall_congr' fun u => not_congr absorb?_eq_some_iff

/-! ## What a clause depends on -/

/-- The names of the columns in their order, in lower case. -/
def columnNames (t : Table) : List Text := t.columns.map fun c => asciiLower c.name

/-- Tables of one name that have columns of the same names in the same places. -/
structure Like (t u : Table) : Prop where
  name : u.name = t.name
  columns : u.columnNames = t.columnNames

namespace Like

theorem refl (t : Table) : t.Like t := ⟨rfl, rfl⟩

theorem trans (h : t.Like u) (h' : u.Like v) : t.Like v :=
  ⟨h'.name.trans h.name, h'.columns.trans h.columns⟩

end Like

theorem addColumnKeys_name (t : Table) (c : Column) (reference : Option Reference) :
    (t.addColumnKeys c reference).name = t.name := by
  simp only [addColumnKeys]
  split <;> split <;> rfl

theorem addItem_columns {item : TableItem} (h : item.isKey = true) :
    (t.addItem item).columns = t.columns := by
  cases item with
  | column _ _ => cases h
  | _ => rfl

/-- A clause changes neither the name of its table nor the names of the columns. -/
theorem Absorbs.like (h : t.Absorbs clause u) : t.Like u := by
  cases h with
  | number _ => exact .refl t
  | key _ hkey =>
    refine ⟨addItem_name .., ?_⟩
    rw [columnNames, addItem_columns hkey, columnNames]
  | @column _ before after old new reference _ _ hcolumns hname _ =>
    refine ⟨addColumnKeys_name .., ?_⟩
    have hlower : asciiLower old.name = asciiLower new.name := eq_of_beq hname
    rw [columnNames, addColumnKeys_columns, columnNames, hcolumns, withColumns]
    simp [hlower]

theorem absorb?_name (h : t.absorb? clause = some u) : u.name = t.name :=
  (absorb?_eq_some_iff.mp h).like.name

/-- A table absorbs what another does that has columns of the same names. -/
theorem Like.absorbs (h : t.Like u) (habsorbs : u.Absorbs clause v) : ∃ w, t.Absorbs clause w := by
  cases habsorbs with
  | number hnumber => exact ⟨t, .number hnumber⟩
  | @key item hadd hkey =>
    rw [h.name] at hkey
    exact ⟨_, .key hadd hkey⟩
  | @column rest before after old new reference hmodify hparse hcolumns hname hbefore =>
    have hnames := h.columns.symm
    rw [columnNames, columnNames, hcolumns, List.map_append, List.map_cons] at hnames
    obtain ⟨before', behind, hcolumns', hbefore', hbehind⟩ := List.map_eq_append_iff.mp hnames
    obtain ⟨old', after', rfl, hold, -⟩ := List.map_eq_cons_iff.mp hbehind
    refine ⟨_, .column hmodify hparse hcolumns' (by rwa [sameAscii, hold]) fun x hx => ?_⟩
    have hmem : asciiLower x.name ∈ before.map fun c => asciiLower c.name :=
      hbefore' ▸ List.mem_map_of_mem hx
    obtain ⟨y, hy, heq⟩ := List.mem_map.mp hmem
    have hfirst := hbefore y hy
    rwa [sameAscii, heq] at hfirst

end SqlDump.Table
