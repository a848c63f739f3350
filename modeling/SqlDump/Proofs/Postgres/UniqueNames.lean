import Mathlib.Data.List.Nodup
import Mathlib.Data.List.Pairwise
import SqlDump.Proofs.Plan.Emission
import SqlDump.Proofs.Schema.Distinct

/-!
# Names of unique keys

The names of unique keys are shared by all tables of a script, but in a dump each table has its own.
So the name of a table is put before that of its key with an underscore between, unless it stands
there already. Names with underscores of their own can then meet: within a table, where one key has
the name that is made for another, and between two tables, where the name of one goes on with an
underscore to that of the other.

Main statements: `joinNames_eq_iff`, when two names that are made of two parts meet;
`ofCatalog_uniqueNames`, the names in a script are different unless names of the dump meet in one of
the two ways; `ofCatalog_uniqueNames_shared`, a table of which two keys get one name.
-/

namespace SqlDump

open Text Postgres

namespace Postgres

/-- The names of the unique keys that a statement creates with its table. -/
def CreateTable.uniqueNames (c : CreateTable) : List Text :=
  c.items.filterMap fun
    | .unique name _ => some name
    | _ => none

/-- The names of the unique keys that a part of a script creates. -/
def Part.uniqueNames : Part → List Text
  | .create c => c.uniqueNames
  | _ => []

theorem uniqueNames_ofTable (t : Table) (flags : List Bool) :
    (CreateTable.ofTable t flags).uniqueNames = t.uniqueKeys.map (uniqueName t.name) := by
  have primary : (primaryKeyItem? t).toList.filterMap (fun
      | .unique name _ => some name
      | _ => none) = ([] : List Text) := by
    unfold primaryKeyItem?
    split
    · split <;> rfl
    · rfl
  simp only [CreateTable.uniqueNames, CreateTable.ofTable, List.filterMap_append, primary,
    List.filterMap_map]
  simp

theorem flatMap_uniqueNames_titled (title : Text) (parts : Script) :
    (Script.titled title parts).flatMap Part.uniqueNames = parts.flatMap Part.uniqueNames := by
  cases parts <;> rfl

/-! ## Names made of two parts -/

/-- Two names with an underscore between. -/
def joinNames (table own : Text) : Text := table ++ '_' :: own

/-- What of the name of a key is its own: the name without that of its table before it. -/
def ownName (table name : Text) : Text := (after? (table ++ "_") name).getD name

/-- The name of a key is that of its table and its own. -/
theorem uniqueName_eq (table name : Text) (columns : List Text) :
    uniqueName table ⟨some name, columns⟩ = joinNames table (ownName table name) := by
  unfold uniqueName ownName startsWith joinNames
  dsimp only
  cases h : after? (table ++ "_") name with
  | none => simp
  | some own =>
    have hname := eq_append_of_after? h
    simp [hname]

theorem ownName_joinNames (table own : Text) : ownName table (joinNames table own) = own := by
  have h : joinNames table own = (table ++ "_") ++ own := by simp [joinNames]
  unfold ownName
  rw [h, after?_append]
  rfl

/-- A key's own name is its whole name, unless that begins with the name of the table. -/
theorem ownName_eq_or (table name : Text) :
    ownName table name = name ∨ name = joinNames table (ownName table name) := by
  unfold ownName joinNames
  cases h : after? (table ++ "_") name with
  | none => exact .inl rfl
  | some own =>
    apply Or.inr
    have hname := eq_append_of_after? h
    simpa using hname

/-- Two keys of a table have the same own name where one has the name that is made for the other. -/
theorem ownName_eq_iff {table name other : Text} :
    ownName table name = ownName table other ↔ name = other ∨
      (ownName table name = name ∧ other = joinNames table name) ∨
      (ownName table other = other ∧ name = joinNames table other) := by
  constructor
  · intro h
    rcases ownName_eq_or table name with hname | hname <;>
      rcases ownName_eq_or table other with hother | hother
    · exact .inl (hname.symm.trans (h.trans hother))
    · rw [← h, hname] at hother
      exact .inr (.inl ⟨hname, hother⟩)
    · rw [h, hother] at hname
      exact .inr (.inr ⟨hother, hname⟩)
    · rw [← h, ← hname] at hother
      exact .inl hother.symm
  · rintro (rfl | ⟨hname, rfl⟩ | ⟨hother, rfl⟩)
    · rfl
    · rw [ownName_joinNames, hname]
    · rw [ownName_joinNames, hother]

/-- Names made of two parts meet where the parts do, or where the first part of one goes on with an
underscore to that of the other. -/
theorem joinNames_eq_iff {t u own other : Text} : joinNames t own = joinNames u other ↔
    (t = u ∧ own = other) ∨ (∃ x, u = joinNames t x ∧ own = joinNames x other) ∨
      ∃ x, t = joinNames u x ∧ other = joinNames x own := by
  unfold joinNames
  constructor
  · intro h
    rcases List.append_eq_append_iff.mp h with ⟨x, hu, hown⟩ | ⟨x, ht, hother⟩
    · cases x with
      | nil =>
        rw [List.append_nil] at hu
        exact .inl ⟨hu.symm, (List.cons.inj hown).2⟩
      | cons c x =>
        obtain ⟨hc, hown⟩ := List.cons.inj hown
        exact .inr (.inl ⟨x, hc ▸ hu, hown⟩)
    · cases x with
      | nil =>
        rw [List.append_nil] at ht
        exact .inl ⟨ht, (List.cons.inj hother).2.symm⟩
      | cons c x =>
        obtain ⟨hc, hother⟩ := List.cons.inj hother
        exact .inr (.inr ⟨x, hc ▸ ht, hother⟩)
  · rintro (⟨rfl, rfl⟩ | ⟨x, rfl, rfl⟩ | ⟨x, rfl, rfl⟩)
    · rfl
    · simp
    · simp

end Postgres

/-! ## Keys of one table -/

namespace Table

/-- The names that the unique keys of a table have in the dump. -/
def keyNames (t : Table) : List Text := t.uniqueKeys.filterMap UniqueKey.name

/-- The name that a script gives to a key of that name. -/
def scriptName (t : Table) (name : Text) : Text := joinNames t.name (ownName t.name name)

/-- Whether every unique key of a table has a name, and no two have the same. -/
structure NamesKeys (t : Table) : Prop where
  named : ∀ key ∈ t.uniqueKeys, key.name.isSome
  distinct : t.keyNames.Nodup

/-- Whether no key of a table has the name that is made for another of its keys. -/
def KeysApart (t : Table) : Prop :=
  ∀ name ∈ t.keyNames, ownName t.name name = name → joinNames t.name name ∉ t.keyNames

variable {t u : Table}

theorem map_uniqueName (h : ∀ key ∈ t.uniqueKeys, key.name.isSome) :
    t.uniqueKeys.map (uniqueName t.name) = t.keyNames.map t.scriptName := by
  unfold keyNames
  generalize t.uniqueKeys = keys at h
  induction keys with
  | nil => rfl
  | cons key keys ih =>
    obtain ⟨_ | name, columns⟩ := key
    · cases h _ List.mem_cons_self
    · have hrest := ih fun other hother => h other (List.mem_cons_of_mem _ hother)
      rw [List.map_cons, uniqueName_eq, hrest]
      rfl

/-- The names made for the keys of one table are different as long as no key has the name that is
made for another. -/
theorem NamesKeys.nodup_iff (h : t.NamesKeys) :
    (t.keyNames.map t.scriptName).Nodup ↔ t.KeysApart := by
  have hself {name other : Text} : t.scriptName name = t.scriptName other ↔
      ownName t.name name = ownName t.name other := by
    unfold scriptName joinNames
    simp
  constructor
  · intro hnodup name hname hown hjoined
    have hsame : t.scriptName name = t.scriptName (joinNames t.name name) := by
      rw [hself, ownName_joinNames, hown]
    have heq := List.inj_on_of_nodup_map hnodup hname hjoined hsame
    have hlength := congrArg List.length heq
    simp only [joinNames, List.length_append, List.length_cons] at hlength
    omega
  · intro hapart
    refine h.distinct.map_on fun name hname other hother hsame => ?_
    rcases ownName_eq_iff.mp (hself.mp hsame) with heq | ⟨hown, rfl⟩ | ⟨hown, rfl⟩
    · exact heq
    · exact absurd hother (hapart name hname hown)
    · exact absurd hname (hapart other hother hown)

end Table

/-! ## Keys of all tables -/

namespace Catalog

/-- Whether names of unique keys stay apart in a script: no key of a table has the name that is made
for another of its keys, and where the name of one table goes on with an underscore to that of
another, no key of the one goes on with what follows and the own name of a key of the other. -/
structure KeysApart (c : Catalog) : Prop where
  within : ∀ t ∈ c.tables, t.KeysApart
  between : ∀ t ∈ c.tables, ∀ u ∈ c.tables, ∀ x, u.name = joinNames t.name x →
    ∀ name ∈ t.keyNames, ∀ other ∈ u.keyNames,
      ownName t.name name ≠ joinNames x (ownName u.name other)

variable {c : Catalog}

/-- The names made for the keys of different tables are different as long as no name of a table goes
on to another with names of keys that meet. -/
theorem pairwise_iff (h : c.Distinct) :
    (c.tables.Pairwise fun t u =>
        (t.keyNames.map t.scriptName).Disjoint (u.keyNames.map u.scriptName)) ↔
      ∀ t ∈ c.tables, ∀ u ∈ c.tables, ∀ x, u.name = joinNames t.name x →
        ∀ name ∈ t.keyNames, ∀ other ∈ u.keyNames,
          ownName t.name name ≠ joinNames x (ownName u.name other) := by
  constructor
  · intro hpairwise t ht u hu x hx name hname other hother hmeet
    have hne : t ≠ u := by
      rintro rfl
      have hlength := congrArg List.length hx
      simp only [joinNames, List.length_append, List.length_cons] at hlength
      omega
    have hsymm : Std.Symm fun t u : Table =>
        (t.keyNames.map t.scriptName).Disjoint (u.keyNames.map u.scriptName) :=
      ⟨fun _ _ hdisjoint => hdisjoint.symm⟩
    have hdisjoint := hpairwise.forall ht hu hne
    apply hdisjoint (List.mem_map_of_mem hname)
    have hsame : t.scriptName name = u.scriptName other :=
      joinNames_eq_iff.mpr (.inr (.inl ⟨x, hx, hmeet⟩))
    rw [hsame]
    exact List.mem_map_of_mem hother
  · intro hapart
    have hnodup : c.tables.Nodup := List.Nodup.of_map _ h
    apply hnodup.pairwise_of_forall_ne
    intro t ht u hu hne script hleft hright
    obtain ⟨name, hname, rfl⟩ := List.mem_map.mp hleft
    obtain ⟨other, hother, hsame⟩ := List.mem_map.mp hright
    rcases joinNames_eq_iff.mp hsame with ⟨heq, -⟩ | ⟨x, hx, hmeet⟩ | ⟨x, hx, hmeet⟩
    · exact hne (List.inj_on_of_nodup_map h ht hu (congrArg lower heq).symm)
    · exact hapart u hu t ht x hx other hother name hname hmeet
    · exact hapart t ht u hu x hx name hname other hother hmeet

/-- The names made for all keys are different as long as the names stay apart. -/
theorem nodup_iff (h : c.Distinct) (hkeys : ∀ t ∈ c.tables, t.NamesKeys) :
    (c.tables.flatMap fun t => t.keyNames.map t.scriptName).Nodup ↔ c.KeysApart := by
  rw [List.nodup_flatMap]
  constructor
  · rintro ⟨hwithin, hbetween⟩
    constructor
    · intro t ht
      exact (hkeys t ht).nodup_iff.mp (hwithin t ht)
    · exact (pairwise_iff h).mp hbetween
  · intro hapart
    constructor
    · intro t ht
      exact (hkeys t ht).nodup_iff.mpr (hapart.within t ht)
    · exact (pairwise_iff h).mpr hapart.between

end Catalog

namespace Plan

/-- The names of unique keys in a script are those made for the keys of its tables. -/
theorem uniqueNames_perm (catalog : Catalog) (options : PlanOptions) :
    ((Script.tables catalog (ofCatalog catalog options).1).flatMap Part.uniqueNames).Perm
      (catalog.tables.flatMap fun t => t.uniqueKeys.map (uniqueName t.name)) := by
  have hcreation (id : Nat) :
      (creation? catalog (ofCatalog catalog options).1 id).toList.flatMap Part.uniqueNames =
        (catalog.table? id).toList.flatMap fun t => t.uniqueKeys.map (uniqueName t.name) := by
    unfold creation?
    cases catalog.table? id with
    | none => rfl
    | some t =>
      rw [Option.map_some, Option.toList_some, Option.toList_some, List.flatMap_singleton,
        List.flatMap_singleton, Part.uniqueNames, uniqueNames_ofTable]
  rw [tables_eq, flatMap_uniqueNames_titled, List.filterMap_eq_flatMap_toList, List.flatMap_assoc,
    List.flatMap_congr fun id _ => hcreation id, ← flatMap_table? catalog]
  exact (order_perm catalog options).flatMap_right _

/-- The tables of a catalog have different names, and every unique key has a name that no other of
its table has. Then the names of unique keys in a planned script are different if and only if they
stay apart: no key has the name of its table, an underscore and the name of another key of the
table, and no two tables, the name of the one going on with an underscore to that of the other, have
keys that go on to the same name. -/
theorem ofCatalog_uniqueNames (catalog : Catalog) (options : PlanOptions) (h : catalog.Distinct)
    (hkeys : ∀ t ∈ catalog.tables, t.NamesKeys) :
    ((Script.tables catalog (ofCatalog catalog options).1).flatMap Part.uniqueNames).Nodup ↔
      catalog.KeysApart := by
  have hnames : (catalog.tables.flatMap fun t => t.uniqueKeys.map (uniqueName t.name)) =
      catalog.tables.flatMap fun t => t.keyNames.map t.scriptName :=
    List.flatMap_congr fun t ht => Table.map_uniqueName (hkeys t ht).named
  rw [(uniqueNames_perm catalog options).nodup_iff, hnames]
  exact Catalog.nodup_iff h hkeys

/-- Two tables, the name of the one going on with an underscore to that of the other, with keys that
are named after their tables and others. -/
def nestedCatalog : Catalog where
  tables := [
    { name := "a", uniqueKeys := [⟨some "a_b", ["x"]⟩, ⟨some "c_d", ["y"]⟩] },
    { name := "a_b", uniqueKeys := [⟨some "c", ["x"]⟩, ⟨some "a_b_d", ["y"]⟩] }]

theorem ofCatalog_uniqueNames_nested :
    nestedCatalog.Distinct ∧ (∀ t ∈ nestedCatalog.tables, t.NamesKeys) ∧
      nestedCatalog.KeysApart := by
  have hdistinct : nestedCatalog.Distinct := by
    unfold Catalog.Distinct
    decide +kernel
  have hkeys : ∀ t ∈ nestedCatalog.tables, t.NamesKeys := by
    intro t ht
    rcases List.mem_pair.mp ht with rfl | rfl <;> exact ⟨by decide, by decide⟩
  have hnodup : ((Script.tables nestedCatalog (ofCatalog nestedCatalog {}).1).flatMap
      Part.uniqueNames).Nodup := by
    decide +kernel
  exact ⟨hdistinct, hkeys, (ofCatalog_uniqueNames nestedCatalog {} hdistinct hkeys).mp hnodup⟩

/-- A table with one key that has the name of the table and that of another. -/
def usersTable : Table where
  name := "users"
  columns := [{ name := "email", type := "int" }, { name := "name", type := "int" }]
  uniqueKeys := [⟨some "email", ["email"]⟩, ⟨some "users_email", ["name"]⟩]

/-- Both keys get the same name. -/
theorem ofCatalog_uniqueNames_shared :
    Table.parse? ("CREATE TABLE users (email int, name int, UNIQUE KEY email (email), " ++
        "UNIQUE KEY users_email (name))") = some (usersTable, []) ∧
      (Catalog.insert {} usersTable).Distinct ∧
      (∀ t ∈ (Catalog.insert {} usersTable).tables, t.NamesKeys) ∧
      ¬((Script.tables (Catalog.insert {} usersTable)
        (ofCatalog (Catalog.insert {} usersTable) {}).1).flatMap Part.uniqueNames).Nodup := by
  have hnames : (Script.tables (Catalog.insert {} usersTable)
      (ofCatalog (Catalog.insert {} usersTable) {}).1).flatMap Part.uniqueNames =
        ["users_email", "users_email"] := by
    decide +kernel
  refine ⟨by decide +kernel, Catalog.distinct_insert (c := {}) List.nodup_nil usersTable, ?_, ?_⟩
  · intro t ht
    obtain rfl := List.mem_singleton.mp ht
    exact ⟨by decide, by decide⟩
  · rw [hnames]
    decide

end Plan

end SqlDump
