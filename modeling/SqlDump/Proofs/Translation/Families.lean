import SqlDump.Proofs.Postgres.Columns
import SqlDump.Proofs.Translation.Neighbours
import SqlDump.Proofs.Translation.Spelling

/-!
# Families of values and types of columns

The families for the values of a statement are told by the tables as the schema pass left them, and
so are the types of the columns in a script. A value is written for the family of the column that it
goes to, by the column list of its statement where there is one. So a number is written as `TRUE` or
`FALSE` only for a column that is created as `BOOLEAN`, as long as no AUTO_INCREMENT column is of
type tinyint(1).

Main statements: `Translation.getD_familiesFor`, the family for a value is that of the column that
it goes to; `execute_families`, families and types in the script of a dump go together;
`execute_numbered_truths`, a script that writes `TRUE` to a serial column.
-/

namespace SqlDump

open Text

/-- The column of a table to which the `n`-th value of a row goes. -/
def Table.target? (t : Table) (columns : Option (List Text)) (n : Nat) : Option Column :=
  match columns with
  | none => t.columns[n]?
  | some names => names[n]?.bind t.column?

/-- The column of a created table to which the `n`-th value of a row goes. -/
def Postgres.CreateTable.target? (c : CreateTable) (columns : Option (List Text)) (n : Nat) :
    Option ColumnItem :=
  match columns with
  | none => c.columns[n]?
  | some names => names[n]?.bind fun name => c.columns.find? fun item => sameAscii item.name name

namespace Postgres

variable (t : Table) (flags : List Bool)

/-- A value goes to the column in a created table that stands for the one it goes to in the
table. -/
theorem target?_ofTable (columns : Option (List Text)) (n : Nat) :
    (CreateTable.ofTable t flags).target? columns n =
      (t.target? columns n).map (ColumnItem.ofColumn t) := by
  unfold CreateTable.target? Table.target?
  rw [columns_ofTable]
  cases columns with
  | none => exact List.getElem?_map ..
  | some names =>
    dsimp only
    cases names[n]? with
    | none => rfl
    | some name =>
      rw [Option.bind_some, Option.bind_some, List.find?_map, Table.column?]
      simp only [Function.comp_def, name_ofColumn]

end Postgres

namespace Translation

variable {t : Translation} {i : Insert}

/-- The families of the columns are those of the tables. -/
theorem getD_families (hfamilies : t.families = t.catalog.tables.map Postgres.families) {id : Nat}
    {table : Table} (htable : t.catalog.table? id = some table) :
    t.families.getD id [] = Postgres.families table := by
  have hget : t.catalog.tables[id]? = some table := htable
  rw [List.getD_eq_getElem?_getD, hfamilies, List.getElem?_map, hget]
  rfl

/-- A column is found by its place as by its name. -/
theorem families_columnIndex? (table : Table) (name : Text) :
    (table.columnIndex? name).bind ((Postgres.families table)[·]?) =
      (table.column? name).map fun c => (ColumnType.map c.type).family := by
  unfold Table.columnIndex? Table.column? Postgres.families
  induction table.columns with
  | nil => rfl
  | cons c columns ih =>
    rw [List.findIdx?_cons, List.find?_cons, List.map_cons]
    cases sameAscii c.name name with
    | true => rfl
    | false =>
      rw [← ih]
      cases columns.findIdx? fun c => sameAscii c.name name <;> rfl

/-- The family for a value is that of the column that it goes to. -/
theorem getD_familiesFor (hfamilies : t.families = t.catalog.tables.map Postgres.families)
    {table : Table} (htable : t.catalog.find? i.table = some table) (n : Nat) :
    (t.familiesFor i).getD n .other =
      ((table.target? i.columns n).map fun c => (ColumnType.map c.type).family).getD .other := by
  obtain ⟨id, hid, hfound⟩ := Option.bind_eq_some_iff.mp htable
  have hknown := getD_families hfamilies hfound
  unfold familiesFor Table.target?
  rw [hid]
  dsimp only
  rw [hknown, hfound, List.getD_eq_getElem?_getD]
  cases i.columns with
  | none =>
    dsimp only
    rw [Postgres.families, List.getElem?_map]
  | some names =>
    dsimp only
    rw [List.getElem?_map]
    cases names[n]? with
    | none => rfl
    | some name => rw [Option.map_some, Option.getD_some, families_columnIndex?, Option.bind_some]

theorem familiesFor_of_unknown (h : t.catalog.find? i.table = none) : t.familiesFor i = [] := by
  unfold familiesFor
  cases hid : t.catalog.id? i.table with
  | none => rfl
  | some id =>
    obtain ⟨table, hfound⟩ := Catalog.exists_table? (Catalog.id?_lt hid)
    rw [Catalog.find?, hid, Option.bind_some, hfound] at h
    cases h

/-- Rows are written for the columns that the schema pass knows. -/
theorem families_produceScript (hmode : t.options.mode = .full) {source : Source}
    {name : Option Text} {families : List TypeFamily}
    (h : .insert i families ∈ (t.produceScript source name).script) :
    families = t.familiesFor i := by
  have hexport : (i, families) ∈ (t.exportsOf source.data).filter fun e => !e.1.rows.isEmpty := by
    rw [← (produceScript_full hmode source name).2]
    exact List.mem_filterMap.mpr ⟨_, h, rfl⟩
  obtain ⟨s, -, heq⟩ := List.mem_map.mp (List.mem_filter.mp hexport).1
  obtain ⟨rfl, rfl⟩ := Prod.mk.inj heq
  rfl

end Translation

/-! ### Whole scripts -/

/-- What a script writes to the tables of a catalog is written for the columns that it creates. -/
structure Postgres.Script.Typed (script : Script) (catalog : Catalog) : Prop where
  /-- The family for each value goes with the type of the column that the value goes to. -/
  agrees : ∀ i families, .insert i families ∈ script →
    ∀ table, catalog.find? i.table = some table →
      ∃ flags, .create (.ofTable table flags) ∈ script ∧
        ∀ n item, (CreateTable.ofTable table flags).target? i.columns n = some item →
          (families.getD n .other).Agrees item.type
  /-- A token that is neither `TRUE` nor `FALSE` is written so only to a column that is created as
  `BOOLEAN`. -/
  truths : ∀ i families, .insert i families ∈ script →
    ∀ place token written, cell? i.rows place = some (.bare token) → isTruth token = false →
      cell? (cells i families) place = some written → isTruth written = true →
        ∃ table flags item, catalog.find? i.table = some table ∧
          .create (.ofTable table flags) ∈ script ∧
          (CreateTable.ofTable table flags).target? i.columns place.2 = some item ∧
          item.type = "BOOLEAN"

/-- No AUTO_INCREMENT column is of type tinyint(1). -/
def Catalog.NumbersApart (c : Catalog) : Prop :=
  ∀ table ∈ c.tables, ∀ column ∈ table.columns, Postgres.numbersTruths column = false

instance : DecidablePred Catalog.NumbersApart := fun c =>
  inferInstanceAs (Decidable (∀ table ∈ c.tables, ∀ column ∈ table.columns,
    Postgres.numbersTruths column = false))

theorem Table.mem_of_target? {t : Table} {columns : Option (List Text)} {n : Nat} {c : Column}
    (h : t.target? columns n = some c) : c ∈ t.columns := by
  unfold target? at h
  cases columns with
  | none => exact List.mem_of_getElem? h
  | some names =>
    obtain ⟨name, -, hname⟩ := Option.bind_eq_some_iff.mp h
    exact List.mem_of_find?_eq_some hname

/-- The families and the types in a script go together where no AUTO_INCREMENT column is of type
tinyint(1). -/
theorem Translation.typed_produceScript {t : Translation} (hmode : t.options.mode = .full)
    (hfamilies : t.families = t.catalog.tables.map Postgres.families) {asked : PlanOptions}
    (hplan : t.plan = (Plan.ofCatalog t.catalog asked).1) (hapart : t.catalog.NumbersApart)
    (source : Source) (name : Option Text) :
    (t.produceScript source name).script.Typed t.catalog := by
  have hagrees {i : Insert} {table : Table} (htable : t.catalog.find? i.table = some table)
      (flags : List Bool) {n : Nat} {item : Postgres.ColumnItem}
      (hitem : (Postgres.CreateTable.ofTable table flags).target? i.columns n = some item) :
      ((t.familiesFor i).getD n .other).Agrees item.type := by
    rw [Postgres.target?_ofTable] at hitem
    obtain ⟨c, hc, rfl⟩ := Option.map_eq_some_iff.mp hitem
    obtain ⟨id, -, hid⟩ := Option.bind_eq_some_iff.mp htable
    rw [getD_familiesFor hfamilies htable, hc]
    exact Postgres.agrees_ofColumn table
      (hapart table (List.mem_of_getElem? hid) c (Table.mem_of_target? hc))
  constructor
  · intro i families hinsert table htable
    obtain rfl := families_produceScript hmode hinsert
    obtain ⟨flags, hcreated⟩ := created_produceScript hplan htable source name
    exact ⟨flags, hcreated, fun n item hitem => hagrees htable flags hitem⟩
  · intro i families hinsert place token written hcell htoken hwritten htruth
    obtain rfl := families_produceScript hmode hinsert
    rw [Postgres.cell?_cells, hcell, Option.map_some, Option.some.injEq] at hwritten
    rw [← hwritten] at htruth
    have hboolean := Postgres.family_of_renderValue htoken htruth
    cases htable : t.catalog.find? i.table with
    | none =>
      rw [familiesFor_of_unknown htable] at hboolean
      cases hboolean
    | some table =>
      obtain ⟨flags, hcreated⟩ := created_produceScript hplan htable source name
      cases htarget : table.target? i.columns place.2 with
      | none =>
        rw [getD_familiesFor hfamilies htable, htarget] at hboolean
        cases hboolean
      | some c =>
        have hitem : (Postgres.CreateTable.ofTable table flags).target? i.columns place.2 =
            some (.ofColumn table c) := by
          rw [Postgres.target?_ofTable, htarget, Option.map_some]
        have hagree := hagrees htable flags hitem
        rw [hboolean] at hagree
        exact ⟨table, flags, _, rfl, hcreated, hitem, hagree.sql_eq⟩

/-- Where no AUTO_INCREMENT column is of type tinyint(1), families and types in the script of a dump
go together, and a number is written as `TRUE` or `FALSE` only to a column that is created as
`BOOLEAN`. -/
theorem execute_families (bs : Octets) (options : Options) (name : Option Text)
    (hmode : options.mode = .full)
    (hapart : (Translation.ofSource (.ofOctets bs) options).catalog.NumbersApart) :
    ∃ produced, execute (.ofOctets bs) options .script name = .ok produced ∧
      produced.script.Typed (Translation.ofSource (.ofOctets bs) options).catalog := by
  obtain ⟨asked, hplan⟩ : ∃ asked, (Translation.ofSource (.ofOctets bs) options).plan =
      (Plan.ofCatalog (Translation.ofSource (.ofOctets bs) options).catalog asked).1 := ⟨_, rfl⟩
  have hrun : execute (.ofOctets bs) options .script name = .ok
      ((Translation.ofSource (.ofOctets bs) options).produceScript (.ofOctets bs) name) := by
    simp only [execute, hmode]
  have hfull : (Translation.ofSource (.ofOctets bs) options).options.mode = .full := by
    rw [Translation.options_ofSource, hmode]
  exact ⟨_, hrun, Translation.typed_produceScript hfull (Translation.families_ofSource ..) hplan
    hapart (.ofOctets bs) name⟩

/-- A dump with booleans in two tables, by a column list and by the order of the columns. -/
def truthsDump : Octets :=
  .ofText ("CREATE TABLE t (id int AUTO_INCREMENT PRIMARY KEY, b tinyint(1));\n" ++
    "CREATE TABLE u (n int, b bool);\nINSERT INTO t (B, id) VALUES (1, 1);\n" ++
    "INSERT INTO U VALUES (1, 0);\n")

theorem execute_families_truths :
    (Translation.ofSource (.ofOctets truthsDump) {}).catalog.NumbersApart ∧
    ∃ produced, execute (.ofOctets truthsDump) {} .script none = .ok produced ∧
      produced.script.Typed (Translation.ofSource (.ofOctets truthsDump) {}).catalog := by
  have hapart : (Translation.ofSource (.ofOctets truthsDump) {}).catalog.NumbersApart := by
    decide +kernel
  exact ⟨hapart, execute_families truthsDump {} none rfl hapart⟩

/-- A dump with an AUTO_INCREMENT column of type tinyint(1). -/
def numberedTruthsDump : Octets :=
  .ofText ("CREATE TABLE t (id tinyint(1) AUTO_INCREMENT PRIMARY KEY);\n" ++
    "INSERT INTO t VALUES (1);\n")

/-- The column is created as serial, and its number is written as `TRUE`. -/
theorem execute_numbered_truths :
    (execute (.ofOctets numberedTruthsDump) {} .script none).toOption.map
      (fun produced => produced.script.filterMap Postgres.Part.statement?) =
        some (["CREATE TABLE \"t\" (\n    \"id\" SERIAL PRIMARY KEY\n);",
          "INSERT INTO \"t\" VALUES\n(TRUE);",
          "SELECT setval(pg_get_serial_sequence('\"t\"', 'id'), " ++
            "COALESCE((SELECT MAX(\"id\") FROM \"t\"), 0) + 1, false);"] : List Text) := by
  decide +kernel

end SqlDump
