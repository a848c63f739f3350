import SqlDump.Proofs.Plan.Emission
import SqlDump.Proofs.Postgres.SequenceReset
import SqlDump.Proofs.Translation.Limits

/-!
# Tables and resets of sequences in a script

A script creates the tables of the plan before the rows and moves the sequences of their serial
columns behind them. The data pass in between writes rows and texts of the dump only, and leaves the
tables, the plan and the options as they are.

Main statements: `Translation.filter_produceScript`, the tables and resets of a script;
`Translation.resets_produceScript`, the resets are about the columns that are created as serial.
-/

namespace SqlDump

open Text

namespace Postgres

namespace Part

/-- The statement of a part that creates a table. -/
def createTable? : Part → Option CreateTable
  | create statement => some statement
  | _ => none

/-- The printed statement of a part that moves a sequence. -/
def reset? : Part → Option Text
  | p@(sequence _ _) => p.statement?
  | _ => none

/-- Whether a part creates a table or moves a sequence. -/
def isTableOrReset (p : Part) : Bool := p.createTable?.isSome || p.reset?.isSome

variable {p : Part}

theorem createTable?_eq_none (h : p.isTableOrReset = false) : p.createTable? = none := by
  obtain ⟨hcreate, -⟩ := Bool.or_eq_false_iff.mp h
  exact Option.isNone_iff_eq_none.mp (Option.isSome_eq_false_iff.mp hcreate)

theorem reset?_eq_none (h : p.isTableOrReset = false) : p.reset? = none := by
  obtain ⟨-, hreset⟩ := Bool.or_eq_false_iff.mp h
  exact Option.isNone_iff_eq_none.mp (Option.isSome_eq_false_iff.mp hreset)

end Part

namespace Script

/-- The tables of a plan in the order of their creation, each with its statement. -/
def creations (catalog : Catalog) (plan : Plan) : List (Table × CreateTable) :=
  (planned catalog plan).map fun (id, t) => (t, .ofTable t (plan.inline.getD id []))

/-- The AUTO_INCREMENT columns, table by table in the order of their creation. -/
def resets (catalog : Catalog) (plan : Plan) : List (Text × Text) :=
  (planned catalog plan).flatMap fun (_, t) =>
    (serialColumns t).map fun c => (t.name, c.name)

theorem filter_titled (title : Text) (parts : Script) :
    (titled title parts).filter Part.isTableOrReset = parts.filter Part.isTableOrReset := by
  unfold titled
  split
  · next hempty => rw [List.isEmpty_iff.mp hempty]
  · rfl

theorem filter_map_nil {α : Type} {f : α → Part} (h : ∀ x, (f x).isTableOrReset = false)
    (xs : List α) : (xs.map f).filter Part.isTableOrReset = [] := by
  rw [List.filter_map, List.map_eq_nil_iff, List.filter_eq_nil_iff]
  intro x _
  simp [h x]

theorem filter_map_self {α : Type} {f : α → Part} (h : ∀ x, (f x).isTableOrReset = true)
    (xs : List α) : (xs.map f).filter Part.isTableOrReset = xs.map f := by
  rw [List.filter_eq_self]
  intro part hpart
  obtain ⟨x, -, rfl⟩ := List.mem_map.mp hpart
  exact h x

theorem filter_tables (catalog : Catalog) (plan : Plan) :
    (tables catalog plan).filter Part.isTableOrReset =
      (creations catalog plan).map fun creation => .create creation.2 := by
  rw [tables, filter_titled, filter_map_self fun _ => rfl, creations, List.map_map]
  rfl

theorem filter_sequences (catalog : Catalog) (plan : Plan) :
    (sequences catalog plan).filter Part.isTableOrReset =
      (resets catalog plan).map fun reset => .sequence reset.1 reset.2 := by
  have hparts : (planned catalog plan).flatMap (fun (_, t) =>
      (serialColumns t).map fun c => Part.sequence t.name c.name) =
        (resets catalog plan).map fun reset => .sequence reset.1 reset.2 := by
    simp only [resets, List.map_flatMap, List.map_map]
    rfl
  rw [sequences, List.filter_cons_of_neg (by decide), filter_titled, hparts,
    filter_map_self fun _ => rfl]

/-- The resets are about the columns that are created as serial. -/
theorem resets_eq (catalog : Catalog) (plan : Plan) :
    resets catalog plan = (creations catalog plan).flatMap fun (t, statement) =>
      (serialItems t statement).map fun item => (statement.name, item.name) := by
  rw [resets, creations, List.flatMap_map]
  refine List.flatMap_congr fun planned _ => ?_
  dsimp only
  rw [serialItems_ofTable, List.map_map]
  simp only [Function.comp_def, name_ofColumn]
  rfl

/-- A plan has every table once. -/
theorem perm_creations (catalog : Catalog) (asked : PlanOptions) :
    ((creations catalog (Plan.ofCatalog catalog asked).1).map Prod.fst).Perm catalog.tables := by
  have hplanned (order : List Nat) :
      (order.filterMap fun id => (catalog.table? id).map (id, ·)).map Prod.snd =
        order.filterMap catalog.table? := by
    simp [List.map_filterMap, Function.comp_def]
  have hall : (List.range catalog.size).filterMap catalog.table? = catalog.tables := by
    have htables := Plan.flatMap_table? catalog fun t => [t]
    simpa [List.filterMap_eq_flatMap_toList, List.flatMap_singleton'] using htables
  have hmap : (creations catalog (Plan.ofCatalog catalog asked).1).map Prod.fst =
      (Plan.ofCatalog catalog asked).1.order.filterMap catalog.table? := by
    rw [← hplanned, creations, List.map_map]
    rfl
  rw [hmap, ← hall]
  exact (Plan.order_perm catalog asked).filterMap _

end Script

end Postgres

namespace Translation

open Postgres (Part Script SequenceReset serialItems)

variable {t : Translation}

/-! ### The data pass -/

theorem options_writeData (t : Translation) (s : PlacedStatement) :
    (t.writeData s).1.options = t.options := by
  unfold writeData
  split
  · rfl
  · unfold writeInsert noteZeroDates
    dsimp only
    split
    · rfl
    · split <;> rfl
  · unfold writeOther passStatement passComment
    repeat' split
    all_goals rfl

theorem options_writeAll (t : Translation) (ss : List PlacedStatement) :
    (t.writeAll ss).1.options = t.options := by
  induction ss generalizing t with
  | nil => rfl
  | cons s ss ih => rw [writeAll_cons, ih, options_writeData]

/-- The epilogue is the same before the data pass and behind it. -/
theorem epilogue_writeAll (t : Translation) (ss : List PlacedStatement) :
    (t.writeAll ss).1.epilogue = t.epilogue := by
  obtain ⟨-, hsame⟩ := isData_writeAll t ss
  rw [epilogue, epilogue, options_writeAll, hsame.catalog, hsame.plan]

theorem filter_writeAll (t : Translation) (ss : List PlacedStatement) :
    (t.writeAll ss).2.filter Part.isTableOrReset = [] := by
  refine List.filter_eq_nil_iff.mpr fun part hpart => ?_
  cases (isData_writeAll t ss).1 part hpart <;> exact Bool.false_ne_true

/-! ### The script -/

theorem filter_schemaScript (t : Translation) (name : Option Text) :
    (t.schemaScript name).filter Part.isTableOrReset =
      (Script.creations t.catalog t.plan).map fun creation => .create creation.2 := by
  have hdrops : (if t.options.dropTables then Script.drops t.catalog t.plan else []).filter
      Part.isTableOrReset = [] := by
    split
    · rw [Script.drops, Script.filter_titled]
      exact Script.filter_map_nil (fun _ => rfl) _
    · rfl
  have hstatements :
      (Script.schemaStatements t.passthrough).filter Part.isTableOrReset = [] := by
    rw [Script.schemaStatements, Script.filter_titled]
    exact Script.filter_map_nil (fun _ => rfl) _
  have hheading : (if t.options.mode = .full then [Part.heading "Data"] else []).filter
      Part.isTableOrReset = [] := by
    split <;> rfl
  unfold schemaScript
  simp only [List.filter_append, hdrops, hstatements, hheading, Script.filter_tables,
    List.append_nil]
  rfl

theorem filter_epilogue (hmode : t.options.mode = .full) :
    t.epilogue.filter Part.isTableOrReset =
      (Script.resets t.catalog t.plan).map fun reset => .sequence reset.1 reset.2 := by
  have hkeys : (Script.deferred t.catalog t.plan).filter Part.isTableOrReset = [] := by
    rw [Script.deferred, Script.filter_titled]
    exact Script.filter_map_nil (fun _ => rfl) _
  rw [epilogue, if_pos hmode, List.filter_append, Script.filter_sequences, hkeys, List.append_nil]

/-- A script in full mode creates the tables of the plan and then moves the sequences. -/
theorem filter_produceScript (hmode : t.options.mode = .full) (source : Source)
    (name : Option Text) :
    (t.produceScript source name).script.filter Part.isTableOrReset =
      ((Script.creations t.catalog t.plan).map fun creation => .create creation.2) ++
        (Script.resets t.catalog t.plan).map fun reset => .sequence reset.1 reset.2 := by
  have hepilogue := epilogue_writeAll (t.writeSchema name).1 source.data
  rw [produceScript_eq hmode]
  dsimp only
  rw [hepilogue, List.filter_append, List.filter_append, filter_schemaScript, filter_writeAll,
    List.append_nil]
  exact congrArg _ (filter_epilogue (t := (t.writeSchema name).1) hmode)

/-- Whatever is taken from tables and resets only is taken from those of the script. -/
theorem filterMap_produceScript {α : Type} {f : Part → Option α}
    (h : ∀ part, part.isTableOrReset = false → f part = none) (hmode : t.options.mode = .full)
    (source : Source) (name : Option Text) :
    (t.produceScript source name).script.filterMap f =
      ((Script.creations t.catalog t.plan).filterMap fun creation => f (.create creation.2)) ++
        (Script.resets t.catalog t.plan).filterMap fun reset => f (.sequence reset.1 reset.2) := by
  have hkept : (fun part => if Part.isTableOrReset part then f part else none) = f := by
    funext part
    cases hpart : part.isTableOrReset with
    | false => simp [h part hpart]
    | true => rfl
  have hparts := congrArg (List.filterMap f) (filter_produceScript hmode source name)
  rw [List.filterMap_filter, hkept, List.filterMap_append, List.filterMap_map,
    List.filterMap_map] at hparts
  exact hparts

/-- In full mode a script moves one sequence for each column that it creates as serial, other than
by passing a type of the dump through, in the order of the plan and then of the columns. Each reset
is about just this table and this column, whatever their names are, and there are no others. The
plan of a catalog has every table once. -/
theorem resets_produceScript (hmode : t.options.mode = .full) (source : Source)
    (name : Option Text) :
    (t.produceScript source name).script.filterMap Part.createTable? =
      (Script.creations t.catalog t.plan).map Prod.snd ∧
    ((t.produceScript source name).script.filterMap Part.reset?).map SequenceReset.read? =
      ((Script.creations t.catalog t.plan).flatMap fun (table, statement) =>
        (serialItems table statement).map fun item =>
          some { table := statement.name, column := item.name }) ∧
    ∀ asked, t.plan = (Plan.ofCatalog t.catalog asked).1 →
      ((Script.creations t.catalog t.plan).map Prod.fst).Perm t.catalog.tables := by
  refine ⟨?_, ?_, ?_⟩
  · rw [filterMap_produceScript (fun _ => Part.createTable?_eq_none) hmode]
    simp [Part.createTable?]
  · have hprinted : (t.produceScript source name).script.filterMap Part.reset? =
        (Script.resets t.catalog t.plan).map fun reset =>
          Postgres.renderSequence reset.1 reset.2 := by
      rw [filterMap_produceScript (fun _ => Part.reset?_eq_none) hmode]
      simp [Part.reset?, Part.statement?]
    rw [hprinted, Script.resets_eq, List.map_map, List.map_flatMap]
    simp only [List.map_map, Function.comp_def, SequenceReset.read?_renderSequence]
  · intro asked hplan
    rw [hplan]
    exact Script.perm_creations t.catalog asked

/-- The script for a dump, with nothing asked for. -/
def plainScript (bs : Octets) : Script :=
  ((ofSource (.ofOctets bs) {}).produceScript (.ofOctets bs) none).script

/-- A dump with quotes of both kinds in names, and with columns of all kinds that number rows. -/
def numberedDump : Octets :=
  .ofText ("CREATE TABLE `o\x27\x22t` (`i\x27\x22d` int AUTO_INCREMENT PRIMARY KEY, n int);\n" ++
    "CREATE TABLE u (b bigint(20) AUTO_INCREMENT UNIQUE, t tinyint(1) AUTO_INCREMENT, " ++
    "d decimal(9) AUTO_INCREMENT, s SERIAL);\n")

theorem resets_produceScript_numbered :
    (ofSource (.ofOctets numberedDump) {}).options.mode = .full ∧
    ((plainScript numberedDump).filterMap Part.reset?).map SequenceReset.read? =
      [some ⟨"o\x27\x22t", "i\x27\x22d"⟩, some ⟨"u", "b"⟩, some ⟨"u", "t"⟩] := by
  have hmode : (ofSource (.ofOctets numberedDump) {}).options.mode = .full := by
    rw [options_ofSource]
  obtain ⟨-, hresets, -⟩ := resets_produceScript hmode (.ofOctets numberedDump) none
  exact ⟨hmode, hresets.trans (by decide +kernel)⟩

/-- A dump with a column of the type that the target makes a sequence for. -/
def passedSerialDump : Octets := .ofText "CREATE TABLE t (id SERIAL);\n"

/-- A type that is passed through is created as serial, and its sequence is left where it is. -/
theorem resets_produceScript_passed :
    ((plainScript passedSerialDump).filterMap Part.createTable?).map
        (fun statement => (statement.name, statement.columns.map fun item => (item.name, item.type))) =
      [(("t" : Text), [(("id" : Text), ("SERIAL" : Text))])] ∧
    (plainScript passedSerialDump).filterMap Part.reset? = [] := by
  decide +kernel

end Translation

end SqlDump
