import SqlDump.Csv.Store
import SqlDump.Document
import SqlDump.Postgres.Script
import SqlDump.Schema.Alter

/-!
# The state of a run

A run passes over the dump twice. The schema pass collects the tables and what else belongs to the
schema; then the plan is made; the data pass turns rows into a script or into files.
-/

namespace SqlDump

open Text

/-- What a run counts. -/
structure Stats where
  /-- The statements of the dump. -/
  statements : Nat := 0
  tables : Nat := 0
  /-- The `INSERT` statements that are read. -/
  inserts : Nat := 0
  rows : Nat := 0
  /-- The statements passed through. -/
  passthrough : Nat := 0
  /-- The statements left out for being of no use. -/
  skipped : Nat := 0
  deferredKeys : Nat := 0
  /-- The CSV files. -/
  files : Nat := 0
  deriving DecidableEq, Repr

/-- What a run knows and has to tell. -/
structure Translation where
  options : Options
  catalog : Catalog := {}
  /-- For each table, by number, the place of its definition: statement and offset. -/
  origins : List (Nat × Nat) := []
  /-- The schema statements to pass through. -/
  passthrough : List Text := []
  plan : Plan := {}
  /-- For each table, by number, the families of its columns. -/
  families : List (List TypeFamily) := []
  diagnostics : Diagnostics
  stats : Stats := {}
  deriving Repr

namespace Translation

/-- A run before its first statement. -/
def start (options : Options) : Translation where
  options := options
  diagnostics := { limit := options.diagnosticsLimit }

def record (t : Translation) (d : Diagnostic) : Translation :=
  { t with diagnostics := t.diagnostics.push d }

def recordOnce (t : Translation) (d : Diagnostic) : Translation :=
  { t with diagnostics := t.diagnostics.pushOnce d }

def recordAll (t : Translation) (notes : List Diagnostic) : Translation :=
  { t with diagnostics := t.diagnostics.pushAll notes }

/-- Changes the counts. -/
def count (t : Translation) (f : Stats → Stats) : Translation := { t with stats := f t.stats }

/-- A note on a statement, and on a table where it has a name. -/
def noteOn (s : PlacedStatement) (kind : DiagnosticKind) (table message : Text) : Diagnostic where
  kind := kind
  message := message
  statement := some s.index
  offset := some s.offset
  table := if table.isEmpty then none else some table

/-- The places of definitions with that of one table set. -/
def setOrigin (origins : List (Nat × Nat)) (id : Nat) (origin : Nat × Nat) : List (Nat × Nat) :=
  if id < origins.length then origins.set id origin else origins ++ [origin]

/-- Takes a table into the catalog. A later definition takes the place of an earlier one. -/
def define (t : Translation) (s : PlacedStatement) (table : Table) : Translation :=
  let t := t.recordAll s.notes
  let t' := { t with
    catalog := t.catalog.insert table
    origins := setOrigin t.origins (t.catalog.insertId table) (s.index, s.offset) }
  if t.catalog.defines table.name then
    t'.record (noteOn s .duplicateTable table.name
      ("table " ++ table.name ++ " defined again; the later definition wins"))
  else
    t'

/-- Passes a statement through with the schema. -/
def passSchema (t : Translation) (text : Text) : Translation :=
  { t with passthrough := t.passthrough ++ (Postgres.renderOther? text).toList }

/-- Applies an `ALTER TABLE` to the catalog and passes through what remains of it. -/
def alter (t : Translation) (s : PlacedStatement) (o : OtherStatement) : Translation :=
  match Alteration.parse? t.catalog o.text with
  | some (a, catalog) =>
    let t := { t with
      catalog := catalog, diagnostics := t.diagnostics.pushAt a.notes s.index s.offset }
    match a.remainder with
    | some text => t.passSchema text
    | none => t
  | none =>
    (t.record (noteOn s .unsupportedClause o.table
      ("ALTER TABLE on undefined table " ++ o.table ++ " passed through"))).passSchema o.text

/-- The message for a statement of no known kind. -/
def unclassifiedMessage (mode : Mode) (isCreate : Bool) : Text :=
  if isCreate || mode != .schema then "unrecognized statement passed through"
  else "unrecognized statement left out of schema output"

/-- The schema pass on a statement that is no table definition. -/
def schemaOther (t : Translation) (s : PlacedStatement) (o : OtherStatement) : Translation :=
  let t := t.recordAll s.notes
  if !o.terminated then t
  else
    match o.kind with
    | .alterTable => t.alter s o
    | .createTable =>
      (t.record (noteOn s .unsupportedClause o.table
        "CREATE TABLE without a column list passed through")).passSchema o.text
    | .unknown =>
      let isCreate := Statement.isCreate o.text
      let t := t.record
        (noteOn s .unclassifiedStatement [] (unclassifiedMessage t.options.mode isCreate))
      if isCreate then t.passSchema o.text else t
    | _ => t

/-- The schema pass on one statement. -/
def schemaStatement (t : Translation) (s : PlacedStatement) : Translation :=
  match s.statement with
  | .create table => t.define s table
  | .insert _ => t
  | .other o => t.schemaOther s o

/-- A note of the plan, placed where the table it is about was defined. -/
def placePlanNote (t : Translation) (note : Diagnostic) : Diagnostic :=
  match (note.table.bind t.catalog.id?).bind (t.origins[·]?) with
  | some (index, offset) => note.stamp index offset
  | none => note

/-- Makes the plan, once the schema pass is done. -/
def finishSchema (t : Translation) : Translation :=
  let (plan, notes) := Plan.ofCatalog t.catalog
    { pinned := t.options.pinned, deferAll := t.options.mode == .schema }
  { t with
    plan := plan
    families := t.catalog.tables.map Postgres.families
    diagnostics := t.diagnostics.pushAll (notes.map t.placePlanNote)
    stats := { t.stats with tables := t.catalog.size, deferredKeys := plan.deferred.length } }

/-- The notes on the tables as they are created, each placed where its table was defined. -/
def createNotes (t : Translation) : List Diagnostic :=
  (Postgres.Script.planned t.catalog t.plan).flatMap fun (id, table) =>
    let (index, offset) := t.origins.getD id (0, 0)
    (Postgres.createNotes table).map (·.stamp index offset)

/-- The script up to the data. -/
def schemaScript (t : Translation) (source : Option Text) : Postgres.Script :=
  [.preamble source t.options.mode] ++
    (if t.options.dropTables then Postgres.Script.drops t.catalog t.plan else []) ++
    Postgres.Script.tables t.catalog t.plan ++ Postgres.Script.schemaStatements t.passthrough ++
    (if t.options.mode = .full then [.heading "Data"] else [])

/-- Writes the script up to the data. -/
def writeSchema (t : Translation) (source : Option Text) : Translation × Postgres.Script :=
  let written := (t.recordAll t.createNotes).count fun stats =>
    { stats with passthrough := stats.passthrough + t.passthrough.length }
  (written, t.schemaScript source)

/-- The families of the values of a statement, by its column list where it has one. -/
def familiesFor (t : Translation) (i : Insert) : List TypeFamily :=
  match t.catalog.id? i.table with
  | none => []
  | some id =>
    let known := t.families.getD id []
    match i.columns, t.catalog.table? id with
    | some columns, some table =>
      columns.map fun c => ((table.columnIndex? c).bind (known[·]?)).getD .other
    | _, _ => known

/-- The number of values that a row of a statement should have, if that is known. -/
def expectedWidth? (t : Translation) (i : Insert) : Option Nat :=
  match i.columns with
  | some columns => some columns.length
  | none => (t.catalog.find? i.table).map (·.columns.length)

/-- The notes on rows of another width. Rows are counted from one. -/
def arityNotes (t : Translation) (s : PlacedStatement) (i : Insert) : List Diagnostic :=
  match t.expectedWidth? i with
  | none => []
  | some expected =>
    (i.rows.mapIdx fun n row => (n, row.length)).filterMap fun (n, width) =>
      if width = expected then none
      else
        some (noteOn s .rowArityMismatch i.table
          ("row " ++ ofNat (n + 1) ++ " has " ++ ofNat width ++ " values, expected " ++
            ofNat expected))

/-- The note on what follows the rows of a statement. -/
def trailingNote? (s : PlacedStatement) (i : Insert) : Option Diagnostic :=
  i.trailing.map fun clause =>
    noteOn s .unsupportedClause i.table
      ("trailing clause dropped: " ++ join " " ((words clause).take 4) ++ " ...")

/-- Counts an `INSERT` and notes what is wrong with it. -/
def checkInsert (t : Translation) (s : PlacedStatement) (i : Insert) : Translation :=
  let t := t.count fun stats =>
    { stats with inserts := stats.inserts + 1, rows := stats.rows + i.rows.length }
  t.recordAll (s.notes ++ t.arityNotes s i ++ (trailingNote? s i).toList)

/-- Notes how many zero dates a statement had. -/
def noteZeroDates (t : Translation) (s : PlacedStatement) (table : Text) (n : Nat) : Translation :=
  if n = 0 then t
  else
    t.record (noteOn s .lossyConversion table
      (ofNat n ++ " zero date value(s) written as NULL"))

/-- Counts a statement left out. -/
def skip (t : Translation) : Translation :=
  t.count fun stats => { stats with skipped := stats.skipped + 1 }

/-- Writes a text of the dump, and counts it as passed through. -/
def pass (t : Translation) (sql : Text) : Translation × Postgres.Script :=
  (t.count fun stats => { stats with passthrough := stats.passthrough + 1 }, [.other sql])

/-- Passes a statement through, if anything is left of it. -/
def passStatement (t : Translation) (text : Text) : Translation × Postgres.Script :=
  match Postgres.renderOther? text with
  | some sql => t.pass sql
  | none => (t, [])

/-- Copies a comment, or leaves it out. -/
def passComment (t : Translation) (text : Text) : Translation × Postgres.Script :=
  if !t.options.keepComments then (t.skip, [])
  else
    match Postgres.renderComment? text with
    | some sql => (t, [.other sql])
    | none => (t.skip, [])

/-- The data pass on a statement that is no `INSERT`. -/
def writeOther (t : Translation) (s : PlacedStatement) (o : OtherStatement) :
    Translation × Postgres.Script :=
  if !o.terminated then t.pass (Postgres.renderUnterminated o.text)
  else
    match o.kind with
    | .insert =>
      (t.record (noteOn s .unclassifiedStatement o.table
        "INSERT without a VALUES list passed through")).passStatement o.text
    | .unknown => if Statement.isCreate o.text then (t, []) else t.passStatement o.text
    | .comment => t.passComment o.text
    | .session | .lockTables | .dropTable => (t.skip, [])
    | .createTable | .alterTable => (t, [])

/-- Writes the rows of a statement. -/
def writeInsert (t : Translation) (s : PlacedStatement) (i : Insert) :
    Translation × Postgres.Script :=
  let families := t.familiesFor i
  if i.rows.isEmpty then (t.checkInsert s i, [])
  else
    ((t.checkInsert s i).noteZeroDates s i.table (Postgres.nulledDates i families),
      [.insert i families])

/-- The data pass on one statement, for a script. -/
def writeData (t : Translation) (s : PlacedStatement) : Translation × Postgres.Script :=
  match s.statement with
  | .create _ => (t, [])
  | .insert i => t.writeInsert s i
  | .other o => t.writeOther s o

/-- The data pass on one statement, for CSV files. Without a store rows are checked only. -/
def exportRows (t : Translation) (s : PlacedStatement) (store : Option Csv.Store) :
    Except FileError (Translation × Option Csv.Store) :=
  match s.statement with
  | .create _ => .ok (t, store)
  | .insert i =>
    let families := t.familiesFor i
    let t := t.checkInsert s i
    match store with
    | none => .ok (t, none)
    | some store =>
      (store.insert i families).map fun store =>
        (t.noteZeroDates s i.table (Csv.emptiedDates i families), some store)
  | .other o =>
    if o.terminated && o.kind == .insert then
      .ok (t.record (noteOn s .unclassifiedStatement o.table
        "INSERT without a VALUES list not exported"), store)
    else
      .ok (t, store)

/-- The script behind the data. -/
def epilogue (t : Translation) : Postgres.Script :=
  (if t.options.mode = .full then Postgres.Script.sequences t.catalog t.plan else []) ++
    Postgres.Script.deferred t.catalog t.plan

end Translation

end SqlDump
