import SqlDump.Files.Path
import SqlDump.Translation.Outcome
import SqlDump.Translation.Source

/-!
# Runs

A run over both passes, into a script or into CSV files. Only files that cannot be read or
written and settings that do not fit together end a run early.

Main statements: `Translation.writeFrom_done`, what was written before a statement does not matter
for it; `execute_script_error_iff`, a run for a script fails exactly in the mode that writes none.
-/

namespace SqlDump

/-- Why a run ended early. -/
inductive RunError where
  /-- A file or folder could not be read or written. -/
  | file (error : FileError)
  /-- A CSV file could not be written; `written` is what was written before. -/
  | rowFile (error : FileError) (written : Option Csv.Store)
  /-- The mode does not fit what the run writes to. -/
  | wrongTarget (mode : Mode)
  | unsupportedDialects (source target : Dialect)
  /-- The dump is compressed, and has to be unpacked first. -/
  | compressed (how : Compression)
  /-- The settings file is not well formed, or has a value of a wrong type. -/
  | settings
  deriving DecidableEq, Repr

def RunError.message : RunError → Text
  | .file error => "IO error: " ++ error.message
  | .rowFile error _ => "CSV error: " ++ error.message
  | .wrongTarget mode => "Configuration error: " ++ mode.name ++ " mode cannot write to this output"
  | .unsupportedDialects source target =>
    "Unsupported dialect pair: " ++ source.name ++ " → " ++ target.name ++
      " (only mysql → postgres is supported)"
  | .compressed how => "IO error: " ++ how.name ++ " input has to be unpacked first"
  | .settings => "YAML error: invalid settings"

/-- What a run writes to. -/
inductive Target where
  | script
  /-- CSV files. Without a store rows are checked only. -/
  | rows (store : Option Csv.Store)
  deriving DecidableEq, Repr

/-- What a run has made. -/
structure Produced where
  outcome : Outcome
  script : Postgres.Script := []
  store : Option Csv.Store := none
  deriving Repr

namespace Translation

/-- The schema pass over a source. -/
def ofSource (source : Source) (options : Options) : Translation :=
  let t := source.schema.foldl schemaStatement (start options)
  let t := match source.encodingNote with
    | some note => t.recordOnce note
    | none => t
  (t.count fun stats => { stats with statements := source.count }).finishSchema

/-- The data pass for a script over the rest of the statements; `done` holds what was written before
in reverse. -/
def writeFrom (done : List Postgres.Part) (t : Translation) :
    List PlacedStatement → Translation × Postgres.Script
  | [] => (t, done.reverse)
  | s :: rest =>
    let (t, parts) := t.writeData s
    writeFrom (parts.reverse ++ done) t rest

/-- The data pass for a script. -/
def writeAll (t : Translation) (statements : List PlacedStatement) :
    Translation × Postgres.Script :=
  t.writeFrom [] statements

/-- The data pass for CSV files. -/
def exportAll (t : Translation) (store : Option Csv.Store) :
    List PlacedStatement → Except RunError (Translation × Option Csv.Store)
  | [] => .ok (t, store)
  | s :: rest =>
    match t.exportRows s store with
    | .ok (t, store) => exportAll t store rest
    | .error error => .error (.rowFile error store)

/-- Counts the CSV files. -/
def noteFiles (t : Translation) (n : Nat) : Translation :=
  t.count fun stats => { stats with files := n }

/-- The run for a script, from the plan on. -/
def produceScript (t : Translation) (source : Source) (name : Option Text) : Produced :=
  let (t, head) := t.writeSchema name
  let (t, data) := if t.options.mode = .full then t.writeAll source.data else (t, [])
  { outcome := t.outcome, script := head ++ data ++ t.epilogue }

/-- The run for CSV files, from the plan on. -/
def produceRows (t : Translation) (source : Source) (store : Option Csv.Store) :
    Except RunError Produced :=
  match t.exportAll (store.map Csv.Store.ensureFolder) source.data with
  | .error error => .error error
  | .ok (t, none) => .ok { outcome := t.outcome }
  | .ok (t, some store) =>
    let store := store.flushAll
    .ok { outcome := (t.noteFiles store.size).outcome, store := some store }

theorem writeFrom_done (done : List Postgres.Part) (t : Translation) (ss : List PlacedStatement) :
    t.writeFrom done ss = ((t.writeAll ss).1, done.reverse ++ (t.writeAll ss).2) := by
  induction ss generalizing done t with
  | nil => simp [writeAll, writeFrom]
  | cons s ss ih =>
    simp only [writeAll, writeFrom, List.append_nil]
    rw [ih, ih (t.writeData s).2.reverse]
    simp

end Translation

/-- A run over a source. The name of the dump is written into the script. -/
def execute (source : Source) (options : Options) (target : Target) (name : Option Text) :
    Except RunError Produced :=
  let t := Translation.ofSource source options
  match options.mode, target with
  | .rows, .rows store => t.produceRows source store
  | .full, .script | .schema, .script => .ok (t.produceScript source name)
  | mode, _ => .error (.wrongTarget mode)

/-- The schema pass alone. -/
def planOf (source : Source) (options : Options) : Outcome :=
  (Translation.ofSource source options).outcome

/-- A run for a script fails exactly in the mode that writes none. -/
theorem execute_script_error_iff (source : Source) (options : Options) (name : Option Text) :
    (∃ error, execute source options .script name = .error error) ↔ options.mode = .rows := by
  cases h : options.mode <;> simp [execute, h]

end SqlDump
