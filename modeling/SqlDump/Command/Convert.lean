import SqlDump.Command.Request
import SqlDump.Command.Response
import SqlDump.Report
import SqlDump.Settings

/-!
# The command `convert`

A dump is turned into a script, on the standard output or in a file, or into CSV files in a
folder. Options on the command line come before those of the settings file.
-/

namespace SqlDump.Command.ConvertRequest

open Text

/-- The settings of the file that is asked for. -/
def loadSettings (r : ConvertRequest) (files : Tree) : Except RunError Settings :=
  match r.settings with
  | none => .ok {}
  | some path =>
    match files.read (.ofText path) with
    | .error e => .error (.file e)
    | .ok bs =>
      match bs.toText? with
      | none => .error (.file .notText)
      | some t =>
        match Settings.parse? t with
        | none => .error .settings
        | some s => .ok s

/-- The options of the run: those of the command line, and otherwise those of the settings. -/
def options (r : ConvertRequest) (s : Settings) : Except CommandError Options := do
  let mode ← match r.mode with
    | none => .ok (s.mode.getD .full)
    | some name =>
      match Mode.ofText? name with
      | none => .error (.unknownMode name)
      | some mode => .ok mode
  return {
    mode
    pinned := match r.pinned with
      | some names => tableNames names
      | none => s.pinned
    dropTables := r.dropTables || s.dropTables.getD false
    keepComments := r.keepComments || s.keepComments.getD false
    diagnosticsLimit := (r.diagnosticsLimit <|> s.diagnosticsLimit).getD Diagnostics.defaultLimit }

/-- The dialect of a name. -/
def dialect (name : Text) : Except CommandError Dialect :=
  match Dialect.ofText? name with
  | none => .error (.unknownDialect name)
  | some d => .ok d

/-- Checks a request before anything is written: the dialects and options of the run. -/
def check (r : ConvertRequest) (files : Tree) :
    Except CommandError (Dialect × Dialect × Options) := do
  if !files.contains (.ofText r.file) then .error (.missingInput r.file)
  let source ← dialect r.source
  let target ← dialect r.target
  let settings ← (r.loadSettings files).mapError .run
  let options ← r.options settings
  let bare := r.output.isNone && !r.dryRun
  if options.mode = .rows && bare then .error .rowsWithoutFolder
  if r.json && options.mode != .rows && bare then .error .reportBesideScript
  return (source, target, options)

/-- The octets of the dump. -/
def readDump (r : ConvertRequest) (files : Tree) : Except RunError Octets :=
  let path := Path.ofText r.file
  match files.read path with
  | .error e => .error (.file e)
  | .ok bs =>
    match Compression.ofPath path with
    | .none => .ok bs
    | how => .error (.compressed how)

/-- A dry run. -/
def runDry (r : ConvertRequest) (options : Options) (files : Tree) : Except RunError Produced := do
  let bs ← r.readDump files
  execute (.ofOctets bs) options (if options.mode = .rows then .rows none else .script)
    (some r.file)

/-- A run into CSV files. -/
def runRows (r : ConvertRequest) (options : Options) (folder : Path) (files : Tree) :
    Tree × Except RunError Produced :=
  match r.readDump files with
  | .error e => (files, .error e)
  | .ok bs =>
    match files.ensureFolder folder with
    | .error e => (files, .error (.file e))
    | .ok (files, place) =>
      let written (store : Option Csv.Store) : Tree :=
        files.putFolder place ((store.bind (·.folder)).getD {})
      let store : Csv.Store := { folder := some (files.folder place) }
      match execute (.ofOctets bs) options (.rows (some store)) (some r.file) with
      | .ok p => (written p.store, .ok p)
      | .error (.rowFile e store) => (written store, .error (.rowFile e store))
      | .error e => (files, .error e)

/-- A run into a file. The file is emptied before the dump is read, and the head of the script is
there before the dump is read again, which shows where both are the same file. -/
def runFile (r : ConvertRequest) (options : Options) (output : Path) (files : Tree) :
    Tree × Except RunError Produced :=
  match files.ensureFolder output.parent with
  | .error e => (files, .error (.file e))
  | .ok (files, _) =>
    match files.filePlace output with
    | .error e => (files, .error (.file e))
    | .ok place =>
      let put (script : Postgres.Script) : Tree :=
        files.put place (.file (.ofText script.text))
      let produced : Except RunError Produced := do
        let first ← r.readDump (put [])
        let second ← r.readDump (put [.preamble (some r.file) options.mode])
        execute (.ofReadings first second) options .script (some r.file)
      match produced with
      | .ok p => (put p.script, .ok p)
      | .error e => (put [], .error e)

/-- The run, the files as it leaves them, and what it prints. -/
def run (r : ConvertRequest) (options : Options) (files : Tree) :
    Tree × Except RunError (Produced × Text) :=
  if r.dryRun then (files, (r.runDry options files).map (·, []))
  else
    match r.output.map Path.ofText with
    | none => (files, (r.runDry options files).map fun p => (p, p.script.text))
    | some path =>
      let (files, produced) :=
        if options.mode = .rows then r.runRows options path files
        else r.runFile options path files
      (files, produced.map (·, []))

/-- The lines with the counts of a run. -/
def statsNotices (o : Outcome) : List Notice :=
  (([[], "Translation Statistics:", "  Mode: " ++ o.mode.name,
      "  Statements read: " ++ ofNat o.stats.statements, "  Tables: " ++ ofNat o.stats.tables,
      "  INSERT statements: " ++ ofNat o.stats.inserts, "  Rows: " ++ ofNat o.stats.rows,
      "  Passed through: " ++ ofNat o.stats.passthrough, "  Skipped: " ++ ofNat o.stats.skipped,
      "  Deferred foreign keys: " ++ ofNat o.stats.deferredKeys] : List Text) ++
    (if o.mode = .rows then ["  CSV files: " ++ ofNat o.stats.files] else [])).map .line ++
    [.elapsed]

/-- The lines about where the output went. -/
def outputLines (r : ConvertRequest) : List Text :=
  if r.dryRun then [[], "(Dry run - no output written)"]
  else (r.output.map fun path => ("Output: " : Text) ++ path).toList

/-- The lines beside the output of a run. -/
def notices (r : ConvertRequest) (o : Outcome) : List Notice :=
  (if r.json then []
  else
    (if r.progress || r.dryRun then statsNotices o else []) ++
      (r.outputLines ++ o.diagnostics.summary).map .line) ++
  if r.strict && !o.diagnostics.isEmpty then
    [.line ("Strict mode: " ++ ofNat o.diagnostics.total ++ " diagnostics recorded")]
  else []

/-- The answer after a run that came to its end. -/
def finish (r : ConvertRequest) (o : Outcome) (output : Text) (files : Tree) : Response :=
  let report := (o.report (some r.file)).text
  match r.report.elim (.ok files) fun path => files.write (.ofText path) (.ofText report) with
  | .error e => .failure (.report e) output files
  | .ok files => {
      exit := if r.strict && !o.diagnostics.isEmpty then 2 else 0
      output := if r.json then output ++ report ++ ['\n'] else output
      notices := r.notices o
      files }

/-- The answer to a request. -/
def respond (r : ConvertRequest) (files : Tree) : Response :=
  match r.check files with
  | .error e => .failure e [] files
  | .ok (source, target, options) =>
    if source ≠ .mysql ∨ target ≠ .postgres then
      .failure (.run (.unsupportedDialects source target)) [] files
    else
      match r.run options files with
      | (files, .error e) => .failure (.run e) [] files
      | (files, .ok (p, output)) => r.finish p.outcome output files

end SqlDump.Command.ConvertRequest
