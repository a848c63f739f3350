import SqlDump.Command.Arguments

/-!
# Requests

The commands of the program with their arguments.
-/

namespace SqlDump.Command

open Text

/-- What is asked of a conversion. Paths and names are as given. -/
structure ConvertRequest where
  file : Text
  output : Option Text := none
  mode : Option Text := none
  source : Text := "mysql"
  target : Text := "postgres"
  /-- The pinned tables, between commas. -/
  pinned : Option Text := none
  /-- The path of a settings file. -/
  settings : Option Text := none
  dropTables : Bool := false
  keepComments : Bool := false
  diagnosticsLimit : Option Nat := none
  /-- The path for the report of the run. -/
  report : Option Text := none
  json : Bool := false
  strict : Bool := false
  progress : Bool := false
  dryRun : Bool := false
  deriving DecidableEq, Repr

/-- What is asked of an order of tables. -/
structure OrderRequest where
  file : Text
  /-- The pinned tables, between commas. -/
  pinned : Option Text := none
  schema : Bool := false
  json : Bool := false
  deriving DecidableEq, Repr

/-- A command with its arguments. -/
inductive Request where
  | convert (request : ConvertRequest)
  | order (request : OrderRequest)
  | reportSchema
  /-- The words that a shell can complete. -/
  | completions (shell : Text)
  deriving DecidableEq, Repr

/-- The names between the commas of a list. -/
def tableNames (t : Text) : List Text := ((split ',' t).map trim).filter (!·.isEmpty)

def helpOption : OptionSpec := ⟨"help", some 'h', .help⟩

def versionOption : OptionSpec := ⟨"version", some 'V', .version⟩

/-- The option for more messages, which every command has. -/
def verboseOption : OptionSpec := ⟨"verbose", some 'v', .counted⟩

def convertOptions : OptionSpecs :=
  [⟨"output", some 'o', .value .path⟩, ⟨"mode", some 'm', .value .text⟩,
    ⟨"from", none, .value .text⟩, ⟨"to", none, .value .text⟩, ⟨"pin", none, .value .text⟩,
    ⟨"config", some 'c', .value .path⟩, ⟨"drop-tables", none, .flag⟩,
    ⟨"keep-comments", none, .flag⟩, ⟨"diagnostics-limit", none, .value .size⟩,
    ⟨"report", none, .value .path⟩, ⟨"json", none, .flag⟩, ⟨"strict", none, .flag⟩,
    ⟨"progress", some 'p', .flag⟩, ⟨"dry-run", none, .flag⟩, verboseOption, helpOption]

def orderOptions : OptionSpecs :=
  [⟨"pin", none, .value .text⟩, ⟨"schema", none, .flag⟩, ⟨"json", none, .flag⟩, verboseOption,
    helpOption]

/-- The shells that commands can be completed in. -/
def shells : List Text := ["bash", "elvish", "fish", "powershell", "zsh"]

/-- The names of the commands. -/
def commandNames : List Text := ["convert", "order", "report-schema", "completions", "help"]

/-- The first word given. -/
def Matches.word (m : Matches) : Text := m.words.headD []

def ConvertRequest.ofMatches (m : Matches) : ConvertRequest where
  file := m.word
  output := m.value? "output"
  mode := m.value? "mode"
  source := (m.value? "from").getD "mysql"
  target := (m.value? "to").getD "postgres"
  pinned := m.value? "pin"
  settings := m.value? "config"
  dropTables := m.has "drop-tables"
  keepComments := m.has "keep-comments"
  diagnosticsLimit := (m.value? "diagnostics-limit").bind size?
  report := m.value? "report"
  json := m.has "json"
  strict := m.has "strict"
  progress := m.has "progress"
  dryRun := m.has "dry-run"

def OrderRequest.ofMatches (m : Matches) : OrderRequest where
  file := m.word
  pinned := m.value? "pin"
  schema := m.has "schema"
  json := m.has "json"

namespace Request

/-- What is asked for by `help`: help, unless it is about no command. -/
def helpAbout : List Text → UsageError
  | [] => .displayHelp
  | [name] => if commandNames.contains name then .displayHelp else .unknownCommand
  | _ => .unknownCommand

/-- The command that arguments ask for. -/
def ofArguments (arguments : List Text) : Except UsageError Request := do
  let (name, rest) ← readCommand [verboseOption, helpOption, versionOption] commandNames false
    arguments
  match String.ofList name with
  | "convert" => return convert (.ofMatches (← readWords convertOptions [.path] false {} rest))
  | "order" => return order (.ofMatches (← readWords orderOptions [.path] false {} rest))
  | "report-schema" =>
    let _ ← readWords [verboseOption, helpOption] [] false {} rest
    return reportSchema
  | "completions" =>
    let m ← readWords [verboseOption, helpOption] [.choice shells] false {} rest
    return completions m.word
  | _ => .error (helpAbout rest)

end Request

end SqlDump.Command
