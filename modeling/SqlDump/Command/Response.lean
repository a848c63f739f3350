import SqlDump.Files.Tree
import SqlDump.Options
import SqlDump.Translation.Run

/-!
# Responses

What a command answers: its exit status, what it prints, and the files as it leaves them.
-/

namespace SqlDump

/-- The most diagnostics that a summary lists one by one. -/
def Diagnostics.summaryLimit : Nat := 20

/-- The lines that sum up diagnostics, if there are any. -/
def Diagnostics.summary (ds : Diagnostics) : List Text :=
  if ds.isEmpty then []
  else
    let hidden := ds.total - summaryLimit
    ([[], "Diagnostics (" ++ Text.ofNat ds.total ++ "):"] : List Text) ++
      ds.tally.map (fun (kind, n) => [' ', ' '] ++ kind.name.padRight 24 ++ ' ' :: Text.ofNat n) ++
      [[]] ++
      (ds.entries.toList.take summaryLimit).map (fun d => ' ' :: ' ' :: '⚠' :: ' ' :: d.line) ++
      if hidden = 0 then []
      else ["  ... (" ++ Text.ofNat hidden ++ " more, use --report for the full list)"]

namespace Command

/-- One line printed beside the output. -/
inductive Notice where
  | line (text : Text)
  /-- The time that the run took. -/
  | elapsed
  deriving DecidableEq, Repr

/-- Why a command failed. -/
inductive CommandError where
  | missingInput (path : Text)
  | unknownDialect (name : Text)
  | unknownMode (name : Text)
  /-- CSV files have no folder to go to. -/
  | rowsWithoutFolder
  /-- The report and the script would both go to the standard output. -/
  | reportBesideScript
  | run (error : RunError)
  | report (error : FileError)
  deriving DecidableEq, Repr

def CommandError.message : CommandError → Text
  | missingInput path => "input file does not exist: " ++ path
  | unknownDialect name => Dialect.unknownMessage name
  | unknownMode name => Mode.unknownMessage name
  | rowsWithoutFolder => "rows mode writes one CSV per table. Use --output <dir>"
  | reportBesideScript =>
    "--json prints the report on stdout; write SQL elsewhere with --output <file>"
  | run error => error.message
  | report error => error.message

/-- What a command answers. -/
structure Response where
  exit : Nat := 0
  output : Text := []
  notices : List Notice := []
  files : Tree
  deriving Repr

namespace Response

/-- The answer of a command that failed. -/
def failure (error : CommandError) (output : Text) (files : Tree) : Response where
  exit := 1
  output := output
  notices := [.line error.message]
  files := files

/-- The answer with more lines printed beside the output. -/
def notify (r : Response) (lines : List Text) : Response :=
  { r with notices := r.notices ++ lines.map .line }

/-- What is printed beside the output. The line with the time is left out where none is given. -/
def noticeText (r : Response) (elapsed : Option Text) : Text :=
  r.notices.flatMap fun
    | .line text => text ++ ['\n']
    | .elapsed =>
      match elapsed with
      | some time => [' ', ' '] ++ ("Elapsed: " : Text) ++ time ++ ['\n']
      | none => []

end Response

end Command

end SqlDump
