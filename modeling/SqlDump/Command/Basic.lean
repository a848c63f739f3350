import SqlDump.Command.Convert
import SqlDump.Command.Order
import SqlDump.ReportSchema

/-!
# Commands

The answer to a command line.
-/

namespace SqlDump.Command

namespace Request

/-- The answer to a request. -/
def respond (files : Tree) : Request → Response
  | convert r => r.respond files
  | order r => r.respond files
  | reportSchema => { output := ReportSchema.report.text ++ ['\n'], files }
  | completions _ => { output := commandNames.flatMap (· ++ ['\n']), files }

/-- The paths that a request reads and writes. -/
def paths : Request → List Text
  | convert r => r.file :: (r.output.toList ++ r.settings.toList ++ r.report.toList)
  | order r => [r.file]
  | reportSchema | completions _ => []

end Request

/-- The lines about how to use the program. -/
def usageLines : List Text :=
  ["Usage: dump-translate [-v]... <command>", [],
    "convert <file>       translate a MySQL dump into PostgreSQL SQL or per-table CSV files",
    "order <file>         print table creation order and deferred foreign keys",
    "report-schema        print the JSON Schema of the convert report",
    "completions <shell>  print the words that a shell can complete"]

/-- What is printed about how to use the program. -/
def usage : Text := usageLines.flatMap (· ++ ['\n'])

/-- The files that differ between two trees. -/
def changes (before after : Tree) : List (Place × Entry) :=
  after.entries.filter fun (place, entry) => before.entries.lookup place != some entry

end SqlDump.Command
