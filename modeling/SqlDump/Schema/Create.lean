import SqlDump.Schema.Item
import SqlDump.Schema.Options
import SqlDump.Statement.Kind

/-!
# CREATE TABLE statements

The table that a `CREATE TABLE` with a list of columns defines. Forms without such a list, such as
`CREATE TABLE ... LIKE`, define none here.
-/

namespace SqlDump.Table

open Text

/-- A note about a clause of a table. -/
def clauseNote (table message : Text) : Diagnostic where
  kind := .unsupportedClause
  message := message
  table := some table

/-- The note for an option that is left out and might have mattered. -/
def optionNote? (table : Text) (option : Text × Text) : Option Diagnostic :=
  if TableOption.isSilent option.1 then none
  else some (clauseNote table ("table option " ++ option.1 ++ "=" ++ option.2 ++ " dropped"))

/-- The note for what is no option behind the body. -/
def leftoverNote? (table rest : Text) : Option Diagnostic :=
  if rest.isEmpty then none else some (clauseNote table ("table clause dropped: " ++ rest))

/-- The table that a statement defines, and the notes on what was left out or not understood. -/
def parse? (statement : Text) : Option (Table × List Diagnostic) := do
  let rest ← Statement.createHead? (Statement.bodyOf statement)
  let (some name, rest) := Identifier.readQualified rest | none
  let rest := trimStart rest
  if !startsWith "(" rest then none
  let (body, after) ← group? rest
  let tableItems := (items body).map (TableItem.parse name)
  let (options, leftover) := TableOption.parse after
  let table := tableItems.foldl addItem { name }
  let notes :=
    tableItems.filterMap (itemNote? name) ++ options.filterMap (optionNote? name) ++
      (leftoverNote? name leftover).toList
  return ({ table with options }, notes)

end SqlDump.Table
