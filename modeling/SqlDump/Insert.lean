import SqlDump.Statement.Kind
import SqlDump.Text.Nesting
import SqlDump.Text.Utf8
import SqlDump.Value.Rows

/-!
# INSERT statements

An `INSERT ... VALUES` with all its rows. Other forms, such as `INSERT ... SELECT`, are not read.
-/

namespace SqlDump

/-- A statement that inserts rows given by their values. -/
structure Insert where
  table : Text
  /-- The columns the values are for, where the statement names them. -/
  columns : Option (List Text)
  rows : List Row
  /-- What follows the rows, without the semicolon. -/
  trailing : Option Text
  /-- How the octets of the statement were read. -/
  encoding : Encoding
  deriving DecidableEq, Repr

namespace Insert

open Text

/-- What follows `VALUES` or `VALUE`. -/
def valuesKeyword? (t : Text) : Option Text :=
  (keyword? "value" t).bind fun t => some (optionally (keyword? "s") t) |>.filter endsWord

/-- A clause without the blanks and semicolons at its end; nothing if nothing else is there. -/
def clause? (t : Text) : Option Text :=
  let clause := trim (trimEndWhile (· == ';') (trim t))
  if clause.isEmpty then none else some clause

/-- The statement, and the fault that cut its rows short. The fault is placed in the statement. -/
def parse? (statement : Text) : Option (Insert × Option RowFault) := do
  let rest ← Statement.insertHead? (Statement.bodyOf statement)
  let (some table, rest) := Identifier.readQualified rest | none
  let rest := trimStart rest
  let (columns, rest) ←
    if startsWith "(" rest then
      (group? rest).map fun (list, after) => (some (nameList list), trimStart after)
    else
      some (none, rest)
  let values ← valuesKeyword? rest
  let parsed := ParsedRows.ofText values
  let start := size statement - size values
  return ({ table, columns, rows := parsed.rows, trailing := clause? parsed.rest, encoding := .utf8 },
    parsed.fault.map fun f => { f with offset := start + f.offset })

end Insert

end SqlDump
