import SqlDump.Diagnostic

/-!
# Options of a run

What a run produces and how.
-/

namespace SqlDump

open Text

/-- What a run produces. -/
inductive Mode where
  /-- One script with tables, rows and deferred constraints. -/
  | full
  /-- One script with tables alone, every foreign key added at its end. -/
  | schema
  /-- One CSV file for each table, and no script. -/
  | rows
  deriving DecidableEq, Repr

namespace Mode

def name : Mode → Text
  | .full => "full"
  | .schema => "schema"
  | .rows => "rows"

/-- The mode that a text names, in any case and under any of its names. -/
def ofText? (t : Text) : Option Mode :=
  match String.ofList (lower t) with
  | "full" => some .full
  | "schema" | "schema-only" => some .schema
  | "rows" | "csv" => some .rows
  | _ => none

/-- The message for a text that names no mode. -/
def unknownMessage (t : Text) : Text :=
  "Unknown mode: " ++ t ++ ". Valid options: full, schema, rows"

theorem ofText?_name (m : Mode) : ofText? m.name = some m := by cases m <;> rfl

end Mode

/-- The dialects that a run can be asked for. -/
inductive Dialect where
  | mysql
  | postgres
  deriving DecidableEq, Repr

namespace Dialect

def name : Dialect → Text
  | .mysql => "mysql"
  | .postgres => "postgres"

/-- The dialect that a text names, in any case and under any of its names. -/
def ofText? (t : Text) : Option Dialect :=
  match String.ofList (lower t) with
  | "mysql" | "mariadb" => some .mysql
  | "postgres" | "postgresql" | "pg" => some .postgres
  | _ => none

/-- The message for a text that names no dialect. -/
def unknownMessage (t : Text) : Text :=
  "Unknown dialect: " ++ t ++ ". Valid options: mysql, postgres"

theorem ofText?_name (d : Dialect) : ofText? d.name = some d := by cases d <;> rfl

end Dialect

/-- What is asked of a run. -/
structure Options where
  mode : Mode := .full
  /-- The tables to create first, by name and in this order. -/
  pinned : List Text := []
  /-- Whether existing tables are dropped before. -/
  dropTables : Bool := false
  /-- Whether the comments of the dump are copied. -/
  keepComments : Bool := false
  /-- How many diagnostics are kept. -/
  diagnosticsLimit : Nat := Diagnostics.defaultLimit
  deriving DecidableEq, Repr

end SqlDump
