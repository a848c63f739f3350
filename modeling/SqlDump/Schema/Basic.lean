import SqlDump.Text.Basic

/-!
# Tables

The description of a table as the dump defines it.
-/

namespace SqlDump

/-- A column as its definition gives it. -/
structure Column where
  name : Text
  /-- The type as written, with its arguments and attributes. -/
  type : Text
  nullable : Bool := true
  /-- The default as written. -/
  default : Option Text := none
  autoIncrement : Bool := false
  /-- What follows `ON UPDATE`, as written. -/
  onUpdate : Option Text := none
  /-- Declared a primary key in the column's own definition. -/
  primaryKey : Bool := false
  /-- Declared unique in the column's own definition. -/
  unique : Bool := false
  comment : Option Text := none
  /-- Modifiers without a known meaning, as written. -/
  extra : List Text := []
  deriving DecidableEq, Repr

/-- The lower-case name of the column's type, without arguments and attributes. -/
def Column.baseType (c : Column) : Text :=
  (Text.lower c.type).takeWhile fun c => !(c == '(' || Unicode.isBlank c)

/-- What happens to a row when the row it refers to goes or changes. -/
inductive ReferentialAction where
  | restrict
  | cascade
  | setNull
  | setDefault
  | noAction
  deriving DecidableEq, Repr

/-- The keywords of an action. -/
def ReferentialAction.keywords : ReferentialAction → Text
  | .restrict => "RESTRICT"
  | .cascade => "CASCADE"
  | .setNull => "SET NULL"
  | .setDefault => "SET DEFAULT"
  | .noAction => "NO ACTION"

structure PrimaryKey where
  name : Option Text
  columns : List Text
  deriving DecidableEq, Repr

structure UniqueKey where
  name : Option Text
  columns : List Text
  deriving DecidableEq, Repr

structure ForeignKey where
  name : Text
  /-- The table that has the key. -/
  table : Text
  columns : List Text
  referencedTable : Text
  referencedColumns : List Text
  onDelete : Option ReferentialAction
  onUpdate : Option ReferentialAction
  deriving DecidableEq, Repr

/-- A table with its columns and keys. -/
structure Table where
  name : Text
  columns : List Column := []
  primaryKey : Option PrimaryKey := none
  foreignKeys : List ForeignKey := []
  uniqueKeys : List UniqueKey := []
  /-- The `CHECK` items, as written. -/
  checks : List Text := []
  /-- The items that could not be understood, as written. -/
  verbatim : List Text := []
  /-- The options behind the body, their names in lower case. -/
  options : List (Text × Text) := []
  deriving DecidableEq, Repr

namespace Table

/-- The position of the first column of that name, up to the case of the letters A to Z. -/
def columnIndex? (t : Table) (name : Text) : Option Nat :=
  t.columns.findIdx? fun c => Text.sameAscii c.name name

/-- The first column of that name. -/
def column? (t : Table) (name : Text) : Option Column :=
  t.columns.find? fun c => Text.sameAscii c.name name

/-- Whether the column of that name makes up the primary key by itself. -/
def isPrimaryKey (t : Table) (name : Text) : Bool :=
  match t.primaryKey with
  | some ⟨_, [column]⟩ => Text.sameAscii column name
  | _ => false

/-- The table with the first column of the new column's name replaced. -/
def replaceColumn (t : Table) (c : Column) : Table :=
  match t.columnIndex? c.name with
  | some i => { t with columns := t.columns.set i c }
  | none => t

end Table

end SqlDump
