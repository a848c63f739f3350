import SqlDump.Postgres.Literal
import SqlDump.Schema.Create

/-!
# CREATE TABLE for PostgreSQL

The statement that creates a table, as a list of items that is printed in the end, and the notes on
what of the table it does not keep.

Main statement: `length_families`, every column has a family.
-/

namespace SqlDump.Postgres

open Text

/-- A column of a statement that creates a table. -/
structure ColumnItem where
  name : Text
  /-- The type, a serial one for an AUTO_INCREMENT column. -/
  type : Text
  /-- Whether the column is declared the primary key. -/
  primaryKey : Bool := false
  default : Option Text := none
  notNull : Bool := false
  unique : Bool := false
  /-- What is passed through behind the rest. -/
  extra : Option Text := none
  deriving DecidableEq, Repr

/-- One item of a statement that creates a table. -/
inductive CreateItem where
  | column (item : ColumnItem)
  | primaryKey (columns : List Text)
  | unique (name : Text) (columns : List Text)
  | foreignKey (key : ForeignKey)
  /-- An item of the dump, passed through. -/
  | verbatim (text : Text)
  deriving DecidableEq, Repr

/-- A statement that creates a table. -/
structure CreateTable where
  name : Text
  items : List CreateItem
  deriving DecidableEq, Repr

/-- The text, if the condition holds. -/
def textIf (condition : Bool) (t : Text) : Text := if condition then t else []

def ColumnItem.render (c : ColumnItem) : Text :=
  quoteName c.name ++ " " ++ c.type ++ textIf c.primaryKey " PRIMARY KEY" ++
    (match c.default with
      | some value => " DEFAULT " ++ value
      | none => []) ++
    textIf c.notNull " NOT NULL" ++ textIf c.unique " UNIQUE" ++
    (match c.extra with
      | some extra => " " ++ extra
      | none => [])

/-- The constraint for a foreign key. -/
def renderForeignKey (key : ForeignKey) : Text :=
  "CONSTRAINT " ++ quoteName key.name ++ " FOREIGN KEY (" ++ quoteNames key.columns ++
    ") REFERENCES " ++ quoteName key.referencedTable ++ " (" ++
    quoteNames key.referencedColumns ++ ")" ++
    (match key.onDelete with
      | some action => " ON DELETE " ++ action.keywords
      | none => []) ++
    (match key.onUpdate with
      | some action => " ON UPDATE " ++ action.keywords
      | none => [])

def CreateItem.render : CreateItem → Text
  | .column item => item.render
  | .primaryKey columns => "PRIMARY KEY (" ++ quoteNames columns ++ ")"
  | .unique name columns =>
    "CONSTRAINT " ++ quoteName name ++ " UNIQUE (" ++ quoteNames columns ++ ")"
  | .foreignKey key => renderForeignKey key
  | .verbatim text => requote text

def CreateTable.render (c : CreateTable) : Text :=
  "CREATE TABLE " ++ quoteName c.name ++ " (\n    " ++ join ",\n    " (c.items.map CreateItem.render) ++
    "\n);"

/-- The serial type of a column, if it is AUTO_INCREMENT and its type has one. -/
def serialType? (c : Column) : Option Text :=
  if c.autoIncrement then ColumnType.serial? c.type else none

/-- The default of a column as it is written; nothing if there is none or it has to go. -/
def keptDefault? (c : Column) : Option Text :=
  c.default.bind fun raw => renderDefault? raw (ColumnType.map c.type).family

/-- Whether a column has a default that has to go, and `NOT NULL` with it. -/
def losesDefault (c : Column) : Bool := c.default.isSome && (keptDefault? c).isNone

/-- Whether a column is the whole primary key and AUTO_INCREMENT, so that it declares the key. -/
def declaresKey (t : Table) (c : Column) : Bool := (serialType? c).isSome && t.isPrimaryKey c.name

/-- The item for a column of a table. A serial column is never null and has a default of its own. -/
def ColumnItem.ofColumn (t : Table) (c : Column) : ColumnItem :=
  let extra := if c.extra.isEmpty then none else some (requote (join " " c.extra))
  match serialType? c with
  | some type =>
    let key := t.isPrimaryKey c.name
    { name := c.name, type, primaryKey := key, unique := c.unique && !key, extra }
  | none => {
      name := c.name
      type := (ColumnType.map c.type).sql
      default := keptDefault? c
      notNull := !c.nullable && !losesDefault c
      unique := c.unique
      extra }

/-- The name of a unique key, which has to begin with that of its table since such names are
shared by all tables. -/
def uniqueName (table : Text) (key : UniqueKey) : Text :=
  match key.name with
  | some name => if startsWith (table ++ "_") name then name else table ++ "_" ++ name
  | none => table ++ "_" ++ join "_" key.columns ++ "_key"

/-- The item for the primary key, unless a column declares it. -/
def primaryKeyItem? (t : Table) : Option CreateItem :=
  match t.primaryKey with
  | some key =>
    if t.columns.any (declaresKey t) || key.columns.isEmpty then none
    else some (.primaryKey key.columns)
  | none => none

/-- The foreign keys of a table that are flagged. -/
def flaggedKeys (t : Table) (flags : List Bool) : List ForeignKey :=
  (t.foreignKeys.zip flags).filterMap fun (key, flag) => if flag then some key else none

/-- The statement that creates a table with the flagged foreign keys. -/
def CreateTable.ofTable (t : Table) (flags : List Bool) : CreateTable where
  name := t.name
  items :=
    t.columns.map (fun c => .column (.ofColumn t c)) ++ (primaryKeyItem? t).toList ++
      t.uniqueKeys.map (fun key => .unique (uniqueName t.name key) key.columns) ++
      (flaggedKeys t flags).map .foreignKey ++ t.checks.map .verbatim ++
      t.verbatim.map .verbatim

/-- A note about a table. -/
def tableNote (t : Table) (kind : DiagnosticKind) (message : Text) : Diagnostic where
  kind := kind
  message := message
  table := some t.name

/-- The notes on the type of a column. -/
def typeNotes (t : Table) (c : Column) : List Diagnostic :=
  let mapped := ColumnType.map c.type
  (if mapped.unmatched then
    [tableNote t .unsupportedTypeToken
      ("type " ++ c.type ++ " of column " ++ c.name ++ " passed through unchanged")]
  else []) ++
  match mapped.lossy with
  | some reason => [tableNote t .lossyConversion ("column " ++ c.name ++ ": " ++ reason)]
  | none => []

/-- The notes on the default of a column. -/
def defaultNotes (t : Table) (c : Column) : List Diagnostic :=
  match serialType? c, c.default with
  | some _, some raw =>
    [tableNote t .lossyConversion
      ("DEFAULT " ++ raw ++ " on serial column " ++ c.name ++ " dropped")]
  | none, some _ =>
    if losesDefault c then
      [tableNote t .lossyConversion
        ("zero-date default on " ++ c.name ++ " dropped" ++
          textIf (!c.nullable) " along with NOT NULL")]
    else []
  | _, none => []

/-- The notes on what of a column is not kept. -/
def columnNotes (t : Table) (c : Column) : List Diagnostic :=
  let serial := (serialType? c).isSome
  (if c.autoIncrement && !serial then
    [tableNote t .unsupportedClause
      ("AUTO_INCREMENT on non-integer column " ++ c.name ++ " dropped")]
  else []) ++
  (if serial then [] else typeNotes t c) ++ defaultNotes t c ++
  (match c.onUpdate with
  | some event =>
    [tableNote t .unsupportedClause
      ("ON UPDATE " ++ event ++ " on column " ++ c.name ++ " dropped")]
  | none => []) ++
  if c.extra.isEmpty then []
  else
    [tableNote t .unsupportedClause
      ("column " ++ c.name ++ " modifiers passed through: " ++ join " " c.extra)]

/-- The notes on what of a table its statement does not keep. -/
def createNotes (t : Table) : List Diagnostic := t.columns.flatMap (columnNotes t)

/-- The families of the columns of a table. -/
def families (t : Table) : List TypeFamily := t.columns.map fun c => (ColumnType.map c.type).family

/-- The columns of a statement, in order. -/
def CreateTable.columns (c : CreateTable) : List ColumnItem :=
  c.items.filterMap fun
    | .column item => some item
    | _ => none

theorem length_families (t : Table) : (families t).length = t.columns.length := by
  simp [families]

end SqlDump.Postgres
