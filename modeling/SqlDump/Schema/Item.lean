import SqlDump.Diagnostic
import SqlDump.Schema.Column

/-!
# Items of a table definition

The items between the commas of a table definition: keys, checks and columns. What is none of them
is kept as it stands.
-/

namespace SqlDump

/-- One item of a table definition. -/
inductive TableItem where
  | primaryKey (key : PrimaryKey)
  | foreignKey (key : ForeignKey)
  | uniqueKey (key : UniqueKey)
  /-- An index, which says nothing about the content. -/
  | index
  | check (text : Text)
  | column (column : Column) (reference : Option Reference)
  /-- An item that could not be understood. -/
  | verbatim (text : Text)
  deriving DecidableEq, Repr

namespace TableItem

open Text

/-- What follows `UNIQUE [KEY | INDEX] [name]`, and the name. -/
def uniqueHead? (t : Text) : Option (Option Text × Text) := do
  let rest ← wholeKeyword? "unique" t
  let rest := optionally (fun t => (blanks? t).bind (anyKeyword? ["key", "index"])) rest
  match (blanks? rest).bind Definition.name? with
  | some (name, rest) => some (some name, rest)
  | none => some (none, rest)

/-- What follows `FOREIGN KEY` or `PRIMARY KEY`. -/
def keyHead? (kind : Text) (t : Text) : Option Text :=
  (keywordBlanks? kind t).bind (wholeKeyword? "key")

/-- Whether the text begins with `CHECK (`. -/
def isCheckHead (t : Text) : Bool := (keyword? "check" t).any fun rest => startsWith "(" (trimStart rest)

/-- Whether the text begins with the keyword of an index. -/
def isIndexHead (t : Text) : Bool :=
  ["key", "index", "fulltext", "spatial"].any fun word => (wholeKeyword? word t).isSome

/-- The primary key of a name over the first list in a text. -/
def readPrimaryKey? (name : Option Text) (t : Text) : Option TableItem :=
  (group? t).map fun (columns, _) => .primaryKey ⟨name, nameList columns⟩

/-- The foreign key of a name from the first list in a text to the reference behind it. -/
def readForeignKey? (table : Text) (name : Option Text) (t : Text) : Option TableItem := do
  let (columns, rest) ← group? t
  let reference ← Reference.parse? (trimStart rest)
  return .foreignKey (reference.toForeignKey name table (nameList columns))

/-- The unique key of a name over the first list in a text. -/
def readUniqueKey? (name : Option Text) (t : Text) : Option TableItem :=
  (group? t).map fun (columns, _) => .uniqueKey ⟨name, nameList columns⟩

/-- The item that a text is, in the definition of a table. -/
def parse (table : Text) (text : Text) : TableItem :=
  let item := trim text
  match Definition.afterConstraint? (keyHead? "primary") item with
  | some (name, rest) => (readPrimaryKey? name rest).getD (.verbatim item)
  | none =>
    match Definition.afterConstraint? (keyHead? "foreign") item with
    | some (name, rest) => (readForeignKey? table name rest).getD (.verbatim item)
    | none =>
      match Definition.afterConstraint? uniqueHead? item with
      | some (constraint, name, rest) =>
        (readUniqueKey? (name <|> constraint) rest).getD (.verbatim item)
      | none =>
        if isIndexHead item then .index
        else if (Definition.afterConstraint? (fun t => if isCheckHead t then some t else none)
            item).isSome then
          .check item
        else
          match Column.parse? item with
          | some (c, reference) => .column c reference
          | none => .verbatim item

end TableItem

namespace Table

/-- The table with the keys in the definition of one of its columns. -/
def addColumnKeys (t : Table) (c : Column) (reference : Option Reference) : Table :=
  let t := if c.primaryKey then { t with primaryKey := some ⟨none, [c.name]⟩ } else t
  match reference with
  | some r => { t with foreignKeys := t.foreignKeys ++ [r.toForeignKey none t.name [c.name]] }
  | none => t

/-- The table with one item more. A later primary key takes the place of an earlier one. -/
def addItem (t : Table) : TableItem → Table
  | .primaryKey key => { t with primaryKey := some key }
  | .foreignKey key => { t with foreignKeys := t.foreignKeys ++ [key] }
  | .uniqueKey key => { t with uniqueKeys := t.uniqueKeys ++ [key] }
  | .index => t
  | .check text => { t with checks := t.checks ++ [text] }
  | .column c reference => { t with columns := t.columns ++ [c] }.addColumnKeys c reference
  | .verbatim text => { t with verbatim := t.verbatim ++ [text] }

/-- The note for an item that could not be understood. -/
def itemNote? (table : Text) : TableItem → Option Diagnostic
  | .verbatim text =>
    some {
      kind := .unsupportedTypeToken
      message := "unrecognized table item kept verbatim: " ++ text
      table := some table }
  | _ => none

theorem addColumnKeys_columns (t : Table) (c : Column) (reference : Option Reference) :
    (t.addColumnKeys c reference).columns = t.columns := by
  simp only [addColumnKeys]
  split <;> split <;> rfl

theorem addItem_name (t : Table) (item : TableItem) : (t.addItem item).name = t.name := by
  cases item with
  | column c reference =>
    simp only [addItem, addColumnKeys]
    split <;> split <;> rfl
  | _ => rfl

end Table

end SqlDump
