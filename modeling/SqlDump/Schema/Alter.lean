import SqlDump.Schema.Catalog
import SqlDump.Schema.Create

/-!
# ALTER TABLE statements

The clauses of an `ALTER TABLE` that define keys or change a column become part of the table. The
others are put together to a statement of their own.
-/

namespace SqlDump

open Text

namespace Table

/-- Whether a clause sets the next AUTO_INCREMENT value and nothing else. -/
def isAutoIncrementClause (clause : Text) : Bool :=
  match keyword? "auto_increment" clause with
  | none => false
  | some rest =>
    let rest := trimStart rest
    let digits := trimStart (match rest with
      | '=' :: more => more
      | _ => rest)
    !digits.isEmpty && digits.all Unicode.isDigit

/-- The table with a key added by the text of an item. Other items are not added. -/
def addKey? (t : Table) (text : Text) : Option Table :=
  match TableItem.parse t.name text with
  | .primaryKey key => some (t.addItem (.primaryKey key))
  | .foreignKey key => some (t.addItem (.foreignKey key))
  | .uniqueKey key => some (t.addItem (.uniqueKey key))
  | .index => some t
  | _ => none

/-- The table with one of its columns defined anew. -/
def modifyColumn? (t : Table) (definition : Text) : Option Table := do
  let (c, reference) ← Column.parse? definition
  if (t.column? c.name).isNone then none
  return (t.replaceColumn c).addColumnKeys c reference

/-- The table with a clause applied, if the clause can be absorbed. -/
def absorb? (t : Table) (clause : Text) : Option Table :=
  if isAutoIncrementClause clause then some t
  else
    match keywordBlanks? "add" clause with
    | some item => t.addKey? item
    | none =>
      (keywordBlanks? "modify" clause).bind fun rest =>
        t.modifyColumn? (optionally (keywordBlanks? "column") rest)

/-- Applies clauses in order: the table, and the clauses that remain. -/
def alter (t : Table) : List Text → Table × List Text
  | [] => (t, [])
  | clause :: clauses =>
    match t.absorb? clause with
    | some t => t.alter clauses
    | none =>
      let (t, rest) := t.alter clauses
      (t, clause :: rest)

/-- The statement that applies clauses to a table. -/
def alterStatement (table : Text) (clauses : List Text) : Text :=
  "ALTER TABLE " ++ Identifier.quoted '\x60' table ++ " " ++ join ", " clauses ++ ";"

end Table

/-- What became of an `ALTER TABLE` statement. -/
structure Alteration where
  /-- The name of the table in the catalog. -/
  table : Text
  /-- The number of clauses that became part of the table. -/
  absorbed : Nat
  /-- A statement with the other clauses, if there are any. -/
  remainder : Option Text
  notes : List Diagnostic
  deriving DecidableEq, Repr

namespace Alteration

/-- The outcome for a table of which some clauses remain. -/
def ofRemaining (table : Text) (absorbed : Nat) (remaining : List Text) : Alteration where
  table := table
  absorbed := absorbed
  remainder := if remaining.isEmpty then none else some (Table.alterStatement table remaining)
  notes :=
    if remaining.isEmpty then []
    else [Table.clauseNote table ("ALTER TABLE clause passed through: " ++ join ", " remaining)]

/-- The clauses of a statement about a table, and the name of the table. -/
def clauses? (statement : Text) : Option (Text × List Text) := do
  let rest ← Statement.alterHead? (Statement.bodyOf statement)
  let (some name, rest) := Identifier.readQualified rest | none
  return (name, items (trimEndWhile (· == ';') (trim rest)))

/-- Applies a statement to the catalog. Nothing if it is no `ALTER TABLE` or names a table that the
catalog does not have. -/
def parse? (catalog : Catalog) (statement : Text) : Option (Alteration × Catalog) := do
  let (name, clauses) ← clauses? statement
  let id ← catalog.id? name
  let table ← catalog.table? id
  let (altered, remaining) := table.alter clauses
  return (ofRemaining table.name (clauses.length - remaining.length) remaining,
    catalog.set id altered)

end Alteration

end SqlDump
