import SqlDump.Schema.Basic
import SqlDump.Schema.Name
import SqlDump.Text.Nesting

/-!
# References

The clause `REFERENCES table (columns) [ON DELETE action] [ON UPDATE action]`.
-/

namespace SqlDump

open Text

/-- The actions, in the order in which they are tried. -/
def ReferentialAction.all : List ReferentialAction :=
  [.restrict, .cascade, .setNull, .setDefault, .noAction]

/-- Whether the text begins with the keywords of the action. -/
def ReferentialAction.begins (a : ReferentialAction) (t : Text) : Bool :=
  (match a with
    | .restrict => keyword? "restrict" t
    | .cascade => keyword? "cascade" t
    | .setNull => keywordPair? "set" "null" t
    | .setDefault => keywordPair? "set" "default" t
    | .noAction => keywordPair? "no" "action" t).isSome

/-- The action that the text begins with. -/
def ReferentialAction.read? (t : Text) : Option ReferentialAction := all.find? (·.begins t)

/-- The action of the first clause `ON event action` of a text. `inWord` says whether the character
before the text belongs to a word. -/
def ReferentialAction.find? (event : Text) (inWord : Bool) (t : Text) :
    Option ReferentialAction :=
  match t with
  | [] => none
  | c :: rest =>
    let here :=
      if inWord then none
      else ((keywordBlanks? "on" t).bind (keywordBlanks? event)).bind read?
    here <|> find? event (isWordChar c) rest

/-- The referenced side of a foreign key. -/
structure Reference where
  table : Text
  columns : List Text
  onDelete : Option ReferentialAction
  onUpdate : Option ReferentialAction
  deriving DecidableEq, Repr

/-- The reference that a text begins with. -/
def Reference.parse? (t : Text) : Option Reference := do
  let (table, rest) ← (keywordBlanks? "references" t).bind Definition.qualifiedName?
  let rest := trimStart rest
  if !startsWith "(" rest then none
  let (columns, rest) ← group? rest
  return {
    table
    columns := nameList columns
    onDelete := ReferentialAction.find? "delete" false rest
    onUpdate := ReferentialAction.find? "update" false rest }

/-- The name of a foreign key that its definition leaves without one. -/
def ForeignKey.defaultName (table : Text) (columns : List Text) : Text :=
  "fk_" ++ table ++ "_" ++ join "_" columns

/-- The foreign key from columns of a table to what is referenced. -/
def Reference.toForeignKey (r : Reference) (name : Option Text) (table : Text)
    (columns : List Text) : ForeignKey where
  name := name.getD (ForeignKey.defaultName table columns)
  table := table
  columns := columns
  referencedTable := r.table
  referencedColumns := r.columns
  onDelete := r.onDelete
  onUpdate := r.onUpdate

end SqlDump
