import SqlDump.Schema.Reference
import SqlDump.Value.Rows

/-!
# Column definitions

The reader of `name type [modifiers]`.
-/

namespace SqlDump.Column

open Text

/-- Whether a token is a keyword, in any case of the letters A to Z. -/
def isKeyword (keyword token : Text) : Bool := sameAscii keyword token

/-- Whether the first token is a keyword. -/
def beginsWith (keyword : Text) (tokens : List Text) : Bool :=
  tokens.head?.any (isKeyword keyword)

/-- The words that may follow a type and belong to it. -/
def typeAttributes : List Text := ["unsigned", "signed", "zerofill", "precision", "varying"]

/-- Whether a token belongs to the type before it. -/
def isTypeAttribute (token : Text) : Bool := typeAttributes.any (isKeyword · token)

/-- The type at the start of the tokens, and the tokens behind it. Nothing where the first token
begins with no letter from A to Z. -/
def readType? (tokens : List Text) : Option (Text × List Text) := do
  let first :: rest := tokens | none
  if !(first.head?.any Char.isAlpha) then none
  let (type, rest) := match rest with
    | arguments :: more =>
      if startsWith "(" arguments then (first ++ arguments, more) else (first, rest)
    | [] => (first, [])
  let attributes := rest.takeWhile isTypeAttribute
  return (type ++ attributes.flatMap (' ' :: ·), rest.dropWhile isTypeAttribute)

/-- Applies the modifiers to a column. A reference ends them and is answered apart. -/
def applyModifiers (c : Column) (tokens : List Text) : Column × Option Reference :=
  match tokens with
  | [] => (c, none)
  | token :: rest =>
    if isKeyword "not" token && beginsWith "null" rest then
      applyModifiers { c with nullable := false } (rest.drop 1)
    else if isKeyword "null" token then
      applyModifiers { c with nullable := true } rest
    else if isKeyword "default" token then
      applyModifiers { c with default := rest.head? } (rest.drop 1)
    else if isKeyword "auto_increment" token then
      applyModifiers { c with autoIncrement := true } rest
    else if isKeyword "on" token && beginsWith "update" rest then
      applyModifiers { c with onUpdate := rest[1]? } (rest.drop 2)
    else if isKeyword "primary" token && beginsWith "key" rest then
      applyModifiers { c with primaryKey := true } (rest.drop 1)
    else if isKeyword "unique" token then
      applyModifiers { c with unique := true }
        (if beginsWith "key" rest then rest.drop 1 else rest)
    else if isKeyword "comment" token then
      applyModifiers { c with comment := rest.head?.bind fun t => (Value.ofToken t).content? }
        (rest.drop 1)
    else if isKeyword "character" token && beginsWith "set" rest then
      applyModifiers c (rest.drop 2)
    else if isKeyword "charset" token || isKeyword "collate" token then
      applyModifiers c (rest.drop 1)
    else if isKeyword "references" token then
      (c, Reference.parse? (join " " tokens))
    else
      applyModifiers { c with extra := c.extra ++ [token] } rest
termination_by tokens.length
decreasing_by
  all_goals simp only [List.length_drop, List.length_cons]
  all_goals try split
  all_goals try simp only [List.length_drop]
  all_goals omega

/-- The column that a text defines, and the reference in its definition. -/
def parse? (t : Text) : Option (Column × Option Reference) := do
  let (name, rest) ← Identifier.read (trim t)
  let (type, modifiers) ← readType? (tokens rest)
  return applyModifiers { name, type } modifiers

end SqlDump.Column
