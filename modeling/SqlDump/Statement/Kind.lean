import SqlDump.Identifier
import SqlDump.Text.Keyword

/-!
# Kinds of statements

A statement is told by its first keywords, past the comments before them.

Main statement: `bodyOf_eq_self`, a text that begins with neither a blank nor a comment is its own
body.
-/

namespace SqlDump

/-- What a statement does, as far as a dump cares. -/
inductive StatementKind where
  | unknown
  | createTable
  | insert
  | alterTable
  | dropTable
  /-- A session statement, `SET` or `USE`. -/
  | session
  /-- `LOCK TABLES` or `UNLOCK TABLES`. -/
  | lockTables
  /-- A comment, conditional ones included. -/
  | comment
  deriving DecidableEq, Repr

namespace Statement

open Text

/-- The text from its first character that is neither blank nor in a comment. A conditional
comment (`/*!`) is no comment here. -/
def bodyOf (t : Text) : Text :=
  match _h : trimStart t with
  | '-' :: '-' :: rest =>
    match _hd : rest.dropWhile (· != '\n') with
    | [] => []
    | _ :: more => bodyOf more
  | '/' :: '*' :: rest =>
    if startsWith "!" rest then '/' :: '*' :: rest
    else
      match _ha : afterFirst? "*/" rest with
      | none => []
      | some more => bodyOf more
  | body => body
termination_by t.length
decreasing_by
  · have ht := (List.dropWhile_suffix Unicode.isBlank (l := t)).length_le
    have hd := (List.dropWhile_suffix (· != '\n') (l := rest)).length_le
    rw [trimStart] at _h
    rw [_h] at ht
    rw [_hd] at hd
    simp only [List.length_cons] at ht hd
    omega
  · have ht := (List.dropWhile_suffix Unicode.isBlank (l := t)).length_le
    have ha := length_afterFirst? _ha
    rw [trimStart] at _h
    rw [_h] at ht
    simp only [List.length_cons] at ht
    omega

/-- What follows `CREATE [TEMPORARY] TABLE [IF NOT EXISTS]`. -/
def createHead? (t : Text) : Option Text := do
  let t ← keywordBlanks? "create" t
  let t ← keywordBlanks? "table" (optionally (keywordBlanks? "temporary") t)
  return optionally (fun t => do
    let t ← keywordBlanks? "if" t
    let t ← keywordBlanks? "not" t
    keywordBlanks? "exists" t) t

/-- What follows `INSERT [LOW_PRIORITY | DELAYED | HIGH_PRIORITY] [IGNORE] INTO`. -/
def insertHead? (t : Text) : Option Text := do
  let t ← keywordBlanks? "insert" t
  let t := optionally
    (fun t => (anyKeyword? ["low_priority", "delayed", "high_priority"] t).bind blanks?) t
  keywordBlanks? "into" (optionally (keywordBlanks? "ignore") t)

/-- What follows `ALTER [ONLINE] [IGNORE] TABLE`. -/
def alterHead? (t : Text) : Option Text := do
  let t ← keywordBlanks? "alter" t
  let t := optionally (keywordBlanks? "online") t
  keywordBlanks? "table" (optionally (keywordBlanks? "ignore") t)

/-- What follows `TABLE` or `TABLES`. -/
def tables? (t : Text) : Option Text := (keyword? "table" t).map (optionally (keyword? "s"))

/-- What follows `DROP [TEMPORARY] TABLE[S] [IF EXISTS]`. -/
def dropHead? (t : Text) : Option Text := do
  let t ← keywordBlanks? "drop" t
  let t ← tables? (optionally (keywordBlanks? "temporary") t)
  let t ← blanks? t
  return optionally (fun t => (keywordBlanks? "if" t).bind (keywordBlanks? "exists")) t

/-- Whether the text begins with `LOCK TABLES` or `UNLOCK TABLES`. -/
def isLock (t : Text) : Bool :=
  (do
    let t ← keywordBlanks? "lock" (optionally (keyword? "un") t)
    tables? t).any endsWord

/-- Whether the text begins with `SET` or `USE`. -/
def isSession (t : Text) : Bool :=
  (wholeKeyword? "set" t).isSome || (wholeKeyword? "use" t).isSome

/-- What follows the keywords of a statement about one table; nothing for the other kinds. -/
def head? (kind : StatementKind) (body : Text) : Option Text :=
  match kind with
  | .createTable => createHead? body
  | .insert => insertHead? body
  | .alterTable => alterHead? body
  | .dropTable => dropHead? body
  | _ => none

/-- The kind of a statement about one table and what follows its keywords. -/
def tableHead? (body : Text) : Option (StatementKind × Text) :=
  [StatementKind.createTable, .insert, .alterTable, .dropTable].findSome? fun kind =>
    (head? kind body).map (kind, ·)

/-- The kind of a statement, and the name of its table where it is about one. -/
def classify (t : Text) : StatementKind × Text :=
  let body := bodyOf t
  if body.isEmpty || startsWith "/*!" body then (.comment, [])
  else
    match tableHead? body with
    | some (kind, rest) => (kind, (Identifier.tableName? rest).getD [])
    | none =>
      if isLock body then (.lockTables, [])
      else if isSession body then (.session, [])
      else (.unknown, [])

/-- Whether a statement begins with `CREATE`, whatever it creates. -/
def isCreate (t : Text) : Bool := sameAscii "create" ((bodyOf t).take 6)

/-- A text that begins with neither a blank, a dash nor a slash is its own body. -/
theorem bodyOf_eq_self {c : Char} {t : Text} (hb : Unicode.isBlank c = false) (hd : c ≠ '-')
    (hs : c ≠ '/') : bodyOf (c :: t) = c :: t := by
  have ht : trimStart (c :: t) = c :: t := by simp [trimStart, hb]
  rw [bodyOf]
  split
  · next rest h => rw [ht] at h; simp_all
  · next rest h => rw [ht] at h; simp_all
  · exact ht

end Statement

end SqlDump
