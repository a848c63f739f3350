import SqlDump.Text.Keyword

/-!
# Table options

The options behind the body of a table definition, `KEY = value` with the sign optional. The reader
gives back the last character of a name that has no value, which then is the value.
-/

namespace SqlDump.TableOption

open Text

/-- Whether `c` can stand in the name of an option. -/
def isKeyChar (c : Char) : Bool :=
  let d := foldCase c
  decide ('a' ≤ d) && decide (d ≤ 'z') || d == '_'

/-- Whether `c` can stand in a bare value. -/
def isValueChar (c : Char) : Bool := !(Unicode.isBlank c || c == ',' || c == ';')

/-- The rest of a quoted value and what follows it. `value` holds its beginning in reverse, and
`fallback` the answer if the quote is never closed: the value up to its last doubled quote. -/
def quotedFrom? (value : Text) (fallback : Option (Text × Text)) : Text → Option (Text × Text)
  | [] => fallback
  | [c] => if c = '\x27' then some ((c :: value).reverse, []) else fallback
  | c :: d :: rest =>
    if c = '\x27' then
      let closed := ((c :: value).reverse, d :: rest)
      if d = '\x27' then quotedFrom? (d :: c :: value) (some closed) rest else some closed
    else if c = '\\' then
      if d = '\n' then fallback else quotedFrom? (d :: c :: value) fallback rest
    else
      quotedFrom? (c :: value) fallback (d :: rest)

/-- A bare value and what follows it. -/
def bare? (t : Text) : Option (Text × Text) :=
  let value := t.takeWhile isValueChar
  if value.isEmpty then none else some (value, t.dropWhile isValueChar)

/-- A value and what follows it. A quoted value keeps its quotes. -/
def value? (t : Text) : Option (Text × Text) :=
  match t with
  | '\x27' :: rest => quotedFrom? ['\x27'] none rest <|> bare? t
  | _ => bare? t

/-- The value behind a name, past an equals sign. A sign without a value is the value. -/
def assigned? (t : Text) : Option (Text × Text) :=
  let t := trimStart t
  match t with
  | '=' :: rest => value? (trimStart rest) <|> value? t
  | _ => value? t

/-- The name and value of an option, and what follows. -/
def named? (t : Text) : Option (Text × Text × Text) :=
  let key := t.takeWhile isKeyChar
  let rest := t.dropWhile isKeyChar
  if key.isEmpty then none
  else
    let withSet := do
      let set ← blanks? rest
      let (value, rest) ← (keyword? "set" set).bind assigned?
      return (key ++ " " ++ set.take 3, value, rest)
    let plain := (assigned? rest).map (key, ·)
    let shortened :=
      match key.reverse with
      | last :: before :: more => some ((before :: more).reverse, [last], rest)
      | _ => none
    withSet <|> plain <|> shortened

/-- The name and value of an option, with or without `DEFAULT` before it, and what follows. -/
def read? (t : Text) : Option (Text × Text × Text) :=
  (keywordBlanks? "default" t).bind named? <|> named? t

/-- Whether `c` may stand between options. -/
def isSeparator (c : Char) : Bool := Unicode.isBlank c || c == ','

/-- The options at the start of a text in order, and the text behind the last. The fuel is a bound
on their number. -/
def readAll (fuel : Nat) (done : List (Text × Text)) (t : Text) : List (Text × Text) × Text :=
  match fuel with
  | 0 => (done.reverse, t)
  | fuel + 1 =>
    match read? (t.dropWhile isSeparator) with
    | none => (done.reverse, t)
    | some (key, value, rest) => readAll fuel ((lower key, value) :: done) rest

/-- The options of a clause, their names in lower case, and what is no option at its end. -/
def parse (clause : Text) : List (Text × Text) × Text :=
  let text := trim (trimEndWhile (· == ';') (trim clause))
  let (options, rest) := readAll text.length [] text
  (options, trim rest)

/-- The no-op options, which say nothing about the content of a table. -/
def silent : List Text :=
  ["engine", "type", "charset", "character set", "collate", "auto_increment", "row_format",
    "comment", "key_block_size", "pack_keys", "checksum", "delay_key_write", "max_rows", "min_rows",
    "avg_row_length"]

/-- Whether an option can be left out without telling. -/
def isSilent (key : Text) : Bool := silent.contains key || startsWith "stats_" key

end SqlDump.TableOption
