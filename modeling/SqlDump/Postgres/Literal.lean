import SqlDump.ColumnType
import SqlDump.Postgres.Number
import SqlDump.Postgres.Quote
import SqlDump.Text.Keyword

/-!
# Literals

How values and defaults of MySQL are written for PostgreSQL, which depends on the family of the
column: zero dates become `NULL`, numbers become `TRUE` and `FALSE` in boolean columns, and texts
become octets in binary columns.

Main statements: `renderValue_text`, a text is quoted unless its column makes something else of it.
-/

namespace SqlDump.Postgres

open Text

/-- Whether a text, without the blanks around it, is a zero date, with or without a time of
zeros. -/
def isZeroDate (s : Text) : Bool :=
  match after? "0000-00-00" (trim s) with
  | none => false
  | some [] => true
  | some (c :: rest) =>
    (c == ' ' || c == 'T') &&
      match after? "00:00:00" rest with
      | none => false
      | some [] => true
      | some (d :: zeros) => d == '.' && !zeros.isEmpty && zeros.all (· == '0')

/-- Octets as a literal. -/
def quoteOctets (bs : Octets) : Text := "'\\x" ++ bs.toHex ++ "'"

/-- The boolean that a number stands for, `TRUE` unless it is zero. Nothing for what is no number
without exponent. -/
def truthValue? (token : Text) : Option Text :=
  let s := trim token
  let digits := match s with
    | '-' :: rest => rest
    | '+' :: rest => rest
    | _ => s
  if digits.isEmpty || !digits.all (fun c => c.isDigit || c == '.') then none
  else if digits.all (fun c => c == '0' || c == '.') then some "FALSE"
  else some "TRUE"

/-- The part of a text before a quote at its end. -/
def beforeClosingQuote? (t : Text) : Option Text :=
  match t.reverse with
  | '\x27' :: rest => some rest.reverse
  | _ => none

/-- Whether `c` is a hexadecimal digit. -/
def isHexDigit (c : Char) : Bool :=
  c.isDigit || decide ('a' ≤ c.toLower) && decide (c.toLower ≤ 'f')

/-- The digits of a hexadecimal literal, `0x...` or `x'...'`. -/
def hexDigits? (token : Text) : Option Text :=
  let digits := match token with
    | '0' :: x :: rest => if x.toLower = 'x' then some rest else none
    | x :: '\x27' :: rest => if x.toLower = 'x' then beforeClosingQuote? rest else none
    | _ => none
  digits.filter (·.all isHexDigit)

/-- The digits of a bit literal, `b'...'`. -/
def bitDigits? (token : Text) : Option Text :=
  let digits := match token with
    | b :: '\x27' :: rest => if b.toLower = 'b' then beforeClosingQuote? rest else none
    | _ => none
  digits.filter (·.all fun c => c == '0' || c == '1')

/-- A text as a value of a column, whose encoding tells the octets it was read from. -/
def renderText (s : Text) (family : TypeFamily) (encoding : Encoding) : Text :=
  match family with
  | .temporal => if isZeroDate s then "NULL" else quoteString s
  | .binary => quoteOctets (encoding.octets s)
  | _ => quoteString s

/-- Hexadecimal digits as a value of a column; nothing where the literal stays as it is. -/
def renderHex? (digits : Text) (family : TypeFamily) : Option Text :=
  match family with
  | .binary | .other => some ("'\\x" ++ asciiLower digits ++ "'")
  | .text => some (quoteString (Octets.ofHex digits).toTextLossy)
  | .integer | .numeric => some (Limbs.decimalOfHex digits)
  | _ => none

/-- A token without quotes as a value of a column. -/
def renderBare (token : Text) (family : TypeFamily) : Text :=
  match if family = .boolean then truthValue? token else none with
  | some truth => truth
  | none =>
    match hexDigits? token with
    | some digits => (renderHex? digits family).getD token
    | none =>
      match bitDigits? token with
      | some bits => "B'" ++ bits ++ "'"
      | none => requote token

/-- The quoted text behind a charset introducer, `_utf8'...'`. -/
def introduced? (token : Text) : Option Text :=
  match token with
  | '_' :: rest =>
    let name := rest.takeWhile fun c => (foldCase c).isAlphanum
    let quoted := trimStart (rest.dropWhile fun c => (foldCase c).isAlphanum)
    if name.isEmpty || quoted.length < 2 || !startsWith "'" quoted ||
        (beforeClosingQuote? quoted).isNone then
      none
    else
      match Value.ofToken quoted with
      | .text s => some s
      | _ => none
  | _ => none

/-- The text that a value gives in quotes, with or without a charset introducer before it. -/
def quotedContent? : Value → Option Text
  | .null => none
  | .text s => some s
  | .bare token => introduced? token

/-- A value of a row, for a column of the given family. -/
def renderValue (v : Value) (family : TypeFamily) (encoding : Encoding) : Text :=
  match quotedContent? v, v with
  | some s, _ => renderText s family encoding
  | none, .bare token => renderBare token family
  | none, _ => "NULL"

/-- Whether a value is written as `NULL` for being a zero date. -/
def isNulledDate (v : Value) (family : TypeFamily) : Bool :=
  family == .temporal && (quotedContent? v).any isZeroDate

/-- The precision of the current time, if a token asks for that. -/
def currentTime? (token : Text) : Option Text :=
  (["current_timestamp", "now", "localtimestamp", "localtime"] : List Text).findSome? fun word =>
    match keyword? word token with
    | some [] => some []
    | some ('(' :: rest) =>
      match rest.reverse with
      | ')' :: digits => if digits.all Unicode.isDigit then some digits.reverse else none
      | _ => none
    | _ => none

/-- A default of a column as it is written for PostgreSQL. Nothing where the default is a zero date
and has to go. -/
def renderDefault? (raw : Text) (family : TypeFamily) : Option Text :=
  match Value.ofToken raw with
  | .null => some "NULL"
  | .text s =>
    if family = .temporal ∧ isZeroDate s then none
    else some ((if family = .boolean then truthValue? s else none).getD (quoteString s))
  | .bare token =>
    match currentTime? token with
    | some [] => some "CURRENT_TIMESTAMP"
    | some digits => some ("CURRENT_TIMESTAMP(" ++ digits ++ ")")
    | none => some (renderBare token family)

theorem renderValue_text (s : Text) (family : TypeFamily) (encoding : Encoding)
    (hb : family ≠ .binary) (ht : family ≠ .temporal) :
    renderValue (.text s) family encoding = quoteString s := by
  cases family <;> simp_all [renderValue, quotedContent?, renderText]

end SqlDump.Postgres
