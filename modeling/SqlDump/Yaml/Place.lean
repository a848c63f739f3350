import SqlDump.Text.Basic

/-!
# Places in a YAML stream

The characters of a stream by what they do in it, and the place that a reader has come to, which
knows its line and column.
-/

namespace SqlDump.Yaml

open Text

/-- Whether `c` may be in a stream. -/
def isPrintable (c : Char) : Bool :=
  let n := c.toNat
  n == 0x09 || n == 0x0A || n == 0x0D || (0x20 ≤ n && n ≤ 0x7E) || n == 0x85 ||
    (0xA0 ≤ n && n ≤ 0xD7FF) || (0xE000 ≤ n && n ≤ 0xFFFD) || 0x10000 ≤ n

/-- The text with a line feed for every carriage return, for the two together, and for every next
line, `done` holding the text before in reverse. -/
def unifyBreaks (done : Text) : Text → Text
  | [] => done.reverse
  | '\r' :: '\n' :: rest => unifyBreaks ('\n' :: done) rest
  | c :: rest =>
    unifyBreaks ((if c = '\r' ∨ c = '\u0085' then '\n' else c) :: done) rest

/-- Whether a line ends with `c`. -/
def isBreak (c : Char) : Bool := c == '\n' || c == '\u2028' || c == '\u2029'

/-- Whether `c` is a blank inside a line. -/
def isSpace (c : Char) : Bool := c == ' ' || c == '\t'

/-- Whether `c` separates words. -/
def isGap (c : Char) : Bool := isSpace c || isBreak c

/-- Whether no word goes on with the text. -/
def atGap (t : Text) : Bool := t.head?.all isGap

/-- Whether `c` can stand in the name of an anchor, a tag handle or a directive. -/
def isWordChar (c : Char) : Bool := c.isAlphanum || c == '_' || c == '-'

/-- Whether `c` is an indicator of flow collections. -/
def isFlowMark (c : Char) : Bool := [',', '[', ']', '\x7b', '\x7d'].contains c

/-- A place in a stream: what follows, and in which line and column. -/
structure Place where
  rest : Text
  line : Nat := 0
  column : Nat := 0
  deriving DecidableEq, Repr

namespace Place

/-- The place behind one character. -/
def next (p : Place) : Place :=
  match p.rest with
  | [] => p
  | c :: rest => if isBreak c then ⟨rest, p.line + 1, 0⟩ else ⟨rest, p.line, p.column + 1⟩

/-- The place behind a number of characters. -/
def skip (p : Place) : Nat → Place
  | 0 => p
  | n + 1 => p.next.skip n

/-- The place behind the characters that satisfy `test`. -/
def skipWhile (p : Place) (test : Char → Bool) : Place := p.skip (p.rest.takeWhile test).length

/-- The place where `rest` is left of the text. -/
def leave (p : Place) (rest : Text) : Place := p.skip (p.rest.length - rest.length)

/-- The place behind the blanks and the comment at the end of a line. -/
def skipLine (p : Place) : Place :=
  let p := p.skipWhile isSpace
  if p.rest.head? = some '#' then p.skipWhile (!isBreak ·) else p

/-- Whether the line or the text ends at a place. -/
def atLineEnd (p : Place) : Bool := p.rest.head?.all isBreak

/-- Whether a place is that of a document start or end indicator. -/
def isMark (p : Place) : Bool :=
  p.column == 0 && ((after? "---" p.rest).any atGap || (after? "..." p.rest).any atGap)

end Place

end SqlDump.Yaml
