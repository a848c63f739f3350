import SqlDump.Text.Numeral
import SqlDump.Yaml.Place

/-!
# YAML scalars

The readers of scalars: plain, quoted and block scalars. A line break between words is folded into a
blank, and more of them into one fewer.
-/

namespace SqlDump.Yaml

open Text

/-- What blanks and line breaks between two words become. -/
def joint (gap : Text) : Text :=
  match gap.filter isBreak with
  | [] => gap
  | ['\n'] => [' ']
  | '\n' :: more => more
  | breaks => breaks

/-- Whether a tab stands left of a column in one of the lines behind the first. -/
def hasEarlyTab (least column : Nat) (below : Bool) : Text → Bool
  | [] => false
  | c :: rest =>
    if isBreak c then hasEarlyTab least 0 true rest
    else below && c == '\t' && decide (column < least) || hasEarlyTab least (column + 1) below rest

/-- A plain scalar as it is read. -/
structure Plain where
  text : Text
  /-- Whether it was left by a line break. -/
  broken : Bool
  place : Place
  deriving DecidableEq, Repr

/-- A plain scalar from a place in it on. `text` holds its beginning in reverse, and `gap` is what
comes between this and the place. Outside brackets its lines begin in column `least` or later. The
fuel is a bound on the characters that follow. -/
def plainFrom? (fuel : Nat) (flow : Bool) (least : Nat) (text gap : Text) (p : Place) :
    Option Plain :=
  match fuel, p.rest with
  | 0, _ | _, [] => some ⟨text.reverse, gap.any isBreak, p⟩
  | fuel + 1, c :: rest =>
    if isGap c then
      let gap := p.rest.takeWhile isGap
      let q := p.skip gap.length
      if hasEarlyTab least p.column false gap then none
      else if q.isMark || q.rest.head? == some '#' || (!flow && q.column < least) then
        some ⟨text.reverse, gap.any isBreak, q⟩
      else
        plainFrom? fuel flow least text gap q
    else if flow && c == ':' && rest.head?.any (fun d => isFlowMark d || d == '?') then none
    else if (c == ':' && atGap rest) || (flow && isFlowMark c) then
      some ⟨text.reverse, gap.any isBreak, p⟩
    else
      plainFrom? fuel flow least (c :: (joint gap).reverse ++ text) [] p.next

/-- The plain scalar at a place. -/
def plain? (flow : Bool) (least : Nat) (p : Place) : Option Plain :=
  plainFrom? p.rest.length flow least [] [] p

/-- Whether a text begins with a plain scalar. -/
def beginsPlain (flow : Bool) (t : Text) : Bool :=
  match t with
  | [] => false
  | '-' :: rest => !rest.head?.any isSpace
  | '?' :: rest | ':' :: rest => !flow && !atGap rest
  | c :: _ =>
    !(isGap c || isFlowMark c ||
      ['#', '&', '*', '!', '|', '>', '\x27', '\x22', '%', '@', '\x60'].contains c)

/-- The characters that escapes of a backslash and a letter stand for. -/
def escapes : List (Char × Char) :=
  [('0', '\x00'), ('a', '\x07'), ('b', '\x08'), ('t', '\t'), ('\t', '\t'), ('n', '\n'),
    ('v', '\x0b'), ('f', '\x0c'), ('r', '\r'), ('e', '\x1b'), (' ', ' '), ('\x22', '\x22'),
    ('/', '/'), ('\\', '\\'), ('N', '\u0085'), ('_', '\u00a0'), ('L', '\u2028'), ('P', '\u2029')]

/-- The number of hexadecimal digits behind a backslash and a letter. -/
def escapeWidth? (c : Char) : Option Nat :=
  if c = 'x' then some 2 else if c = 'u' then some 4 else if c = 'U' then some 8 else none

/-- The character with a number in hexadecimal digits. -/
def charOfHex? (digits : Text) : Option Char := do
  let n ← numeral? 16 digits
  if h : n.isValidChar then some (Char.ofNatAux n h) else none

/-- What the letter at the start of a text stands for behind a backslash, and how many characters
tell it. A line break there counts for nothing, nor do the blanks that follow. -/
def escape? (t : Text) : Option (Text × Nat) :=
  match t with
  | [] => none
  | c :: rest =>
    if isBreak c then
      let gap := rest.takeWhile isGap
      some (gap.filter isBreak, 1 + gap.length)
    else
      match escapeWidth? c with
      | none => (escapes.lookup c).map fun d => ([d], 1)
      | some width =>
        let digits := rest.take width
        if digits.length < width then none
        else (charOfHex? digits).map fun d => ([d], 1 + width)

/-- A quoted scalar from a place in it on, and the place behind it. `text` holds its beginning in
reverse. The fuel is a bound on the characters that follow. -/
def quotedFrom? (fuel : Nat) (quote : Char) (text : Text) (p : Place) : Option (Text × Place) :=
  match fuel, p.rest with
  | 0, _ | _, [] => none
  | fuel + 1, c :: rest =>
    if p.isMark then none
    else if isGap c then
      let gap := p.rest.takeWhile isGap
      quotedFrom? fuel quote ((joint gap).reverse ++ text) (p.skip gap.length)
    else if c = quote then
      if quote = '\x27' ∧ rest.head? = some quote then
        quotedFrom? fuel quote (quote :: text) (p.skip 2)
      else
        some (text.reverse, p.next)
    else if quote = '\x22' ∧ c = '\\' then
      match escape? rest with
      | none => none
      | some (image, n) => quotedFrom? fuel quote (image.reverse ++ text) (p.skip (1 + n))
    else
      quotedFrom? fuel quote (c :: text) p.next

/-- The quoted scalar at a place, and the place behind it. -/
def quoted? (p : Place) : Option (Text × Place) :=
  p.rest.head?.bind fun quote => quotedFrom? p.rest.length quote [] p.next

/-- How the line breaks at the end of a block scalar are kept. -/
inductive Chomping where
  | strip
  | clip
  | keep
  deriving DecidableEq, Repr

/-- The header of a block scalar: its chomping, and by how much it is indented. -/
structure BlockHeader where
  chomping : Chomping := .clip
  indent : Option Nat := none
  deriving DecidableEq, Repr

namespace BlockHeader

/-- The chomping that `c` asks for. -/
def chomping? (c : Char) : Option Chomping :=
  if c = '+' then some .keep else if c = '-' then some .strip else none

/-- The header at the start of a text, its indicators in either order, and what follows. There is no
indicator for an indentation by nothing. -/
def read? (h : BlockHeader) (chomped : Bool) (t : Text) : Option (BlockHeader × Text) :=
  match t with
  | [] => some (h, t)
  | c :: rest =>
    match if chomped then none else chomping? c with
    | some chomping =>
      if h.indent.isSome then some (⟨chomping, h.indent⟩, rest)
      else read? ⟨chomping, h.indent⟩ true rest
    | none =>
      if !c.isDigit || h.indent.isSome then some (h, t)
      else if c = '0' then none
      else
        let h := ⟨h.chomping, some (c.toNat - '0'.toNat)⟩
        if chomped then some (h, rest) else read? h chomped rest

end BlockHeader

/-- What comes before a line of a scalar: the breaks of empty lines, the widest column that was
reached, and the place of the line. -/
structure BlockGap where
  breaks : Text
  widest : Nat
  place : Place
  deriving DecidableEq, Repr

/-- What comes before a line of a scalar whose lines begin in column `indent`, or in a column that
is not known yet. A tab cannot indent a line. `breaks` holds the breaks before in reverse. -/
def blockGap? (indent : Option Nat) (breaks : Text) (widest line column : Nat) (t : Text) :
    Option BlockGap :=
  match t with
  | [] => some ⟨breaks.reverse, max widest column, ⟨t, line, column⟩⟩
  | c :: rest =>
    let indenting := indent.all (column < ·)
    if c == ' ' && indenting then blockGap? indent breaks widest line (column + 1) rest
    else if c == '\t' && indenting then none
    else if isBreak c then blockGap? indent (c :: breaks) (max widest column) (line + 1) 0 rest
    else some ⟨breaks.reverse, max widest column, ⟨t, line, column⟩⟩

/-- The part of a block scalar that is read: its text in reverse, the break at the end of its last
line, whether that line began with a blank, and what came behind it. -/
structure BlockText where
  text : Text := []
  lead : Text := []
  indented : Bool := false
  gap : BlockGap

namespace BlockText

/-- What stands between the text so far and a line that begins with a blank or does not. -/
def between (b : BlockText) (folded blank : Bool) : Text :=
  let lead :=
    if folded && b.lead.head? == some '\n' && !b.indented && !blank then
      if b.gap.breaks.isEmpty then [' '] else []
    else b.lead
  lead ++ b.gap.breaks

/-- The scalar with one more line, whose place is that of the gap. -/
def line? (b : BlockText) (folded : Bool) (indent : Nat) : Option BlockText :=
  let p := b.gap.place
  let line := p.rest.takeWhile (!isBreak ·)
  let blank := line.head?.any isSpace
  let behind := p.skip line.length
  let lead := behind.rest.take 1
  let q := behind.next
  (blockGap? (some indent) [] 0 q.line q.column q.rest).map fun gap =>
    { text := line.reverse ++ (b.between folded blank).reverse ++ b.text
      lead
      indented := blank
      gap }

/-- The scalar with all its lines, of which there are no more than the fuel. -/
def lines? (fuel : Nat) (folded : Bool) (indent : Nat) (b : BlockText) : Option BlockText :=
  match fuel with
  | 0 => some b
  | fuel + 1 =>
    if b.gap.place.column ≠ indent ∨ b.gap.place.rest.isEmpty then some b
    else (b.line? folded indent).bind (lines? fuel folded indent)

/-- The whole text, its last line breaks kept as asked for. -/
def chomp (b : BlockText) (chomping : Chomping) : Text :=
  b.text.reverse ++
    match chomping with
    | .strip => []
    | .clip => b.lead
    | .keep => b.lead ++ b.gap.breaks

end BlockText

/-- The block scalar at a place, and the place behind it. Its lines begin to the right of
`outer`, the column of the collection that it is in. -/
def block? (folded : Bool) (outer : Option Nat) (p : Place) : Option (Text × Place) := do
  let (header, rest) ← BlockHeader.read? {} false p.next.rest
  let line := (p.next.leave rest).skipLine
  if !line.atLineEnd then none
  let below := line.next
  let indent := header.indent.map (outer.getD 0 + ·)
  let gap ← blockGap? indent [] 0 below.line below.column below.rest
  let indent := indent.getD (max gap.widest (max ((outer.map (· + 1)).getD 0) 1))
  let text ← BlockText.lines? gap.place.rest.length folded indent { gap }
  return (text.chomp header.chomping, text.gap.place)

end SqlDump.Yaml
