import SqlDump.Yaml.Scalar
import SqlDump.Yaml.Token

/-!
# The tokens of a YAML stream

The reader of tokens. A simple key, one without an indicator, is found out by the `:` of its value,
so the reader notes where a simple key may have begun and puts its token there afterwards. Block
collections are told by the columns their items begin in.
-/

namespace SqlDump.Yaml

open Text

/-- A possible simple key: a place where a key may have begun. -/
structure KeyStart where
  /-- How many tokens came before. -/
  position : Nat
  line : Nat
  column : Nat
  /-- Whether a key is required there. -/
  required : Bool
  deriving DecidableEq, Repr

/-- Whether what began there is no simple key, seen from a place behind it. A simple key is on one
line and has no more than 1024 characters. -/
def KeyStart.isStale (k : KeyStart) (p : Place) : Bool :=
  decide (k.line < p.line) || decide (k.column + 1024 < p.column)

/-- The reader of tokens at a place. -/
structure Lexer where
  place : Place
  tokens : Array Token := #[]
  /-- The columns of the block collections around the place, the innermost first. -/
  blocks : List Nat := []
  /-- The possible simple key of the innermost collection. -/
  key : Option KeyStart := none
  /-- Those of the collections around each open flow collection. -/
  outer : List (Option KeyStart) := []
  keyAllowed : Bool := true
  anchors : Anchors := []
  deriving Repr

namespace Lexer

/-- Whether the place is inside a flow collection. -/
def inFlow (s : Lexer) : Bool := !s.outer.isEmpty

/-- The least column that the innermost block reaches to the right of its own. -/
def least (s : Lexer) : Nat := (s.blocks.head?.map (· + 1)).getD 0

/-- The reader behind one more token. -/
def push (s : Lexer) (t : Token) : Lexer := { s with tokens := s.tokens.push t }

/-- The reader behind a token of some characters. -/
def take (s : Lexer) (n : Nat) (t : Token) : Lexer :=
  { s with place := s.place.skip n, tokens := s.tokens.push t }

/-- The reader where simple keys may begin, or may not. -/
def allowKey (s : Lexer) (allowed : Bool) : Lexer := { s with keyAllowed := allowed }

/-- What is behind the blanks, comments and line breaks of a text, and whether a key may begin
there. Tabs are no blanks where a key may begin outside flow collections. A byte order mark may
begin a line. -/
def skipText (flow allowed comment : Bool) (line column : Nat) (t : Text) : Place × Bool :=
  match t with
  | [] => (⟨t, line, column⟩, allowed)
  | c :: rest =>
    if isBreak c then skipText flow (allowed || !flow) false (line + 1) 0 rest
    else if comment || c == '#' then skipText flow allowed true line (column + 1) rest
    else if c == ' ' || (c == '\t' && (flow || !allowed)) || (c == '\uFEFF' && column == 0) then
      skipText flow allowed false line (column + 1) rest
    else (⟨t, line, column⟩, allowed)

/-- The reader at the next token. -/
def toToken (s : Lexer) : Lexer :=
  let p := s.place
  let (place, allowed) := skipText s.inFlow s.keyAllowed false p.line p.column p.rest
  { s with place, keyAllowed := allowed }

/-- The reader without the possible simple key, unless it is required. -/
def dropKey? (s : Lexer) : Option Lexer :=
  if s.key.any (·.required) then none else some { s with key := none }

/-- The reader without the possible simple keys that began too far back, unless one is required. -/
def dropStaleKeys? (s : Lexer) : Option Lexer :=
  let stale (k : KeyStart) := k.isStale s.place
  if (s.key :: s.outer).any (·.any fun k => stale k && k.required) then none
  else
    some { s with
      key := s.key.filter (!stale ·)
      outer := s.outer.map (·.filter (!stale ·)) }

/-- The reader where a key may begin with the next token, if one is allowed. In the column of a
block nothing else can begin. -/
def saveKey? (s : Lexer) : Option Lexer :=
  if !s.keyAllowed then some s
  else
    s.dropKey?.map fun s =>
      let required := !s.inFlow && s.blocks.head? == some s.place.column
      { s with key := some ⟨s.tokens.size, s.place.line, s.place.column, required⟩ }

/-- The reader behind a token that may begin a simple key, up to a place. -/
def scalarTo? (s : Lexer) (t : Token) (p : Place) : Option Lexer :=
  s.saveKey?.map fun s => { s.push t with place := p, keyAllowed := false }

/-- The reader with a block collection opened before the token of a number, if the column is deeper
than that of the block around it. -/
def openBlock (s : Lexer) (column position : Nat) (t : Token) : Lexer :=
  if !s.inFlow && s.blocks.head?.all (· < column) then
    { s with
      blocks := column :: s.blocks
      tokens := s.tokens.insertIdxIfInBounds position t }
  else s

/-- The reader with a block collection opened by the indicator at its place, which has to be allowed
there. -/
def openBlockHere? (s : Lexer) (t : Token) : Option Lexer :=
  if s.inFlow then some s
  else if s.keyAllowed then some (s.openBlock s.place.column s.tokens.size t)
  else none

/-- The reader with the block collections closed whose columns satisfy `deeper`. Inside a flow
collection none are. -/
def closeBlocks (s : Lexer) (deeper : Nat → Bool) : Lexer :=
  if s.inFlow then s
  else
    { s with
      blocks := s.blocks.dropWhile deeper
      tokens := s.tokens ++ Array.replicate (s.blocks.takeWhile deeper).length Token.blockEnd }

/-- The reader with the block collections closed that its place lies left of. -/
def closeDeeper (s : Lexer) : Lexer := s.closeBlocks (s.place.column < ·)

/-- The reader with all block collections closed, and no simple key begun. -/
def closeAll? (s : Lexer) : Option Lexer :=
  (s.closeBlocks fun _ => true).dropKey?.map (·.allowKey false)

/-- The reader behind the opening of a flow collection. -/
def openFlow? (s : Lexer) (t : Token) : Option Lexer :=
  s.saveKey?.map fun s => ({ s with outer := s.key :: s.outer, key := none }.allowKey true).take 1 t

/-- The reader behind the closing of a flow collection. -/
def closeFlow? (s : Lexer) (t : Token) : Option Lexer :=
  s.dropKey?.map fun s =>
    let s :=
      match s.outer with
      | [] => s
      | key :: outer => { s with key, outer }
    (s.allowKey false).take 1 t

/-- The reader behind a flow entry indicator, `,`. -/
def comma? (s : Lexer) : Option Lexer :=
  s.dropKey?.map fun s => (s.allowKey true).take 1 .flowEntry

/-- The reader behind a block entry indicator, `-`. -/
def item? (s : Lexer) : Option Lexer := do
  let s ← s.openBlockHere? .blockSequence
  let s ← s.dropKey?
  return (s.allowKey true).take 1 .blockEntry

/-- The reader behind a key indicator, `?`. -/
def key? (s : Lexer) : Option Lexer := do
  let s ← s.openBlockHere? .blockMapping
  let s ← s.dropKey?
  return (s.allowKey !s.inFlow).take 1 .key

/-- The reader behind a value indicator, `:`. The token of its key goes where the key began. -/
def value? (s : Lexer) : Option Lexer :=
  match s.key with
  | some k =>
    let s := { s with tokens := s.tokens.insertIdxIfInBounds k.position .key, key := none }
    some (((s.openBlock k.column k.position .blockMapping).allowKey false).take 1 .value)
  | none =>
    (s.openBlockHere? .blockMapping).map fun s => (s.allowKey !s.inFlow).take 1 .value

/-- Whether a name may end before a text. -/
def endsName (t : Text) : Bool :=
  atGap t || t.head?.any ['?', ':', ',', ']', '\x7d', '%', '@', '\x60'].contains

/-- The name of an anchor or alias behind its indicator, and the place behind it. -/
def name? (p : Place) : Option (Text × Place) :=
  let name := p.next.rest.takeWhile isWordChar
  let p := p.next.skip name.length
  if name.isEmpty || !endsName p.rest then none else some (name, p)

/-- The reader behind an anchor. -/
def anchor? (s : Lexer) : Option Lexer :=
  (name? s.place).bind fun (name, p) =>
    (s.scalarTo? (.anchor s.anchors.number) p).map fun s =>
      { s with anchors := s.anchors.declare name }

/-- The reader behind an alias. -/
def reference? (s : Lexer) : Option Lexer :=
  (name? s.place).bind fun (name, p) =>
    (s.anchors.find? name).bind fun number => s.scalarTo? (.reference number) p

/-- The reader behind a tag. -/
def tag? (s : Lexer) : Option Lexer :=
  (Tag.read? s.inFlow s.place).bind fun (tag, p) => s.scalarTo? (.tag tag) p

/-- The reader behind a quoted scalar. -/
def quotedScalar? (s : Lexer) : Option Lexer :=
  (quoted? s.place).bind fun (text, p) => s.scalarTo? (.scalar .quoted text) p

/-- The reader behind a plain scalar. -/
def plainScalar? (s : Lexer) : Option Lexer :=
  (plain? s.inFlow s.least s.place).bind fun plain =>
    (s.scalarTo? (.scalar .plain plain.text) plain.place).map (·.allowKey plain.broken)

/-- The reader behind a block scalar. -/
def blockScalar? (s : Lexer) (folded : Bool) : Option Lexer := do
  let s ← s.dropKey?
  let (text, p) ← block? folded s.blocks.head? s.place
  return { s.push (.scalar (if folded then .folded else .literal) text) with
    place := p
    keyAllowed := true }

/-- The number in at most nine digits at a place, and the place behind it. -/
def digits? (p : Place) : Option (Nat × Place) :=
  let digits := p.rest.takeWhile Char.isDigit
  if decide (9 < digits.length) then none
  else (numeral? 10 digits).map fun n => (n, p.skip digits.length)

/-- The version at a place, and the place behind it. -/
def version? (p : Place) : Option (Token × Place) := do
  let (major, p) ← digits? p
  if p.rest.head? ≠ some '.' then none
  let (minor, p) ← digits? p.next
  return (.version major minor, p)

/-- The tag handle at a place with its prefix, and the place behind both. -/
def handle? (p : Place) : Option (Token × Place) := do
  if p.rest.head? ≠ some '!' then none
  let word := p.next.rest.takeWhile isWordChar
  let behind := p.skip (1 + word.length)
  let closed := behind.rest.head? == some '!'
  if !closed && !word.isEmpty then none
  let behind := if closed then behind.next else behind
  if !behind.rest.head?.any isSpace then none
  let (start, rest) ← tagText? true (behind.skipWhile isSpace).rest
  if !atGap rest then none
  return (.handle ('!' :: word ++ if closed then ['!'] else []) start, behind.leave rest)

/-- The directive at a place, and the place of the line behind it. -/
def directive? (p : Place) : Option (Token × Place) := do
  let name := p.next.rest.takeWhile isWordChar
  let behind := p.next.skip name.length
  if !atGap behind.rest then none
  let behind := behind.skipWhile isSpace
  let (t, p) ←
    match String.ofList name with
    | "YAML" => version? behind
    | "TAG" => handle? behind
    | _ => none
  let p := p.skipLine
  if p.atLineEnd then some (t, p.next) else none

/-- The reader behind a directive, or a document start or end indicator. -/
def documentMark? (s : Lexer) : Option Lexer := do
  let s ← s.closeAll?
  match s.place.rest.head? with
  | some '-' => return s.take 3 .documentStart
  | some '.' => return s.take 3 .documentEnd
  | _ =>
    let (t, p) ← directive? s.place
    return { s.push t with place := p }

/-- The reader behind the token that begins at its place. -/
def token? (s : Lexer) : Option Lexer :=
  match s.place.rest with
  | [] => none
  | c :: rest =>
    let flow := s.inFlow
    if s.place.isMark || (c == '%' && s.place.column == 0) then s.documentMark?
    else
      match c with
      | '[' => s.openFlow? .flowSequence
      | '\x7b' => s.openFlow? .flowMapping
      | ']' => s.closeFlow? .flowSequenceEnd
      | '\x7d' => s.closeFlow? .flowMappingEnd
      | ',' => s.comma?
      | '*' => s.reference?
      | '&' => s.anchor?
      | '!' => s.tag?
      | '\x22' | '\x27' => s.quotedScalar?
      | _ =>
        if c == '-' && atGap rest then s.item?
        else if c == '?' && (flow || atGap rest) then s.key?
        else if c == ':' && (flow || atGap rest) then s.value?
        else if (c == '|' || c == '>') && !flow then s.blockScalar? (c == '>')
        else if beginsPlain flow s.place.rest then s.plainScalar?
        else none

/-- The tokens from the place on, of which there are no more than the fuel. -/
def tokens? (fuel : Nat) (s : Lexer) : Option (Array Token) :=
  match fuel with
  | 0 => none
  | fuel + 1 =>
    s.toToken.dropStaleKeys?.bind fun s =>
      let s := s.closeDeeper
      if s.place.rest.isEmpty then s.closeAll?.map (·.tokens)
      else s.token?.bind (tokens? fuel)

end Lexer

/-- The tokens of a stream. -/
def tokens? (t : Text) : Option (List Token) :=
  if t.all isPrintable then
    let t := unifyBreaks [] t
    (Lexer.tokens? (t.length + 1) { place := { rest := t } }).map Array.toList
  else none

end SqlDump.Yaml
