import SqlDump.Yaml.Lexer
import SqlDump.Yaml.Node

/-!
# YAML documents

The one document of a stream, read from its tokens.
-/

namespace SqlDump.Yaml

/-- Whether one of `stops` comes next. -/
def isNext (stops : List Token) (ts : List Token) : Bool := ts.head?.any stops.contains

/-- What is written in front of a node, and the tokens of the node itself. -/
def properties? (hs : Handles) : List Token → Option (Properties × List Token)
  | .anchor n :: .tag tag :: ts | .tag tag :: .anchor n :: ts =>
    (hs.resolve? tag).map fun tag => (⟨some n, some tag⟩, ts)
  | .anchor n :: ts => some (⟨some n, none⟩, ts)
  | .tag tag :: ts => (hs.resolve? tag).map fun tag => (⟨none, some tag⟩, ts)
  | ts => some ({}, ts)

/-- A scalar with properties, of which the non-specific tag counts for none. -/
def scalarNode (p : Properties) (style : Style) (text : Text) : Node :=
  .scalar { p with tag := p.tag.filter (· != Tag.bare.suffix) } style text

/-- The tokens that can follow in a block mapping where a key or value would be. -/
def entryStops : List Token := [.key, .value, .blockEnd]

/-- The tokens that can follow in a block sequence where an item would be. -/
def itemStops : List Token := [.blockEntry, .blockEnd]

/-- The tokens that can follow in an indentless sequence where an item would be. The items of such a
sequence are in the column of the mapping around it. -/
def flushStops : List Token := .blockEntry :: entryStops

/-- The tokens that can follow in a flow collection where a value would be. -/
def flowStops (last : Token) : List Token := [.flowEntry, last]

/-- The tokens that can follow in a flow collection where a key would be. -/
def flowKeyStops (last : Token) : List Token := [.value, .flowEntry, last]

/-- What may stand where a node is read. -/
structure Slot where
  /-- A block collection. -/
  block : Bool := false
  /-- The items of an indentless sequence. -/
  flush : Bool := false
  deriving DecidableEq, Repr

mutual

/-- The node at the start of the tokens, of a kind that may stand there, and the tokens behind it.
The fuel bounds the number of readers at work. -/
def node? (fuel : Nat) (hs : Handles) (slot : Slot) (ts : List Token) :
    Option (Node × List Token) :=
  match fuel, ts with
  | 0, _ => none
  | _, .reference n :: ts => some (.reference n, ts)
  | fuel + 1, ts =>
    (properties? hs ts).bind fun (p, ts) =>
      match ts with
      | .scalar style text :: ts => some (scalarNode p style text, ts)
      | .flowSequence :: ts =>
        (flowItems? fuel hs [] ts).map fun (items, ts) => (.sequence p items, ts)
      | .flowMapping :: ts =>
        (flowEntries? fuel hs [] ts).map fun (entries, ts) => (.mapping p entries, ts)
      | _ =>
        if slot.flush && isNext [.blockEntry] ts then
          (items? fuel hs true [] ts).map fun (items, ts) => (.sequence p items, ts)
        else if slot.block && isNext [.blockSequence] ts then
          (items? fuel hs false [] ts.tail).map fun (items, ts) => (.sequence p items, ts)
        else if slot.block && isNext [.blockMapping] ts then
          (entries? fuel hs [] ts.tail).map fun (entries, ts) => (.mapping p entries, ts)
        else if p = {} then none
        else some (.scalar p .plain [], ts)

/-- The node at the start of the tokens, or an empty one where a token comes that can follow it. -/
def nodeOrEmpty? (fuel : Nat) (hs : Handles) (slot : Slot) (stops : List Token)
    (ts : List Token) : Option (Node × List Token) :=
  match fuel with
  | 0 => none
  | fuel + 1 => if isNext stops ts then some (.empty, ts) else node? fuel hs slot ts

/-- The items of a block sequence. An indentless one has no token of its end. -/
def items? (fuel : Nat) (hs : Handles) (flush : Bool) (done : List Node) (ts : List Token) :
    Option (List Node × List Token) :=
  match fuel, ts with
  | 0, _ => none
  | fuel + 1, .blockEntry :: ts =>
    (nodeOrEmpty? fuel hs ⟨true, false⟩ (if flush then flushStops else itemStops) ts).bind
      fun (item, ts) => items? fuel hs flush (item :: done) ts
  | _, ts =>
    if flush then some (done.reverse, ts)
    else if isNext [.blockEnd] ts then some (done.reverse, ts.tail)
    else none

/-- The entries of a block mapping. -/
def entries? (fuel : Nat) (hs : Handles) (done : List (Node × Node)) (ts : List Token) :
    Option (List (Node × Node) × List Token) :=
  match fuel, ts with
  | fuel + 1, .key :: ts =>
    (nodeOrEmpty? fuel hs ⟨true, true⟩ entryStops ts).bind fun (key, ts) =>
      match ts with
      | .value :: ts =>
        (nodeOrEmpty? fuel hs ⟨true, true⟩ entryStops ts).bind fun (value, ts) =>
          entries? fuel hs ((key, value) :: done) ts
      | _ => entries? fuel hs ((key, .empty) :: done) ts
  | _ + 1, .blockEnd :: ts => some (done.reverse, ts)
  | _, _ => none

/-- The value of an entry of a flow collection, which may be left out. -/
def flowValue? (fuel : Nat) (hs : Handles) (last : Token) (ts : List Token) :
    Option (Node × List Token) :=
  match fuel, ts with
  | 0, _ => none
  | fuel + 1, .value :: ts => nodeOrEmpty? fuel hs {} (flowStops last) ts
  | _, ts => some (.empty, ts)

/-- The items of a flow sequence. An item can be a mapping of one entry. Where its key is left out,
the token there is passed over. -/
def flowItems? (fuel : Nat) (hs : Handles) (done : List Node) (ts : List Token) :
    Option (List Node × List Token) :=
  match fuel, ts with
  | fuel + 1, .key :: ts =>
    (nodeOrEmpty? fuel hs {} (flowKeyStops .flowSequenceEnd) ts).bind fun (key, behind) =>
      let behind := if isNext (flowKeyStops .flowSequenceEnd) ts then behind.tail else behind
      (flowValue? fuel hs .flowSequenceEnd behind).bind fun (value, ts) =>
        itemsBehind? fuel hs (.mapping {} [(key, value)] :: done) ts
  | _ + 1, .flowSequenceEnd :: ts => some (done.reverse, ts)
  | fuel + 1, ts => (node? fuel hs {} ts).bind fun (item, ts) => itemsBehind? fuel hs (item :: done) ts
  | 0, _ => none

/-- The items of a flow sequence behind one of them. -/
def itemsBehind? (fuel : Nat) (hs : Handles) (done : List Node) (ts : List Token) :
    Option (List Node × List Token) :=
  match fuel, ts with
  | fuel + 1, .flowEntry :: ts => flowItems? fuel hs done ts
  | _ + 1, .flowSequenceEnd :: ts => some (done.reverse, ts)
  | _, _ => none

/-- The entries of a flow mapping. A node without a key indicator has no value. -/
def flowEntries? (fuel : Nat) (hs : Handles) (done : List (Node × Node)) (ts : List Token) :
    Option (List (Node × Node) × List Token) :=
  match fuel, ts with
  | fuel + 1, .key :: ts =>
    (nodeOrEmpty? fuel hs {} (flowKeyStops .flowMappingEnd) ts).bind fun (key, ts) =>
      (flowValue? fuel hs .flowMappingEnd ts).bind fun (value, ts) =>
        entriesBehind? fuel hs ((key, value) :: done) ts
  | _ + 1, .flowMappingEnd :: ts => some (done.reverse, ts)
  | fuel + 1, ts =>
    (node? fuel hs {} ts).bind fun (key, ts) => entriesBehind? fuel hs ((key, .empty) :: done) ts
  | 0, _ => none

/-- The entries of a flow mapping behind one of them. -/
def entriesBehind? (fuel : Nat) (hs : Handles) (done : List (Node × Node)) (ts : List Token) :
    Option (List (Node × Node) × List Token) :=
  match fuel, ts with
  | fuel + 1, .flowEntry :: ts => flowEntries? fuel hs done ts
  | _ + 1, .flowMappingEnd :: ts => some (done.reverse, ts)
  | _, _ => none

end

/-- The tag handles that directives declare, and the tokens behind these. A version is declared once
at most, and is 1.1 or 1.2. -/
def directives? (hs : Handles) (versioned : Bool) : List Token → Option (Handles × List Token)
  | .version major minor :: ts =>
    if versioned || major != 1 || !(minor == 1 || minor == 2) then none
    else directives? hs true ts
  | .handle name start :: ts => (hs.declare? name start).bind fun hs => directives? hs versioned ts
  | ts => some (hs, ts)

/-- Whether a token belongs to no document's content. -/
def isOutside : Token → Bool
  | .version _ _ | .handle _ _ | .documentStart | .documentEnd => true
  | _ => false

/-- The content of a document, and the tokens behind it. -/
def content? (hs : Handles) (ts : List Token) : Option (Node × List Token) :=
  if ts.head?.all isOutside then some (.empty, ts)
  else node? (4 * ts.length + 4) hs ⟨true, false⟩ ts

/-- The node of the one document that tokens make up, or an empty one where there are none. -/
def ofTokens? (ts : List Token) : Option Node :=
  if ts.isEmpty then some .empty
  else do
    let (hs, rest) ← directives? [] false ts
    let (root, behind) ←
      match rest with
      | .documentStart :: body => content? hs body
      | _ =>
        if rest.length < ts.length then none
        else node? (4 * ts.length + 4) hs ⟨true, false⟩ ts
    if behind.all (· == .documentEnd) then some root else none

/-- The node of the one document of a stream. -/
def document? (stream : Text) : Option Node := (tokens? stream).bind ofTokens?

end SqlDump.Yaml
