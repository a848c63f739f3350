import SqlDump.Text.Numeral
import SqlDump.Text.Utf8
import SqlDump.Yaml.Place

/-!
# YAML tags

A tag is written as a handle and a suffix. The handle stands for a prefix, as a `%TAG` directive
says, so a tag is known only together with the handles of its document. Tags are octets, since they
can be written in percent escapes.
-/

namespace SqlDump.Yaml

open Text

/-- A tag as it is written. A verbatim tag has no handle. -/
structure Tag where
  handle : Text
  suffix : Octets
  deriving DecidableEq, Repr

/-- Whether `c` can stand in a tag, in a verbatim one if `full` holds. -/
def isTagChar (full : Bool) (c : Char) : Bool :=
  isWordChar c || (";/?:@&=+$.!~*'()" : Text).contains c || full && [',', '[', ']'].contains c

/-- The octet with a number in two hexadecimal digits. -/
def octetOfHex? (high low : Char) : Option UInt8 :=
  (numeral? 16 [high, low]).map UInt8.ofNat

/-- The number of octets of a character behind its first one. -/
def tailsOf? (b : UInt8) : Option Nat :=
  if b < 0x80 then some 0
  else if b < 0xC0 then none
  else if b < 0xE0 then some 1
  else if b < 0xF0 then some 2
  else if b < 0xF8 then some 3
  else none

/-- The octets of a tag at the start of a text, and what follows. Octets in percent escapes follow
one another up to the end of a character, of which `tails` are still to come. `done` holds those
before in reverse. -/
def tagOctets? (full : Bool) (tails : Nat) (done : Octets) : Text → Option (Octets × Text)
  | '%' :: high :: low :: rest =>
    match octetOfHex? high low with
    | none => none
    | some b =>
      match tails with
      | 0 =>
        match tailsOf? b with
        | none => none
        | some tails => tagOctets? full tails (b :: done) rest
      | tails + 1 => if Octets.isTail b then tagOctets? full tails (b :: done) rest else none
  | c :: rest =>
    if tails ≠ 0 ∨ c = '%' then none
    else if isTagChar full c then
      tagOctets? full 0 ((Octets.ofText [c]).reverse ++ done) rest
    else
      some (done.reverse, c :: rest)
  | [] => if tails ≠ 0 then none else some (done.reverse, [])

/-- The octets before the first that is zero, which ends a tag. -/
def tagBefore (bs : Octets) : Octets := bs.takeWhile (· != 0)

/-- The tag, verbatim or as the suffix of a handle, at the start of a text, and what follows. -/
def tagText? (full : Bool) (t : Text) : Option (Octets × Text) :=
  (tagOctets? full 0 [] t).bind fun (bs, rest) =>
    if bs.isEmpty then none else some (tagBefore bs, rest)

namespace Tag

/-- The non-specific tag, `!`. -/
def bare : Tag := ⟨[], .ofText "!"⟩

/-- The tag behind its mark at the start of a text, and what follows. -/
def ofText? (t : Text) : Option (Tag × Text) :=
  match t with
  | '<' :: rest =>
    match tagText? true rest with
    | some (bs, '>' :: rest) => some (⟨[], bs⟩, rest)
    | _ => none
  | _ =>
    let word := t.takeWhile isWordChar
    match t.drop word.length with
    | '!' :: rest => (tagText? false rest).map fun (bs, rest) => (⟨'!' :: word ++ ['!'], bs⟩, rest)
    | _ =>
      (tagOctets? false 0 [] t).map fun (bs, rest) =>
        let suffix := tagBefore bs
        (if suffix.isEmpty then bare else ⟨['!'], suffix⟩, rest)

/-- The tag at a place, and the place behind it. In a flow collection a comma may follow it. -/
def read? (flow : Bool) (p : Place) : Option (Tag × Place) :=
  (ofText? p.next.rest).bind fun (tag, rest) =>
    if atGap rest || (flow && rest.head? == some ',') then some (tag, p.leave rest) else none

end Tag

/-- The tag handles of a document, each with its prefix. -/
abbrev Handles := List (Text × Octets)

namespace Handles

/-- The tags that the types of values have begin with this. -/
def core : Octets := .ofText "tag:yaml.org,2002:"

/-- The handles that a document has without a directive. -/
def standard : Handles := [("!", .ofText "!"), ("!!", core)]

/-- The handles with one more, which may not be declared twice. -/
def declare? (hs : Handles) (handle : Text) (start : Octets) : Option Handles :=
  if (hs.lookup handle).isSome then none else some (hs ++ [(handle, start)])

/-- The octets of a tag, if its handle is known. -/
def resolve? (hs : Handles) (tag : Tag) : Option Octets :=
  if tag.handle.isEmpty then some tag.suffix
  else ((hs ++ standard).lookup tag.handle).map (· ++ tag.suffix)

end Handles

end SqlDump.Yaml
