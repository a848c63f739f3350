import SqlDump.Text.Basic

/-!
# Octets and texts

UTF-8 in the strict form, which admits neither overlong forms nor surrogates, and the mapping of
octets to the first 256 characters that stands in for it where the octets are not UTF-8.

Main statement: `Octets.length_ofText`, the octets of a text are as many as its size.
-/

namespace SqlDump

/-- A sequence of octets. -/
abbrev Octets := List UInt8

namespace Octets

/-- The octets of a text in UTF-8. -/
def ofText (t : Text) : Octets := t.flatMap String.utf8EncodeChar

/-- Whether an octet continues a character. -/
def isTail (b : UInt8) : Bool := decide (0x80 ≤ b) && decide (b ≤ 0xBF)

/-- What the first octet of a character of two to four octets says of the others: how many they
are, and the bounds of the first of them. -/
structure Lead where
  tails : Nat
  low : UInt8
  high : UInt8

/-- The first octets of the characters from U+0080 on. The narrow bounds keep out overlong forms,
surrogates and what lies beyond U+10FFFF. -/
def lead? (a : UInt8) : Option Lead :=
  if a < 0xC2 then none
  else if a ≤ 0xDF then some ⟨1, 0x80, 0xBF⟩
  else if a = 0xE0 then some ⟨2, 0xA0, 0xBF⟩
  else if a = 0xED then some ⟨2, 0x80, 0x9F⟩
  else if a ≤ 0xEF then some ⟨2, 0x80, 0xBF⟩
  else if a = 0xF0 then some ⟨3, 0x90, 0xBF⟩
  else if a ≤ 0xF3 then some ⟨3, 0x80, 0xBF⟩
  else if a = 0xF4 then some ⟨3, 0x80, 0x8F⟩
  else none

/-- The octets behind a first octet that belong to its character, as many as there are. -/
def tailOf (l : Lead) (bs : Octets) : Octets :=
  match bs with
  | [] => []
  | b :: bs =>
    if decide (l.low ≤ b) && decide (b ≤ l.high) then
      b :: (bs.take (l.tails - 1)).takeWhile isTail
    else
      []

/-- The code point of a first octet and the octets behind it. -/
def codePoint (a : UInt8) (tail : Octets) : Nat :=
  let head := match tail.length with
    | 1 => a.toNat % 0x20
    | 2 => a.toNat % 0x10
    | _ => a.toNat % 0x08
  tail.foldl (fun n b => n * 0x40 + b.toNat % 0x40) head

/-- The first character and the number of octets it takes, or how many octets at the start belong
to no character. -/
def firstChar (a : UInt8) (bs : Octets) : Except Nat (Char × Nat) :=
  if a < 0x80 then .ok (Char.ofNat a.toNat, 1)
  else
    match lead? a with
    | none => .error 1
    | some l =>
      let tail := tailOf l bs
      if tail.length = l.tails then .ok (Char.ofNat (codePoint a tail), 1 + tail.length)
      else .error (1 + tail.length)

/-- The characters of octets in UTF-8, `done` holding those already read in reverse. -/
def textFrom? (done : Text) (bs : Octets) : Option Text :=
  match bs with
  | [] => some done.reverse
  | a :: bs =>
    match firstChar a bs with
    | .ok (c, n) => textFrom? (c :: done) (bs.drop (n - 1))
    | .error _ => none
termination_by bs.length
decreasing_by simp only [List.length_drop, List.length_cons]; omega

/-- The text that the octets are in UTF-8. -/
def toText? (bs : Octets) : Option Text := textFrom? [] bs

/-- The characters of octets that may be no UTF-8, `done` holding those already read in reverse.
The longest run of octets that begins a character without ending it counts as one
replacement character. -/
def lossyFrom (done : Text) (bs : Octets) : Text :=
  match bs with
  | [] => done.reverse
  | a :: bs =>
    match firstChar a bs with
    | .ok (c, n) => lossyFrom (c :: done) (bs.drop (n - 1))
    | .error n => lossyFrom (Char.ofNat 0xFFFD :: done) (bs.drop (n - 1))
termination_by bs.length
decreasing_by all_goals simp only [List.length_drop, List.length_cons]; omega

/-- The text of the octets, with replacement characters where they are no UTF-8. -/
def toTextLossy (bs : Octets) : Text := lossyFrom [] bs

/-- Every octet read as the character of that number. -/
def fromLatin1 (bs : Octets) : Text := bs.map fun b => Char.ofNat b.toNat

/-- Every character cut to the octet of its number. -/
def toLatin1 (t : Text) : Octets := t.map fun c => UInt8.ofNat c.toNat

/-- The blank octets: space, tab, line feed, form feed and carriage return. -/
def isBlank (b : UInt8) : Bool :=
  b == 0x20 || b == 0x09 || b == 0x0A || b == 0x0C || b == 0x0D

/-- One hexadecimal digit. -/
def hexDigit (n : Nat) : Char := Nat.digitChar (n % 16)

/-- The octets in hexadecimal, two lower-case digits each. -/
def toHex (bs : Octets) : Text :=
  bs.flatMap fun b => [hexDigit (b.toNat / 16), hexDigit b.toNat]

theorem length_ofText (t : Text) : (ofText t).length = t.size := by
  induction t with
  | nil => rfl
  | cons c t ih =>
    rw [ofText] at ih
    simp [ofText, ih]

end Octets

/-- How the octets of a statement were read. -/
inductive Encoding where
  /-- As UTF-8. -/
  | utf8
  /-- Octet by octet, since they were not UTF-8. -/
  | latin1
  deriving DecidableEq, Repr

namespace Encoding

/-- The text of the octets, and how it was read: as UTF-8 where they are that. -/
def decode (bs : Octets) : Text × Encoding :=
  match bs.toText? with
  | some t => (t, .utf8)
  | none => (bs.fromLatin1, .latin1)

/-- The octets that a text was read from. -/
def octets (e : Encoding) (t : Text) : Octets :=
  match e with
  | .utf8 => .ofText t
  | .latin1 => .toLatin1 t

end Encoding

end SqlDump
