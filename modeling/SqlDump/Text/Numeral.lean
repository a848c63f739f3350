import SqlDump.Text.Basic

/-!
# Numerals

Natural numbers read from digits in a base up to sixteen.
-/

namespace SqlDump.Text

/-- The value of a digit, letters of either case included. -/
def digitValue? (c : Char) : Option Nat :=
  let d := c.toLower
  if c.isDigit then some (c.toNat - '0'.toNat)
  else if 'a' ≤ d ∧ d ≤ 'f' then some (d.toNat - 'a'.toNat + 10)
  else none

/-- The greatest number of 64 bits. -/
def wordMax : Nat := 18446744073709551615

/-- The number that digits give when they follow those of `n`. -/
def numeralFrom? (base n : Nat) : Text → Option Nat
  | [] => some n
  | c :: rest =>
    match digitValue? c with
    | some d => if d < base then numeralFrom? base (n * base + d) rest else none
    | none => none

/-- The number that digits give, at least one of them. -/
def numeral? (base : Nat) (t : Text) : Option Nat :=
  if t.isEmpty then none else numeralFrom? base 0 t

/-- A text without the plus sign at its start. -/
def unsigned (t : Text) : Text :=
  match t with
  | '+' :: rest => rest
  | _ => t

end SqlDump.Text
