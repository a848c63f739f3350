import SqlDump.Text.Utf8

/-!
# Hexadecimal numbers

Hexadecimal digits read as a number of any length, and as octets. The number is kept in limbs of
nine decimal digits, the lowest first, so that every product fits a machine word.

Main statements: `Limbs.value_timesSixteen`, a digit more multiplies by sixteen and adds the digit;
`Limbs.timesSixteen_lt`, limbs stay below their bound.
-/

namespace SqlDump

/-- A number in limbs of nine decimal digits, the lowest first. -/
abbrev Limbs := List Nat

namespace Limbs

/-- The bound of a limb. -/
def base : Nat := 1000000000

/-- The number that the limbs stand for. -/
def value : Limbs → Nat
  | [] => 0
  | limb :: limbs => limb + base * value limbs

/-- Sixteen times the number, and `carry` more. -/
def timesSixteen (carry : Nat) : Limbs → Limbs
  | [] => if carry = 0 then [] else [carry]
  | limb :: limbs =>
    (limb * 16 + carry) % base :: timesSixteen ((limb * 16 + carry) / base) limbs

/-- The numeral of a limb below the highest, with leading zeros. -/
def padded (limb : Nat) : Text :=
  let digits := Text.ofNat limb
  List.replicate (9 - digits.length) '0' ++ digits

/-- The decimal numeral of limbs given from the highest. -/
def numeral : List Nat → Text
  | [] => []
  | top :: limbs => Text.ofNat top ++ limbs.flatMap padded

/-- The value of a hexadecimal digit. -/
def digitValue (c : Char) : Nat :=
  if c.isDigit then c.toNat - '0'.toNat else c.toLower.toNat - 'a'.toNat + 10

/-- The number of hexadecimal digits, the highest first. -/
def ofHex (digits : Text) : Limbs :=
  digits.foldl (fun limbs c => timesSixteen (digitValue c) limbs) [0]

/-- The decimal numeral for hexadecimal digits. No digits stand for zero. -/
def decimalOfHex (digits : Text) : Text := numeral (ofHex digits).reverse

theorem value_timesSixteen (carry : Nat) (limbs : Limbs) :
    (timesSixteen carry limbs).value = 16 * limbs.value + carry := by
  induction limbs generalizing carry with
  | nil =>
    simp only [timesSixteen]
    split <;> simp_all [value]
  | cons limb limbs ih =>
    simp only [timesSixteen, value, ih, Nat.mul_add]
    have h := Nat.mod_add_div (limb * 16 + carry) base
    have hc : 16 * (base * value limbs) = base * (16 * value limbs) := Nat.mul_left_comm ..
    omega

/-- Limbs stay below their bound, and so does the carry below sixteen. -/
theorem timesSixteen_lt {carry : Nat} {limbs : Limbs} (hc : carry < 16)
    (hl : ∀ limb ∈ limbs, limb < base) : ∀ limb ∈ timesSixteen carry limbs, limb < base := by
  induction limbs generalizing carry with
  | nil =>
    intro limb h
    simp only [timesSixteen] at h
    split at h
    · simp at h
    · simp only [List.mem_singleton] at h
      simp only [base]
      omega
  | cons first limbs ih =>
    have hf := hl first (by simp)
    intro limb h
    simp only [timesSixteen, List.mem_cons] at h
    rcases h with h | h
    · exact h ▸ Nat.mod_lt _ (by decide)
    · refine ih ?_ (fun l hm => hl l (List.mem_cons_of_mem _ hm)) limb h
      simp only [base] at hf ⊢
      omega

end Limbs

namespace Octets

/-- The octets of hexadecimal digits in pairs. -/
def ofHexPairs : Text → Octets
  | a :: b :: rest => UInt8.ofNat (Limbs.digitValue a * 16 + Limbs.digitValue b) :: ofHexPairs rest
  | _ => []

/-- The octets of hexadecimal digits, a zero put before an odd number of them. -/
def ofHex (digits : Text) : Octets :=
  ofHexPairs (if digits.length % 2 = 1 then '0' :: digits else digits)

end Octets

end SqlDump
