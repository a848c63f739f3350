import Mathlib.Data.List.Induction
import Mathlib.Data.Nat.Digits.Defs
import SqlDump.Postgres.Literal
import SqlDump.Proofs.Schema.InlineReference
import SqlDump.Proofs.Value.Quoted
import SqlDump.Text.Numeral

/-!
# Decimal numerals of hexadecimal digits

Hexadecimal digits of any number are taken up one by one into limbs, and the limbs are written in
decimal. All limbs are below their bound, and the highest is not zero unless it is the only one, so
that the numeral of the highest limb, with the others filled up to nine digits behind it, is the
numeral of the number. One digit takes up products and carries that fit a machine word.

Main statements: `Reduced.numeral_reverse`, limbs are written as the numeral of their value;
`isNormal_ofHex` and `value_ofHex`, what the limbs of hexadecimal digits are;
`decimalOfHex_canonical`, their decimal numeral.
-/

namespace SqlDump

namespace Text

/-! ## Decimal numerals -/

/-- The decimal digits of `n`, of which the first is zero only where it is the only one. -/
structure IsNumeral (n : Nat) (t : Text) : Prop where
  ne_nil : t ≠ []
  digits : ∀ c ∈ t, c.isDigit = true
  value : Nat.ofDigitChars 10 t 0 = n
  lead : ∀ rest, t = '0' :: rest → rest = []

theorem ofNat_lead {n : Nat} {rest : Text} (h : ofNat n = '0' :: rest) : rest = [] := by
  unfold ofNat at h
  induction n using Nat.strongRecOn generalizing rest with
  | ind n ih =>
    by_cases hn : n < 10
    · rw [Nat.toDigits_of_lt_base hn] at h
      exact (List.cons.inj h).2.symm
    · rw [Nat.toDigits_of_base_le (by decide) (by omega)] at h
      have hdigits : Nat.toDigits 10 (n / 10) ≠ [] := Nat.toDigits_ne_nil
      obtain ⟨c, more, hmore⟩ := List.exists_cons_of_ne_nil hdigits
      rw [hmore, List.cons_append, List.cons.injEq] at h
      obtain ⟨rfl, -⟩ := h
      -- All digits but the last would be zero, and the number would be less than ten.
      have hzero : Nat.toDigits 10 (n / 10) = ['0'] := by
        rw [hmore, ih (n / 10) (by omega) hmore]
      have hvalue := Nat.ofDigitChars_ten_toDigits (n := n / 10)
      rw [hzero] at hvalue
      have hn : n / 10 = 0 := hvalue.symm
      omega

theorem isNumeral_ofNat (n : Nat) : IsNumeral n (ofNat n) where
  ne_nil := Nat.toDigits_ne_nil
  digits := fun _ hc => Nat.isDigit_of_mem_toDigits (by decide) (by decide) hc
  value := Nat.ofDigitChars_ten_toDigits
  lead := fun _ => ofNat_lead

/-- A number below a power of ten fills that many digits behind those of a number that is not
zero. -/
theorem ofNat_mul_add {v : Nat} (hv : 0 < v) (width low : Nat) (hlow : low < 10 ^ (width + 1)) :
    ofNat (10 ^ (width + 1) * v + low) =
      ofNat v ++ (List.replicate (width + 1 - (ofNat low).length) '0' ++ ofNat low) := by
  unfold ofNat
  induction width generalizing low with
  | zero =>
    have hdigit : low < 10 := hlow
    have hone : (Nat.toDigits 10 low).length = 1 := by
      rw [Nat.toDigits_of_lt_base hdigit]
      rfl
    have happend : Nat.toDigits 10 v ++ Nat.toDigits 10 low = Nat.toDigits 10 (10 * v + low) :=
      Nat.toDigits_append_toDigits (by decide) hv hdigit
    rw [hone]
    exact happend.symm
  | succ width ih =>
    have hhigh : low / 10 < 10 ^ (width + 1) := by
      rw [Nat.pow_succ'] at hlow
      omega
    have hsplit : 10 ^ (width + 1 + 1) * v + low =
        10 * (10 ^ (width + 1) * v + low / 10) + low % 10 := by
      rw [Nat.pow_succ' (n := width + 1), Nat.mul_assoc]
      omega
    have hpos : 0 < 10 ^ (width + 1) * v + low / 10 := by
      have := Nat.mul_pos (Nat.pow_pos (n := width + 1) (by decide : 0 < 10)) hv
      omega
    rw [hsplit, ← Nat.toDigits_append_toDigits (by decide) hpos (by omega), ih _ hhigh]
    simp only [List.append_assoc, List.append_cancel_left_eq]
    by_cases hlow : low < 10
    · -- The digits before the last are zero, of which the numeral shows one.
      have hone (d : Nat) (hd : d < 10) : (Nat.toDigits 10 d).length = 1 := by
        rw [Nat.toDigits_of_lt_base hd]
        rfl
      rw [Nat.div_eq_of_lt hlow, Nat.mod_eq_of_lt hlow, Nat.toDigits_zero, hone low hlow]
      simp [List.replicate_succ']
    · rw [Nat.toDigits_of_base_le (b := 10) (n := low) (by decide) (by omega),
        Nat.toDigits_of_lt_base (b := 10) (n := low % 10) (by omega)]
      simp

end Text

namespace Limbs

open Text

variable {carry : Nat} {limbs : Limbs} {digits : Text}

/-! ## Limbs and their numeral -/

/-- Limbs below their bound, of which the highest is not zero. -/
structure Reduced (limbs : Limbs) : Prop where
  lt : ∀ limb ∈ limbs, limb < base
  top : ∃ top, limbs.getLast? = some top ∧ 0 < top

theorem Reduced.tail {limb next : Nat} (h : Reduced (limb :: next :: limbs)) :
    Reduced (next :: limbs) where
  lt := fun l hl => h.lt l (List.mem_cons_of_mem limb hl)
  top := by
    obtain ⟨top, htop, hpos⟩ := h.top
    exact ⟨top, by rwa [List.getLast?_cons_cons] at htop, hpos⟩

theorem Reduced.value_pos (h : Reduced limbs) : 0 < limbs.value := by
  induction limbs with
  | nil =>
    obtain ⟨top, htop, -⟩ := h.top
    cases htop
  | cons limb limbs ih =>
    cases limbs with
    | nil =>
      obtain ⟨top, htop, hpos⟩ := h.top
      obtain rfl : limb = top := Option.some.inj htop
      rw [value]
      omega
    | cons next limbs =>
      have hpos := Nat.mul_pos (by decide : 0 < base) (ih h.tail)
      rw [value]
      omega

/-- Limbs are written as the numeral of their value. -/
theorem Reduced.numeral_reverse (h : Reduced limbs) :
    numeral limbs.reverse = ofNat limbs.value := by
  induction limbs with
  | nil =>
    obtain ⟨top, htop, -⟩ := h.top
    cases htop
  | cons limb limbs ih =>
    cases limbs with
    | nil => simp [numeral, value]
    | cons next limbs =>
      have happend : numeral (limb :: next :: limbs).reverse =
          numeral (next :: limbs).reverse ++ padded limb := by
        obtain ⟨top, more, hmore⟩ := List.exists_cons_of_ne_nil
          (List.reverse_ne_nil_iff.mpr (List.cons_ne_nil next limbs))
        rw [List.reverse_cons, hmore, List.cons_append, numeral, numeral, List.flatMap_append,
          List.append_assoc, List.flatMap_singleton]
      have hlimb : limb < 10 ^ (8 + 1) := h.lt limb List.mem_cons_self
      have hvalue : value (limb :: next :: limbs) =
          10 ^ (8 + 1) * value (next :: limbs) + limb := Nat.add_comm ..
      rw [happend, ih h.tail, hvalue]
      exact (ofNat_mul_add h.tail.value_pos 8 limb hlimb).symm

/-! ## One digit more -/

/-- One digit more leaves the limbs as they have to be. -/
theorem Reduced.timesSixteen (hc : carry < 16) (h : Reduced limbs) :
    Reduced (timesSixteen carry limbs) := by
  refine ⟨timesSixteen_lt hc h.lt, ?_⟩
  clear hc
  induction limbs generalizing carry with
  | nil =>
    obtain ⟨top, htop, -⟩ := h.top
    cases htop
  | cons limb limbs ih =>
    rw [Limbs.timesSixteen]
    cases limbs with
    | nil =>
      obtain ⟨top, htop, hpos⟩ := h.top
      obtain rfl : limb = top := Option.some.inj htop
      rw [Limbs.timesSixteen]
      split
      · next hzero =>
        have hsum := Nat.mod_add_div (limb * 16 + carry) base
        rw [hzero] at hsum
        exact ⟨(limb * 16 + carry) % base, rfl, by omega⟩
      · next hcarry => exact ⟨(limb * 16 + carry) / base, rfl, Nat.pos_of_ne_zero hcarry⟩
    | cons next limbs =>
      generalize (limb * 16 + carry) / base = upper
      obtain ⟨top, htop, hpos⟩ := @ih upper h.tail
      obtain ⟨first, more, hmore⟩ : ∃ first more,
          Limbs.timesSixteen upper (next :: limbs) = first :: more := ⟨_, _, rfl⟩
      rw [hmore] at htop ⊢
      exact ⟨top, by rwa [List.getLast?_cons_cons], hpos⟩

/-- The limbs of a number: one zero, or limbs without a zero at the top. -/
def IsNormal (limbs : Limbs) : Prop := limbs = [0] ∨ Reduced limbs

theorem IsNormal.timesSixteen (hc : carry < 16) (h : IsNormal limbs) :
    IsNormal (timesSixteen carry limbs) := by
  rcases h with rfl | h
  · have hbase : carry < base := Nat.lt_trans hc (by decide)
    have honly : Limbs.timesSixteen carry [0] = [carry] := by
      simp [Limbs.timesSixteen, Nat.mod_eq_of_lt hbase, Nat.div_eq_of_lt hbase]
    rw [honly]
    by_cases hzero : carry = 0
    · exact .inl (by rw [hzero])
    · refine .inr ⟨fun limb hlimb => ?_, carry, rfl, Nat.pos_of_ne_zero hzero⟩
      rwa [List.mem_singleton.mp hlimb]
  · exact .inr (h.timesSixteen hc)

theorem IsNormal.lt (h : IsNormal limbs) : ∀ limb ∈ limbs, limb < base := by
  rcases h with rfl | h
  · decide
  · exact h.lt

theorem IsNormal.numeral_reverse (h : IsNormal limbs) :
    numeral limbs.reverse = ofNat limbs.value := by
  rcases h with rfl | h
  · rfl
  · exact h.numeral_reverse

/-! ## Machine words -/

/-- A number that fits a machine word. -/
def word? (n : Nat) : Option Nat := if n ≤ wordMax then some n else none

/-- Sixteen times the number, and `carry` more, in machine words: nothing where a product, a sum or
a carry does not fit. -/
def timesSixteenInWords? (carry : Nat) : Limbs → Option Limbs
  | [] => do
    let carry ← word? carry
    return if carry = 0 then [] else [carry]
  | limb :: limbs => do
    let product ← word? (limb * 16)
    let sum ← word? (product + carry)
    let limbs ← timesSixteenInWords? (sum / base) limbs
    return sum % base :: limbs

/-- The number of hexadecimal digits in machine words. -/
def ofHexInWords? (digits : Text) : Option Limbs :=
  digits.foldlM (fun limbs c => timesSixteenInWords? (digitValue c) limbs) [0]

theorem word?_eq {n : Nat} (h : n ≤ wordMax) : word? n = some n := if_pos h

/-- The carry stays below sixteen, so that everything fits. -/
theorem timesSixteenInWords?_eq (hc : carry < 16) (h : ∀ limb ∈ limbs, limb < base) :
    timesSixteenInWords? carry limbs = some (timesSixteen carry limbs) := by
  have hbase : base * 16 ≤ wordMax := by decide
  have hsmall : 16 ≤ wordMax := by decide
  induction limbs generalizing carry with
  | nil =>
    rw [timesSixteenInWords?, word?_eq (by omega)]
    rfl
  | cons limb limbs ih =>
    have hlimb := h limb List.mem_cons_self
    have hcarry : (limb * 16 + carry) / base < 16 := by
      rw [Nat.div_lt_iff_lt_mul (by decide)]
      omega
    have hrest := ih hcarry fun l hl => h l (List.mem_cons_of_mem limb hl)
    rw [timesSixteenInWords?, word?_eq (by omega)]
    change (word? (limb * 16 + carry)).bind _ = _
    rw [word?_eq (by omega), Option.bind_some, hrest]
    rfl

/-! ## Hexadecimal digits -/

/-- The hexadecimal digits in the order of their values, the letters small. -/
def hexDigits : Text := "0123456789abcdef"

/-- The number that hexadecimal digits of either case stand for, the highest first. -/
def hexValue (digits : Text) : Nat :=
  Nat.ofDigits 16 (digits.reverse.map fun c => hexDigits.idxOf c.toLower)

theorem hexValue_snoc (digits : Text) (c : Char) :
    hexValue (digits ++ [c]) = 16 * hexValue digits + hexDigits.idxOf c.toLower := by
  rw [hexValue, List.reverse_append, List.reverse_singleton, List.singleton_append, List.map_cons,
    Nat.ofDigits_cons, Nat.add_comm]
  rfl

/-- A digit counts as its place among the digits. -/
theorem digitValue_eq {c : Char} (h : Postgres.isHexDigit c = true) :
    digitValue c = hexDigits.idxOf c.toLower ∧ digitValue c < 16 := by
  have hall : ∀ n < 0x80, Postgres.isHexDigit (Char.ofNat n) = true →
      digitValue (Char.ofNat n) = hexDigits.idxOf (Char.ofNat n).toLower ∧
        digitValue (Char.ofNat n) < 16 := by
    decide +kernel
  have hascii : c.toNat < 0x80 := by
    rcases Bool.or_eq_true_iff.mp h with hdigit | hletter
    · exact ascii_of_isAlphanum (Bool.or_eq_true_iff.mpr (.inr hdigit))
    · by_cases hlower : c.toLower = c
      · have hle : c ≤ 'f' := by
          rw [hlower] at hletter
          exact of_decide_eq_true (Bool.and_eq_true_iff.mp hletter).2
        have hbound : c.toNat ≤ 'f'.toNat := hle
        exact Nat.lt_of_le_of_lt hbound (by decide)
      · exact of_toLower_ne (p := fun c => c.toNat < 0x80) (by decide) hlower
  have hc := hall c.toNat hascii
  rw [Char.ofNat_toNat] at hc
  exact hc h

theorem ofHex_snoc (digits : Text) (c : Char) :
    ofHex (digits ++ [c]) = timesSixteen (digitValue c) (ofHex digits) := by
  rw [ofHex, List.foldl_append]
  rfl

theorem isNormal_ofHex (h : digits.all Postgres.isHexDigit = true) : IsNormal (ofHex digits) := by
  induction digits using List.reverseRecOn with
  | nil => exact .inl rfl
  | append_singleton digits c ih =>
    rw [List.all_append, Bool.and_eq_true, List.all_cons, Bool.and_eq_true] at h
    obtain ⟨hdigits, hc, -⟩ := h
    rw [ofHex_snoc]
    exact (ih hdigits).timesSixteen (digitValue_eq hc).2

theorem value_ofHex (h : digits.all Postgres.isHexDigit = true) :
    (ofHex digits).value = hexValue digits := by
  induction digits using List.reverseRecOn with
  | nil => rfl
  | append_singleton digits c ih =>
    rw [List.all_append, Bool.and_eq_true, List.all_cons, Bool.and_eq_true] at h
    obtain ⟨hdigits, hc, -⟩ := h
    rw [ofHex_snoc, value_timesSixteen, ih hdigits, hexValue_snoc, (digitValue_eq hc).1]

theorem ofHexInWords?_eq (h : digits.all Postgres.isHexDigit = true) :
    ofHexInWords? digits = some (ofHex digits) := by
  induction digits using List.reverseRecOn with
  | nil => rfl
  | append_singleton digits c ih =>
    rw [List.all_append, Bool.and_eq_true, List.all_cons, Bool.and_eq_true] at h
    obtain ⟨hdigits, hc, -⟩ := h
    have hwords := ih hdigits
    rw [ofHexInWords?] at hwords
    have hlast := timesSixteenInWords?_eq (digitValue_eq hc).2 (isNormal_ofHex hdigits).lt
    rw [ofHexInWords?, List.foldlM_append, hwords, ofHex_snoc, ← hlast]
    simp

/-- Hexadecimal digits, however many, are written as the decimal numeral of their number, which
begins with zero only where it is zero alone; no digits are zero. No product, sum or carry on the
way exceeds a machine word. -/
theorem decimalOfHex_canonical (h : digits.all Postgres.isHexDigit = true) :
    decimalOfHex digits = ofNat (hexValue digits) ∧
      IsNumeral (hexValue digits) (decimalOfHex digits) ∧
      (digits = [] → decimalOfHex digits = "0") ∧
      ofHexInWords? digits = some (ofHex digits) := by
  have hnumeral : decimalOfHex digits = ofNat (hexValue digits) := by
    rw [decimalOfHex, (isNormal_ofHex h).numeral_reverse, value_ofHex h]
  refine ⟨hnumeral, ?_, ?_, ofHexInWords?_eq h⟩
  · rw [hnumeral]
    exact isNumeral_ofNat _
  · rintro rfl
    rfl

/-- A limb of zeros and a limb of one digit inside the numeral. -/
theorem decimalOfHex_canonical_zeros :
    ("DE0b6b3a7640001" : Text).all Postgres.isHexDigit = true ∧
      hexValue "DE0b6b3a7640001" = 10 ^ 18 + 1 ∧
      decimalOfHex "DE0b6b3a7640001" = "1000000000000000001" ∧
      ofHexInWords? "DE0b6b3a7640001" = some [1, 0, 1] := by
  have hdigits : ("DE0b6b3a7640001" : Text).all Postgres.isHexDigit = true := by decide
  have hvalue : hexValue "DE0b6b3a7640001" = 10 ^ 18 + 1 := by decide +kernel
  obtain ⟨hnumeral, -, -, hwords⟩ := decimalOfHex_canonical hdigits
  rw [hvalue] at hnumeral
  exact ⟨hdigits, hvalue, hnumeral, hwords⟩

end Limbs

end SqlDump
