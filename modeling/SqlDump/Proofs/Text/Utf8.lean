import Mathlib.Data.List.TakeWhile
import SqlDump.Text.Utf8

/-!
# Texts in UTF-8

The octets of a text are read back as the text, and only characters of one octet have octets below
0x80.

Main statements: `Octets.toText?_ofText`, decoding inverts encoding; `Encoding.decode_ofText`, such
octets are told to be UTF-8; `Octets.utf8EncodeChar_high`, a character beyond ASCII has no octet in
the range of ASCII.
-/

namespace SqlDump

namespace Text

def IsAscii (t : Text) : Prop := ∀ c ∈ t, c.toNat < 0x80

instance (t : Text) : Decidable t.IsAscii := List.decidableBAll _ t

theorem IsAscii.append {t u : Text} (h : t.IsAscii) (k : u.IsAscii) : IsAscii (t ++ u) := by
  intro c hc
  exact (List.mem_append.mp hc).elim (h c) (k c)

end Text

namespace Octets

theorem utf8EncodeChar_ascii {c : Char} (h : c.toNat < 0x80) :
    String.utf8EncodeChar c = [UInt8.ofNat c.toNat] := by
  unfold String.utf8EncodeChar
  exact if_pos (Nat.le_of_lt_succ h)

theorem toNat_ofNat_of_lt {n : Nat} (h : n < 256) : (UInt8.ofNat n).toNat = n := by
  rw [UInt8.toNat_ofNat', Nat.mod_eq_of_lt h]

theorem high_of_add (n k : Nat) (h : n + k < 256) (hk : 0x80 ≤ k) :
    (0x80 : UInt8) ≤ UInt8.ofNat (n + k) := by
  rw [UInt8.le_iff_toNat_le, toNat_ofNat_of_lt h]
  exact Nat.le_trans hk (Nat.le_add_left k n)

/-- A character beyond ASCII has no octet in the range of ASCII. -/
theorem utf8EncodeChar_high {c : Char} (h : 0x80 ≤ c.toNat) :
    ∀ b ∈ String.utf8EncodeChar c, (0x80 : UInt8) ≤ b := by
  have hc : ¬c.val.toNat ≤ 0x7f := Nat.not_le.mpr h
  unfold String.utf8EncodeChar
  simp only [if_neg hc]
  intro b hb
  split at hb
  · simp only [List.mem_cons, List.not_mem_nil, or_false] at hb
    rcases hb with rfl | rfl
    · exact high_of_add _ _ (by omega) (by decide)
    · exact high_of_add _ _ (by omega) (by decide)
  split at hb
  · simp only [List.mem_cons, List.not_mem_nil, or_false] at hb
    rcases hb with rfl | rfl | rfl
    · exact high_of_add _ _ (by omega) (by decide)
    · exact high_of_add _ _ (by omega) (by decide)
    · exact high_of_add _ _ (by omega) (by decide)
  · simp only [List.mem_cons, List.not_mem_nil, or_false] at hb
    rcases hb with rfl | rfl | rfl | rfl
    · exact high_of_add _ _ (by omega) (by decide)
    · exact high_of_add _ _ (by omega) (by decide)
    · exact high_of_add _ _ (by omega) (by decide)
    · exact high_of_add _ _ (by omega) (by decide)

theorem firstChar_one {v : Nat} (h : v ≤ 0x7f) (bs : Octets) :
    firstChar (UInt8.ofNat v) bs = .ok (Char.ofNat v, 1) := by
  have ha := toNat_ofNat_of_lt (n := v) (by omega)
  have hlt : UInt8.ofNat v < 0x80 := by
    rw [UInt8.lt_iff_toNat_lt, ha]
    exact Nat.lt_succ_of_le h
  rw [firstChar, if_pos hlt, ha]

/-- A first octet and as many octets behind it as it asks for are a character. -/
theorem firstChar_of_lead {a b : UInt8} {l : Lead} {more : Octets} (hl : lead? a = some l)
    (hlow : l.low ≤ b) (hhigh : b ≤ l.high) (hmore : ∀ d ∈ more, isTail d = true)
    (hlen : more.length + 1 = l.tails) (bs : Octets) :
    firstChar a (b :: (more ++ bs)) = .ok (Char.ofNat (codePoint a (b :: more)), l.tails + 1) := by
  have ha : ¬a < 0x80 := by
    intro hlt
    unfold lead? at hl
    rw [if_pos (UInt8.lt_trans hlt (by decide))] at hl
    cases hl
  have htail : tailOf l (b :: (more ++ bs)) = b :: more := by
    have htake : (more ++ bs).take (l.tails - 1) = more := by
      rw [← hlen, Nat.add_sub_cancel, List.take_left]
    have hall : more.takeWhile isTail = more := List.takeWhile_eq_self_iff.mpr hmore
    simp [tailOf, hlow, hhigh, htake, hall]
  rw [firstChar, if_neg ha, hl]
  simp only [htail, List.length_cons, hlen, if_true]
  rw [Nat.add_comm]

theorem lead?_two {a : UInt8} (h : 0xC2 ≤ a) (h' : a ≤ 0xDF) :
    lead? a = some ⟨1, 0x80, 0xBF⟩ := by
  unfold lead?
  rw [if_neg (UInt8.not_lt.mpr h), if_pos h']

/-- What a first octet asks of three octets. -/
theorem lead?_three {a b : UInt8} (h : 0xE0 ≤ a) (h' : a ≤ 0xEF) (hb : isTail b = true)
    (hlow : a = 0xE0 → 0xA0 ≤ b) (hhigh : a = 0xED → b ≤ 0x9F) :
    ∃ l, lead? a = some l ∧ l.tails = 2 ∧ l.low ≤ b ∧ b ≤ l.high := by
  obtain ⟨hb₁, hb₂⟩ : (0x80 : UInt8) ≤ b ∧ b ≤ 0xBF := by simpa [isTail] using hb
  have h₁ : ¬a < 0xC2 := UInt8.not_lt.mpr (UInt8.le_trans (by decide) h)
  have h₂ : ¬a ≤ 0xDF := UInt8.not_le.mpr (UInt8.lt_of_lt_of_le (by decide) h)
  unfold lead?
  rw [if_neg h₁, if_neg h₂]
  by_cases h₃ : a = 0xE0
  · rw [if_pos h₃]
    exact ⟨_, rfl, rfl, hlow h₃, hb₂⟩
  by_cases h₄ : a = 0xED
  · rw [if_neg h₃, if_pos h₄]
    exact ⟨_, rfl, rfl, hb₁, hhigh h₄⟩
  · rw [if_neg h₃, if_neg h₄, if_pos h']
    exact ⟨_, rfl, rfl, hb₁, hb₂⟩

/-- What a first octet asks of four octets. -/
theorem lead?_four {a b : UInt8} (h : 0xF0 ≤ a) (h' : a ≤ 0xF4) (hb : isTail b = true)
    (hlow : a = 0xF0 → 0x90 ≤ b) (hhigh : a = 0xF4 → b ≤ 0x8F) :
    ∃ l, lead? a = some l ∧ l.tails = 3 ∧ l.low ≤ b ∧ b ≤ l.high := by
  obtain ⟨hb₁, hb₂⟩ : (0x80 : UInt8) ≤ b ∧ b ≤ 0xBF := by simpa [isTail] using hb
  have h₁ : ¬a < 0xC2 := UInt8.not_lt.mpr (UInt8.le_trans (by decide) h)
  have h₂ : ¬a ≤ 0xDF := UInt8.not_le.mpr (UInt8.lt_of_lt_of_le (by decide) h)
  have h₃ : a ≠ 0xE0 := (UInt8.ne_of_lt (UInt8.lt_of_lt_of_le (by decide) h)).symm
  have h₄ : a ≠ 0xED := (UInt8.ne_of_lt (UInt8.lt_of_lt_of_le (by decide) h)).symm
  have h₅ : ¬a ≤ 0xEF := UInt8.not_le.mpr (UInt8.lt_of_lt_of_le (by decide) h)
  unfold lead?
  rw [if_neg h₁, if_neg h₂, if_neg h₃, if_neg h₄, if_neg h₅]
  by_cases h₆ : a = 0xF0
  · rw [if_pos h₆]
    exact ⟨_, rfl, rfl, hlow h₆, hb₂⟩
  by_cases h₇ : a ≤ 0xF3
  · rw [if_neg h₆, if_pos h₇]
    exact ⟨_, rfl, rfl, hb₁, hb₂⟩
  · have h₈ : a = 0xF4 := UInt8.le_antisymm h' (by
      rw [UInt8.le_iff_toNat_le] at h₇ ⊢
      exact Nat.lt_of_not_le h₇)
    rw [if_neg h₆, if_neg h₇, if_pos h₈]
    exact ⟨_, rfl, rfl, hb₁, hhigh h₈⟩

theorem isTail_ofNat (n : Nat) : isTail (UInt8.ofNat (n % 0x40 + 0x80)) = true := by
  have h := toNat_ofNat_of_lt (n := n % 0x40 + 0x80) (by omega)
  simp only [isTail, Bool.and_eq_true, decide_eq_true_eq, UInt8.le_iff_toNat_le, h]
  exact ⟨Nat.le_add_left _ _, by simp; omega⟩

theorem firstChar_two {v : Nat} (h : 0x7f < v) (h' : v ≤ 0x7ff) (bs : Octets) :
    firstChar (UInt8.ofNat (v / 64 % 0x20 + 0xc0)) (UInt8.ofNat (v % 0x40 + 0x80) :: bs) =
      .ok (Char.ofNat v, 2) := by
  have ha := toNat_ofNat_of_lt (n := v / 64 % 0x20 + 0xc0) (by omega)
  have hb := toNat_ofNat_of_lt (n := v % 0x40 + 0x80) (by omega)
  generalize UInt8.ofNat (v / 64 % 0x20 + 0xc0) = a at ha
  have htail := isTail_ofNat v
  generalize UInt8.ofNat (v % 0x40 + 0x80) = b at hb htail
  obtain ⟨hb₁, hb₂⟩ : (0x80 : UInt8) ≤ b ∧ b ≤ 0xBF := by simpa [isTail] using htail
  have hlead : lead? a = some ⟨1, 0x80, 0xBF⟩ := by
    refine lead?_two ?_ ?_
    · rw [UInt8.le_iff_toNat_le, ha]
      simp
      omega
    · rw [UInt8.le_iff_toNat_le, ha]
      simp
      omega
  have hcode : codePoint a [b] = v := by
    simp only [codePoint, List.length_singleton, List.foldl_cons, List.foldl_nil, ha, hb]
    omega
  have hchar := firstChar_of_lead hlead hb₁ hb₂ (fun _ hd => absurd hd List.not_mem_nil) rfl bs
  rwa [hcode] at hchar

theorem firstChar_three {v : Nat} (h : 0x7ff < v) (h' : v ≤ 0xffff) (hv : v < 0xd800 ∨ 0xdfff < v)
    (bs : Octets) :
    firstChar (UInt8.ofNat (v / 4096 % 0x10 + 0xe0))
      (UInt8.ofNat (v / 64 % 0x40 + 0x80) :: UInt8.ofNat (v % 0x40 + 0x80) :: bs) =
      .ok (Char.ofNat v, 3) := by
  have ha := toNat_ofNat_of_lt (n := v / 4096 % 0x10 + 0xe0) (by omega)
  have hb := toNat_ofNat_of_lt (n := v / 64 % 0x40 + 0x80) (by omega)
  have hd := toNat_ofNat_of_lt (n := v % 0x40 + 0x80) (by omega)
  have hbtail := isTail_ofNat (v / 64)
  have hdtail := isTail_ofNat v
  generalize UInt8.ofNat (v / 4096 % 0x10 + 0xe0) = a at ha
  generalize UInt8.ofNat (v / 64 % 0x40 + 0x80) = b at hb hbtail
  generalize UInt8.ofNat (v % 0x40 + 0x80) = d at hd hdtail
  have hlow : a = 0xE0 → 0xA0 ≤ b := by
    rintro rfl
    rw [UInt8.le_iff_toNat_le, hb]
    simp at ha ⊢
    omega
  have hhigh : a = 0xED → b ≤ 0x9F := by
    rintro rfl
    rw [UInt8.le_iff_toNat_le, hb]
    simp at ha ⊢
    omega
  obtain ⟨l, hlead, htails, hl₁, hl₂⟩ := lead?_three (a := a) (b := b)
    (by rw [UInt8.le_iff_toNat_le, ha]; exact Nat.le_add_left _ _)
    (by rw [UInt8.le_iff_toNat_le, ha]; simp; omega) hbtail hlow hhigh
  have hcode : codePoint a [b, d] = v := by
    simp only [codePoint, List.length_cons, List.length_nil, List.foldl_cons, List.foldl_nil, ha, hb,
      hd]
    omega
  have hmore : ∀ x ∈ [d], isTail x = true := by simpa using hdtail
  have hchar := firstChar_of_lead hlead hl₁ hl₂ hmore (by simp [htails]) bs
  rw [hcode, htails] at hchar
  exact hchar

theorem firstChar_four {v : Nat} (h : 0xffff < v) (h' : v < 0x110000) (bs : Octets) :
    firstChar (UInt8.ofNat (v / 262144 % 0x08 + 0xf0))
      (UInt8.ofNat (v / 4096 % 0x40 + 0x80) :: UInt8.ofNat (v / 64 % 0x40 + 0x80) ::
        UInt8.ofNat (v % 0x40 + 0x80) :: bs) =
      .ok (Char.ofNat v, 4) := by
  have ha := toNat_ofNat_of_lt (n := v / 262144 % 0x08 + 0xf0) (by omega)
  have hb := toNat_ofNat_of_lt (n := v / 4096 % 0x40 + 0x80) (by omega)
  have hd := toNat_ofNat_of_lt (n := v / 64 % 0x40 + 0x80) (by omega)
  have he := toNat_ofNat_of_lt (n := v % 0x40 + 0x80) (by omega)
  have hbtail := isTail_ofNat (v / 4096)
  have hdtail := isTail_ofNat (v / 64)
  have hetail := isTail_ofNat v
  generalize UInt8.ofNat (v / 262144 % 0x08 + 0xf0) = a at ha
  generalize UInt8.ofNat (v / 4096 % 0x40 + 0x80) = b at hb hbtail
  generalize UInt8.ofNat (v / 64 % 0x40 + 0x80) = d at hd hdtail
  generalize UInt8.ofNat (v % 0x40 + 0x80) = e at he hetail
  have hlow : a = 0xF0 → 0x90 ≤ b := by
    rintro rfl
    rw [UInt8.le_iff_toNat_le, hb]
    simp at ha ⊢
    omega
  have hhigh : a = 0xF4 → b ≤ 0x8F := by
    rintro rfl
    rw [UInt8.le_iff_toNat_le, hb]
    simp at ha ⊢
    omega
  obtain ⟨l, hlead, htails, hl₁, hl₂⟩ := lead?_four (a := a) (b := b)
    (by rw [UInt8.le_iff_toNat_le, ha]; exact Nat.le_add_left _ _)
    (by rw [UInt8.le_iff_toNat_le, ha]; simp; omega) hbtail hlow hhigh
  have hcode : codePoint a [b, d, e] = v := by
    simp only [codePoint, List.length_cons, List.length_nil, List.foldl_cons, List.foldl_nil, ha, hb,
      hd, he]
    omega
  have hmore : ∀ x ∈ [d, e], isTail x = true := by simp [hdtail, hetail]
  have hchar := firstChar_of_lead hlead hl₁ hl₂ hmore (by simp [htails]) bs
  rw [hcode, htails] at hchar
  exact hchar

/-- The octets of a character are read back, whatever follows. -/
theorem firstChar_utf8EncodeChar (c : Char) (bs : Octets) :
    ∃ a tail, String.utf8EncodeChar c = a :: tail ∧
      firstChar a (tail ++ bs) = .ok (c, tail.length + 1) := by
  have hvalid : c.toNat < 0xd800 ∨ 0xdfff < c.toNat ∧ c.toNat < 0x110000 := c.valid
  have hchar : Char.ofNat c.toNat = c := Char.ofNat_toNat c
  unfold String.utf8EncodeChar
  simp only
  -- Only the number of the character matters, and that it is none of a surrogate.
  change c.val.toNat < 0xd800 ∨ 0xdfff < c.val.toNat ∧ c.val.toNat < 0x110000 at hvalid
  change Char.ofNat c.val.toNat = c at hchar
  generalize c.val.toNat = v at hvalid hchar
  subst hchar
  by_cases h₁ : v ≤ 0x7f
  · rw [if_pos h₁]
    exact ⟨_, _, rfl, firstChar_one h₁ bs⟩
  by_cases h₂ : v ≤ 0x7ff
  · rw [if_neg h₁, if_pos h₂]
    exact ⟨_, _, rfl, firstChar_two (Nat.lt_of_not_le h₁) h₂ bs⟩
  by_cases h₃ : v ≤ 0xffff
  · rw [if_neg h₁, if_neg h₂, if_pos h₃]
    exact ⟨_, _, rfl, firstChar_three (Nat.lt_of_not_le h₂) h₃ (by omega) bs⟩
  · rw [if_neg h₁, if_neg h₂, if_neg h₃]
    exact ⟨_, _, rfl, firstChar_four (Nat.lt_of_not_le h₃) (by omega) bs⟩

theorem textFrom?_ofText (done t : Text) : textFrom? done (ofText t) = some (done.reverse ++ t) := by
  induction t generalizing done with
  | nil => simp [ofText, textFrom?]
  | cons c t ih =>
    obtain ⟨a, tail, henc, hchar⟩ := firstChar_utf8EncodeChar c (ofText t)
    have hcons : ofText (c :: t) = a :: (tail ++ ofText t) := by
      rw [ofText, List.flatMap_cons, henc]
      rfl
    rw [hcons, textFrom?, hchar]
    simp only [Nat.add_sub_cancel, List.drop_left]
    rw [ih, List.reverse_cons, List.append_assoc]
    rfl

/-- Decoding inverts encoding. -/
theorem toText?_ofText (t : Text) : toText? (ofText t) = some t := by
  rw [toText?, textFrom?_ofText]
  rfl

theorem ofText_append (t u : Text) : ofText (t ++ u) = ofText t ++ ofText u :=
  List.flatMap_append

end Octets

/-- Octets of a text are told to be UTF-8. -/
theorem Encoding.decode_ofText (t : Text) : decode (.ofText t) = (t, .utf8) := by
  rw [decode, Octets.toText?_ofText]

end SqlDump
