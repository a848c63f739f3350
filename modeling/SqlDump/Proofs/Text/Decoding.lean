import Mathlib.Data.List.Basic
import SqlDump.Proofs.Text.Utf8

/-!
# What a decoded text was read from

Either way of decoding can be undone: the octets are those of the characters, one character after
another. A character of ASCII is the octet of its number, and every other character is one or more
octets from 0x80 on. So a text can be split where its octets can, between characters and at any
octet of ASCII, whichever way it was decoded.

Main statements: `Encoding.decode_reads`, decoding is undone by encoding;
`Encoding.Reads.append_right`, octets that begin with a text go on with a text;
`Encoding.Reads.split_ascii`, so do those before and behind an octet of ASCII.
-/

namespace SqlDump

namespace Octets

theorem toNat_ofNat_of_valid {n : Nat} (h : n < 0xd800 ∨ 0xdfff < n ∧ n < 0x110000) :
    (Char.ofNat n).val.toNat = n := by
  have hvalid : n.isValidChar := h
  rw [Char.ofNat, dif_pos hvalid]
  exact UInt32.toNat_ofNatLT ..

theorem toNat_ofNat_octet (b : UInt8) : (Char.ofNat b.toNat).toNat = b.toNat := by
  have := b.toNat_lt
  exact toNat_ofNat_of_valid (by omega)

/-- The octets behind a first octet, where they are as many as it asks for. -/
theorem tailOf_full {l : Lead} {bs : Octets} (h : (tailOf l bs).length = l.tails)
    (hl : 0 < l.tails) :
    ∃ b more rest, bs = b :: (more ++ rest) ∧ tailOf l bs = b :: more ∧ l.low ≤ b ∧ b ≤ l.high ∧
      (∀ d ∈ more, isTail d = true) ∧ more.length + 1 = l.tails := by
  cases bs with
  | nil =>
    rw [tailOf, List.length_nil] at h
    omega
  | cons b bs =>
    unfold tailOf at h ⊢
    by_cases hb : (decide (l.low ≤ b) && decide (b ≤ l.high)) = true
    · simp only [hb, if_true, List.length_cons] at h ⊢
      obtain ⟨hlow, hhigh⟩ : l.low ≤ b ∧ b ≤ l.high := by simpa using hb
      have hprefix := (List.takeWhile_prefix isTail (l := bs.take (l.tails - 1))).trans
        (List.take_prefix (l.tails - 1) bs)
      obtain ⟨rest, hrest⟩ := hprefix
      refine ⟨b, _, rest, ?_, rfl, hlow, hhigh, ?_, h⟩
      · rw [hrest]
      · intro d hd
        exact List.mem_takeWhile_imp hd
    · simp only [hb] at h
      simp only [Bool.false_eq_true, if_false, List.length_nil] at h
      omega

theorem tails_pos {a : UInt8} {l : Lead} (hl : lead? a = some l) : 0 < l.tails := by
  unfold lead? at hl
  grind

/-- The octets of a character, by its number. -/
theorem utf8EncodeChar_two {n : Nat} (h : 0x7f < n) (h' : n ≤ 0x7ff) :
    String.utf8EncodeChar (Char.ofNat n) =
      [UInt8.ofNat (n / 64 % 0x20 + 0xc0), UInt8.ofNat (n % 0x40 + 0x80)] := by
  have hn := toNat_ofNat_of_valid (n := n) (by omega)
  unfold String.utf8EncodeChar
  simp only [hn]
  rw [if_neg (by omega), if_pos h']

theorem utf8EncodeChar_three {n : Nat} (h : 0x7ff < n) (h' : n ≤ 0xffff)
    (hn : n < 0xd800 ∨ 0xdfff < n) :
    String.utf8EncodeChar (Char.ofNat n) = [UInt8.ofNat (n / 4096 % 0x10 + 0xe0),
      UInt8.ofNat (n / 64 % 0x40 + 0x80), UInt8.ofNat (n % 0x40 + 0x80)] := by
  have hn := toNat_ofNat_of_valid (n := n) (by omega)
  unfold String.utf8EncodeChar
  simp only [hn]
  rw [if_neg (by omega), if_neg (by omega), if_pos h']

theorem utf8EncodeChar_four {n : Nat} (h : 0xffff < n) (h' : n < 0x110000) :
    String.utf8EncodeChar (Char.ofNat n) = [UInt8.ofNat (n / 262144 % 0x08 + 0xf0),
      UInt8.ofNat (n / 4096 % 0x40 + 0x80), UInt8.ofNat (n / 64 % 0x40 + 0x80),
      UInt8.ofNat (n % 0x40 + 0x80)] := by
  have hn := toNat_ofNat_of_valid (n := n) (by omega)
  unfold String.utf8EncodeChar
  simp only [hn]
  rw [if_neg (by omega), if_neg (by omega), if_neg (by omega)]

theorem ofNat_eq {b : UInt8} {n : Nat} (h : n = b.toNat) : UInt8.ofNat n = b := by
  rw [h, UInt8.ofNat_toNat]

theorem isTail_bounds {b : UInt8} (h : isTail b = true) : 0x80 ≤ b.toNat ∧ b.toNat ≤ 0xBF := by
  simpa [isTail, UInt8.le_iff_toNat_le] using h

/-- The bounds of a first octet and of the one behind it, by the number of octets. -/
inductive LeadBounds (a b : UInt8) (tails : Nat) : Prop
  | two (one : tails = 1) (first : 0xC2 ≤ a.toNat ∧ a.toNat ≤ 0xDF)
      (second : 0x80 ≤ b.toNat ∧ b.toNat ≤ 0xBF)
  | three (two : tails = 2) (first : 0xE0 ≤ a.toNat ∧ a.toNat ≤ 0xEF)
      (second : 0x80 ≤ b.toNat ∧ b.toNat ≤ 0xBF) (low : a.toNat = 0xE0 → 0xA0 ≤ b.toNat)
      (high : a.toNat = 0xED → b.toNat ≤ 0x9F)
  | four (three : tails = 3) (first : 0xF0 ≤ a.toNat ∧ a.toNat ≤ 0xF4)
      (second : 0x80 ≤ b.toNat ∧ b.toNat ≤ 0xBF) (low : a.toNat = 0xF0 → 0x90 ≤ b.toNat)
      (high : a.toNat = 0xF4 → b.toNat ≤ 0x8F)

theorem leadBounds {a b : UInt8} {l : Lead} (hl : lead? a = some l) (hlow : l.low ≤ b)
    (hhigh : b ≤ l.high) : LeadBounds a b l.tails := by
  unfold lead? at hl
  simp only [UInt8.lt_iff_toNat_lt, UInt8.le_iff_toNat_le, ← UInt8.toNat_inj,
    UInt8.reduceToNat] at hl hlow hhigh
  split at hl
  · cases hl
  split at hl
  · cases hl
    simp only [UInt8.reduceToNat] at hlow hhigh
    exact .two rfl (by omega) (by omega)
  split at hl
  · cases hl
    simp only [UInt8.reduceToNat] at hlow hhigh
    exact .three rfl (by omega) (by omega) (by omega) (by omega)
  split at hl
  · cases hl
    simp only [UInt8.reduceToNat] at hlow hhigh
    exact .three rfl (by omega) (by omega) (by omega) (by omega)
  split at hl
  · cases hl
    simp only [UInt8.reduceToNat] at hlow hhigh
    exact .three rfl (by omega) (by omega) (by omega) (by omega)
  split at hl
  · cases hl
    simp only [UInt8.reduceToNat] at hlow hhigh
    exact .four rfl (by omega) (by omega) (by omega) (by omega)
  split at hl
  · cases hl
    simp only [UInt8.reduceToNat] at hlow hhigh
    exact .four rfl (by omega) (by omega) (by omega) (by omega)
  split at hl
  · cases hl
    simp only [UInt8.reduceToNat] at hlow hhigh
    exact .four rfl (by omega) (by omega) (by omega) (by omega)
  · cases hl

/-- The octets of a character of several octets, within their bounds. -/
theorem utf8EncodeChar_codePoint {a b : UInt8} {more : Octets}
    (h : LeadBounds a b (more.length + 1)) (hmore : ∀ d ∈ more, isTail d = true) :
    String.utf8EncodeChar (Char.ofNat (codePoint a (b :: more))) = a :: b :: more := by
  cases h with
  | two one first second =>
    obtain rfl : more = [] := List.length_eq_zero_iff.mp (by omega)
    have hcode : codePoint a [b] = a.toNat % 0x20 * 0x40 + b.toNat % 0x40 := rfl
    rw [hcode, utf8EncodeChar_two (by omega) (by omega), ofNat_eq (b := a) (by omega),
      ofNat_eq (b := b) (by omega)]
  | three two first second low high =>
    obtain ⟨d, rfl⟩ := List.length_eq_one_iff.mp (show more.length = 1 by omega)
    have hd := isTail_bounds (hmore d (List.mem_singleton.mpr rfl))
    have hcode : codePoint a [b, d] =
        (a.toNat % 0x10 * 0x40 + b.toNat % 0x40) * 0x40 + d.toNat % 0x40 := rfl
    rw [hcode, utf8EncodeChar_three (by omega) (by omega) (by omega), ofNat_eq (b := a) (by omega),
      ofNat_eq (b := b) (by omega), ofNat_eq (b := d) (by omega)]
  | four three first second low high =>
    obtain ⟨d, e, rfl⟩ := List.length_eq_two.mp (show more.length = 2 by omega)
    have hd := isTail_bounds (hmore d (by simp))
    have he := isTail_bounds (hmore e (by simp))
    have hcode : codePoint a [b, d, e] =
        ((a.toNat % 0x08 * 0x40 + b.toNat % 0x40) * 0x40 + d.toNat % 0x40) * 0x40 +
          e.toNat % 0x40 := rfl
    rw [hcode, utf8EncodeChar_four (by omega) (by omega), ofNat_eq (b := a) (by omega),
      ofNat_eq (b := b) (by omega), ofNat_eq (b := d) (by omega), ofNat_eq (b := e) (by omega)]

/-- A character that is read has the octets that it was read from. -/
theorem utf8EncodeChar_of_firstChar {a : UInt8} {bs : Octets} {c : Char} {n : Nat}
    (h : firstChar a bs = .ok (c, n)) :
    ∃ tail rest, bs = tail ++ rest ∧ tail.length + 1 = n ∧ String.utf8EncodeChar c = a :: tail := by
  unfold firstChar at h
  by_cases ha : a < 0x80
  · rw [if_pos ha] at h
    obtain ⟨rfl, rfl⟩ := Prod.mk.inj (Except.ok.inj h)
    have hlt : a.toNat < 0x80 := by simpa [UInt8.lt_iff_toNat_lt] using ha
    have hc := toNat_ofNat_octet a
    refine ⟨[], bs, rfl, rfl, ?_⟩
    rw [utf8EncodeChar_ascii (by omega), hc, UInt8.ofNat_toNat]
  rw [if_neg ha] at h
  cases hl : lead? a with
  | none => simp [hl] at h
  | some l =>
    simp only [hl] at h
    split at h
    · next hfull =>
      obtain ⟨rfl, rfl⟩ := Prod.mk.inj (Except.ok.inj h)
      obtain ⟨b, more, rest, hbs, htail, hlow, hhigh, hmore, hlen⟩ :=
        tailOf_full hfull (tails_pos hl)
      have hbounds := leadBounds hl hlow hhigh
      rw [← hlen] at hbounds
      refine ⟨b :: more, rest, hbs, ?_, ?_⟩
      · rw [hfull, ← hlen, List.length_cons, Nat.add_comm]
      · rw [htail, utf8EncodeChar_codePoint hbounds hmore]
    · cases h

/-- Octets from 0x80 on stand whole before an octet of ASCII that follows them. -/
theorem eq_append_of_high {high rest x y : Octets} {b : UInt8} (h : high ++ rest = x ++ b :: y)
    (hhigh : ∀ d ∈ high, (0x80 : UInt8) ≤ d) (hb : b < 0x80) :
    ∃ z, x = high ++ z ∧ rest = z ++ b :: y := by
  rcases List.append_eq_append_iff.mp h with ⟨z, hx, hrest⟩ | ⟨z, hz, hrest⟩
  · exact ⟨z, hx, hrest⟩
  cases z with
  | nil => exact ⟨[], by rw [hz, List.append_nil, List.append_nil], hrest.symm⟩
  | cons d z =>
    obtain ⟨rfl, -⟩ := List.cons.inj hrest
    have hmem : b ∈ high := by
      rw [hz]
      simp
    exact absurd hb (UInt8.not_lt.mpr (hhigh b hmem))

theorem ofText_cons (c : Char) (t : Text) :
    ofText (c :: t) = String.utf8EncodeChar c ++ ofText t :=
  List.flatMap_cons

theorem ofText_of_textFrom? {done : Text} {bs : Octets} {t : Text}
    (h : textFrom? done bs = some t) : ofText t = ofText done.reverse ++ bs := by
  induction done, bs using textFrom?.induct with
  | case1 done =>
    rw [textFrom?, Option.some.injEq] at h
    rw [← h, List.append_nil]
  | case2 done a bs c n hchar ih =>
    rw [textFrom?, hchar] at h
    obtain ⟨tail, rest, rfl, rfl, hc⟩ := utf8EncodeChar_of_firstChar hchar
    rw [Nat.add_sub_cancel, List.drop_left] at ih
    simp only [Nat.add_sub_cancel, List.drop_left] at h
    rw [ih h, List.reverse_cons, ofText_append, ofText_cons, hc]
    simp [ofText]
  | case3 done a bs n hchar =>
    rw [textFrom?, hchar] at h
    cases h

/-- Encoding inverts decoding. -/
theorem ofText_of_toText? {bs : Octets} {t : Text} (h : bs.toText? = some t) : ofText t = bs :=
  ofText_of_textFrom? h

end Octets

namespace Encoding

/-- The octets are those of the characters of a text, in an encoding that has these characters. -/
structure Reads (e : Encoding) (bs : Octets) (t : Text) : Prop where
  octets : e.octets t = bs
  narrow : e = .latin1 → ∀ c ∈ t, c.toNat < 0x100

theorem reads_fromLatin1 (bs : Octets) : latin1.Reads bs bs.fromLatin1 := by
  constructor
  · simp [octets, Octets.toLatin1, Octets.fromLatin1, Function.comp_def, Octets.toNat_ofNat_octet]
  · intro _ c hc
    obtain ⟨b, _, rfl⟩ := List.mem_map.mp hc
    rw [Octets.toNat_ofNat_octet]
    exact b.toNat_lt

/-- Decoding is undone by encoding. -/
theorem decode_reads (bs : Octets) : (decode bs).2.Reads bs (decode bs).1 := by
  unfold decode
  cases h : bs.toText? with
  | some t => exact ⟨Octets.ofText_of_toText? h, fun he => by cases he⟩
  | none => exact reads_fromLatin1 bs

variable {e : Encoding} {x y : Octets} {t u v : Text} {c : Char}

theorem octets_append (e : Encoding) (t u : Text) : e.octets (t ++ u) = e.octets t ++ e.octets u := by
  cases e with
  | utf8 => exact Octets.ofText_append t u
  | latin1 => exact List.map_append

theorem octets_cons (e : Encoding) (c : Char) (t : Text) :
    e.octets (c :: t) = e.octets [c] ++ e.octets t :=
  e.octets_append [c] t

theorem octets_nil (e : Encoding) : e.octets [] = [] := by
  cases e <;> rfl

/-- A character of ASCII is the octet of its number. -/
theorem octets_ascii (e : Encoding) (h : c.toNat < 0x80) : e.octets [c] = [UInt8.ofNat c.toNat] := by
  cases e with
  | utf8 => rw [octets, Octets.ofText, List.flatMap_singleton, Octets.utf8EncodeChar_ascii h]
  | latin1 => rfl

/-- Any other character is one or more octets from 0x80 on. -/
theorem octets_high (h : 0x80 ≤ c.toNat) (hn : e = .latin1 → c.toNat < 0x100) :
    e.octets [c] ≠ [] ∧ ∀ b ∈ e.octets [c], (0x80 : UInt8) ≤ b := by
  cases e with
  | utf8 =>
    rw [octets, Octets.ofText, List.flatMap_singleton]
    exact ⟨String.utf8EncodeChar_ne_nil, Octets.utf8EncodeChar_high h⟩
  | latin1 =>
    have hc := hn rfl
    refine ⟨List.cons_ne_nil _ _, ?_⟩
    intro b hb
    obtain rfl := List.mem_singleton.mp hb
    rw [UInt8.le_iff_toNat_le, Octets.toNat_ofNat_of_lt hc]
    exact h

/-- Octets that begin with those of a character are a text that begins with it. -/
theorem head_of_octets (hc : e = .latin1 → c.toNat < 0x100) (ht : e = .latin1 → ∀ d ∈ t, d.toNat < 0x100)
    (h : e.octets t = e.octets [c] ++ y) : ∃ u, t = c :: u ∧ e.octets u = y := by
  have hne : e.octets [c] ≠ [] := by
    cases e with
    | utf8 =>
      rw [octets, Octets.ofText, List.flatMap_singleton]
      exact String.utf8EncodeChar_ne_nil
    | latin1 => exact List.cons_ne_nil _ _
  cases t with
  | nil =>
    rw [octets_nil] at h
    exact absurd (List.append_eq_nil_iff.mp h.symm).1 hne
  | cons d u =>
    suffices hd : d = c by
      subst hd
      rw [octets_cons] at h
      exact ⟨u, rfl, List.append_cancel_left h⟩
    rw [octets_cons] at h
    cases e with
    | utf8 =>
      have hone (d : Char) : octets .utf8 [d] = String.utf8EncodeChar d := List.flatMap_singleton ..
      rw [hone, hone] at h
      obtain ⟨a, tail, hd, hfirst⟩ := Octets.firstChar_utf8EncodeChar d (Octets.ofText u)
      obtain ⟨a', tail', hc', hfirst'⟩ := Octets.firstChar_utf8EncodeChar c y
      rw [hd, hc', List.cons_append, List.cons_append] at h
      obtain ⟨rfl, htail⟩ := List.cons.inj h
      rw [← octets, htail, hfirst'] at hfirst
      exact (Prod.mk.inj (Except.ok.inj hfirst)).1.symm
    | latin1 =>
      have hcd : UInt8.ofNat d.toNat = UInt8.ofNat c.toNat := (List.cons.inj h).1
      have hnat := congrArg UInt8.toNat hcd
      rw [Octets.toNat_ofNat_of_lt (ht rfl d List.mem_cons_self),
        Octets.toNat_ofNat_of_lt (hc rfl)] at hnat
      exact Char.toNat_inj.mp hnat

namespace Reads

theorem nil (e : Encoding) : e.Reads [] [] := ⟨e.octets_nil, by simp⟩

theorem append (h : e.Reads x t) (k : e.Reads y u) : e.Reads (x ++ y) (t ++ u) where
  octets := by rw [octets_append, h.octets, k.octets]
  narrow he c hc := (List.mem_append.mp hc).elim (h.narrow he c) (k.narrow he c)

theorem head (h : e.Reads x (c :: t)) : e.Reads (e.octets [c]) [c] where
  octets := rfl
  narrow he d hd := h.narrow he d (List.mem_singleton.mp hd ▸ List.mem_cons_self)

theorem tail (h : e.Reads x (c :: t)) : e.Reads (e.octets t) t where
  octets := rfl
  narrow he d hd := h.narrow he d (List.mem_cons_of_mem c hd)

/-- Octets that begin with a text go on with a text. -/
theorem append_right (h : e.Reads (x ++ y) t) (k : e.Reads x u) : ∃ v, t = u ++ v ∧ e.Reads y v := by
  induction u generalizing x t with
  | nil =>
    rw [← k.octets, octets_nil, List.nil_append] at h
    exact ⟨t, rfl, h⟩
  | cons c u ih =>
    have hx := k.octets
    rw [octets_cons] at hx
    have hoctets := h.octets
    rw [← hx, List.append_assoc] at hoctets
    obtain ⟨t', rfl, ht'⟩ := head_of_octets (fun he => k.narrow he c List.mem_cons_self) h.narrow
      hoctets
    obtain ⟨v, rfl, hv⟩ := ih (x := e.octets u) (ht' ▸ h.tail) k.tail
    exact ⟨v, rfl, hv⟩

/-- Octets are read in one way in an encoding. -/
theorem unique (h : e.Reads x t) (k : e.Reads x u) : t = u := by
  obtain ⟨v, ht, hv⟩ := append_right (y := []) (show e.Reads (x ++ []) t by rwa [List.append_nil]) k
  cases v with
  | nil => rw [ht, List.append_nil]
  | cons c v =>
    have hnil := hv.octets
    rw [← e.octets_nil] at hnil
    obtain ⟨w, hw, -⟩ := head_of_octets (t := []) (fun he => hv.narrow he c List.mem_cons_self)
      (fun _ _ hd => absurd hd List.not_mem_nil) (hnil.symm.trans (e.octets_cons c v))
    cases hw

/-- What stands before and behind an octet of ASCII is read for itself. -/
theorem split_ascii {b : UInt8} (h : e.Reads (x ++ b :: y) t) (hb : b < 0x80) :
    ∃ u v, t = u ++ Char.ofNat b.toNat :: v ∧ e.Reads x u ∧ e.Reads y v := by
  induction t generalizing x with
  | nil =>
    have hnil := h.octets
    rw [octets_nil] at hnil
    exact absurd hnil.symm (by simp)
  | cons c t ih =>
    have hoctets := h.octets
    rw [octets_cons] at hoctets
    by_cases hc : c.toNat < 0x80
    · rw [e.octets_ascii hc, List.singleton_append] at hoctets
      cases x with
      | nil =>
        obtain ⟨rfl, hy⟩ := List.cons.inj hoctets
        have hback : Char.ofNat (UInt8.ofNat c.toNat).toNat = c := by
          rw [Octets.toNat_ofNat_of_lt (Nat.lt_trans hc (by decide)), Char.ofNat_toNat]
        exact ⟨[], t, by rw [hback]; rfl, .nil e, hy ▸ h.tail⟩
      | cons a x =>
        obtain ⟨rfl, hx⟩ := List.cons.inj hoctets
        obtain ⟨u, v, rfl, hu, hv⟩ := ih (hx ▸ h.tail)
        have happend := h.head.append hu
        rw [e.octets_ascii hc] at happend
        exact ⟨c :: u, v, rfl, happend, hv⟩
    · have hhigh := octets_high (Nat.le_of_not_lt hc) fun he => h.narrow he c List.mem_cons_self
      obtain ⟨z, rfl, hz⟩ := Octets.eq_append_of_high hoctets hhigh.2 hb
      obtain ⟨u, v, rfl, hu, hv⟩ := ih (hz ▸ h.tail)
      exact ⟨c :: u, v, rfl, h.head.append hu, hv⟩

/-- Octets that begin with one of ASCII are a text that begins with its character. -/
theorem cons_ascii {b : UInt8} (h : e.Reads (b :: y) t) (hb : b < 0x80) :
    ∃ v, t = Char.ofNat b.toNat :: v ∧ e.Reads y v := by
  obtain ⟨u, v, rfl, hu, hv⟩ := split_ascii (x := []) h hb
  obtain rfl := hu.unique (.nil e)
  exact ⟨v, rfl, hv⟩

/-- The first character takes the first octet, and behind it octets from 0x80 on. -/
theorem cons_octets {b : UInt8} (h : e.Reads (b :: y) t) :
    ∃ c v more z, t = c :: v ∧ y = more ++ z ∧ e.Reads (b :: more) [c] ∧ e.Reads z v ∧
      (∀ d ∈ more, (0x80 : UInt8) ≤ d) ∧ (b < 0x80 ∨ c.toNat < 0x80 → c = Char.ofNat b.toNat) := by
  have hoctets := h.octets
  cases t with
  | nil =>
    rw [octets_nil] at hoctets
    cases hoctets
  | cons c v =>
    have hnarrow := fun he => h.narrow he c List.mem_cons_self
    have hone {more : Octets} (hc : e.octets [c] = b :: more) : e.Reads (b :: more) [c] :=
      hc ▸ h.head
    rw [octets_cons] at hoctets
    by_cases hc : c.toNat < 0x80
    · rw [e.octets_ascii hc] at hoctets
      obtain ⟨rfl, hy⟩ := List.cons.inj hoctets
      refine ⟨c, v, [], _, rfl, hy.symm, hone (e.octets_ascii hc), h.tail, by simp, fun _ => ?_⟩
      rw [Octets.toNat_ofNat_of_lt (Nat.lt_trans hc (by decide)), Char.ofNat_toNat]
    · obtain ⟨hne, hhigh⟩ := octets_high (Nat.le_of_not_lt hc) hnarrow
      obtain ⟨d, more, hmore⟩ := List.exists_cons_of_ne_nil hne
      rw [hmore] at hoctets hhigh
      obtain ⟨rfl, hy⟩ := List.cons.inj hoctets
      refine ⟨c, v, more, _, rfl, hy.symm, hone hmore, h.tail, ?_, ?_⟩
      · intro x hx
        exact hhigh x (List.mem_cons_of_mem d hx)
      · intro hlow
        exact absurd (hhigh d List.mem_cons_self) (UInt8.not_le.mpr (hlow.resolve_right hc))

/-- A text of ASCII is read in either encoding. -/
theorem of_ascii (e : Encoding) (h : t.IsAscii) : e.Reads (.ofText t) t where
  octets := by
    induction t with
    | nil => exact e.octets_nil
    | cons c t ih =>
      have hc := h c List.mem_cons_self
      rw [octets_cons, e.octets_ascii hc, ih fun d hd => h d (List.mem_cons_of_mem c hd),
        Octets.ofText_cons, Octets.utf8EncodeChar_ascii hc]
  narrow _ c hc := Nat.lt_trans (h c hc) (by decide)

end Reads

end Encoding

end SqlDump
