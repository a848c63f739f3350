import SqlDump.Proofs.Postgres.Insertion
import SqlDump.Proofs.Schema.InlineReference
import SqlDump.Proofs.Text.Decoding

/-!
# Hexadecimal tokens

A value in hexadecimal digits is written as the literal of its octets in a binary column and as the
literal of their text in a text column. The text is that of the octets with a zero put before an odd
number of digits; the literal of the octets has the digits as they are, which is no literal where
their number is odd.

Main statements: `hexDigits?_eq_some_iff`, which tokens are hexadecimal;
`Octets.ofHexDigits?_eq`, what a literal of hexadecimal digits denotes; `renderValue_hex`, the two
literals for one token.
-/

namespace SqlDump

namespace Octets

theorem isHexDigit_toLower (c : Char) : Postgres.isHexDigit c.toLower = Postgres.isHexDigit c :=
  Text.toLower_congr (by decide) c

theorem digitValue_toLower (c : Char) : Limbs.digitValue c.toLower = Limbs.digitValue c :=
  Text.toLower_congr (by decide) c

/-- The case of hexadecimal digits makes no difference. -/
theorem ofHexDigits?_asciiLower (digits : Text) :
    ofHexDigits? (Text.asciiLower digits) = ofHexDigits? digits := by
  fun_induction ofHexDigits? digits with
  | case1 => rfl
  | case2 c => rfl
  | case3 a b rest hdigits ih =>
    have hcons : Text.asciiLower (a :: b :: rest) = a.toLower :: b.toLower :: Text.asciiLower rest :=
      rfl
    rw [hcons, ofHexDigits?, isHexDigit_toLower, isHexDigit_toLower, digitValue_toLower,
      digitValue_toLower, ih, if_pos hdigits]
  | case4 a b rest hdigits =>
    have hcons : Text.asciiLower (a :: b :: rest) = a.toLower :: b.toLower :: Text.asciiLower rest :=
      rfl
    rw [hcons, ofHexDigits?, isHexDigit_toLower, isHexDigit_toLower, if_neg hdigits]

/-- Digits in pairs are octets, and an odd number of digits is none. -/
theorem ofHexDigits?_eq {digits : Text} (h : digits.all Postgres.isHexDigit = true) :
    ofHexDigits? digits = if digits.length % 2 = 0 then some (ofHex digits) else none := by
  have hpairs : ofHexDigits? digits =
      if digits.length % 2 = 0 then some (ofHexPairs digits) else none := by
    fun_induction ofHexDigits? digits with
    | case1 => rfl
    | case2 c => rfl
    | case3 a b rest hdigits ih =>
      have hrest : rest.all Postgres.isHexDigit = true := by simp_all
      have hlength : (a :: b :: rest).length % 2 = rest.length % 2 := by
        rw [List.length_cons, List.length_cons]
        omega
      rw [ih hrest, hlength]
      split <;> rfl
    | case4 a b rest hdigits => simp_all
  rw [hpairs]
  split
  · next heven => rw [ofHex, if_neg (by omega)]
  · rfl

/-- Octets that are UTF-8 lose nothing. -/
theorem toTextLossy_of_toText? {bs : Octets} {t : Text} (h : bs.toText? = some t) :
    bs.toTextLossy = t := by
  have hfrom (done : Text) (bs : Octets) (h : textFrom? done bs = some t) : lossyFrom done bs = t := by
    induction done, bs using textFrom?.induct with
    | case1 done =>
      rw [textFrom?] at h
      rw [lossyFrom]
      exact Option.some.inj h
    | case2 done a bs c n hchar ih =>
      rw [textFrom?, hchar] at h
      rw [lossyFrom, hchar]
      exact ih h
    | case3 done a bs n hchar =>
      rw [textFrom?, hchar] at h
      cases h
  exact hfrom [] bs h

/-- The text of octets has the same octets exactly where they are UTF-8. -/
theorem ofText_toTextLossy_iff (bs : Octets) :
    ofText bs.toTextLossy = bs ↔ ∃ t, bs.toText? = some t := by
  constructor
  · intro h
    exact ⟨bs.toTextLossy, by rw [← h, toText?_ofText, h]⟩
  · rintro ⟨t, ht⟩
    rw [toTextLossy_of_toText? ht]
    exact ofText_of_toText? ht

end Octets

namespace Postgres

open Text

/-- A token of hexadecimal digits: behind a zero and an X, or in quotes behind an X. -/
structure IsHexToken (token digits : Text) : Prop where
  hexadecimal : digits.all isHexDigit = true
  spelling : ∃ x, (x = 'x' ∨ x = 'X') ∧
    (token = '0' :: x :: digits ∨ token = x :: '\x27' :: (digits ++ ['\x27']))

theorem toLower_eq_x_iff {c : Char} : c.toLower = 'x' ↔ c = 'x' ∨ c = 'X' := by
  constructor
  · intro h
    by_cases hc : c.toLower = c
    · exact .inl (hc.symm.trans h)
    · have hletter := of_toLower_ne (p := fun c => c.toLower = 'x' → c = 'X') (by decide) hc
      exact .inr (hletter h)
  · rintro (rfl | rfl) <;> rfl

theorem beforeClosingQuote?_eq_some_iff {t inside : Text} :
    beforeClosingQuote? t = some inside ↔ t = inside ++ ['\x27'] := by
  constructor
  · intro h
    unfold beforeClosingQuote? at h
    split at h
    · next rest hrest =>
      obtain rfl := Option.some.inj h
      rw [← List.reverse_reverse t, hrest, List.reverse_cons]
    · cases h
  · rintro rfl
    simp [beforeClosingQuote?]

/-- The tokens that are taken for hexadecimal ones, and their digits. -/
theorem hexDigits?_eq_some_iff {token digits : Text} :
    hexDigits? token = some digits ↔ IsHexToken token digits := by
  unfold hexDigits?
  dsimp only
  rw [Option.filter_eq_some_iff]
  constructor
  · rintro ⟨h, hdigits⟩
    refine ⟨hdigits, ?_⟩
    split at h
    · next x rest =>
      split at h
      · next hx =>
        obtain rfl := Option.some.inj h
        exact ⟨x, toLower_eq_x_iff.mp hx, .inl rfl⟩
      · cases h
    · next x rest _ =>
      split at h
      · next hx =>
        obtain rfl := beforeClosingQuote?_eq_some_iff.mp h
        exact ⟨x, toLower_eq_x_iff.mp hx, .inr rfl⟩
      · cases h
    · cases h
  · rintro ⟨hdigits, x, hx, rfl | rfl⟩
    · exact ⟨if_pos (toLower_eq_x_iff.mpr hx), hdigits⟩
    · refine ⟨?_, hdigits⟩
      have hread := beforeClosingQuote?_eq_some_iff.mpr (Eq.refl (digits ++ ['\x27']))
      obtain rfl | rfl := hx
      · exact hread
      · exact hread

/-- A hexadecimal token has no charset introducer before it. -/
theorem IsHexToken.renderValue {token digits : Text} (h : IsHexToken token digits)
    {family : TypeFamily} (hfamily : family ≠ .boolean) (e : Encoding) :
    renderValue (.bare token) family e = (renderHex? digits family).getD token := by
  have hcontent : quotedContent? (.bare token) = none := by
    obtain ⟨-, x, rfl | rfl, rfl | rfl⟩ := h
    all_goals rfl
  have hbare : renderBare token family = (renderHex? digits family).getD token := by
    unfold renderBare
    rw [if_neg hfamily, hexDigits?_eq_some_iff.mpr h]
  unfold Postgres.renderValue
  rw [hcontent]
  exact hbare

/-- Digits hold no quote. -/
theorem quoteString_digits {digits : Text} (h : digits.all isHexDigit = true) :
    quoteString ('\\' :: 'x' :: asciiLower digits) = "'\\x" ++ asciiLower digits ++ "'" := by
  have hdouble : double '\x27' (asciiLower digits) = asciiLower digits := by
    induction digits with
    | nil => rfl
    | cons c digits ih =>
      obtain ⟨hc, hdigits⟩ := (Bool.and_eq_true _ _).mp h
      have hquote : c.toLower ≠ '\x27' := by
        intro he
        rw [← Octets.isHexDigit_toLower, he] at hc
        cases hc
      have hcons : asciiLower (c :: digits) = c.toLower :: asciiLower digits := rfl
      rw [hcons, double_cons_of_ne hquote, ih hdigits]
  rw [quoteString, double_cons_of_ne (by decide), double_cons_of_ne (by decide), hdouble]
  rfl

/-- A hexadecimal token for a binary column and for a text column, as the two literals are read. The
one holds the digits, which denote the octets of the token exactly where their number is even and
nothing otherwise; the other holds the text of the same octets, which has no others exactly where
they are UTF-8. -/
theorem renderValue_hex {token digits : Text} (h : IsHexToken token digits) (e : Encoding) :
    tokens? (renderValue (.bare token) .binary e) =
        some [.string ('\\' :: 'x' :: asciiLower digits)] ∧
      byteaOctets? ('\\' :: 'x' :: asciiLower digits) =
        (if digits.length % 2 = 0 then some (Octets.ofHex digits) else none) ∧
      tokens? (renderValue (.bare token) .text e) =
        some [.string (Octets.ofHex digits).toTextLossy] ∧
      (Octets.ofText (Octets.ofHex digits).toTextLossy = Octets.ofHex digits ↔
        ∃ t, (Octets.ofHex digits).toText? = some t) := by
  have htokens (s : Text) : tokens? (quoteString s) = some [.string s] := by
    have happend : tokens? (quoteString s ++ []) = (tokens? []).map (.string s :: ·) :=
      tokens?_quoteString s rfl
    rwa [List.append_nil, tokens?_nil] at happend
  have hbinary : renderValue (.bare token) .binary e =
      quoteString ('\\' :: 'x' :: asciiLower digits) := by
    rw [h.renderValue (by decide), quoteString_digits h.hexadecimal]
    rfl
  have htext : renderValue (.bare token) .text e =
      quoteString (Octets.ofHex digits).toTextLossy := by
    rw [h.renderValue (by decide)]
    rfl
  have hoctets : byteaOctets? ('\\' :: 'x' :: asciiLower digits) =
      if digits.length % 2 = 0 then some (Octets.ofHex digits) else none := by
    rw [byteaOctets?, Octets.ofHexDigits?_asciiLower, Octets.ofHexDigits?_eq h.hexadecimal]
  rw [hbinary, htext]
  exact ⟨htokens _, hoctets, htokens _, Octets.ofText_toTextLossy_iff _⟩

/-- An even number of digits of either case, in quotes, for a letter beyond ASCII. -/
theorem renderValue_hex_even :
    tokens? (renderValue (.bare "X'c3A9'") .binary .utf8) = some [.string "\\xc3a9"] ∧
      byteaOctets? "\\xc3a9" = some [0xC3, 0xA9] ∧
      tokens? (renderValue (.bare "X'c3A9'") .text .utf8) = some [.string "é"] ∧
      Octets.ofText "é" = [0xC3, 0xA9] := by
  have htoken : IsHexToken "X'c3A9'" "c3A9" := ⟨by decide, 'X', .inr rfl, .inr rfl⟩
  have hoctets : Octets.ofHex "c3A9" = [0xC3, 0xA9] := by decide
  have htext : Octets.toText? [0xC3, 0xA9] = some ("é" : Text) := by decide +kernel
  obtain ⟨hbinary, hdenotes, hstring, hsame⟩ := renderValue_hex htoken .utf8
  rw [hoctets, Octets.toTextLossy_of_toText? htext] at hstring hsame
  rw [hoctets] at hdenotes
  exact ⟨hbinary, hdenotes, hstring, hsame.mpr ⟨_, htext⟩⟩

/-- One digit is the octet of its number in a text column, and nothing in a binary one. -/
theorem renderValue_hex_odd :
    IsHexToken "0xF" "F" ∧ Octets.ofHex "F" = [0x0F] ∧
      renderValue (.bare "0xF") .binary .utf8 = ("'\\xf'" : Text) ∧
      byteaOctets? "\\xf" = none ∧ byteaOctets? "\\x0f" = some [0x0F] ∧
      renderValue (.bare "0xF") .text .utf8 = quoteString [Char.ofNat 0x0F] := by
  refine ⟨⟨by decide, 'x', .inl rfl, .inl rfl⟩, ?_⟩
  decide +kernel

end Postgres

end SqlDump
