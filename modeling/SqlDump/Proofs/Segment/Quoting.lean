import SqlDump.Postgres.Passthrough
import SqlDump.Proofs.Segment.Whole

/-!
# Quotes in the lexer and in the passes over a statement

The passes over a statement that is passed through know names and strings, and no comments. Where
they take a character for what the lexer takes it for, they and the lexer are inside of the same
behind it. The lexer over what is written, with names in double quotes, goes along then with the
lexer over what was read.

Main statements: `Scan.quoting_read`, behind a character both are inside of the same;
`Scan.read_requote`, the lexer over what is written for a character.
-/

namespace SqlDump

open Text

/-- A text that begins with no blank is written in octets that begin with none. -/
theorem Octets.solid_ofText {c : Char} (h : Unicode.isBlank c = false) (t : Text) :
    (ofText (c :: t)).Solid := by
  have hsplit : ofText (c :: t) = ofText [c] ++ ofText t := ofText_append [c] t
  rw [hsplit]
  refine Solid.append ?_ _
  by_cases hc : c.toNat < 0x80
  · refine ⟨UInt8.ofNat c.toNat, [], ?_, ?_⟩
    · rw [ofText, List.flatMap_singleton, utf8EncodeChar_ascii hc]
    · have hne {d : Char} (hd : d.toNat < 0x80) (hblank : Unicode.isBlank d = true) :
          UInt8.ofNat c.toNat ≠ UInt8.ofNat d.toNat := by
        apply Scan.ofNat_ne hc hd
        rintro rfl
        rw [hblank] at h
        cases h
      simp only [isBlank, Bool.or_eq_false_iff, beq_eq_false_iff_ne]
      exact ⟨⟨⟨⟨hne (d := ' ') (by decide) (by decide), hne (d := '\t') (by decide) (by decide)⟩,
        hne (d := '\n') (by decide) (by decide)⟩, hne (d := '\x0c') (by decide) (by decide)⟩,
        hne (d := '\r') (by decide) (by decide)⟩
  · obtain ⟨b, bs, hbs⟩ := List.exists_cons_of_ne_nil (@String.utf8EncodeChar_ne_nil c)
    have hhigh := utf8EncodeChar_high (Nat.le_of_not_lt hc) b (by simp [hbs])
    have hne {k : UInt8} (hk : k < 0x80) : b ≠ k := Scan.ne_of_high hhigh hk
    refine ⟨b, bs, by rw [ofText, List.flatMap_singleton, hbs], ?_⟩
    simp [isBlank, hne (k := 0x20), hne (k := 0x09), hne (k := 0x0A), hne (k := 0x0C),
      hne (k := 0x0D)]

namespace Scan

/-! ### The lexer over one character -/

/-- What the lexer is in the middle of behind a character that means nothing to it. -/
def high : Scan → Scan
  | .plain _ => .plain true
  | .opener _ _ => .plain true
  | .dashes _ => .plain true
  | .quoted quote _ => .quoted quote false
  | .backtick => .backtick
  | .lineComment leading => .lineComment leading
  | .blockComment leading _ _ => .blockComment leading false false

/-- Strings stand between single or double quotes. -/
def IsSound : Scan → Prop
  | .quoted quote _ => quote = quoteMark ∨ quote = doubleQuote
  | _ => True

theorem step_high {s : Scan} (hs : s.IsSound) {b : UInt8} (hb : 0x80 ≤ b) :
    s.step b = some s.high := by
  have hne {k : UInt8} (hk : k < 0x80) : b ≠ k := ne_of_high hb hk
  cases s with
  | plain begun =>
    have hblank : Octets.isBlank b = false := by
      simp [Octets.isBlank, hne (k := 0x20), hne (k := 0x09), hne (k := 0x0A), hne (k := 0x0C),
        hne (k := 0x0D)]
    have hother : stepPlain begun b = some (.plain (begun || !Octets.isBlank b)) :=
      stepPlain_other (hne (by decide)) (hne (by decide)) (hne (by decide)) (hne (by decide))
        (hne (by decide)) (hne (by decide))
    rw [hblank] at hother
    simpa [step, high] using hother
  | opener first leading =>
    have hdash : b ≠ dash := hne (by decide)
    have hasterisk : b ≠ asterisk := hne (by decide)
    simp [step, high, hdash, hasterisk, stepPlain_high hb]
  | dashes leading =>
    have hspace : b ≠ 0x20 := hne (by decide)
    have htab : b ≠ 0x09 := hne (by decide)
    have hreturn : b ≠ 0x0D := hne (by decide)
    have hfeed : b ≠ lineFeed := hne (by decide)
    simp [step, high, hspace, htab, hreturn, hfeed, stepPlain_high hb]
  | quoted quote escaped =>
    have hback : b ≠ backslash := hne (by decide)
    have hquote : b ≠ quote := by
      rcases hs with rfl | rfl
      · exact hne (by decide)
      · exact hne (by decide)
    cases escaped <;> simp [step, high, hback, hquote]
  | backtick =>
    have htick : b ≠ backtickMark := hne (by decide)
    simp [step, high, htick]
  | lineComment leading =>
    have hfeed : b ≠ lineFeed := hne (by decide)
    simp [step, high, hfeed]
  | blockComment leading fresh star =>
    have hslash : b ≠ slash := hne (by decide)
    have hmark : b ≠ exclamation := hne (by decide)
    have hasterisk : b ≠ asterisk := hne (by decide)
    simp [step, high, hslash, hmark, hasterisk]

theorem high_high (s : Scan) : s.high.high = s.high := by cases s <;> rfl

theorem IsSound.high {s : Scan} (hs : s.IsSound) : s.high.IsSound := by
  cases s with
  | quoted quote escaped => exact hs
  | _ => trivial

/-- A character beyond ASCII means nothing to the lexer. -/
theorem read_beyond {s : Scan} (hs : s.IsSound) {c : Char} (hc : 0x80 ≤ c.toNat) :
    s.read [c] = some s.high := by
  refine read_char (fun h => absurd h (Nat.not_lt.mpr hc)) fun b hb => ⟨step_high hs hb, ?_⟩
  rw [step_high hs.high hb, high_high]

theorem eq_of_octet {c d : Char} (hc : c.toNat < 0x80) (hd : d.toNat < 0x80)
    (h : UInt8.ofNat c.toNat = UInt8.ofNat d.toNat) : c = d := by
  by_contra hne
  exact ofNat_ne hc hd hne h

/-! ### Names and strings -/

/-- What the lexer is in the middle of, as far as names and strings go. -/
def quoting : Scan → Quoting
  | .backtick => .inside '\x60' false
  | .quoted quote escaped => .inside (Char.ofNat quote.toNat) escaped
  | _ => .outside

/-- Whether the passes over a statement take a character for what the lexer takes it for. In names
that is no backslash, and in comments no quote. A comment before anything else is left to the lexer,
for which it is a statement of its own. -/
def takes (s : Scan) (c : Char) : Bool :=
  match s with
  | .backtick => c != '\\'
  | .lineComment leading => !leading && !isQuoteMark c
  | .blockComment leading _ _ => !leading && !isQuoteMark c
  | _ => true

/-- The quotes of a string are a character of ASCII, neither a backslash nor a backtick. -/
theorem IsSound.exists_quote {quote : UInt8} {escaped : Bool} (h : IsSound (.quoted quote escaped)) :
    ∃ q : Char, q.toNat < 0x80 ∧ quote = UInt8.ofNat q.toNat ∧ isQuoteMark q = true ∧ q ≠ '\x60' ∧
      ∀ escaped, (Scan.quoted quote escaped).quoting = .inside q escaped := by
  rcases h with rfl | rfl
  · exact ⟨'\x27', by decide, rfl, rfl, by decide, fun _ => rfl⟩
  · exact ⟨'\x22', by decide, rfl, rfl, by decide, fun _ => rfl⟩

theorem outside_step {c : Char} (h : isQuoteMark c = false) : Quoting.outside.step c = .outside := by
  simp [Quoting.step, h]

theorem not_quoteMark_of_beyond {c : Char} (h : 0x80 ≤ c.toNat) : isQuoteMark c = false := by
  rw [Bool.eq_false_iff]
  intro hmark
  simp only [isQuoteMark, Bool.or_eq_true, beq_iff_eq] at hmark
  rcases hmark with (rfl | rfl) | rfl <;> revert h <;> decide

/-- Outside every span the lexer and the passes find the same quotes. -/
theorem stepPlain_quoting {begun : Bool} {c : Char} {u : Scan} (hc : c.toNat < 0x80)
    (hu : stepPlain begun (UInt8.ofNat c.toNat) = some u) :
    u.IsSound ∧ u.quoting = Quoting.outside.step c := by
  unfold stepPlain at hu
  split at hu
  · next hquote =>
    cases hu
    refine ⟨hquote, ?_⟩
    rcases hquote with h | h
    · obtain rfl := eq_of_octet hc (d := '\x27') (by decide) h
      rfl
    · obtain rfl := eq_of_octet hc (d := '\x22') (by decide) h
      rfl
  · next hquote =>
    split at hu
    · next h =>
      cases hu
      obtain rfl := eq_of_octet hc (d := '\x60') (by decide) h
      exact ⟨trivial, rfl⟩
    · next htick =>
      have hmark : isQuoteMark c = false := by
        rw [Bool.eq_false_iff]
        intro hmark
        simp only [isQuoteMark, Bool.or_eq_true, beq_iff_eq] at hmark
        rcases hmark with (rfl | rfl) | rfl
        · exact hquote (.inl rfl)
        · exact hquote (.inr rfl)
        · exact htick rfl
      rw [outside_step hmark]
      split at hu
      · cases hu
      · split at hu
        · cases hu
          exact ⟨trivial, rfl⟩
        · cases hu
          exact ⟨trivial, rfl⟩

theorem closeComment_eq {leading : Bool} {u : Scan} (h : closeComment leading = some u) :
    u = .plain true := by
  unfold closeComment at h
  split at h
  · cases h
  · cases h
    rfl

section Step

variable {u : Scan} {c : Char} (hc : c.toNat < 0x80)
include hc

theorem quoting_opener {first : UInt8} {leading : Bool}
    (hu : (opener first leading).step (UInt8.ofNat c.toNat) = some u) :
    u.IsSound ∧ u.quoting = Quoting.outside.step c := by
  unfold step at hu
  dsimp only at hu
  split at hu
  · next h =>
    cases hu
    obtain rfl := eq_of_octet hc (d := '-') (by decide) h.2
    exact ⟨trivial, rfl⟩
  · split at hu
    · next h =>
      cases hu
      obtain rfl := eq_of_octet hc (d := '*') (by decide) h.2
      exact ⟨trivial, rfl⟩
    · exact stepPlain_quoting hc hu

theorem quoting_dashes {leading : Bool}
    (hu : (dashes leading).step (UInt8.ofNat c.toNat) = some u) :
    u.IsSound ∧ u.quoting = Quoting.outside.step c := by
  unfold step at hu
  dsimp only at hu
  split at hu
  · next h =>
    cases hu
    refine ⟨trivial, ?_⟩
    rcases h with h | h | h
    · rw [eq_of_octet hc (d := ' ') (by decide) h]
      rfl
    · rw [eq_of_octet hc (d := '\t') (by decide) h]
      rfl
    · rw [eq_of_octet hc (d := '\r') (by decide) h]
      rfl
  · split at hu
    · next h =>
      obtain rfl := closeComment_eq hu
      obtain rfl := eq_of_octet hc (d := '\n') (by decide) h
      exact ⟨trivial, rfl⟩
    · exact stepPlain_quoting hc hu

theorem quoting_quoted {quote : UInt8} {escaped : Bool} (hs : IsSound (.quoted quote escaped))
    (hu : (quoted quote escaped).step (UInt8.ofNat c.toNat) = some u) :
    u.IsSound ∧ u.quoting = (quoted quote escaped).quoting.step c := by
  cases escaped with
  | true =>
    cases hu
    exact ⟨hs, rfl⟩
  | false =>
    obtain ⟨q, hq, hquote, -, htick, hquoting⟩ := hs.exists_quote
    subst hquote
    rw [hquoting]
    unfold step at hu
    simp only [Bool.false_eq_true, if_false] at hu
    split at hu
    · next h =>
      cases hu
      obtain rfl := eq_of_octet hc (d := '\\') (by decide) h
      refine ⟨hs, ?_⟩
      rw [hquoting, Quoting.step, if_pos ⟨rfl, htick⟩]
    · next hslash =>
      have hback : c ≠ '\\' := by
        rintro rfl
        exact hslash rfl
      split at hu
      · next h =>
        cases hu
        obtain rfl := eq_of_octet hc hq h
        refine ⟨trivial, ?_⟩
        rw [Quoting.step, if_neg (by simp [hback]), if_pos rfl]
        rfl
      · next hother =>
        cases hu
        refine ⟨hs, ?_⟩
        rw [hquoting, Quoting.step_content hback]
        rintro rfl
        exact hother rfl

theorem quoting_backtick (hback : c ≠ '\\')
    (hu : backtick.step (UInt8.ofNat c.toNat) = some u) :
    u.IsSound ∧ u.quoting = (quoting .backtick).step c := by
  unfold step at hu
  dsimp only at hu
  split at hu
  · next h =>
    cases hu
    obtain rfl := eq_of_octet hc (d := '\x60') (by decide) h
    exact ⟨trivial, rfl⟩
  · next h =>
    cases hu
    refine ⟨trivial, (Quoting.step_content hback ?_).symm⟩
    rintro rfl
    exact h rfl

end Step

/-- In a comment the lexer stays outside of names and strings, and so do the passes over a character
that is no quote. -/
theorem quoting_comment {u : Scan} {c : Char} (hmark : isQuoteMark c = false) (hu : u.IsSound)
    (hout : u.quoting = .outside) : u.IsSound ∧ u.quoting = Quoting.outside.step c := by
  rw [outside_step hmark]
  exact ⟨hu, hout⟩

theorem quoting_beyond {s : Scan} (hs : s.IsSound) {c : Char} (hc : 0x80 ≤ c.toNat) :
    s.high.quoting = s.quoting.step c := by
  have houtside := outside_step (not_quoteMark_of_beyond hc)
  have hne {d : Char} (hd : d.toNat < 0x80) : c ≠ d := by
    rintro rfl
    exact absurd hd (Nat.not_lt.mpr hc)
  cases s with
  | quoted quote escaped =>
    obtain ⟨q, hq, -, -, -, hquoting⟩ := hs.exists_quote
    cases escaped with
    | true => rfl
    | false => rw [high, hquoting, Quoting.step_content (hne (by decide)) (hne hq)]
  | backtick => exact (Quoting.step_content (hne (by decide)) (hne (by decide))).symm
  | _ => exact houtside.symm

/-- Behind a character that they take alike, the lexer and the passes are inside of the same. -/
theorem quoting_read {s u : Scan} {c : Char} (hs : s.IsSound) (ht : s.takes c = true)
    (hu : s.read [c] = some u) : u.IsSound ∧ u.quoting = s.quoting.step c := by
  by_cases hc : c.toNat < 0x80
  · rw [read_of_ascii s hc] at hu
    cases s with
    | plain begun => exact stepPlain_quoting hc hu
    | opener first leading => exact quoting_opener hc hu
    | dashes leading => exact quoting_dashes hc hu
    | quoted quote escaped => exact quoting_quoted hc hs hu
    | backtick => exact quoting_backtick hc (by simpa [takes] using ht) hu
    | lineComment leading =>
      have hmark : isQuoteMark c = false := by simpa [takes] using (Bool.and_eq_true_iff.mp ht).2
      unfold step at hu
      dsimp only at hu
      split at hu
      · obtain rfl := closeComment_eq hu
        exact quoting_comment hmark trivial rfl
      · cases hu
        exact quoting_comment hmark trivial rfl
    | blockComment leading fresh star =>
      have hmark : isQuoteMark c = false := by simpa [takes] using (Bool.and_eq_true_iff.mp ht).2
      unfold step at hu
      dsimp only at hu
      split at hu
      · obtain rfl := closeComment_eq hu
        exact quoting_comment hmark trivial rfl
      · cases hu
        exact quoting_comment hmark trivial rfl
  · have hbeyond := Nat.le_of_not_lt hc
    rw [read_beyond hs hbeyond] at hu
    cases hu
    exact ⟨hs.high, quoting_beyond hs hbeyond⟩

/-! ### Names in double quotes -/

/-- What the lexer over names in double quotes is in the middle of. -/
def requoted : Scan → Scan
  | .backtick => .quoted doubleQuote false
  | s => s

theorem requoted_of_ne {s : Scan} (h : s ≠ .backtick) : s.requoted = s := by
  cases s with
  | backtick => exact absurd rfl h
  | _ => rfl

theorem quoting_backtick_iff {s : Scan} (hs : s.IsSound) :
    (∃ escaped, s.quoting = .inside '\x60' escaped) ↔ s = .backtick := by
  constructor
  · rintro ⟨escaped, h⟩
    cases s with
    | quoted quote inner =>
      obtain ⟨q, -, -, -, htick, hquoting⟩ := hs.exists_quote
      rw [hquoting] at h
      cases h
      exact absurd rfl htick
    | backtick => rfl
    | _ => cases h
  · rintro rfl
    exact ⟨false, rfl⟩

/-- Only a backtick opens a name. -/
theorem backtick_of_step {q : Quoting} {c : Char} {escaped : Bool}
    (h : q.step c = .inside '\x60' escaped) :
    (q = .outside ∧ c = '\x60') ∨ ∃ escaped, q = .inside '\x60' escaped := by
  cases q with
  | outside =>
    simp only [Quoting.step] at h
    split at h
    · cases h
      exact .inl ⟨rfl, rfl⟩
    · cases h
  | inside quote inner =>
    cases inner with
    | true =>
      cases h
      exact .inr ⟨true, rfl⟩
    | false =>
      simp only [Quoting.step] at h
      split at h
      · cases h
        exact .inr ⟨false, rfl⟩
      · split at h
        · cases h
        · cases h
          exact .inr ⟨false, rfl⟩

/-- Behind a name, in either kind of quotes. -/
theorem read_requote_backtick {u : Scan} {c : Char} (ht : takes .backtick c = true)
    (hu : backtick.read [c] = some u) :
    (requoted .backtick).read (Postgres.requoteChar (quoting .backtick) c) = some u.requoted := by
  have hback : c ≠ '\\' := by simpa [takes] using ht
  by_cases htick : c = '\x60'
  · subst htick
    cases hu
    rfl
  · rw [read_backtick htick] at hu
    cases hu
    by_cases hdouble : c = '\x22'
    · subst hdouble
      rfl
    · have himage : Postgres.requoteChar (quoting .backtick) c = [c] := by
        simp [Postgres.requoteChar, quoting, htick, hdouble]
      have hascii : ('\x22' : Char).toNat < 0x80 := by decide
      rw [himage]
      exact read_content hascii hback hdouble

/-- The lexer over names in double quotes goes along with the lexer over names in backticks. -/
theorem read_requote {s u : Scan} {c : Char} (hs : s.IsSound) (ht : s.takes c = true)
    (hu : s.read [c] = some u) :
    s.requoted.read (Postgres.requoteChar s.quoting c) = some u.requoted := by
  by_cases hname : s = .backtick
  · subst hname
    exact read_requote_backtick ht hu
  rw [requoted_of_ne hname]
  obtain ⟨hsound, hquoting⟩ := quoting_read hs ht hu
  by_cases hopens : s.quoting = .outside ∧ c = '\x60'
  · obtain ⟨houtside, rfl⟩ := hopens
    have hopen : u = .backtick := by
      rw [← quoting_backtick_iff hsound, hquoting, houtside]
      exact ⟨false, rfl⟩
    rw [hopen, houtside]
    cases s with
    | plain begun => rfl
    | opener first leading =>
      have hquote : (opener first leading).step doubleQuote = some (.quoted doubleQuote false) := by
        rw [step, if_neg (by simp [dash, doubleQuote]), if_neg (by simp [asterisk, doubleQuote])]
        rfl
      exact (read_of_ascii _ (c := '\x22') (by decide)).trans hquote
    | dashes leading => rfl
    | quoted quote escaped =>
      obtain ⟨q, -, -, -, -, hinside⟩ := hs.exists_quote
      rw [hinside] at houtside
      cases houtside
    | backtick => exact absurd rfl hname
    | lineComment leading => simp [takes, isQuoteMark] at ht
    | blockComment leading fresh star => simp [takes, isQuoteMark] at ht
  · have himage : Postgres.requoteChar s.quoting c = [c] := by
      cases hq : s.quoting with
      | outside =>
        have htick : c ≠ '\x60' := fun h => hopens ⟨hq, h⟩
        simp [Postgres.requoteChar, htick]
      | inside quote escaped =>
        have hquote : quote ≠ '\x60' := by
          rintro rfl
          exact hname ((quoting_backtick_iff hs).mp ⟨escaped, hq⟩)
        simp [Postgres.requoteChar, hquote]
    have hkept : u ≠ .backtick := by
      rw [Ne, ← quoting_backtick_iff hsound, hquoting]
      rintro ⟨escaped, h⟩
      obtain hmark | hinside := backtick_of_step h
      · exact hopens hmark
      · exact hname ((quoting_backtick_iff hs).mp hinside)
    rw [himage, hu, requoted_of_ne hkept]

/-! ### The end of a statement -/

/-- Whether the lexer is inside of nothing that blanks and semicolons leave it in. -/
def isLoose : Scan → Bool
  | .plain _ => true
  | .opener _ _ => true
  | .dashes _ => true
  | .lineComment _ => true
  | _ => false

/-- Whether the lexer is in a line comment. -/
def isLineComment : Scan → Bool
  | .lineComment _ => true
  | _ => false

theorem ne_of_isTerminator {c d : Char} (hc : Postgres.isTerminator c = true)
    (hd : Postgres.isTerminator d = false) : c ≠ d := by
  rintro rfl
  rw [hc] at hd
  cases hd

theorem not_quoteMark_of_isTerminator {c : Char} (h : Postgres.isTerminator c = true) :
    isQuoteMark c = false := by
  rw [Bool.eq_false_iff]
  intro hmark
  simp only [isQuoteMark, Bool.or_eq_true, beq_iff_eq] at hmark
  rcases hmark with (rfl | rfl) | rfl <;> revert h <;> decide

theorem quoting_of_isLoose {s : Scan} (h : s.isLoose = true) : s.quoting = .outside := by
  cases s <;> first | rfl | cases h

/-- Blanks and semicolons lead out of nothing but a line comment. -/
theorem isLoose_of_read {s u : Scan} {c : Char} (hs : s.IsSound)
    (hc : Postgres.isTerminator c = true) (hu : s.read [c] = some u) (h : u.isLoose = true) :
    s.isLoose = true := by
  cases s with
  | plain begun => rfl
  | opener first leading => rfl
  | dashes leading => rfl
  | lineComment leading => rfl
  | quoted quote escaped =>
    obtain ⟨q, -, -, hmark, -, hinside⟩ := hs.exists_quote
    have hne : c ≠ q := by
      rintro rfl
      rw [not_quoteMark_of_isTerminator hc] at hmark
      cases hmark
    have hquoting := (quoting_read hs rfl hu).2
    rw [quoting_of_isLoose h, hinside] at hquoting
    cases escaped with
    | true => cases hquoting
    | false =>
      rw [Quoting.step_content (ne_of_isTerminator hc (by decide)) hne] at hquoting
      cases hquoting
  | backtick =>
    have hback : c ≠ '\\' := ne_of_isTerminator hc (by decide)
    have htick : c ≠ '\x60' := ne_of_isTerminator hc (by decide)
    have htakes : takes .backtick c = true := by simpa [takes] using hback
    have hquoting := (quoting_read hs htakes hu).2
    rw [quoting_of_isLoose h, quoting, Quoting.step_content hback htick] at hquoting
    cases hquoting
  | blockComment leading fresh star =>
    by_cases hascii : c.toNat < 0x80
    · rw [read_of_ascii _ hascii] at hu
      have hslash : UInt8.ofNat c.toNat ≠ slash :=
        ofNat_ne hascii (d := '/') (by decide) (ne_of_isTerminator hc (by decide))
      simp only [step, hslash, and_false, if_false, Option.some.injEq] at hu
      subst hu
      cases h
    · rw [read_beyond hs (Nat.le_of_not_lt hascii)] at hu
      cases hu
      cases h

theorem read_semicolon {s : Scan} (h : s.isLoose = true) (hline : s.isLineComment = false) :
    s.read [';'] = none := by
  cases s with
  | plain begun => rfl
  | opener first leading =>
    have hstep : (opener first leading).step semicolon = none := by
      rw [step, if_neg (by simp [dash, semicolon]), if_neg (by simp [asterisk, semicolon])]
      rfl
    exact (read_of_ascii _ (c := ';') (by decide)).trans hstep
  | dashes leading => rfl
  | lineComment leading => cases hline
  | _ => cases h

theorem isLoose_of_semicolon {s : Scan} (h : s.read [';'] = none) : s.isLoose = true := by
  rw [read_of_ascii _ (by decide)] at h
  cases s with
  | quoted quote escaped =>
    unfold step at h
    dsimp only at h
    split at h
    · cases h
    · split at h
      · cases h
      · split at h <;> cases h
  | backtick =>
    unfold step at h
    dsimp only at h
    split at h <;> cases h
  | blockComment leading fresh star => simp [step, slash] at h
  | _ => rfl

/-- Behind a character that is no blank, something has begun. -/
theorem begun_of_read {s u : Scan} {c : Char} (hu : s.read [c] = some u)
    (hc : s.begun = true ∨ Unicode.isBlank c = false) : u.begun = true := by
  rw [feed_begun hu]
  rcases hc with hbegun | hsolid
  · rw [hbegun, Bool.true_or]
  · have hoctets : (Octets.ofText [c]).all Octets.isBlank = false := by
      obtain ⟨b, bs, hbs, hb⟩ := Octets.solid_ofText hsolid []
      rw [hbs, List.all_cons, hb, Bool.false_and]
    rw [hoctets, Bool.not_false, Bool.or_true]

end Scan

end SqlDump
