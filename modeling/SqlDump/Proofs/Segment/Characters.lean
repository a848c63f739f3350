import SqlDump.Identifier
import SqlDump.Proofs.Text.Utf8
import SqlDump.Segment.Scan

/-!
# The lexer over characters

The lexer takes octets. In a text in UTF-8 only the characters of ASCII mean something to it, so
that it can be followed character by character.

Main statements: `Scan.cut_of_feed`, octets that end nothing are part of the piece;
`Scan.read_char`, a character is an octet of ASCII or octets above it; `Scan.read_name`, a name in
backticks leaves the lexer outside every span.
-/

namespace SqlDump.Scan

/-- The lexer after octets; nothing if they end the statement. -/
def feed (s : Scan) : Octets → Option Scan
  | [] => some s
  | b :: bs => (s.step b).bind fun t => t.feed bs

theorem feed_append (s : Scan) (bs ds : Octets) :
    s.feed (bs ++ ds) = (s.feed bs).bind fun t => t.feed ds := by
  induction bs generalizing s with
  | nil => rfl
  | cons b bs ih =>
    cases h : s.step b with
    | none => simp [feed, h]
    | some t => simp [feed, h, ih]

/-- Octets that end nothing are part of the piece. -/
theorem cut_of_feed {s t : Scan} {bs : Octets} (h : s.feed bs = some t) (taken rest : Octets) :
    s.cut taken (bs ++ rest) = t.cut (bs.reverse ++ taken) rest := by
  induction bs generalizing s taken with
  | nil =>
    cases h
    rfl
  | cons b bs ih =>
    obtain ⟨u, hs, hu⟩ := Option.bind_eq_some_iff.mp h
    simp only [List.cons_append, cut, hs]
    rw [ih hu]
    simp

/-- The lexer after the characters of a text. -/
def read (s : Scan) (t : Text) : Option Scan := s.feed (.ofText t)

theorem read_append (s : Scan) (t u : Text) :
    s.read (t ++ u) = (s.read t).bind fun r => r.read u := by
  rw [read, Octets.ofText_append, feed_append]
  rfl

theorem read_append_of {s r : Scan} {t : Text} (h : s.read t = some r) (u : Text) :
    s.read (t ++ u) = r.read u := by
  rw [read_append, h]
  rfl

theorem read_cons_of {s r : Scan} {c : Char} (h : s.read [c] = some r) (t : Text) :
    s.read (c :: t) = r.read t :=
  read_append_of h t

theorem read_of_ascii (s : Scan) {c : Char} (h : c.toNat < 0x80) :
    s.read [c] = s.step (UInt8.ofNat c.toNat) := by
  have hc : Octets.ofText [c] = [UInt8.ofNat c.toNat] := by
    rw [Octets.ofText, List.flatMap_singleton, Octets.utf8EncodeChar_ascii h]
  rw [read, hc, feed]
  cases s.step (UInt8.ofNat c.toNat) <;> rfl

theorem feed_high {s t : Scan}
    (h : ∀ b, (0x80 : UInt8) ≤ b → s.step b = some t ∧ t.step b = some t) {bs : Octets}
    (hb : ∀ b ∈ bs, (0x80 : UInt8) ≤ b) : t.feed bs = some t := by
  induction bs with
  | nil => rfl
  | cons b bs ih =>
    have hstep := (h b (hb b List.mem_cons_self)).2
    have hrest := ih fun d hd => hb d (List.mem_cons_of_mem b hd)
    simp only [feed, hstep, Option.bind_some, hrest]

/-- A character is an octet of ASCII or octets above it. -/
theorem read_char {s t : Scan} {c : Char}
    (hascii : c.toNat < 0x80 → s.step (UInt8.ofNat c.toNat) = some t)
    (hhigh : ∀ b, (0x80 : UInt8) ≤ b → s.step b = some t ∧ t.step b = some t) :
    s.read [c] = some t := by
  by_cases h : c.toNat < 0x80
  · rw [read_of_ascii s h, hascii h]
  · have hall := Octets.utf8EncodeChar_high (Nat.le_of_not_lt h)
    obtain ⟨b, bs, hbs⟩ := List.exists_cons_of_ne_nil (@String.utf8EncodeChar_ne_nil c)
    have hc : Octets.ofText [c] = b :: bs := by
      rw [Octets.ofText, List.flatMap_singleton, hbs]
    rw [hbs] at hall
    have hstep := (hhigh b (hall b List.mem_cons_self)).1
    have hrest := feed_high hhigh fun d hd => hall d (List.mem_cons_of_mem b hd)
    rw [read, hc, feed, hstep, Option.bind_some, hrest]

theorem ne_of_high {b k : UInt8} (hb : 0x80 ≤ b) (hk : k < 0x80) : b ≠ k := by
  rintro rfl
  exact UInt8.not_lt.mpr hb hk

/-- Different characters of ASCII are different octets. -/
theorem ofNat_ne {c d : Char} (hc : c.toNat < 0x80) (hd : d.toNat < 0x80) (h : c ≠ d) :
    UInt8.ofNat c.toNat ≠ UInt8.ofNat d.toNat := by
  intro he
  have htoNat := congrArg UInt8.toNat he
  rw [Octets.toNat_ofNat_of_lt (Nat.lt_trans hc (by decide)),
    Octets.toNat_ofNat_of_lt (Nat.lt_trans hd (by decide))] at htoNat
  exact h (Char.toNat_inj.mp htoNat)

/-- The characters that mean something to the lexer outside every span. -/
def isSpecial (c : Char) : Bool :=
  c == '\x27' || c == '\x22' || c == '\x60' || c == ';' || c == '-' || c == '/'

theorem stepPlain_other {begun : Bool} {b : UInt8} (hq : b ≠ quoteMark) (hd : b ≠ doubleQuote)
    (ht : b ≠ backtickMark) (hs : b ≠ semicolon) (hm : b ≠ dash) (hl : b ≠ slash) :
    stepPlain begun b = some (.plain (begun || !Octets.isBlank b)) := by
  simp [stepPlain, hq, hd, ht, hs, hm, hl]

theorem stepPlain_high {b : UInt8} (h : 0x80 ≤ b) : stepPlain true b = some (.plain true) :=
  stepPlain_other (ne_of_high h (by decide)) (ne_of_high h (by decide)) (ne_of_high h (by decide))
    (ne_of_high h (by decide)) (ne_of_high h (by decide)) (ne_of_high h (by decide))

theorem stepPlain_ascii {c : Char} (hc : c.toNat < 0x80) (h : isSpecial c = false) :
    stepPlain true (UInt8.ofNat c.toNat) = some (.plain true) := by
  simp only [isSpecial, Bool.or_eq_false_iff, beq_eq_false_iff_ne] at h
  obtain ⟨⟨⟨⟨⟨hq, hd⟩, ht⟩, hs⟩, hm⟩, hl⟩ := h
  exact stepPlain_other (ofNat_ne hc (by decide) hq) (ofNat_ne hc (by decide) hd)
    (ofNat_ne hc (by decide) ht) (ofNat_ne hc (by decide) hs) (ofNat_ne hc (by decide) hm)
    (ofNat_ne hc (by decide) hl)

/-- A character without meaning leaves the lexer outside every span. -/
theorem read_plain {c : Char} (h : isSpecial c = false) :
    (plain true).read [c] = some (.plain true) :=
  read_char (fun hc => stepPlain_ascii hc h) fun _ hb => ⟨stepPlain_high hb, stepPlain_high hb⟩

theorem read_plain_text {t : Text} (h : t.any isSpecial = false) :
    (plain true).read t = some (.plain true) := by
  induction t with
  | nil => rfl
  | cons c t ih =>
    obtain ⟨hc, ht⟩ := Bool.or_eq_false_iff.mp h
    rw [read_cons_of (read_plain hc), ih ht]

theorem read_backslash (quote : UInt8) :
    (quoted quote false).read ['\\'] = some (.quoted quote true) := by
  rw [read_of_ascii _ (by decide)]
  rfl

section Quoted

variable {quote : Char} (hq : quote.toNat < 0x80) {c : Char}

include hq

theorem step_quoted_high {b : UInt8} (hb : 0x80 ≤ b) :
    (quoted (UInt8.ofNat quote.toNat) false).step b =
      some (.quoted (UInt8.ofNat quote.toNat) false) := by
  have hquote : UInt8.ofNat quote.toNat < 0x80 := by
    rw [UInt8.lt_iff_toNat_lt, Octets.toNat_ofNat_of_lt (Nat.lt_trans hq (by decide))]
    exact hq
  have h₁ : b ≠ backslash := ne_of_high hb (by decide)
  have h₂ : b ≠ UInt8.ofNat quote.toNat := ne_of_high hb hquote
  simp [step, h₁, h₂]

/-- Behind a backslash any character is content. -/
theorem read_escaped (c : Char) :
    (quoted (UInt8.ofNat quote.toNat) true).read [c] =
      some (.quoted (UInt8.ofNat quote.toNat) false) :=
  read_char (fun _ => rfl) fun _ hb => ⟨rfl, step_quoted_high hq hb⟩

/-- A character that is neither a backslash nor the quote is content. -/
theorem read_content (hb : c ≠ '\\') (hc : c ≠ quote) :
    (quoted (UInt8.ofNat quote.toNat) false).read [c] =
      some (.quoted (UInt8.ofNat quote.toNat) false) := by
  refine read_char (fun h => ?_) fun _ hb => ⟨step_quoted_high hq hb, step_quoted_high hq hb⟩
  have h₁ : UInt8.ofNat c.toNat ≠ backslash := ofNat_ne h (by decide) hb
  have h₂ := ofNat_ne h hq hc
  simp [step, h₁, h₂]

theorem read_close (hb : quote ≠ '\\') :
    (quoted (UInt8.ofNat quote.toNat) false).read [quote] = some (.plain true) := by
  have h : UInt8.ofNat quote.toNat ≠ backslash := ofNat_ne hq (by decide) hb
  rw [read_of_ascii _ hq]
  simp [step, h]

end Quoted

theorem read_backtick {c : Char} (h : c ≠ '\x60') : backtick.read [c] = some .backtick := by
  have hhigh : ∀ b, (0x80 : UInt8) ≤ b → backtick.step b = some .backtick := by
    intro b hb
    exact if_neg (ne_of_high hb (by decide))
  refine read_char (fun hc => ?_) fun b hb => ⟨hhigh b hb, hhigh b hb⟩
  exact if_neg (ofNat_ne hc (by decide) h)

theorem read_backtick_double (name : Text) :
    backtick.read (Text.double '\x60' name) = some .backtick := by
  induction name with
  | nil => rfl
  | cons c name ih =>
    by_cases hc : c = '\x60'
    · -- The first backtick closes the name and the second opens it again.
      rw [hc, Text.double_cons_self, read_cons_of (r := .plain true) rfl,
        read_cons_of (r := .backtick) rfl, ih]
    · rw [Text.double_cons_of_ne hc, read_cons_of (read_backtick hc), ih]

/-- A name in backticks leaves the lexer outside every span, whatever the name. -/
theorem read_name (name : Text) :
    (plain true).read (Identifier.quoted '\x60' name) = some (.plain true) := by
  rw [Identifier.quoted, List.cons_append, read_cons_of (r := .backtick) rfl,
    read_append_of (read_backtick_double name)]
  rfl

end SqlDump.Scan
