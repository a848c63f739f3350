import SqlDump.Proofs.Segment.Characters
import SqlDump.Proofs.Value.Rows

/-!
# Quoted literals

The ways to write a text between quotes: a character as it is, a character behind a backslash, the
quote twice. The lexer of segments and the reader of rows both find the end of such a literal, and
the reader of rows finds its text.

Main statements: `Spelling.lexed`, the lexer is outside every span behind the literal;
`Spelling.reads`, the value of the literal is its text; `spelling_escape`, the escapes of a dump are
such a spelling.
-/

namespace SqlDump

/-- What may stand between quotes for a text. -/
inductive Spelling (quote : Char) : Text → Text → Prop
  | nil : Spelling quote [] []
  | plain {c : Char} {written text : Text} (backslash : c ≠ '\\') (other : c ≠ quote)
      (rest : Spelling quote written text) : Spelling quote (c :: written) (c :: text)
  | escaped {c : Char} {written text : Text} (rest : Spelling quote written text) :
      Spelling quote ('\\' :: c :: written) (ValueBuffer.unescape c :: text)
  | doubled {written text : Text} (rest : Spelling quote written text) :
      Spelling quote (quote :: quote :: written) (quote :: text)

/-- A text as a dump writes it between single quotes. -/
def escapeChar (c : Char) : Text :=
  match c with
  | '\\' => ['\\', '\\']
  | '\x27' => ['\\', '\x27']
  | '\n' => ['\\', 'n']
  | '\r' => ['\\', 'r']
  | c => [c]

def escape (s : Text) : Text := s.flatMap escapeChar

theorem spelling_escape (s : Text) : Spelling '\x27' (escape s) s := by
  induction s with
  | nil => exact .nil
  | cons c s ih =>
    unfold escape at ih ⊢
    rw [List.flatMap_cons]
    unfold escapeChar
    split
    · exact .escaped ih
    · exact .escaped ih
    · exact .escaped ih
    · exact .escaped ih
    · rename_i hb hq _ _
      exact .plain hb hq ih

theorem IsValueQuote.ascii {quote : Char} (h : IsValueQuote quote) : quote.toNat < 0x80 := by
  obtain rfl | rfl := h <;> decide

theorem IsValueQuote.ne_backslash {quote : Char} (h : IsValueQuote quote) : quote ≠ '\\' := by
  obtain rfl | rfl := h <;> decide

theorem IsValueQuote.ne_backtick {quote : Char} (h : IsValueQuote quote) : quote ≠ '\x60' := by
  obtain rfl | rfl := h <;> decide

theorem IsValueQuote.isBlank {quote : Char} (h : IsValueQuote quote) :
    Unicode.isBlank quote = false := by
  obtain rfl | rfl := h <;> decide

/-- A quote opens a span for the lexer. -/
theorem Scan.read_open {quote : Char} (h : IsValueQuote quote) :
    (plain true).read [quote] = some (.quoted (UInt8.ofNat quote.toNat) false) := by
  obtain rfl | rfl := h <;> rfl

namespace Spelling

variable {quote : Char} {written text : Text}

theorem read_quoted (h : Spelling quote written text) (hq : IsValueQuote quote) :
    (Scan.quoted (UInt8.ofNat quote.toNat) false).read written =
      some (.quoted (UInt8.ofNat quote.toNat) false) := by
  induction h with
  | nil => rfl
  | plain hb hc _ ih => rw [Scan.read_cons_of (Scan.read_content hq.ascii hb hc), ih]
  | escaped _ ih =>
    rw [Scan.read_cons_of (Scan.read_backslash _), Scan.read_cons_of (Scan.read_escaped hq.ascii _),
      ih]
  | doubled _ ih =>
    rw [Scan.read_cons_of (Scan.read_close hq.ascii hq.ne_backslash),
      Scan.read_cons_of (Scan.read_open hq), ih]

/-- Behind the literal the lexer is outside every span. -/
theorem lexed (h : Spelling quote written text) (hq : IsValueQuote quote) :
    (Scan.plain true).read (quote :: (written ++ [quote])) = some (.plain true) := by
  rw [Scan.read_cons_of (Scan.read_open hq), Scan.read_append_of (h.read_quoted hq),
    Scan.read_close hq.ascii hq.ne_backslash]

/-- The reader of rows inside the literal takes its characters. -/
theorem reaches_quoted (h : Spelling quote written text) (hq : IsValueQuote quote) (r : OpenRow)
    (v : ValueBuffer) (start : Nat) :
    OpenRow.Reaches { r with value := v, quote := .inside quote start false } written
      (· = { r with
        value := ⟨written.reverse ++ v.raw, text.reverse ++ v.content, v.quoted, v.residue⟩
        quote := .inside quote start false }) := by
  induction h generalizing v with
  | nil => exact .nil rfl
  | @plain c written text hb hc _ ih =>
    refine .cons fun _ =>
      ⟨{ r with value := v.pushContent c c, quote := .inside quote start false }, ?_, ?_⟩
    · simp [OpenRow.step, hb, hc]
    · simpa [ValueBuffer.pushContent] using ih (v.pushContent c c)
  | @escaped c written text _ ih =>
    refine .cons fun _ =>
      ⟨{ r with value := v.push '\\', quote := .inside quote start true }, ?_, ?_⟩
    · simp [OpenRow.step]
    refine .cons fun _ => ⟨{ r with
      value := (v.push '\\').pushContent c (ValueBuffer.unescape c)
      quote := .inside quote start false }, rfl, ?_⟩
    simpa [ValueBuffer.pushContent, ValueBuffer.push] using
      ih ((v.push '\\').pushContent c (ValueBuffer.unescape c))
  | @doubled written text _ ih =>
    refine .cons fun _ =>
      ⟨{ r with value := v.push quote, quote := .closing quote start }, ?_, ?_⟩
    · simp [OpenRow.step, hq.ne_backslash]
    refine .cons fun _ => ⟨{ r with
      value := (v.push quote).pushContent quote quote
      quote := .inside quote start false }, ?_, ?_⟩
    · simp [OpenRow.step]
    · simpa [ValueBuffer.pushContent, ValueBuffer.push] using
        ih ((v.push quote).pushContent quote quote)

/-- The value of the literal is its text. -/
theorem reads (h : Spelling quote written text) (hq : IsValueQuote quote) :
    OpenRow.Reads (quote :: (written ++ [quote])) (.text text) := by
  intro r values hr
  refine .cons fun start => ⟨{ r with
    value := { raw := [quote], quoted := true }, quote := .inside quote start false }, ?_, ?_⟩
  · obtain rfl | rfl := hq <;>
      simp [OpenRow.step, OpenRow.stepOutside, hr.quote, hr.value, ValueBuffer.push]
  refine (h.reaches_quoted hq r _ start).append fun r' hr' => ?_
  refine .cons fun _ => ⟨{ r with
    value := ⟨quote :: (written.reverse ++ [quote]), text.reverse ++ [], true, false⟩
    quote := .closing quote start }, ?_, .nil ?_⟩
  · simp [hr', OpenRow.step, hq.ne_backslash, ValueBuffer.push]
  · refine ⟨.inr ⟨quote, start, hq, rfl⟩, hr.nested, hr.values, ?_, rfl⟩
    simp [ValueBuffer.finish]

end Spelling

end SqlDump
