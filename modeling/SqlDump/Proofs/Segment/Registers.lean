import SqlDump.Segment.Lexer

/-!
# The state that registers stand for

The registers of the lexer are a spelling of the states of `Scan`, of which each says only what
matters where it stands. What a run of octets passed over leaves in the registers, the octet
before, is no part of the state there.

Main statements: `Lexer.step_simulates`, an octet does to the registers what it does to the state;
`Lexer.view_step_of_passes`, an octet that may be passed over leaves the state as it is.
-/

namespace SqlDump.Lexer

open Scan (quoteMark doubleQuote backtickMark backslash semicolon dash slash asterisk exclamation
  lineFeed)

/-- The state that the registers stand for. -/
def view (l : Lexer) : Scan :=
  match l.span with
  | .plain =>
    if l.dashes then .dashes l.openerLeading
    else if l.opener then .opener l.prev l.openerLeading
    else .plain l.begun
  | .singleQuote => .quoted quoteMark l.escaped
  | .doubleQuote => .quoted doubleQuote l.escaped
  | .backtick => .backtick
  | .lineComment => .lineComment l.commentLeading
  | .blockComment => .blockComment l.commentLeading l.fresh (l.prev == asterisk)

/-- What the flags are outside the span they are about. What opened a comment behind the start of
a statement, or a span that is no comment, has begun the statement. -/
structure Valid (l : Lexer) : Prop where
  escaped : l.escaped = true → l.span = .singleQuote ∨ l.span = .doubleQuote
  opener : l.opener = true → l.span = .plain ∧ l.dashes = false
  dashes : l.dashes = true → l.span = .plain
  openerLeading : l.opener = true ∨ l.dashes = true → l.openerLeading = false → l.begun = true
  commentLeading :
    l.span = .lineComment ∨ l.span = .blockComment → l.commentLeading = false → l.begun = true
  begun : l.span = .singleQuote ∨ l.span = .doubleQuote ∨ l.span = .backtick → l.begun = true

/-- Outside every span, with nothing pending. -/
structure Idle (l : Lexer) : Prop where
  span : l.span = .plain
  escaped : l.escaped = false
  opener : l.opener = false
  dashes : l.dashes = false

/-- Registers and state have both ended the statement, or the registers stand for the state. -/
def Simulates : Option Lexer → Option Scan → Prop
  | some l, some s => l.Valid ∧ l.view = s
  | none, none => True
  | _, _ => False

theorem valid_start : Valid {} where
  escaped := by simp
  opener := by simp
  dashes := by simp
  openerLeading := by simp
  commentLeading := by simp
  begun := by simp

theorem view_start : view {} = .start := rfl

theorem Idle.valid {l : Lexer} (h : l.Idle) : l.Valid := by
  obtain ⟨hs, he, ho, hd⟩ := h
  constructor <;> simp [hs, he, ho, hd]

theorem Idle.view_eq {l : Lexer} (h : l.Idle) : l.view = .plain l.begun := by
  simp [view, h.span, h.dashes, h.opener]

theorem Idle.with_begun {l : Lexer} (h : l.Idle) : Idle { l with begun := true } :=
  ⟨h.span, h.escaped, h.opener, h.dashes⟩

theorem Idle.simulates {l : Lexer} (h : l.Idle) {begun : Bool} (hb : l.begun = begun) :
    Simulates (some l) (some (.plain begun)) :=
  ⟨h.valid, by rw [h.view_eq, hb]⟩

theorem stepAlone_simulates {l : Lexer} {b : UInt8} (h : l.Idle) (hp : l.prev = b) :
    Simulates (l.stepAlone b) (Scan.stepPlain l.begun b) := by
  have ⟨hs, he, ho, hd⟩ := h
  unfold stepAlone Scan.stepPlain
  by_cases hq : b = quoteMark
  · simp only [hq, if_true, true_or]
    refine ⟨?_, by simp [view, he]⟩
    constructor <;> simp [he, ho, hd]
  by_cases hdq : b = doubleQuote
  · simp only [hdq, if_true, or_true, show doubleQuote ≠ quoteMark by decide, if_false]
    refine ⟨?_, by simp [view, he]⟩
    constructor <;> simp [he, ho, hd]
  have hn : ¬(b = quoteMark ∨ b = doubleQuote) := not_or.mpr ⟨hq, hdq⟩
  simp only [if_neg hq, if_neg hdq, if_neg hn]
  by_cases ht : b = backtickMark
  · simp only [if_pos ht]
    refine ⟨?_, by simp [view]⟩
    constructor <;> simp [he, ho, hd]
  by_cases hc : b = semicolon
  · simp only [if_neg ht, if_pos hc, Simulates]
  by_cases hm : b = dash ∨ b = slash
  · simp only [if_neg ht, if_neg hc, if_pos hm]
    refine ⟨?_, by simp [view, hs, hd, hp]⟩
    constructor <;> simp [hs, he, hd]
  simp only [if_neg ht, if_neg hc, if_neg hm]
  cases hb : Octets.isBlank b with
  | true => simpa using h.simulates rfl
  | false => simpa using h.with_begun.simulates rfl

/-- Inside a span nothing is pending. -/
theorem Valid.quiet {l : Lexer} (h : Valid l) (hs : l.span ≠ .plain) :
    l.opener = false ∧ l.dashes = false := by
  constructor
  · exact Bool.eq_false_iff.mpr fun ho => hs (h.opener ho).1
  · exact Bool.eq_false_iff.mpr fun hd => hs (h.dashes hd)

/-- Only strings have escapes. -/
theorem Valid.unescaped {l : Lexer} (h : Valid l) (hq : l.span ≠ .singleQuote)
    (hd : l.span ≠ .doubleQuote) : l.escaped = false :=
  Bool.eq_false_iff.mpr fun he => (h.escaped he).elim hq hd

/-- The octet before is free. -/
theorem Valid.with_prev {l : Lexer} (h : Valid l) (b : UInt8) : Valid { l with prev := b } :=
  ⟨h.escaped, h.opener, h.dashes, h.openerLeading, h.commentLeading, h.begun⟩

theorem closeComment_simulates {l : Lexer} (h : Valid l)
    (hs : l.span = .lineComment ∨ l.span = .blockComment) :
    Simulates l.closeComment (Scan.closeComment l.commentLeading) := by
  have ⟨ho, hd⟩ := h.quiet (by rcases hs with hs | hs <;> simp [hs])
  have he := h.unescaped (by rcases hs with hs | hs <;> simp [hs])
    (by rcases hs with hs | hs <;> simp [hs])
  cases hl : l.commentLeading with
  | true => simp [closeComment, Scan.closeComment, hl, Simulates]
  | false =>
    have idle : Idle { l with span := .plain } := ⟨rfl, he, ho, hd⟩
    simpa [closeComment, Scan.closeComment, hl] using idle.simulates (h.commentLeading hs hl)

theorem stepQuoted_simulates {l : Lexer} {quote : UInt8} (b : UInt8) (h : Valid l)
    (hs : l.span = .singleQuote ∧ quote = quoteMark ∨ l.span = .doubleQuote ∧ quote = doubleQuote) :
    Simulates (some (l.stepQuoted quote b)) ((Scan.quoted quote l.escaped).step b) := by
  have hb : l.begun = true := h.begun (by rcases hs with hs | hs <;> simp [hs.1])
  have ⟨ho, hd⟩ := h.quiet (by rcases hs with hs | hs <;> simp [hs.1])
  -- the span stays open, whatever becomes of the escape
  have inside : ∀ escaped, Simulates (some { l with escaped := escaped })
      (some (.quoted quote escaped)) := by
    intro escaped
    refine ⟨?_, by rcases hs with hs | hs <;> simp [view, hs]⟩
    constructor <;> rcases hs with hs | hs <;> simp [hs.1, ho, hd, hb]
  unfold stepQuoted Scan.step
  cases he : l.escaped with
  | true => simpa using inside false
  | false =>
    by_cases hx : b = backslash
    · simpa [hx] using inside true
    by_cases hq : b = quote
    · subst hq
      have idle : Idle { l with span := .plain } := ⟨rfl, he, ho, hd⟩
      simpa [hx, he] using idle.simulates hb
    · have same : Simulates (some l) (some (.quoted quote l.escaped)) := inside l.escaped
      rw [he] at same
      simpa [hx, hq] using same

theorem stepBlock_simulates {l : Lexer} {b : UInt8} (prev : UInt8) (h : Valid l) (hp : l.prev = b)
    (hs : l.span = .blockComment) :
    Simulates (l.stepBlock prev b)
      ((Scan.blockComment l.commentLeading l.fresh (prev == asterisk)).step b) := by
  have ⟨ho, hd⟩ := h.quiet (by simp [hs])
  have he := h.unescaped (by simp [hs]) (by simp [hs])
  -- what the first octet of the comment leaves
  have opened : ∀ m : Lexer, m.Valid → m.span = .blockComment → m.fresh = false → m.prev = b →
      Simulates (if b = slash ∧ prev = asterisk then m.closeComment else some m)
        (if (prev == asterisk) = true ∧ b = slash then Scan.closeComment m.commentLeading
          else some (.blockComment m.commentLeading false (b == asterisk))) := by
    intro m hm hms hf hmp
    by_cases hc : b = slash ∧ prev = asterisk
    · simpa [hc] using closeComment_simulates hm (.inr hms)
    · have hc' : ¬((prev == asterisk) = true ∧ b = slash) := fun ⟨hx, hy⟩ =>
        hc ⟨hy, eq_of_beq hx⟩
      simp only [if_neg hc, if_neg hc']
      exact ⟨hm, by simp [view, hms, hf, hmp]⟩
  have valid : ∀ leading begun, (leading = false → begun = true) →
      Valid { l with fresh := false, commentLeading := leading, begun := begun } := by
    intro leading begun hlb
    constructor <;> simp [hs, he, ho, hd]
    exact hlb
  unfold stepBlock Scan.step
  cases hx : l.fresh && b == exclamation with
  | true =>
    simpa [hx] using opened _ (valid false true fun _ => rfl) hs rfl hp
  | false =>
    simpa [hx] using opened _ (valid l.commentLeading l.begun (h.commentLeading (.inr hs))) hs rfl hp

theorem stepOpener_simulates {l : Lexer} {b : UInt8} (prev : UInt8) (h : Valid l) (hs : l.span = .plain)
    (hp : l.prev = b) (hd : l.dashes = false) :
    Simulates (l.stepOpener prev b)
      ((if l.opener then Scan.opener prev l.openerLeading else .plain l.begun).step b) := by
  have he := h.unescaped (by simp [hs]) (by simp [hs])
  unfold stepOpener
  cases ho : l.opener with
  | false =>
    have idle : Idle l := ⟨hs, he, ho, hd⟩
    simpa [Scan.step] using stepAlone_simulates idle hp
  | true =>
    have leading := h.openerLeading (.inl ho)
    simp only [if_true, Scan.step]
    by_cases hdd : b = dash ∧ prev = dash
    · simp only [if_pos hdd, if_pos hdd.symm]
      refine ⟨?_, by simp [view, hs]⟩
      constructor <;> simp [hs, he]
      exact leading
    by_cases hsa : b = asterisk ∧ prev = slash
    · simp only [if_neg hdd, if_neg (mt And.symm hdd), if_pos hsa, if_pos hsa.symm]
      refine ⟨?_, by simp [view, asterisk]⟩
      constructor <;> simp [he, hd]
      exact leading
    simp only [if_neg hdd, if_neg (mt And.symm hdd), if_neg hsa, if_neg (mt And.symm hsa)]
    have idle : Idle { l with opener := false, begun := true } := ⟨hs, he, rfl, hd⟩
    exact stepAlone_simulates idle hp

theorem stepPlain_simulates {l : Lexer} {b : UInt8} (prev : UInt8) (h : Valid l) (hs : l.span = .plain)
    (hp : l.prev = b) :
    Simulates (l.stepPlain prev b)
      ((if l.dashes then Scan.dashes l.openerLeading
        else if l.opener then .opener prev l.openerLeading else .plain l.begun).step b) := by
  have he := h.unescaped (by simp [hs]) (by simp [hs])
  unfold stepPlain
  cases hd : l.dashes with
  | false => simpa using stepOpener_simulates prev h hs hp hd
  | true =>
    have ho : l.opener = false := by
      cases ho : l.opener
      · rfl
      · exact absurd (h.opener ho).2 (by simp [hd])
    have leading := h.openerLeading (.inr hd)
    simp only [if_true, Scan.step]
    by_cases hb : b = 0x20 ∨ b = 0x09 ∨ b = 0x0D
    · simp only [if_pos hb]
      refine ⟨?_, by simp [view]⟩
      constructor <;> simp [he, ho]
      exact leading
    by_cases hl : b = lineFeed
    · simp only [if_neg hb, if_pos hl]
      cases hol : l.openerLeading with
      | true => simp [Scan.closeComment, Simulates]
      | false =>
        have idle : Idle { l with dashes := false } := ⟨hs, he, ho, rfl⟩
        simpa [Scan.closeComment, hol] using idle.simulates (leading hol)
    simp only [if_neg hb, if_neg hl]
    have idle : Idle { l with dashes := false, begun := true } := ⟨hs, he, ho, rfl⟩
    simpa [ho, Scan.step] using stepOpener_simulates prev idle.valid hs hp rfl

/-- One octet does to the registers what it does to the state they stand for. -/
theorem step_simulates {l : Lexer} (h : Valid l) (b : UInt8) :
    Simulates (l.step b) (l.view.step b) := by
  have hb := h.with_prev b
  unfold step view
  cases hs : l.span with
  | plain => simpa [hs] using stepPlain_simulates l.prev hb hs rfl
  | singleQuote => simpa [hs] using stepQuoted_simulates b hb (.inl ⟨hs, rfl⟩)
  | doubleQuote => simpa [hs] using stepQuoted_simulates b hb (.inr ⟨hs, rfl⟩)
  | backtick =>
    by_cases ht : b = backtickMark
    · have ⟨ho, hd⟩ := h.quiet (by simp [hs])
      have he := h.unescaped (by simp [hs]) (by simp [hs])
      have idle : Idle { l with span := .plain, prev := b } := ⟨rfl, he, ho, hd⟩
      simpa [Scan.step, ht] using idle.simulates (h.begun (by simp [hs]))
    · rw [hs] at hb
      simp only [Scan.step, if_neg ht]
      exact ⟨hb, by simp [view]⟩
  | lineComment =>
    rw [hs] at hb
    by_cases hl : b = lineFeed
    · simpa [Scan.step, hl] using closeComment_simulates hb (.inl rfl)
    · simp only [Scan.step, if_neg hl]
      exact ⟨hb, by simp [view]⟩
  | blockComment => simpa [hs] using stepBlock_simulates l.prev hb rfl hs

theorem view_step_none {l : Lexer} {b : UInt8} (h : Valid l) (hs : l.step b = none) :
    l.view.step b = none := by
  have hv := step_simulates h b
  cases ht : l.view.step b with
  | none => rfl
  | some t => simp [hs, ht, Simulates] at hv

theorem view_step_some {l m : Lexer} {b : UInt8} (h : Valid l) (hs : l.step b = some m) :
    m.Valid ∧ l.view.step b = some m.view := by
  have hv := step_simulates h b
  cases ht : l.view.step b with
  | none => simp [hs, ht, Simulates] at hv
  | some t =>
    obtain ⟨valid, rfl⟩ : m.Valid ∧ m.view = t := by simpa [hs, ht, Simulates] using hv
    exact ⟨valid, rfl⟩

theorem isComplete_view (l : Lexer) : l.view.isComplete = l.isComplete := by
  unfold view isComplete
  cases hs : l.span with
  | plain => cases hd : l.dashes <;> cases ho : l.opener <;> simp [Scan.isComplete]
  | _ => simp [Scan.isComplete]

/-- An octet that may be passed over leaves the state as it is. -/
theorem view_step_of_passes {l : Lexer} {b : UInt8} (h : Valid l) (hp : l.passes b = true) :
    l.view.step b = some l.view := by
  have same : view { l with prev := b } = l.view := by
    cases hs : l.span <;> simp_all [view, passes]
  rw [(view_step_some h (step_of_passes hp)).2, same]

end SqlDump.Lexer
