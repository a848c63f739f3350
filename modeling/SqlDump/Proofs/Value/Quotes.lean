import SqlDump.Proofs.Segment.Quoting
import SqlDump.Proofs.Text.Decoding
import SqlDump.Proofs.Text.Items
import SqlDump.Proofs.Value.Bare
import SqlDump.Proofs.Value.Faults

/-!
# Quotes in the lexer and in the reader of rows

The lexer takes octets and leaves quotes at the first of two quotes, to enter them again at the
second. The reader of rows takes characters and looks at the next one. Where nothing opens a name or
a comment, both are inside the quotes that `Quoting` tells, whichever way the octets are decoded.

Main statements: `outsideOf_octets`, the octets outside quotes are those of the characters outside
quotes; `Scan.Follows.feed`, the lexer over octets follows the quotes around their characters;
`RowScan.Tracks.run`, so does the reader of rows; `RowScan.Tracks.quotes_eq`, so both are inside of
the same; `ParsedRows.fault_of_closed`, no quoted text is unterminated where quotes are closed.
-/

namespace SqlDump

open Text

/-! ### The quotes around octets -/

theorem outsideOf_append (q : Quoting) (t u : Text) :
    outsideOf q (t ++ u) = outsideOf q t ++ outsideOf (t.foldl Quoting.step q) u := by
  induction t generalizing q with
  | nil => rfl
  | cons c t ih =>
    rw [List.cons_append, outsideOf, outsideOf, List.foldl_cons, ih]
    split <;> rfl

namespace Text.Quoting

/-- The quotes behind a character beyond ASCII. -/
def beyond : Quoting → Quoting
  | .outside => .outside
  | .inside quote _ => .inside quote false

theorem step_beyond {q : Quoting} (h : q.IsSound) {c : Char} (hc : 0x80 ≤ c.toNat) :
    q.step c = q.beyond := by
  cases q with
  | outside => exact Scan.outside_step (Scan.not_quoteMark_of_beyond hc)
  | inside quote escaped =>
    cases escaped with
    | true => rfl
    | false =>
      have hquote : c ≠ quote := by
        rintro rfl
        have hmark : isQuoteMark c = true := h
        rw [Scan.not_quoteMark_of_beyond hc] at hmark
        cases hmark
      have hback : c ≠ '\\' := by
        rintro rfl
        exact absurd hc (by decide)
      exact Quoting.step_content hback hquote

theorem beyond_beyond (q : Quoting) : q.beyond.beyond = q.beyond := by cases q <;> rfl

theorem IsSound.beyond {q : Quoting} (h : q.IsSound) : q.beyond.IsSound := by
  cases q with
  | outside => trivial
  | inside quote escaped => exact h

/-- Characters beyond ASCII stand outside quotes or inside them, all alike. -/
theorem outsideOf_beyond {q : Quoting} (h : q.IsSound) {t : Text} (ht : ∀ c ∈ t, 0x80 ≤ c.toNat)
    (hne : t ≠ []) :
    outsideOf q t = (if q = .outside then t else []) ∧ t.foldl Quoting.step q = q.beyond := by
  induction t generalizing q with
  | nil => exact absurd rfl hne
  | cons c t ih =>
    have hstep := step_beyond h (ht c List.mem_cons_self)
    rw [outsideOf, List.foldl_cons, hstep]
    cases t with
    | nil =>
      cases q <;> simp [outsideOf, Quoting.beyond]
    | cons d t =>
      obtain ⟨hout, hfold⟩ := ih h.beyond (fun e he => ht e (List.mem_cons_of_mem c he))
        (List.cons_ne_nil d t)
      rw [hout, hfold, beyond_beyond]
      cases q <;> simp [Quoting.beyond]

end Text.Quoting

namespace Encoding

variable {e : Encoding} {q : Quoting} {t u : Text} {c : Char} {x : Octets}

theorem fromLatin1_append (x y : Octets) :
    (x ++ y).fromLatin1 = x.fromLatin1 ++ y.fromLatin1 := List.map_append

theorem fromLatin1_ascii (hc : c.toNat < 0x80) : (e.octets [c]).fromLatin1 = [c] := by
  rw [e.octets_ascii hc, Octets.fromLatin1, List.map_singleton,
    Octets.toNat_ofNat_of_lt (Nat.lt_trans hc (by decide)), Char.ofNat_toNat]

/-- The quotes around the octets of a character are those around the character. -/
theorem outsideOf_char (hq : q.IsSound) (hc : e = .latin1 → c.toNat < 0x100) :
    outsideOf q (e.octets [c]).fromLatin1 = (e.octets (outsideOf q [c])).fromLatin1 ∧
      (e.octets [c]).fromLatin1.foldl Quoting.step q = q.step c := by
  by_cases hascii : c.toNat < 0x80
  · rw [fromLatin1_ascii hascii]
    refine ⟨?_, rfl⟩
    rw [outsideOf, outsideOf]
    split
    · rw [fromLatin1_ascii hascii]
    · rw [octets_nil]
      rfl
  · have hbeyond := Nat.le_of_not_lt hascii
    obtain ⟨hne, hhigh⟩ := octets_high hbeyond hc
    have hall : ∀ d ∈ (e.octets [c]).fromLatin1, 0x80 ≤ d.toNat := by
      intro d hd
      obtain ⟨b, hb, rfl⟩ := List.mem_map.mp hd
      rw [Octets.toNat_ofNat_octet]
      exact UInt8.le_iff_toNat_le.mp (hhigh b hb)
    obtain ⟨hout, hfold⟩ :=
      Quoting.outsideOf_beyond hq hall (by simpa [Octets.fromLatin1] using hne)
    obtain ⟨hchar, -⟩ := Quoting.outsideOf_beyond hq (t := [c]) (by simpa using hbeyond) (by simp)
    rw [hout, hfold, hchar, Quoting.step_beyond hq hbeyond]
    refine ⟨?_, rfl⟩
    split
    · rfl
    · rw [octets_nil]
      rfl

/-- The octets outside quotes are those of the characters outside quotes. -/
theorem outsideOf_octets (hq : q.IsSound) (ht : e = .latin1 → ∀ c ∈ t, c.toNat < 0x100) :
    outsideOf q (e.octets t).fromLatin1 = (e.octets (outsideOf q t)).fromLatin1 := by
  induction t generalizing q with
  | nil =>
    rw [octets_nil]
    exact congrArg Octets.fromLatin1 e.octets_nil.symm
  | cons c t ih =>
    obtain ⟨hout, hfold⟩ := outsideOf_char (e := e) hq fun he => ht he c List.mem_cons_self
    have hsplit : outsideOf q (c :: t) = outsideOf q [c] ++ outsideOf (q.step c) t :=
      outsideOf_append q [c] t
    rw [octets_cons, fromLatin1_append, outsideOf_append, hout, hfold,
      ih (hq.step c) fun he d hd => ht he d (List.mem_cons_of_mem c hd), hsplit, octets_append,
      fromLatin1_append]

/-- A text of ASCII that stands in a text stands in its octets. -/
theorem infix_fromLatin1 (hu : u.IsAscii) (h : u <:+: t) : u <:+: (e.octets t).fromLatin1 := by
  obtain ⟨before, behind, rfl⟩ := h
  have hocts : (e.octets u).fromLatin1 = u := by
    have hutf8 := (Reads.of_ascii e hu).octets
    have hlatin1 := (Reads.of_ascii .latin1 hu).unique (reads_fromLatin1 _)
    rw [hutf8, ← hlatin1]
  rw [octets_append, octets_append, fromLatin1_append, fromLatin1_append, hocts]
  exact ⟨_, _, rfl⟩

/-- Octets that open neither a name nor a comment outside quotes are a text that does not. -/
theorem Reads.isClear (h : e.Reads x t) (hx : IsClear (outsideOf .outside x.fromLatin1)) :
    IsClear (outsideOf .outside t) := by
  have hout := outsideOf_octets (e := e) (q := .outside) trivial h.narrow
  rw [h.octets] at hout
  rw [hout] at hx
  refine ⟨fun hm => hx.backtick ?_, fun hi => hx.dashes ?_, fun hi => hx.comment ?_⟩
  · obtain ⟨before, behind, hsplit⟩ := List.append_of_mem hm
    have hi : ['\x60'] <:+: outsideOf .outside t := ⟨before, behind, by rw [hsplit]; simp⟩
    exact (infix_fromLatin1 (by decide) hi).subset (List.mem_singleton.mpr rfl)
  · exact infix_fromLatin1 (by decide) hi
  · exact infix_fromLatin1 (by decide) hi

end Encoding

/-! ### The lexer -/

namespace Scan

variable {e : Encoding} {q : Quoting} {t next : Text} {c : Char} {x : Octets} {s u : Scan}

/-- The lexer over a character does not depend on how it is encoded. -/
theorem feed_octets (hs : s.IsSound) (hc : e = .latin1 → c.toNat < 0x100) :
    s.feed (e.octets [c]) = s.read [c] := by
  by_cases hascii : c.toNat < 0x80
  · rw [e.octets_ascii hascii, read_of_ascii s hascii, feed]
    cases s.step (UInt8.ofNat c.toNat) <;> rfl
  · have hbeyond := Nat.le_of_not_lt hascii
    obtain ⟨hne, hhigh⟩ := Encoding.octets_high hbeyond hc
    obtain ⟨b, bs, hbs⟩ := List.exists_cons_of_ne_nil hne
    rw [hbs] at hhigh ⊢
    have hrest : s.high.feed bs = some s.high := by
      refine feed_high (s := s) (fun d hd => ⟨step_high hs hd, ?_⟩)
        fun d hd => hhigh d (List.mem_cons_of_mem b hd)
      rw [step_high hs.high hd, high_high]
    rw [read_beyond hs hbeyond, feed, step_high hs (hhigh b List.mem_cons_self), Option.bind_some,
      hrest]

theorem Follows.isSound (h : s.Follows next q) : s.IsSound := by
  cases q with
  | outside => obtain rfl | ⟨rfl, -⟩ | ⟨rfl, -⟩ := h <;> trivial
  | inside quote escaped =>
    obtain ⟨rfl | rfl, rfl⟩ := h
    · exact .inl rfl
    · exact .inr rfl

/-- The lexer over octets that do not end the statement is inside the quotes around what follows
them. -/
theorem Follows.feed (hs : s.Follows (outsideOf q (t ++ next)) q)
    (hclear : IsClear (outsideOf q (t ++ next))) (hx : e.Reads x t) (hu : s.feed x = some u) :
    u.Follows (outsideOf (t.foldl Quoting.step q) next) (t.foldl Quoting.step q) := by
  induction t generalizing s q x with
  | nil =>
    obtain rfl := hx.octets
    rw [e.octets_nil] at hu
    obtain rfl := Option.some.inj hu
    exact hs
  | cons c t ih =>
    rw [← hx.octets, Encoding.octets_cons, feed_append,
      feed_octets hs.isSound fun he => hx.narrow he c List.mem_cons_self] at hu
    obtain ⟨r, hr, hu⟩ := Option.bind_eq_some_iff.mp hu
    obtain ⟨-, -, hend⟩ | ⟨r', hr', hfollows⟩ := hs.step hclear
    · rw [hend] at hr
      cases hr
    · obtain rfl := Option.some.inj (hr'.symm.trans hr)
      exact ih hfollows hclear.rest hx.tail hu

/-- Only a semicolon outside quotes ends the statement. -/
theorem Follows.ends (hs : s.Follows (outsideOf q (c :: next)) q)
    (hclear : IsClear (outsideOf q (c :: next))) (hc : s.read [c] = none) :
    q = .outside ∧ c = ';' := by
  obtain ⟨hq, hsemicolon, -⟩ | ⟨u, hu, -⟩ := hs.step hclear
  · exact ⟨hq, hsemicolon⟩
  · rw [hu] at hc
    cases hc

/-- The quote that the lexer is inside of. -/
def quotes : Scan → Option UInt8
  | .quoted quote _ => some quote
  | .backtick => some backtickMark
  | _ => none

end Scan

/-! ### The reader of rows -/

/-- The quote that the reader of a row is inside of. -/
def QuoteState.quotes : QuoteState → Option Char
  | .inside quote _ _ => some quote
  | _ => none

namespace OpenRow

variable {r u : OpenRow} {q : Quoting} {c : Char} {t : Text} {position : Nat}

/-- A character that a row takes. -/
theorem Tracks.step (h : Tracks r.quote q) (hclear : IsClear (outsideOf q (c :: t)))
    (hu : r.step position c = .inl u) : Tracks u.quote (q.step c) := by
  cases q with
  | outside =>
    rw [outsideOf_outside] at hclear
    obtain ⟨hq, hstep⟩ | ⟨hq, hstep⟩ := hclear.step_outside
    · obtain ⟨content, quoted, start, hr⟩ := step_valueQuote h hq position
      obtain rfl := Sum.inl.inj (hr.symm.trans hu)
      rw [hstep]
      exact ⟨hq, start, rfl⟩
    · rw [step_of_idle h hq] at hu
      rw [hstep]
      exact .inl (quote_stepOutside hq hu)
  | inside quote escaped =>
    obtain ⟨value, state, hr, htracks, -, -⟩ := step_inside h c position
    obtain rfl := Sum.inl.inj (hr.symm.trans hu)
    exact htracks

/-- A character that ends a row stands outside quotes, and so does what follows it. -/
theorem Tracks.step_close {row : Row} (h : Tracks r.quote q)
    (hclear : IsClear (outsideOf q (c :: t))) (hu : r.step position c = .inr row) :
    q.step c = .outside := by
  cases q with
  | outside =>
    rw [outsideOf_outside] at hclear
    obtain ⟨hq, hstep⟩ | ⟨-, hstep⟩ := hclear.step_outside
    · obtain ⟨content, quoted, start, hr⟩ := step_valueQuote h hq position
      rw [hr] at hu
      cases hu
    · exact hstep
  | inside quote escaped =>
    obtain ⟨value, state, hr, -⟩ := step_inside h c position
    rw [hr] at hu
    cases hu

end OpenRow

namespace RowScan

variable {s u : RowScan} {q : Quoting} {c : Char} {t next : Text}

/-- The reader is inside the quotes that a character stands in, which is in none between rows. -/
def Tracks (s : RowScan) (q : Quoting) : Prop :=
  match s.row with
  | none => q = .outside
  | some r => OpenRow.Tracks r.quote q

theorem tracks_none (h : s.row = none) : s.Tracks q ↔ q = .outside := by
  unfold Tracks
  rw [h]

theorem tracks_some {r : OpenRow} (h : s.row = some r) :
    s.Tracks q ↔ OpenRow.Tracks r.quote q := by
  unfold Tracks
  rw [h]

/-- One character. -/
theorem Tracks.step (h : s.Tracks q) (hclear : IsClear (outsideOf q (c :: t)))
    (hu : s.step c = some u) : u.Tracks (q.step c) := by
  cases hrow : s.row with
  | none =>
    obtain rfl := (tracks_none hrow).mp h
    obtain ⟨rfl, hopened⟩ | ⟨hc, hnone⟩ := row_step_between hrow hu
    · exact (tracks_some hopened).mpr (.inl rfl)
    · have hmark : isQuoteMark c = false := by
        rcases hc with rfl | hblank
        · rfl
        · exact Unicode.of_isBlank (p := fun c => isQuoteMark c = false) (by decide) hblank
      exact (tracks_none hnone).mpr (Scan.outside_step hmark)
  | some r =>
    have hr := (tracks_some hrow).mp h
    obtain ⟨r', hstep, hrow'⟩ | ⟨row, hstep, hnone⟩ := row_step_within hrow hu
    · exact (tracks_some hrow').mpr (hr.step hclear hstep)
    · exact (tracks_none hnone).mpr (hr.step_close hclear hstep)

/-- A text, as far as it is read. -/
theorem Tracks.run (h : s.Tracks q) (hclear : IsClear (outsideOf q t)) (hrest : (s.run t).2 = []) :
    (s.run t).1.Tracks (t.foldl Quoting.step q) := by
  induction t generalizing s q with
  | nil => exact h
  | cons c t ih =>
    rw [RowScan.run] at hrest ⊢
    cases hu : s.step c with
    | none =>
      rw [hu] at hrest
      cases hrest
    | some u =>
      rw [hu] at hrest
      exact ih (h.step hclear hu) hclear.rest hrest

theorem Behind.tracks (h : Behind t s) (hclear : IsClear (outsideOf .outside t)) :
    s.Tracks (t.foldl Quoting.step .outside) := by
  have hstart : Tracks {} .outside := rfl
  have hrun := hstart.run hclear (congrArg Prod.snd h)
  rwa [h] at hrun

/-- The lexer and the reader of a row that go along with the same quotes are inside of the same. -/
theorem Tracks.quotes_eq {l : Scan} {r : OpenRow} (h : s.Tracks q) (hrow : s.row = some r)
    (hl : l.Follows next q) : l.quotes = r.quote.quotes.map fun c => UInt8.ofNat c.toNat := by
  have hr := (tracks_some hrow).mp h
  cases q with
  | outside =>
    have hreader : r.quote.quotes = none := by
      obtain hout | ⟨quote, start, -, hclosing⟩ := hr
      · rw [hout]
        rfl
      · rw [hclosing]
        rfl
    rw [hreader]
    obtain rfl | ⟨rfl, -⟩ | ⟨rfl, -⟩ := hl <;> rfl
  | inside quote escaped =>
    obtain ⟨-, start, hinside⟩ := hr
    obtain ⟨-, rfl⟩ := hl
    rw [hinside]
    rfl

end RowScan

/-- Where a text ends outside quotes, no quoted text is unterminated. -/
theorem ParsedRows.fault_of_closed {t : Text} {f : RowFault}
    (hclear : IsClear (outsideOf .outside t)) (hclosed : t.foldl Quoting.step .outside = .outside)
    (h : (ofText t).fault = some f) : f.kind = .unterminatedRow := by
  obtain ⟨s, r, hs, hrow, rfl⟩ := exists_row h
  have htracks := hs.tracks hclear
  rw [hclosed] at htracks
  unfold OpenRow.fault
  obtain hout | ⟨quote, start, -, hclosing⟩ := (RowScan.tracks_some hrow).mp htracks
  · rw [hout]
  · rw [hclosing]

end SqlDump
