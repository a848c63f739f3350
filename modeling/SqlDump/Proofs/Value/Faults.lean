import Mathlib.Data.List.Induction
import SqlDump.Proofs.Value.Rows

/-!
# Where a fault is placed

A list of rows that the end of the text cuts short is placed at what was open there: a quoted text,
or else a row. The reader notes where it opened either, counting the octets of the text as UTF-8,
and stays in it from there on.

Main statements: `RowScan.placed_step` and `RowScan.placed`, the places that the reader notes are
those of what it is in; `ParsedRows.fault_placed`, so is that of a fault.
-/

namespace SqlDump

open Text

namespace QuoteState

/-- In the quoted text that `quote` opened at `start`, or at its end unless the quote is written
twice. -/
def IsWithin (q : QuoteState) (quote : Char) (start : Nat) : Prop :=
  (∃ escaped, q = .inside quote start escaped) ∨ q = .closing quote start

/-- Where `quote` opens a quoted text. -/
def Opens (q : QuoteState) (quote : Char) : Prop :=
  q = .outside ∨ ∃ other start, q = .closing other start ∧ other ≠ quote

theorem IsWithin.unique {q : QuoteState} {quote other : Char} {start opened : Nat}
    (h : q.IsWithin quote start) (k : q.IsWithin other opened) :
    quote = other ∧ start = opened := by
  obtain ⟨escaped, rfl⟩ | rfl := h
  · obtain ⟨escaped', heq⟩ | heq := k
    · cases heq
      exact ⟨rfl, rfl⟩
    · cases heq
  · obtain ⟨escaped', heq⟩ | heq := k
    · cases heq
    · cases heq
      exact ⟨rfl, rfl⟩

end QuoteState

namespace OpenRow

variable {r u : OpenRow} {c quote : Char} {position start : Nat}

theorem start_stepOutside (h : r.stepOutside position c = .inl u) : u.start = r.start := by
  unfold stepOutside at h
  split at h
  · cases h; rfl
  · cases h; rfl
  · cases h; rfl
  · split at h <;> cases h; rfl
  · split at h <;> cases h <;> rfl

/-- A row stays where it opened. -/
theorem start_step (h : r.step position c = .inl u) : u.start = r.start := by
  unfold step at h
  split at h
  · exact start_stepOutside h
  · cases h; rfl
  · split at h
    · cases h; rfl
    · split at h <;> cases h <;> rfl
  · split at h
    · cases h; rfl
    · exact start_stepOutside h

/-- Outside quotes, only a quote opens them. -/
theorem quote_stepOutside (hc : ¬IsValueQuote c) (h : r.stepOutside position c = .inl u) :
    u.quote = .outside := by
  simp only [IsValueQuote, not_or] at hc
  unfold stepOutside at h
  split at h
  · exact absurd rfl hc.1
  · exact absurd rfl hc.2
  · cases h; rfl
  · split at h <;> cases h; rfl
  · split at h <;> cases h <;> rfl

theorem within_stepOutside (h : r.stepOutside position c = .inl u)
    (hu : u.quote.IsWithin quote start) : c = quote ∧ start = position ∧ IsValueQuote quote := by
  by_cases hc : IsValueQuote c
  · rw [stepOutside_quote hc] at h
    obtain rfl := Sum.inl.inj h
    obtain ⟨escaped, hinside⟩ | hclosing := hu
    · obtain ⟨rfl, rfl, -⟩ := QuoteState.inside.inj hinside
      exact ⟨rfl, rfl, hc⟩
    · cases hclosing
  · rw [quote_stepOutside hc h] at hu
    obtain ⟨escaped, hinside⟩ | hclosing := hu
    · cases hinside
    · cases hclosing

/-- In a quoted text behind a character, the reader was in it before, or the character opened it. -/
theorem within_step (h : r.step position c = .inl u) (hu : u.quote.IsWithin quote start) :
    r.quote.IsWithin quote start ∨
      c = quote ∧ start = position ∧ IsValueQuote quote ∧ r.quote.Opens quote := by
  unfold step at h
  cases hq : r.quote with
  | outside =>
    rw [hq] at h
    obtain ⟨rfl, rfl, hquote⟩ := within_stepOutside h hu
    exact .inr ⟨rfl, rfl, hquote, .inl rfl⟩
  | inside other opened escaped =>
    have hin : u.quote.IsWithin other opened := by
      rw [hq] at h
      cases escaped with
      | true =>
        cases h
        exact .inl ⟨false, rfl⟩
      | false =>
        dsimp only at h
        split at h
        · cases h
          exact .inl ⟨true, rfl⟩
        · split at h
          · cases h
            exact .inr rfl
          · cases h
            exact .inl ⟨false, rfl⟩
    obtain ⟨rfl, rfl⟩ := hu.unique hin
    exact .inl (.inl ⟨escaped, rfl⟩)
  | closing other opened =>
    rw [hq] at h
    dsimp only at h
    split at h
    · cases h
      obtain ⟨rfl, rfl⟩ := hu.unique (.inl ⟨false, rfl⟩)
      exact .inl (.inr rfl)
    · next hc =>
      obtain ⟨rfl, rfl, hquote⟩ := within_stepOutside h hu
      exact .inr ⟨rfl, rfl, hquote, .inr ⟨other, opened, rfl, Ne.symm hc⟩⟩

end OpenRow

namespace RowScan

/-- The reader behind a text that it reads as a whole. -/
def Behind (t : Text) (s : RowScan) : Prop := run {} t = (s, [])

variable {t before behind : Text} {s u : RowScan} {c quote : Char}

theorem behind_snoc : Behind (t ++ [c]) u ↔ ∃ s, Behind t s ∧ s.step c = some u := by
  unfold Behind
  by_cases hrest : (run {} t).2 = []
  · rw [run_append _ _ _ hrest]
    constructor
    · intro h
      refine ⟨(run {} t).1, Prod.ext rfl hrest, ?_⟩
      rw [run] at h
      split at h
      · cases h
      · next hs =>
        cases h
        exact hs
    · rintro ⟨s, hs, hstep⟩
      rw [hs]
      simp only [run, hstep]
  · rw [run_stopped _ _ _ hrest]
    constructor
    · intro h
      have hnil := (Prod.mk.inj h).2
      exact absurd (List.append_eq_nil_iff.mp hnil).1 hrest
    · rintro ⟨s, hs, -⟩
      exact absurd (congrArg Prod.snd hs) hrest

/-- The reader stays in a row as far as the text goes. -/
theorem rest_of_row {s : RowScan} {r : OpenRow} (h : (s.run t).1.row = some r) :
    (s.run t).2 = [] := by
  induction t generalizing s with
  | nil => rfl
  | cons c t ih =>
    rw [run] at h ⊢
    cases hs : s.step c with
    | none =>
      rw [hs] at h
      have hrow : s.row = some r := h
      unfold step at hs
      rw [hrow] at hs
      dsimp only at hs
      split at hs <;> cases hs
    | some u =>
      rw [hs] at h
      exact ih h

/-- Behind the first text a parenthesis opens a row that is still open behind the second. -/
structure OpensRow (before behind : Text) : Prop where
  between : ∃ s, Behind before s ∧ s.row = none
  stays : ∀ more, more <+: behind → ∃ s r, Behind (before ++ '(' :: more) s ∧ s.row = some r

/-- Behind the first text, in a row and outside quotes, a quote opens a quoted text that is still
open behind the second, or at its end. -/
structure OpensQuote (quote : Char) (before behind : Text) : Prop where
  mark : IsValueQuote quote
  outside : ∃ s r, Behind before s ∧ s.row = some r ∧ r.quote.Opens quote
  stays : ∀ more, more <+: behind → ∃ s r, Behind (before ++ quote :: more) s ∧ s.row = some r ∧
    r.quote.IsWithin quote (size before)

theorem OpensRow.snoc (h : OpensRow before behind) {r : OpenRow}
    (hu : Behind (before ++ '(' :: (behind ++ [c])) u) (hr : u.row = some r) :
    OpensRow before (behind ++ [c]) := by
  refine ⟨h.between, fun more hmore => ?_⟩
  rcases List.prefix_concat_iff.mp hmore with rfl | hmore
  · exact ⟨u, r, hu, hr⟩
  · exact h.stays more hmore

theorem OpensQuote.snoc (h : OpensQuote quote before behind) {r : OpenRow}
    (hu : Behind (before ++ quote :: (behind ++ [c])) u) (hr : u.row = some r)
    (hwithin : r.quote.IsWithin quote (size before)) : OpensQuote quote before (behind ++ [c]) := by
  refine ⟨h.mark, h.outside, fun more hmore => ?_⟩
  rcases List.prefix_concat_iff.mp hmore with rfl | hmore
  · exact ⟨u, r, hu, hr, hwithin⟩
  · exact h.stays more hmore

/-- The reader knows where it is, where the row opened that it is in, and where the quoted text. -/
structure Placed (t : Text) (s : RowScan) : Prop where
  position : s.position = size t
  row : ∀ r, s.row = some r → ∃ before behind,
    t = before ++ '(' :: behind ∧ r.start = size before ∧ OpensRow before behind
  quote : ∀ r, s.row = some r → ∀ quote start, r.quote.IsWithin quote start →
    ∃ before behind, t = before ++ quote :: behind ∧ start = size before ∧
      OpensQuote quote before behind

theorem position_step (h : s.step c = some u) : u.position = s.position + c.utf8Size := by
  unfold step at h
  dsimp only at h
  split at h
  · split at h
    · cases h; rfl
    · split at h <;> cases h; rfl
  · split at h <;> cases h <;> rfl

/-- Between rows a character opens a row, or it is a comma or a blank. -/
theorem row_step_between (hrow : s.row = none) (h : s.step c = some u) :
    (c = '(' ∧ u.row = some { start := s.position }) ∨
      (c = ',' ∨ Unicode.isBlank c = true) ∧ u.row = none := by
  unfold step at h
  rw [hrow] at h
  dsimp only at h
  split at h
  · next hc =>
    cases h
    exact .inl ⟨hc, rfl⟩
  · split at h <;> cases h
    exact .inr ⟨‹_›, rfl⟩

/-- In a row a character stays in it or ends it. -/
theorem row_step_within {r : OpenRow} (hrow : s.row = some r) (h : s.step c = some u) :
    (∃ r', r.step s.position c = .inl r' ∧ u.row = some r') ∨
      ∃ row, r.step s.position c = .inr row ∧ u.row = none := by
  unfold step at h
  rw [hrow] at h
  dsimp only at h
  split at h
  · next r' hstep =>
    cases h
    exact .inl ⟨r', hstep, rfl⟩
  · next row hstep =>
    cases h
    exact .inr ⟨row, hstep, rfl⟩

theorem placed_none (hposition : s.position = size t) (hrow : s.row = none) : Placed t s := by
  refine ⟨hposition, ?_, ?_⟩ <;> intro r hr <;> rw [hrow] at hr <;> cases hr

/-- One character. -/
theorem placed_step (h : Placed t s) (hs : Behind t s) (hstep : s.step c = some u) :
    Placed (t ++ [c]) u := by
  have hu : Behind (t ++ [c]) u := behind_snoc.mpr ⟨s, hs, hstep⟩
  have hposition : u.position = size (t ++ [c]) := by
    rw [position_step hstep, h.position, size_append, size_cons, size_nil, Nat.add_zero]
  cases hrow : s.row with
  | none =>
    obtain ⟨rfl, hopened⟩ | ⟨-, hnone⟩ := row_step_between hrow hstep
    · refine ⟨hposition, ?_, ?_⟩
      · intro r hr
        obtain rfl := Option.some.inj (hopened.symm.trans hr)
        refine ⟨t, [], rfl, h.position, ⟨s, hs, hrow⟩, fun more hmore => ?_⟩
        obtain rfl := List.prefix_nil.mp hmore
        exact ⟨u, _, hu, hopened⟩
      · intro r hr quote start hwithin
        obtain rfl := Option.some.inj (hopened.symm.trans hr)
        obtain ⟨escaped, hinside⟩ | hclosing := hwithin
        · cases hinside
        · cases hclosing
    · exact placed_none hposition hnone
  | some r =>
    obtain ⟨r', hr, hrow'⟩ | ⟨row, -, hnone⟩ := row_step_within hrow hstep
    · refine ⟨hposition, ?_, ?_⟩
      · intro r'' hr''
        obtain rfl := Option.some.inj (hrow'.symm.trans hr'')
        obtain ⟨before, behind, rfl, hstart, hopens⟩ := h.row r hrow
        rw [List.append_assoc, List.cons_append] at hu ⊢
        refine ⟨before, behind ++ [c], rfl, ?_, hopens.snoc hu hrow'⟩
        rw [OpenRow.start_step hr, hstart]
      · intro r'' hr'' quote start hwithin
        obtain rfl := Option.some.inj (hrow'.symm.trans hr'')
        rcases OpenRow.within_step hr hwithin with hbefore | ⟨rfl, rfl, hquote, hopens⟩
        · obtain ⟨before, behind, rfl, rfl, hopens⟩ := h.quote r hrow quote start hbefore
          rw [List.append_assoc, List.cons_append] at hu ⊢
          exact ⟨before, behind ++ [c], rfl, rfl, hopens.snoc hu hrow' hwithin⟩
        · refine ⟨t, [], rfl, h.position, hquote, ⟨s, r, hs, hrow, hopens⟩, fun more hmore => ?_⟩
          obtain rfl := List.prefix_nil.mp hmore
          exact ⟨u, r', hu, hrow', h.position ▸ hwithin⟩
    · exact placed_none hposition hnone

/-- A text that the reader reads as a whole. -/
theorem placed (h : Behind t s) : Placed t s := by
  induction t using List.reverseRecOn generalizing s with
  | nil =>
    obtain rfl := (Prod.mk.inj h).1
    exact placed_none rfl rfl
  | append_singleton t c ih =>
    obtain ⟨s, hs, hstep⟩ := behind_snoc.mp h
    exact placed_step (ih hs) hs hstep

end RowScan

/-- A character between two texts opens the span that is abandoned at their end: a row, or a quoted
text that is not at its end either. -/
def RowFaultKind.OpensAt (before : Text) (mark : Char) (behind : Text) : RowFaultKind → Prop
  | .unterminatedRow => mark = '(' ∧ RowScan.OpensRow before behind
  | .unterminatedQuote => RowScan.OpensQuote mark before behind ∧ ∃ s r escaped,
    RowScan.Behind (before ++ mark :: behind) s ∧ s.row = some r ∧
      r.quote = .inside mark (size before) escaped

/-- A fault is that of a row which is still open where the text ends. -/
theorem ParsedRows.exists_row {t : Text} {f : RowFault} (h : (ofText t).fault = some f) :
    ∃ s r, RowScan.Behind t s ∧ s.row = some r ∧ r.fault = f := by
  obtain ⟨r, hrow, hf⟩ := Option.map_eq_some_iff.mp h
  exact ⟨_, r, Prod.ext rfl (RowScan.rest_of_row hrow), hrow, hf⟩

/-- A fault is placed at the character that opened what was abandoned. -/
theorem ParsedRows.fault_placed {t : Text} {f : RowFault} (h : (ofText t).fault = some f) :
    ∃ before mark behind, t = before ++ mark :: behind ∧ f.offset = size before ∧
      f.kind.OpensAt before mark behind := by
  obtain ⟨s, r, hs, hrow, rfl⟩ := exists_row h
  have hplaced := RowScan.placed hs
  unfold OpenRow.fault
  split
  · next quote start escaped hquote =>
    obtain ⟨before, behind, rfl, rfl, hopens⟩ :=
      hplaced.quote r hrow quote start (.inl ⟨escaped, hquote⟩)
    exact ⟨before, quote, behind, rfl, rfl, hopens, s, r, escaped, hs, hrow, hquote⟩
  · obtain ⟨before, behind, rfl, hstart, hopens⟩ := hplaced.row r hrow
    exact ⟨before, '(', behind, rfl, hstart, rfl, hopens⟩

end SqlDump
