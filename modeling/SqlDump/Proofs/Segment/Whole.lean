import SqlDump.Proofs.Segment.Boundaries
import SqlDump.Proofs.Segment.Characters

/-!
# A statement among others

Where the statements before it are whole, a statement is a segment of the input, whatever comes
before and behind it.

Main statement: `Segment.all_of_whole`, a statement behind whole ones is a segment of its own.
-/

namespace SqlDump

namespace Scan

/-- The lexer after an octet, set back to the start where the octet ends a statement. -/
def resume (s : Scan) (b : UInt8) : Scan := (s.step b).getD start

theorem feed_begun {s t : Scan} {bs : Octets} (h : s.feed bs = some t) :
    t.begun = (s.begun || !bs.all Octets.isBlank) := by
  induction bs generalizing s with
  | nil =>
    obtain rfl := Option.some.inj h
    simp
  | cons b bs ih =>
    obtain ⟨u, hu, hrest⟩ := Option.bind_eq_some_iff.mp h
    rw [ih hrest, step_begun hu, List.all_cons, Bool.not_and, Bool.or_assoc]

/-- Octets end no statement, or have a first octet that ends one. -/
theorem foldl_resume (s : Scan) (bs : Octets) :
    s.feed bs = some (bs.foldl resume s) ∨
      ∃ before b rest t, bs = before ++ b :: rest ∧ s.feed before = some t ∧ t.step b = none ∧
        bs.foldl resume s = rest.foldl resume start := by
  induction bs generalizing s with
  | nil => exact .inl rfl
  | cons b bs ih =>
    cases h : s.step b with
    | none =>
      refine .inr ⟨[], b, bs, s, rfl, rfl, h, ?_⟩
      rw [List.foldl_cons, resume, h, Option.getD_none]
    | some t =>
      have hresume : (b :: bs).foldl resume s = bs.foldl resume t := by
        rw [List.foldl_cons, resume, h, Option.getD_some]
      rw [hresume]
      rcases ih t with hfeed | ⟨before, d, rest, u, rfl, hfeed, hend, hrest⟩
      · refine .inl ?_
        rw [feed, h, Option.bind_some, hfeed]
      · refine .inr ⟨b :: before, d, rest, u, rfl, ?_, hend, hrest⟩
        rw [feed, h, Option.bind_some, hfeed]

/-- A cut ends with the first octet that ends the statement. -/
theorem cut_of_end {s t : Scan} {bs : Octets} {b : UInt8} (h : s.feed bs = some t)
    (hend : t.step b = none) (taken rest : Octets) :
    s.cut taken (bs ++ b :: rest) = ⟨taken.reverse ++ (bs ++ [b]), true, rest⟩ := by
  rw [cut_of_feed h, cut, hend]
  simp

/-- Octets of which the last ends a statement, and none before it. -/
def Ends (s : Scan) (bs : Octets) : Prop :=
  ∃ body b t, bs = body ++ [b] ∧ s.feed body = some t ∧ t.step b = none

theorem Ends.append {s t : Scan} {bs ds : Octets} (h : s.feed bs = some t) (k : t.Ends ds) :
    s.Ends (bs ++ ds) := by
  obtain ⟨body, b, u, rfl, hfeed, hend⟩ := k
  refine ⟨bs ++ body, b, u, (List.append_assoc ..).symm, ?_, hend⟩
  rw [feed_append, h, Option.bind_some, hfeed]

theorem Ends.not_all_blank {bs : Octets} (h : start.Ends bs) : ¬bs.all Octets.isBlank = true := by
  obtain ⟨body, b, t, rfl, hfeed, hend⟩ := h
  have hbegun := begun_of_step_none hend
  rw [feed_begun hfeed] at hbegun
  rw [List.all_append, List.all_cons, List.all_nil, Bool.and_true]
  simpa [start, begun, imp_iff_not_or] using hbegun

end Scan

/-- Octets that hold whole statements, with blanks between and behind them. -/
def Octets.IsWhole (bs : Octets) : Prop := bs.foldl Scan.resume .start = .start

instance (bs : Octets) : Decidable bs.IsWhole :=
  inferInstanceAs (Decidable (bs.foldl Scan.resume .start = .start))

/-- Octets that are one statement for the lexer, from its first character to its end. -/
structure Octets.IsStatement (bs : Octets) : Prop where
  solid : bs.Solid
  ended : Scan.start.Ends bs

namespace Segment

/-- Octets of which the last ends a statement are a piece, whatever follows them. -/
theorem fromOffset_of_ends {piece : Octets} (h : Scan.start.Ends piece) (rest : Octets)
    (index offset : Nat) :
    fromOffset index offset (piece ++ rest) =
      ofPiece piece index offset true ::
        fromOffset (index + 1) (offset + piece.length) rest := by
  have hblank := h.not_all_blank
  obtain ⟨body, b, t, rfl, hfeed, hend⟩ := h
  have hcut : Scan.start.cut [] (body ++ [b] ++ rest) = ⟨body ++ [b], true, rest⟩ := by
    simpa using Scan.cut_of_end hfeed hend [] rest
  rw [Scan.fromOffset_eq, hcut, Scan.segmentsOfCut, if_neg hblank]

theorem fromOffset_of_whole {before bs : Octets} (hbefore : before.IsWhole) (hbs : bs.IsStatement)
    (after : Octets) (index offset : Nat) :
    ∃ first n k rest, fromOffset index offset (before ++ (bs ++ after)) =
      first ++ ⟨bs, n, k, true⟩ :: rest := by
  induction hlen : before.length using Nat.strongRecOn generalizing before index offset with
  | ind n ih =>
    subst hlen
    rcases Scan.foldl_resume .start before with hfeed | ⟨piece, b, rest, t, rfl, hfeed, hend, hrest⟩
    · -- Only blanks are left, which belong to no statement.
      rw [hbefore] at hfeed
      have hblank : before.all Octets.isBlank = true := by
        simpa [Scan.start, Scan.begun] using Scan.feed_begun hfeed
      rw [← List.append_assoc, fromOffset_of_ends (.append hfeed hbs.ended),
        ofPiece_append hblank hbs.solid]
      exact ⟨[], _, _, _, rfl⟩
    · have hwhole : Octets.IsWhole rest := hrest.symm.trans hbefore
      obtain ⟨first, m, k, more, heq⟩ := ih rest.length (by simp; omega) hwhole (index + 1)
        (offset + (piece ++ [b]).length) rfl
      have hsplit : piece ++ b :: rest ++ (bs ++ after) =
          piece ++ [b] ++ (rest ++ (bs ++ after)) := by simp
      rw [hsplit, fromOffset_of_ends ⟨piece, b, t, rfl, hfeed, hend⟩, heq]
      exact ⟨_ :: first, m, k, more, rfl⟩

/-- A statement behind whole ones is a segment of its own. -/
theorem all_of_whole {before bs : Octets} (hbefore : before.IsWhole) (hbs : bs.IsStatement)
    (after : Octets) :
    ∃ first n k rest, all (before ++ (bs ++ after)) = first ++ ⟨bs, n, k, true⟩ :: rest :=
  fromOffset_of_whole hbefore hbs after 0 0

end Segment

end SqlDump
