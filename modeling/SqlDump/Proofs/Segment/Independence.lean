import SqlDump.Proofs.Segment.Partition
import SqlDump.Proofs.Segment.Whole

/-!
# A statement by itself

Where a statement ends is settled by its own octets. Cut out of the input and read alone it is the
same statement, whatever stood before it. What follows it is read as if the input began there, only
with other numbers and offsets.

Main statements: `Scan.finished_of_cut`, what the octets of a whole statement do to the lexer;
`Segment.split_fromOffset`, the input around a whole statement; `Reader.readAll_alone`, readers of
the statement alone and of what is behind it.
-/

namespace SqlDump

namespace Scan

/-- Blanks leave the lexer before a statement. -/
theorem feed_blank {lead : Octets} (h : lead.all Octets.isBlank = true) :
    start.feed lead = some start := by
  induction lead with
  | nil => rfl
  | cons b lead ih =>
    obtain ⟨hb, hlead⟩ := Bool.and_eq_true_iff.mp h
    have hstep : start.step b = some start := by
      simp only [Octets.isBlank, Bool.or_eq_true, beq_iff_eq] at hb
      obtain (((rfl | rfl) | rfl) | rfl) | rfl := hb <;> rfl
    rw [feed, hstep, Option.bind_some, ih hlead]

/-- Octets behind which a statement is whole: the last of them ends it, or it is a comment that may
run to the end of the input. -/
def Finishes (s : Scan) (bs : Octets) : Prop :=
  s.Ends bs ∨ ∃ t, s.feed bs = some t ∧ t.isComplete = true

/-- The octets of a whole statement finish it, and only an octet of its own ends it where more
follows. -/
theorem finished_of_cut {s : Scan} {taken bs : Octets} (h : (s.cut taken bs).terminated = true) :
    ∃ body, (s.cut taken bs).piece = taken.reverse ++ body ∧ bs = body ++ (s.cut taken bs).rest ∧
      s.Finishes body ∧ ((s.cut taken bs).rest ≠ [] → s.Ends body) := by
  induction bs generalizing s taken with
  | nil =>
    refine ⟨[], (List.append_nil _).symm, rfl, .inr ⟨s, rfl, h⟩, ?_⟩
    intro hrest
    exact absurd rfl hrest
  | cons b bs ih =>
    rw [cut] at h ⊢
    cases hstep : s.step b with
    | none =>
      have hends : s.Ends [b] := ⟨[], b, s, rfl, rfl, hstep⟩
      exact ⟨[b], by simp, rfl, .inl hends, fun _ => hends⟩
    | some t =>
      rw [hstep] at h
      obtain ⟨body, hpiece, hbs, hfinishes, hends⟩ := ih h
      have hfeed : s.feed [b] = some t := by rw [feed, hstep]; rfl
      refine ⟨b :: body, by simpa using hpiece, congrArg (b :: ·) hbs, ?_, fun hrest =>
        .append hfeed (hends hrest)⟩
      obtain hended | ⟨u, hu, hcomplete⟩ := hfinishes
      · exact .inl (.append hfeed hended)
      · exact .inr ⟨u, by rw [feed, hstep, Option.bind_some, hu], hcomplete⟩

/-- Blanks before a statement are no part of it. -/
theorem ends_of_blank_append {lead body : Octets} (blank : lead.all Octets.isBlank = true)
    (solid : body.Solid) (h : start.Ends (lead ++ body)) : start.Ends body := by
  obtain ⟨front, b, t, hsplit, hfeed, hend⟩ := h
  obtain ⟨c, rest, rfl, -⟩ := solid
  obtain ⟨init, last, hlast⟩ : ∃ init last, c :: rest = init ++ [last] :=
    ⟨_, _, (List.dropLast_append_getLast (List.cons_ne_nil c rest)).symm⟩
  rw [hlast, ← List.append_assoc] at hsplit
  obtain ⟨rfl, hb⟩ := List.append_inj' hsplit rfl
  obtain rfl := List.singleton_inj.mp hb
  rw [feed_append, feed_blank blank, Option.bind_some] at hfeed
  exact ⟨init, last, t, hlast, hfeed, hend⟩

theorem finishes_of_blank_append {lead body : Octets} (blank : lead.all Octets.isBlank = true)
    (solid : body.Solid) (h : start.Finishes (lead ++ body)) : start.Finishes body := by
  obtain hends | ⟨t, hfeed, hcomplete⟩ := h
  · exact .inl (ends_of_blank_append blank solid hends)
  · rw [feed_append, feed_blank blank, Option.bind_some] at hfeed
    exact .inr ⟨t, hfeed, hcomplete⟩

end Scan

namespace Segment

/-- The segment with a number and an offset that count from elsewhere. -/
def shift (index offset : Nat) (s : Segment) : Segment :=
  { s with index := index + s.index, offset := offset + s.offset }

theorem shift_stop (index offset : Nat) (s : Segment) :
    (s.shift index offset).stop = offset + s.stop :=
  Nat.add_assoc ..

theorem shift_ofPiece (n k index offset : Nat) (piece : Octets) (terminated : Bool) :
    (ofPiece piece index offset terminated).shift n k =
      ofPiece piece (n + index) (k + offset) terminated := by
  simp only [shift, ofPiece, Nat.add_assoc]

/-- Numbers and offsets count from where the input begins, and nothing else depends on that. -/
theorem fromOffset_shift (n k index offset : Nat) (bs : Octets) :
    fromOffset (n + index) (k + offset) bs = (fromOffset index offset bs).map (shift n k) := by
  induction hlen : bs.length using Nat.strongRecOn generalizing index offset bs with
  | ind _ ih =>
    cases bs with
    | nil => simp [fromOffset]
    | cons b bs =>
      have hlt := Scan.cut_rest_lt .start [] b bs
      rw [Scan.fromOffset_eq, Scan.fromOffset_eq, Scan.segmentsOfCut, Scan.segmentsOfCut]
      split
      · rfl
      · rw [List.map_cons, shift_ofPiece, Nat.add_assoc n, Nat.add_assoc k,
          ih _ (hlen ▸ hlt) _ _ _ rfl]

/-- Octets that finish a statement are that statement alone. -/
theorem all_of_finishes {body : Octets} (solid : body.Solid) (h : Scan.start.Finishes body) :
    all body = [⟨body, 0, 0, true⟩] := by
  have hcut : Scan.start.cut [] body = ⟨[] ++ body, true, []⟩ := by
    obtain ⟨front, b, t, rfl, hfeed, hend⟩ | ⟨t, hfeed, hcomplete⟩ := h
    · exact Scan.cut_of_end hfeed hend [] []
    · have hcut := Scan.cut_of_feed hfeed [] []
      simpa [Scan.cut, hcomplete] using hcut
  rw [all, Scan.fromOffset_eq, hcut, segmentsOfCut_append rfl solid]
  rfl

/-- Octets of which the last ends a statement are that statement, whatever follows them. -/
theorem all_of_ends {body : Octets} (solid : body.Solid) (h : Scan.start.Ends body)
    (more : Octets) :
    all (body ++ more) = ⟨body, 0, 0, true⟩ :: (all more).map (shift 1 body.length) := by
  have hpiece : ofPiece ([] ++ body) 0 0 true = ⟨body, 0, 0, true⟩ :=
    ofPiece_append rfl solid 0 0 true
  rw [List.nil_append] at hpiece
  rw [all, fromOffset_of_ends h, hpiece, Nat.zero_add, Nat.zero_add, all]
  exact congrArg (_ :: ·) (fromOffset_shift 1 body.length 0 0 more)

/-- The input around a whole statement: its octets finish it, and the statements behind it are those
of the octets behind it. -/
theorem split_fromOffset {index offset : Nat} {bs : Octets} {before after : List Segment}
    {s : Segment} (h : fromOffset index offset bs = before ++ s :: after)
    (hs : s.terminated = true) : ∃ lead rest, bs = lead ++ (s.octets ++ rest) ∧
      s.offset = offset + lead.length ∧ s.octets.Solid ∧ Scan.start.Finishes s.octets ∧
      (rest ≠ [] → Scan.start.Ends s.octets) ∧ after = fromOffset (s.index + 1) s.stop rest := by
  induction before generalizing index offset bs with
  | nil =>
    rw [Scan.fromOffset_eq, Scan.segmentsOfCut] at h
    split at h
    · cases h
    · next hsolid =>
      obtain ⟨rfl, rfl⟩ := List.cons.inj h
      obtain ⟨body, hpiece, hbs, hfinishes, hends⟩ := Scan.finished_of_cut hs
      rw [List.reverse_nil, List.nil_append] at hpiece
      rw [hpiece] at hsolid ⊢
      have hoctets := ofPiece_octets body index offset (Scan.start.cut [] bs).terminated
      have hblank : (body.takeWhile Octets.isBlank).all Octets.isBlank = true := List.all_takeWhile
      have hs := ofPiece_solid hsolid index offset (Scan.start.cut [] bs).terminated
      refine ⟨body.takeWhile Octets.isBlank, (Scan.start.cut [] bs).rest, ?_, rfl, hs, ?_, ?_, ?_⟩
      · rw [← List.append_assoc, hoctets, ← hbs]
      · rw [← hoctets] at hfinishes
        exact Scan.finishes_of_blank_append hblank hs hfinishes
      · intro hrest
        have hended := hends hrest
        rw [← hoctets] at hended
        exact Scan.ends_of_blank_append hblank hs hended
      · rw [ofPiece_stop]
        rfl
  | cons first before ih =>
    rw [Scan.fromOffset_eq, Scan.segmentsOfCut] at h
    split at h
    · cases h
    · obtain ⟨-, htail⟩ := List.cons.inj h
      obtain ⟨lead, rest, hbs, hoffset, hrest⟩ := ih htail
      refine ⟨(Scan.start.cut [] bs).piece ++ lead, rest, ?_, ?_, hrest⟩
      · have hcut := Scan.cut_append .start [] bs
        rw [List.append_assoc, ← hbs, hcut]
        rfl
      · rw [hoffset, List.length_append, Nat.add_assoc]

end Segment

namespace Reader

theorem readAll_eq (chunks : List Octets) :
    (readAll ⟨chunks, 0, 0⟩).1 = (Segment.all chunks.flatten).map fun s => (s, s.stop) :=
  (readAll_segments ⟨chunks, 0, 0⟩).1

/-- Where a statement ends depends neither on what is before it nor, once it has ended, on what is
behind it. A reader of its octets alone gives the statement, a reader of what is behind it gives the
statements that follow it, with numbers and offsets from there, and where the input went on behind
it, it could have gone on otherwise. -/
theorem readAll_alone {chunks : List Octets} {before after : List (Segment × Nat)} {s : Segment}
    {position : Nat} (h : (readAll ⟨chunks, 0, 0⟩).1 = before ++ (s, position) :: after)
    (hs : s.terminated = true) :
    (∀ alone : List Octets, alone.flatten = s.octets →
      (readAll ⟨alone, 0, 0⟩).1 = [({ s with index := 0, offset := 0 }, s.octets.length)]) ∧
    (∀ behind : List Octets, behind.flatten = chunks.flatten.drop position →
      after = (readAll ⟨behind, 0, 0⟩).1.map fun p =>
        (p.1.shift (s.index + 1) position, position + p.2)) ∧
    (position < chunks.flatten.length → Scan.start.Ends s.octets) ∧
    (Scan.start.Ends s.octets → ∀ other more : List Octets,
      other.flatten = s.octets ++ more.flatten →
        (readAll ⟨other, 0, 0⟩).1 = ({ s with index := 0, offset := 0 }, s.octets.length) ::
          (readAll ⟨more, 0, 0⟩).1.map fun p =>
            (p.1.shift 1 s.octets.length, s.octets.length + p.2)) := by
  rw [readAll_eq] at h
  obtain ⟨first, rest, hall, rfl, hlast⟩ := List.map_eq_append_iff.mp h
  obtain ⟨s, after, rfl, hpair, rfl⟩ := List.map_eq_cons_iff.mp hlast
  obtain ⟨rfl, rfl⟩ := Prod.mk.inj hpair
  obtain ⟨lead, rest, hbs, hoffset, hsolid, hfinishes, hends, rfl⟩ :=
    Segment.split_fromOffset hall hs
  rw [Nat.zero_add] at hoffset
  have hstop : s.stop = (lead ++ s.octets).length := by
    rw [Segment.stop, hoffset, List.length_append]
  have hself : (⟨s.octets, 0, 0, true⟩ : Segment) = { s with index := 0, offset := 0 } := by
    rw [hs]
  have hshift (n k : Nat) (segments : List Segment) :
      (segments.map (Segment.shift n k)).map (fun s => (s, s.stop)) =
        (segments.map fun s => (s, s.stop)).map fun p => (p.1.shift n k, k + p.2) := by
    simp only [List.map_map, Function.comp_def, Segment.shift_stop]
  refine ⟨fun alone halone => ?_, fun behind hbehind => ?_, fun hlt => hends ?_,
    fun hended other more hother => ?_⟩
  · rw [readAll_eq, halone, Segment.all_of_finishes hsolid hfinishes, hself]
    simp [Segment.stop]
  · rw [hbs, hstop, ← List.append_assoc, List.drop_left] at hbehind
    rw [readAll_eq, hbehind, ← hshift]
    exact congrArg _ (Segment.fromOffset_shift (s.index + 1) s.stop 0 0 rest)
  · rintro rfl
    rw [hbs, hstop, List.append_nil] at hlt
    exact Nat.lt_irrefl _ hlt
  · rw [readAll_eq, readAll_eq, hother, Segment.all_of_ends hsolid hended, hself, List.map_cons,
      hshift]
    simp [Segment.stop]

/-- Two statements around a comment, which is one of its own, and behind them a comment that the
input ends in. A string and a comment inside the first hold semicolons. -/
def surroundedComment : List Octets :=
  [.ofText " SELECT '; --' -- ;\n", .ofText ";\n-- a\n/* b */ --", .ofText " c"]

theorem readAll_alone_comment :
    ∃ before after s, (readAll ⟨surroundedComment, 0, 0⟩).1 = before ++ (s, 27) :: after ∧
      s.octets = .ofText "-- a\n" ∧
      (readAll ⟨[s.octets], 0, 0⟩).1 = [({ s with index := 0, offset := 0 }, 5)] ∧
      after = (readAll ⟨[.ofText "/* b */ -- c"], 0, 0⟩).1.map fun p =>
        (p.1.shift 2 27, 27 + p.2) := by
  have hcut : (readAll ⟨surroundedComment, 0, 0⟩).1 =
      [(⟨.ofText "SELECT '; --' -- ;\n;", 0, 1, true⟩, 21)] ++
        (⟨.ofText "-- a\n", 1, 22, true⟩, 27) ::
          [(⟨.ofText "/* b */", 2, 27, true⟩, 34), (⟨.ofText "-- c", 3, 35, true⟩, 39)] := by
    decide +kernel
  obtain ⟨alone, behind, -⟩ := readAll_alone hcut rfl
  exact ⟨_, _, _, hcut, rfl, alone _ rfl, behind _ (by decide +kernel)⟩

end Reader

end SqlDump
