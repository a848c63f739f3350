import Mathlib.Data.List.TakeWhile
import SqlDump.Proofs.Segment.Reading

/-!
# The input in segments

Segments and the blanks between them are the input, with no octet lost, repeated or moved.

Main statements: `Segment.fromOffset_tiles`, segments lie one behind another with blanks between
them; `Reader.readAll_partition`, what that says of the indices, offsets and positions that a
reader gives.
-/

namespace SqlDump

namespace Scan

/-- A statement that has not ended takes all there is. -/
theorem cut_rest_of_unterminated {s : Scan} {taken bs : Octets}
    (h : (s.cut taken bs).terminated = false) : (s.cut taken bs).rest = [] := by
  induction bs generalizing s taken with
  | nil => rfl
  | cons b bs ih =>
    cases hs : s.step b with
    | none => simp [cut, hs] at h
    | some t =>
      simp only [cut, hs] at h ⊢
      exact ih h

end Scan

namespace Segment

/-- Segments that make up octets, numbered from `index`, where the first octet stands at `offset`:
each behind blanks, and only blanks behind the last. One that is not terminated is the last. -/
inductive Tiles : Nat → Nat → Octets → List Segment → Prop
  | blanks {index offset : Nat} {bs : Octets} (blank : bs.all Octets.isBlank = true) :
      Tiles index offset bs []
  | segment {index offset : Nat} {lead rest : Octets} {s : Segment} {segments : List Segment}
      (blank : lead.all Octets.isBlank = true)
      (solid : ∃ b bs, s.octets = b :: bs ∧ Octets.isBlank b = false)
      (number : s.index = index) (place : s.offset = offset + lead.length)
      (unterminated : s.terminated = false → rest = [])
      (tail : Tiles (index + 1) s.stop rest segments) :
      Tiles index offset (lead ++ (s.octets ++ rest)) (s :: segments)

theorem ofPiece_solid {piece : Octets} (h : ¬piece.all Octets.isBlank = true)
    (index offset : Nat) (terminated : Bool) :
    ∃ b bs, (ofPiece piece index offset terminated).octets = b :: bs ∧ Octets.isBlank b = false := by
  have hhead := List.head?_dropWhile_not Octets.isBlank piece
  cases hd : piece.dropWhile Octets.isBlank with
  | nil =>
    refine absurd (List.all_eq_true.mpr fun b hb => ?_) h
    exact List.dropWhile_eq_nil_iff.mp hd b hb
  | cons b bs => exact ⟨b, bs, hd, by simpa [hd] using hhead⟩

theorem fromOffset_tiles (index offset : Nat) (bs : Octets) :
    Tiles index offset bs (fromOffset index offset bs) := by
  induction hn : bs.length using Nat.strongRecOn generalizing index offset bs with
  | ind n ih =>
    rcases hc : Scan.start.cut [] bs with ⟨piece, terminated, rest⟩
    have hcut := Scan.cut_append .start [] bs
    rw [Scan.fromOffset_eq, Scan.segmentsOfCut, hc]
    simp only [hc, List.reverse_nil, List.nil_append] at hcut
    by_cases hb : piece.all Octets.isBlank = true
    · have blank : Scan.start.cut [] bs = ⟨bs, false, []⟩ := Scan.cut_of_blank rfl (by rwa [hc])
      simp only [hc, Scan.Cut.mk.injEq] at blank
      rw [if_pos hb]
      exact .blanks (blank.1 ▸ hb)
    · have hsplit := ofPiece_octets piece index offset terminated
      have hlt : rest.length < n := by
        have hlen := congrArg List.length hcut
        have hne : piece ≠ [] := fun he => hb (by simp [he])
        have hpos := List.length_pos_iff.mpr hne
        rw [List.length_append] at hlen
        omega
      have htail := ih rest.length hlt (index + 1) (offset + piece.length) rest rfl
      rw [← ofPiece_stop piece index offset terminated] at htail
      rw [if_neg hb, ← hcut, ← hsplit, List.append_assoc, hsplit,
        ← ofPiece_stop piece index offset terminated]
      refine .segment List.all_takeWhile (ofPiece_solid hb index offset terminated) rfl rfl ?_ htail
      intro hterm
      have hrest : (Scan.start.cut [] bs).rest = [] :=
        Scan.cut_rest_of_unterminated (by rw [hc]; exact hterm)
      rwa [hc] at hrest

namespace Tiles

variable {index offset : Nat} {bs : Octets} {segments : List Segment}

/-- Where no octet is, no segment is. -/
theorem eq_nil (h : Tiles index offset [] segments) : segments = [] := by
  generalize hbs : ([] : Octets) = bs at h
  cases h with
  | blanks => rfl
  | segment blank solid =>
    obtain ⟨b, bs, hs, _⟩ := solid
    simp [hs] at hbs

theorem index_eq (h : Tiles index offset bs segments) {i : Nat} {s : Segment}
    (hi : segments[i]? = some s) : s.index = index + i := by
  induction h generalizing i with
  | blanks => simp at hi
  | segment _ _ number _ _ _ ih =>
    cases i with
    | zero =>
      obtain rfl : _ = s := by simpa using hi
      exact number
    | succ i =>
      rw [ih (by simpa using hi)]
      omega

theorem solid (h : Tiles index offset bs segments) {s : Segment} (hs : s ∈ segments) :
    ∃ b rest, s.octets = b :: rest ∧ Octets.isBlank b = false := by
  induction h with
  | blanks => simp at hs
  | segment _ solid _ _ _ _ ih =>
    rcases List.mem_cons.mp hs with rfl | hs
    · exact solid
    · exact ih hs

/-- Every segment lies within the octets. -/
theorem bounds (h : Tiles index offset bs segments) {s : Segment} (hs : s ∈ segments) :
    offset ≤ s.offset ∧ s.stop ≤ offset + bs.length := by
  induction h with
  | blanks => simp at hs
  | @segment _ _ _ _ t _ _ _ _ place _ _ ih =>
    simp only [Segment.stop] at ih ⊢
    rcases List.mem_cons.mp hs with rfl | hs
    · simp only [List.length_append]
      omega
    · have := ih hs
      simp only [List.length_append]
      omega

/-- A segment holds the octets from its offset on. -/
theorem octets_eq (h : Tiles index offset bs segments) {s : Segment} (hs : s ∈ segments)
    {input : Octets} (hinput : input.drop offset = bs) :
    (input.drop s.offset).take s.octets.length = s.octets := by
  induction h with
  | blanks => simp at hs
  | @segment _ offset lead rest t _ _ _ _ place _ _ ih =>
    have behind : input.drop t.offset = t.octets ++ rest := by
      rw [place, ← List.drop_drop, hinput, List.drop_left]
    rcases List.mem_cons.mp hs with rfl | hs
    · rw [behind, List.take_left]
    · refine ih hs ?_
      rw [Segment.stop, ← List.drop_drop, behind, List.drop_left]

theorem pairwise (h : Tiles index offset bs segments) :
    segments.Pairwise fun s t => s.offset < t.offset ∧ s.stop ≤ t.offset := by
  induction h with
  | blanks => exact .nil
  | @segment _ _ _ _ s _ _ solid _ _ _ tail ih =>
    refine .cons (fun t ht => ?_) ih
    obtain ⟨b, rest, hs, _⟩ := solid
    have hbounds := (tail.bounds ht).1
    refine ⟨?_, hbounds⟩
    simp only [Segment.stop, hs, List.length_cons] at hbounds
    omega

/-- What lies in no segment is blank. -/
theorem blank_of_outside (h : Tiles index offset bs segments) {i : Nat} {b : UInt8}
    (hb : bs[i]? = some b)
    (ho : ∀ s ∈ segments, offset + i < s.offset ∨ s.stop ≤ offset + i) :
    Octets.isBlank b = true := by
  induction h generalizing i with
  | blanks blank => exact List.all_eq_true.mp blank b (List.mem_of_getElem? hb)
  | @segment _ offset lead rest s segments blank _ _ place _ _ ih =>
    have hout := ho s List.mem_cons_self
    rw [place] at hout
    rcases hout with hout | hout
    · rw [List.getElem?_append_left (by omega)] at hb
      exact List.all_eq_true.mp blank b (List.mem_of_getElem? hb)
    · simp only [Segment.stop, place] at hout ih ho
      rw [List.getElem?_append_right (by omega), List.getElem?_append_right (by omega)] at hb
      refine ih hb fun t ht => ?_
      have := ho t (List.mem_cons_of_mem _ ht)
      have hi : offset + lead.length + s.octets.length + (i - lead.length - s.octets.length) =
          offset + i := by omega
      rwa [hi]

theorem last_of_unterminated (h : Tiles index offset bs segments) {i : Nat} {s : Segment}
    (hi : segments[i]? = some s) (hs : s.terminated = false) : i + 1 = segments.length := by
  induction h generalizing i with
  | blanks => simp at hi
  | segment _ _ _ _ unterminated tail ih =>
    cases i with
    | zero =>
      obtain rfl : _ = s := by simpa using hi
      rw [unterminated hs] at tail
      simp [tail.eq_nil]
    | succ i => simpa using ih (by simpa using hi)

end Tiles

/-- What segments, the positions behind them and the last position say of the input. -/
structure Partition (input : Octets) (segments : List Segment) (positions : List Nat)
    (last : Nat) : Prop where
  /-- Segments are numbered from zero. -/
  index : ∀ (i : Nat) (s : Segment), segments[i]? = some s → s.index = i
  /-- A segment begins with an octet that is no blank. -/
  solid : ∀ s ∈ segments, ∃ b rest, s.octets = b :: rest ∧ Octets.isBlank b = false
  /-- A segment holds the octets of the input from its offset on. -/
  octets : ∀ s ∈ segments, (input.drop s.offset).take s.octets.length = s.octets
  /-- Offsets increase, and segments do not overlap. -/
  apart : segments.Pairwise fun s t => s.offset < t.offset ∧ s.stop ≤ t.offset
  /-- An octet in no segment is blank. -/
  outside : ∀ (i : Nat) (b : UInt8), input[i]? = some b →
    (∀ s ∈ segments, i < s.offset ∨ s.stop ≤ i) → Octets.isBlank b = true
  /-- The position behind a segment is its end. -/
  positions : positions = segments.map stop
  /-- The last position is the end of the input. -/
  last : last = input.length
  /-- Only the last segment may be cut short by the end of the input. -/
  unterminated : ∀ (i : Nat) (s : Segment), segments[i]? = some s → s.terminated = false →
    i + 1 = segments.length

theorem Tiles.partition {input : Octets} {segments : List Segment}
    (h : Tiles 0 0 input segments) :
    Partition input segments (segments.map stop) input.length where
  index i s hi := by rw [h.index_eq hi, Nat.zero_add]
  solid s hs := h.solid hs
  octets s hs := h.octets_eq hs rfl
  apart := h.pairwise
  outside i b hb ho := h.blank_of_outside hb (by simpa only [Nat.zero_add] using ho)
  positions := rfl
  last := rfl
  unterminated i s hi hs := h.last_of_unterminated hi hs

end Segment

/-- The segments that a reader gives for an input in chunks partition it: indices, offsets, octets
and positions are right, and nothing but blanks lies between segments. -/
theorem Reader.readAll_partition (chunks : List Octets) :
    Segment.Partition chunks.flatten ((readAll ⟨chunks, 0, 0⟩).1.map Prod.fst)
      ((readAll ⟨chunks, 0, 0⟩).1.map Prod.snd) (readAll ⟨chunks, 0, 0⟩).2.position := by
  obtain ⟨hsegments, hposition⟩ := readAll_segments ⟨chunks, 0, 0⟩
  have tiles := (Segment.fromOffset_tiles 0 0 chunks.flatten).partition
  rw [hsegments, hposition]
  simpa [rest, Function.comp_def] using tiles

end SqlDump
