import SqlDump.Proofs.Segment.Registers
import SqlDump.Segment.Basic

/-!
# Reading in chunks

A reader takes the input in chunks and passes over runs of octets. Here it is compared with the
lexer that is fed every octet of the input on its own, and with the segments of the input held as a
whole.

Main statements: `Reader.readAll_eq_octetwise`, the segments and positions of a reader are those of
the octets one by one; `Reader.readAll_segments`, they are the segments of the whole input;
`Scan.cut_of_blank`, only blanks at the end of the input make no segment.
-/

namespace SqlDump

namespace Scan

/-- Whether something other than a blank was met. -/
def begun : Scan → Bool
  | .plain begun => begun
  | _ => true

theorem stepPlain_begun {begun : Bool} {b : UInt8} {t : Scan} (h : stepPlain begun b = some t) :
    t.begun = (begun || !Octets.isBlank b) := by
  unfold stepPlain at h
  by_cases hq : b = quoteMark ∨ b = doubleQuote
  · simp only [if_pos hq, Option.some.injEq] at h
    subst h
    rcases hq with rfl | rfl <;> simp [Scan.begun, Octets.isBlank, quoteMark, doubleQuote]
  by_cases ht : b = backtickMark
  · simp only [if_neg hq, if_pos ht, Option.some.injEq] at h
    subst h ht
    simp [Scan.begun, Octets.isBlank, backtickMark]
  by_cases hc : b = semicolon
  · simp [if_neg hq, if_neg ht, if_pos hc] at h
  by_cases hm : b = dash ∨ b = slash
  · simp only [if_neg hq, if_neg ht, if_neg hc, if_pos hm, Option.some.injEq] at h
    subst h
    rcases hm with rfl | rfl <;> simp [Scan.begun, Octets.isBlank, dash, slash]
  · simp only [if_neg hq, if_neg ht, if_neg hc, if_neg hm, Option.some.injEq] at h
    subst h
    rfl

theorem closeComment_begun {leading : Bool} {t : Scan} (h : closeComment leading = some t) :
    t.begun = true := by
  cases leading <;> simp [closeComment] at h
  subst h
  rfl

/-- A statement has begun once an octet that is no blank was met. -/
theorem step_begun {s t : Scan} {b : UInt8} (h : s.step b = some t) :
    t.begun = (s.begun || !Octets.isBlank b) := by
  cases s with
  | plain begun => exact stepPlain_begun h
  | opener first leading =>
    simp only [step] at h
    split at h
    · cases h; rfl
    · split at h
      · cases h; rfl
      · simpa [begun] using stepPlain_begun h
  | dashes leading =>
    simp only [step] at h
    split at h
    · cases h; rfl
    · split at h
      · simpa [begun] using closeComment_begun h
      · simpa [begun] using stepPlain_begun h
  | quoted quote escaped =>
    simp only [step] at h
    repeat' split at h
    all_goals cases h; rfl
  | backtick =>
    simp only [step] at h
    split at h <;> cases h <;> rfl
  | lineComment leading =>
    simp only [step] at h
    split at h
    · simpa [begun] using closeComment_begun h
    · cases h; rfl
  | blockComment leading fresh star =>
    simp only [step] at h
    split at h
    · simpa [begun] using closeComment_begun h
    · cases h; rfl

/-- A blank at the start of a statement does not end it. -/
theorem begun_of_step_none {s : Scan} {b : UInt8} (h : s.step b = none) :
    (s.begun || !Octets.isBlank b) = true := by
  cases s with
  | plain begun =>
    simp only [step, stepPlain] at h
    split at h
    · cases h
    split at h
    · cases h
    split at h
    · rename_i hc
      simp [hc, Octets.isBlank, semicolon]
    split at h <;> cases h
  | _ => rfl

/-- A piece of nothing but blanks stands at the end of the input and is no statement. -/
theorem cut_of_blank {s : Scan} {taken bs : Octets} (hs : s.begun = !taken.all Octets.isBlank)
    (h : (s.cut taken bs).piece.all Octets.isBlank = true) :
    s.cut taken bs = ⟨taken.reverse ++ bs, false, []⟩ := by
  induction bs generalizing s taken with
  | nil =>
    simp only [cut, List.all_reverse] at h
    cases s with
    | plain begun => simp [cut, isComplete]
    | _ => simp [begun, h] at hs
  | cons b bs ih =>
    cases hstep : s.step b with
    | none =>
      have hb := begun_of_step_none hstep
      simp only [cut, hstep, List.all_reverse, List.all_cons, Bool.and_eq_true] at h
      simp [hs, h.1, h.2] at hb
    | some t =>
      simp only [cut, hstep] at h ⊢
      have ht : t.begun = !(b :: taken).all Octets.isBlank := by
        rw [step_begun hstep, hs, List.all_cons, Bool.not_and, Bool.or_comm]
      simpa using ih ht h

/-- Segments from a cut on, the first of them the piece of the cut. -/
def segmentsOfCut (index offset : Nat) (c : Cut) : List Segment :=
  if c.piece.all Octets.isBlank then []
  else
    .ofPiece c.piece index offset c.terminated ::
      Segment.fromOffset (index + 1) (offset + c.piece.length) c.rest

theorem fromOffset_eq (index offset : Nat) (bs : Octets) :
    Segment.fromOffset index offset bs = segmentsOfCut index offset (start.cut [] bs) := by
  cases bs with
  | nil => simp [Segment.fromOffset, segmentsOfCut, cut]
  | cons b bs => rw [Segment.fromOffset, segmentsOfCut]

end Scan

namespace Lexer

/-- The segments of an input that is fed to the lexer octet by octet, each with the position behind
its last octet, and the position at the end. `taken` holds in reverse what the lexer met of the
statement that began at `start`. -/
def octetwise (l : Lexer) (taken : Octets) (index start : Nat) : Octets → List (Segment × Nat) × Nat
  | [] =>
    let position := start + taken.length
    if taken.all Octets.isBlank then ([], position)
    else ([(.ofPiece taken.reverse index start l.isComplete, position)], position)
  | b :: bs =>
    match l.step b with
    | some l => octetwise l (b :: taken) index start bs
    | none =>
      let position := start + (b :: taken).length
      let (segments, last) := octetwise {} [] (index + 1) position bs
      ((.ofPiece (b :: taken).reverse index start true, position) :: segments, last)

/-- Octet by octet the registers cut the input as the states do. -/
theorem octetwise_eq {l : Lexer} (hl : l.Valid) (taken : Octets) (index start : Nat) (bs : Octets)
    (hb : l.view.begun = !taken.all Octets.isBlank) :
    l.octetwise taken index start bs =
      ((Scan.segmentsOfCut index start (l.view.cut taken bs)).map fun s => (s, s.stop),
        start + taken.length + bs.length) := by
  -- The registers say that something was met exactly when what they took is not blank.
  induction bs generalizing l taken index start with
  | nil =>
    by_cases hblank : taken.all Octets.isBlank = true
    · simp [octetwise, Scan.segmentsOfCut, Scan.cut, hblank]
    · simp [octetwise, Scan.segmentsOfCut, Scan.cut, hblank, Segment.ofPiece_stop,
        Segment.fromOffset, isComplete_view]
  | cons b bs ih =>
    cases hm : l.step b with
    | some m =>
      obtain ⟨valid, ht⟩ := view_step_some hl hm
      have begun : m.view.begun = !(b :: taken).all Octets.isBlank := by
        rw [Scan.step_begun ht, hb, List.all_cons, Bool.not_and, Bool.or_comm]
      simp only [octetwise, hm, Scan.cut, ht, ih valid (b :: taken) index start begun,
        List.length_cons, Prod.mk.injEq, true_and]
      omega
    | none =>
      have ht := view_step_none hl hm
      have begun := Scan.begun_of_step_none ht
      rw [hb] at begun
      have solid : ¬(b :: taken).reverse.all Octets.isBlank = true := by
        intro hall
        simp only [List.all_reverse, List.all_cons, Bool.and_eq_true] at hall
        simp [hall.1, hall.2] at begun
      have rest := ih valid_start [] (index + 1) (start + (b :: taken).length) rfl
      rw [view_start, ← Scan.fromOffset_eq] at rest
      have stop : (Segment.ofPiece (b :: taken).reverse index start true).stop =
          start + (b :: taken).length := by
        rw [Segment.ofPiece_stop, List.length_reverse]
      simp only [octetwise, hm, rest, Scan.cut, ht, Scan.segmentsOfCut, if_neg solid,
        List.map_cons, stop, List.length_reverse]
      simp only [List.length_nil, List.length_cons, Nat.add_zero, Prod.mk.injEq, true_and]
      omega

theorem octetwise_start (index start : Nat) (bs : Octets) :
    octetwise {} [] index start bs =
      ((Segment.fromOffset index start bs).map fun s => (s, s.stop), start + bs.length) := by
  rw [octetwise_eq valid_start [] index start bs rfl, view_start, ← Scan.fromOffset_eq]
  rfl

/-- A run of octets to pass over is taken whole. -/
theorem cut_passes {l : Lexer} (hl : l.Valid) (taken : Octets) {run : Octets}
    (h : ∀ b ∈ run, l.passes b = true) (bs : Octets) :
    l.view.cut taken (run ++ bs) = l.view.cut (run.reverse ++ taken) bs := by
  induction run generalizing taken with
  | nil => rfl
  | cons b run ih =>
    have hstep := view_step_of_passes hl (h b List.mem_cons_self)
    have hrest := ih (b :: taken) fun d hd => h d (List.mem_cons_of_mem _ hd)
    simpa [Scan.cut, hstep] using hrest

theorem cut_dropWhile_passes {l : Lexer} (hl : l.Valid) (taken chunk more : Octets) :
    l.view.cut taken (chunk ++ more) =
      l.view.cut ((chunk.takeWhile l.passes).reverse ++ taken)
        (chunk.dropWhile l.passes ++ more) := by
  have run : ∀ b ∈ chunk.takeWhile l.passes, l.passes b = true :=
    List.all_eq_true.mp List.all_takeWhile
  rw [← cut_passes hl taken run, ← List.append_assoc, List.takeWhile_append_dropWhile]

end Lexer

namespace Reader

open Lexer

/-- The octets not yet taken. -/
def rest (r : Reader) : Octets := r.chunks.flatten

/-- What one chunk does to a statement is what its octets do to the state of the lexer, whatever
comes behind the chunk. -/
theorem scanChunk_cut {l : Lexer} (hl : l.Valid) (taken chunk more : Octets) :
    match scanChunk l taken chunk with
    | .ended piece rest => l.view.cut taken (chunk ++ more) = ⟨piece, true, rest ++ more⟩
    | .pending m taken' =>
      m.Valid ∧ l.view.cut taken (chunk ++ more) = m.view.cut taken' more := by
  -- Each round of the loop passes over a run, which the cut takes whole, and then steps once.
  fun_induction scanChunk l taken chunk with
  | case1 l taken chunk taken' hd =>
    exact ⟨hl, by rw [cut_dropWhile_passes hl, hd, List.nil_append]⟩
  | case2 l taken chunk taken' b rest hd hstep =>
    rw [cut_dropWhile_passes hl, hd, List.cons_append, Scan.cut, view_step_none hl hstep]
  | case3 l taken chunk taken' b rest hd m hstep ih =>
    obtain ⟨valid, ht⟩ := view_step_some hl hstep
    rw [cut_dropWhile_passes hl, hd, List.cons_append, Scan.cut, ht]
    exact ih valid

/-- So do all chunks. -/
theorem scanChunks_cut {l : Lexer} (hl : l.Valid) (taken : Octets) (chunks : List Octets) :
    l.view.cut taken chunks.flatten =
      match scanChunks l taken chunks with
      | .ended piece rest => ⟨piece, true, rest.flatten⟩
      | .exhausted piece m => ⟨piece, m.isComplete, []⟩ := by
  induction chunks generalizing l taken with
  | nil => simp [scanChunks, Scan.cut, isComplete_view]
  | cons chunk chunks ih =>
    have hchunk := scanChunk_cut hl taken chunk chunks.flatten
    rw [List.flatten_cons, scanChunks]
    cases hs : scanChunk l taken chunk with
    | ended piece rest => simpa [hs] using hchunk
    | pending m taken' =>
      rw [hs] at hchunk
      obtain ⟨valid, hcut⟩ := hchunk
      rw [hcut, ih valid taken']

/-- The next segment is that of the next cut of the octets left. -/
theorem next_segment {r : Reader} {piece : Octets} {terminated : Bool} {more : Octets}
    (hc : Scan.start.cut [] r.rest = ⟨piece, terminated, more⟩)
    (hb : ¬piece.all Octets.isBlank = true) :
    ∃ r', r.next = (some (.ofPiece piece r.index r.position terminated), r') ∧ r'.rest = more ∧
      r'.position = r.position + piece.length ∧ r'.index = r.index + 1 := by
  have hscan := scanChunks_cut valid_start [] r.chunks
  rw [view_start] at hscan
  rw [rest] at hc
  cases hs : scanChunks {} [] r.chunks with
  | ended p chunks =>
    simp only [hs, hc, Scan.Cut.mk.injEq] at hscan
    obtain ⟨rfl, rfl, rfl⟩ := hscan
    exact ⟨⟨chunks, _, _⟩, by rw [next, hs], rfl, rfl, rfl⟩
  | exhausted p m =>
    simp only [hs, hc, Scan.Cut.mk.injEq] at hscan
    obtain ⟨rfl, rfl, rfl⟩ := hscan
    exact ⟨⟨[], _, _⟩, by simp only [next, hs, if_neg hb], rfl, rfl, rfl⟩

/-- There is no next segment where only blanks are left. They are consumed. -/
theorem next_blank {r : Reader} {piece : Octets} {terminated : Bool} {more : Octets}
    (hc : Scan.start.cut [] r.rest = ⟨piece, terminated, more⟩)
    (hb : piece.all Octets.isBlank = true) :
    ∃ r', r.next = (none, r') ∧ r'.rest = [] ∧ r'.position = r.position + r.rest.length ∧
      r'.index = r.index := by
  have blank : Scan.start.cut [] r.rest = ⟨r.rest, false, []⟩ :=
    Scan.cut_of_blank rfl (by rwa [hc])
  have hscan := scanChunks_cut valid_start [] r.chunks
  rw [view_start, ← rest, blank] at hscan
  cases hs : scanChunks {} [] r.chunks with
  | ended p chunks => simp [hs] at hscan
  | exhausted p m =>
    simp only [hs, Scan.Cut.mk.injEq, and_true] at hscan
    rw [hc, Scan.Cut.mk.injEq] at blank
    have hp : p.all Octets.isBlank = true := by
      rw [← hscan.1]
      simpa [blank.1] using hb
    exact ⟨⟨[], r.position + p.length, r.index⟩, by simp only [next, hs, if_pos hp], rfl,
      by rw [hscan.1], rfl⟩

/-- A segment is taken off the octets left. -/
theorem next_lt {r r' : Reader} {s : Segment} (h : r.next = (some s, r')) :
    r'.rest.length < r.rest.length := by
  rcases hc : Scan.start.cut [] r.rest with ⟨piece, terminated, more⟩
  by_cases hb : piece.all Octets.isBlank = true
  · obtain ⟨q, hq, _⟩ := next_blank hc hb
    simp [hq] at h
  · obtain ⟨q, hq, hrest, _⟩ := next_segment hc hb
    obtain rfl : q = r' := by simpa [hq] using congrArg Prod.snd h
    cases hr : r.rest with
    | nil =>
      have empty : piece = [] := by simpa [hr, Scan.cut] using (congrArg Scan.Cut.piece hc).symm
      simp [empty] at hb
    | cons b bs =>
      have hlt := Scan.cut_rest_lt .start [] b bs
      rw [← hr, hc] at hlt
      rwa [hrest, ← hr]

/-- All segments, each with the position of the reader behind it, and the reader at the end. -/
def readAll (r : Reader) : List (Segment × Nat) × Reader :=
  match _h : r.next with
  | (none, r) => ([], r)
  | (some s, r) => ((s, r.position) :: r.readAll.1, r.readAll.2)
termination_by r.rest.length
decreasing_by all_goals exact next_lt _h

/-- A reader cuts what is left as it would be cut if it were held as a whole, and is behind the
last octet in the end. -/
theorem readAll_segments (r : Reader) :
    r.readAll.1 = (Segment.fromOffset r.index r.position r.rest).map (fun s => (s, s.stop)) ∧
      r.readAll.2.position = r.position + r.rest.length := by
  induction hn : r.rest.length using Nat.strongRecOn generalizing r with
  | ind n ih =>
    rcases hc : Scan.start.cut [] r.rest with ⟨piece, terminated, more⟩
    rw [Scan.fromOffset_eq, hc]
    by_cases hb : piece.all Octets.isBlank = true
    · obtain ⟨q, hq, _, hposition, _⟩ := next_blank hc hb
      have hall : r.readAll = ([], q) := by rw [readAll]; split <;> simp_all
      simp [hall, Scan.segmentsOfCut, hb, hposition, hn]
    · obtain ⟨q, hq, hrest, hposition, hindex⟩ := next_segment hc hb
      have hall : r.readAll =
          ((.ofPiece piece r.index r.position terminated, q.position) :: q.readAll.1, q.readAll.2) := by
        rw [readAll]; split <;> simp_all
      have hlt := next_lt hq
      obtain ⟨hq₁, hq₂⟩ := ih q.rest.length (hn ▸ hlt) q rfl
      have hsplit := congrArg List.length (Scan.cut_append .start [] r.rest)
      rw [hc, List.length_append] at hsplit
      simp only [List.reverse_nil, List.nil_append] at hsplit
      refine ⟨?_, ?_⟩
      · simp only [hall, Scan.segmentsOfCut, if_neg hb, List.map_cons, Segment.ofPiece_stop]
        rw [hq₁, hindex, hposition, hrest]
      · rw [hall, hq₂, hposition, hrest]
        omega

theorem flatten_chunksOf (size : Nat) (bs : Octets) : (chunksOf (size + 1) bs).flatten = bs := by
  induction hn : bs.length using Nat.strongRecOn generalizing bs with
  | ind n ih =>
    cases bs with
    | nil => simp [chunksOf]
    | cons b bs =>
      have hlt : ((b :: bs).drop (size + 1)).length < n := by
        simp only [List.length_drop, List.length_cons] at hn ⊢
        omega
      rw [chunksOf, if_neg (Nat.succ_ne_zero size), List.flatten_cons, ih _ hlt _ rfl,
        List.take_append_drop]

/-- The segments of a reader, and the position behind each and at the end, are those of the lexer
that is fed the octets one by one: whatever chunks the input comes in, and so for every size of
chunks. -/
theorem readAll_eq_octetwise :
    (∀ chunks : List Octets,
      ((readAll ⟨chunks, 0, 0⟩).1, (readAll ⟨chunks, 0, 0⟩).2.position) =
        Lexer.octetwise {} [] 0 0 chunks.flatten) ∧
    ∀ (size : Nat) (bs : Octets),
      ((ofOctets (size + 1) bs).readAll.1, (ofOctets (size + 1) bs).readAll.2.position) =
        Lexer.octetwise {} [] 0 0 bs := by
  have cut (chunks : List Octets) :
      ((readAll ⟨chunks, 0, 0⟩).1, (readAll ⟨chunks, 0, 0⟩).2.position) =
        Lexer.octetwise {} [] 0 0 chunks.flatten := by
    obtain ⟨hsegments, hposition⟩ := readAll_segments ⟨chunks, 0, 0⟩
    rw [hsegments, hposition, Lexer.octetwise_start]
    rfl
  refine ⟨cut, fun size bs => ?_⟩
  have chunked := cut (chunksOf (size + 1) bs)
  rwa [flatten_chunksOf] at chunked

end Reader

end SqlDump
