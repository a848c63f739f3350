import SqlDump.Proofs.Dump.Batch
import SqlDump.Proofs.Segment.Reading

/-!
# A dump of rows

Statements for rows, one to a line, make a document of just these statements, each where it was
written.

Main statement: `Document.ofOctets_dump`, a dump of rows is read back.
-/

namespace SqlDump

namespace Batch

/-- Statements one to a line. -/
def dump (batches : List Batch) : Text := batches.flatMap fun b => b.text ++ ['\n']

/-- The statements of a document for rows, each at its position and where it was written. -/
def placed (batches : List Batch) : List PlacedStatement :=
  batches.mapIdx fun k b => {
    index := k
    offset := (Octets.ofText (dump (batches.take k))).length
    statement := .insert b.insert
    notes := [] }

theorem ofText_dump_cons (b : Batch) (batches : List Batch) :
    Octets.ofText (dump (b :: batches)) =
      Octets.ofText b.text ++ ([Scan.lineFeed] ++ Octets.ofText (dump batches)) := by
  rw [dump, List.flatMap_cons, List.append_assoc, Octets.ofText_append, Octets.ofText_append]
  rfl

/-- No statement begins with a blank. -/
theorem ofText_text (b : Batch) : ∃ rest, Octets.ofText b.text = 0x49 :: rest := by
  rw [text_eq, Octets.ofText_append]
  exact ⟨_, rfl⟩

theorem feed_lead {lead : Octets} (h : lead = [] ∨ lead = [Scan.lineFeed]) :
    Scan.start.feed lead = some .start ∧ lead.all Octets.isBlank = true := by
  obtain rfl | rfl := h <;> exact ⟨rfl, rfl⟩

/-- Behind the line feed of the statement before it, a statement is the next segment. -/
theorem ofPiece_text (b : Batch) {lead : Octets} (h : lead.all Octets.isBlank = true)
    (index offset : Nat) (terminated : Bool) :
    Segment.ofPiece (lead ++ Octets.ofText b.text) index offset terminated =
      ⟨Octets.ofText b.text, index, offset + lead.length, terminated⟩ := by
  obtain ⟨rest, hrest⟩ := ofText_text b
  have hlead := List.all_eq_true.mp h
  have hsolid : Octets.isBlank 0x49 = false := rfl
  unfold Segment.ofPiece
  rw [List.dropWhile_append_of_pos hlead, List.takeWhile_append_of_pos hlead, hrest,
    List.dropWhile_cons_of_neg (by simp [hsolid]), List.takeWhile_cons_of_neg (by simp [hsolid]),
    List.append_nil]

/-- The segments of a dump are its statements. `lead` is what the statement before left. -/
theorem fromOffset_dump {batches : List Batch} (h : ∀ b ∈ batches, b.IsWritable) {lead : Octets}
    (hlead : lead = [] ∨ lead = [Scan.lineFeed]) (index offset : Nat) :
    Segment.fromOffset index offset (lead ++ Octets.ofText (dump batches)) =
      batches.mapIdx fun k b => ⟨Octets.ofText b.text, index + k,
        offset + lead.length + (Octets.ofText (dump (batches.take k))).length, true⟩ := by
  induction batches generalizing lead index offset with
  | nil =>
    rw [Scan.fromOffset_eq]
    obtain rfl | rfl := hlead <;> rfl
  | cons b batches ih =>
    obtain ⟨hfeed, hblank⟩ := feed_lead hlead
    obtain ⟨rest, hrest⟩ := ofText_text b
    have hnext := ih (fun c hc => h c (List.mem_cons_of_mem b hc)) (.inr rfl) (index + 1)
      (offset + (lead ++ Octets.ofText b.text).length)
    have hpiece : (lead ++ Octets.ofText b.text).all Octets.isBlank = false := by
      rw [List.all_append, hrest, List.all_cons]
      exact Bool.and_false _
    rw [ofText_dump_cons, Scan.fromOffset_eq, cut_text (h b List.mem_cons_self) hfeed,
      Scan.segmentsOfCut]
    simp only [hpiece, Bool.false_eq_true, if_false]
    rw [ofPiece_text b hblank, hnext, List.mapIdx_cons]
    refine List.cons_eq_cons.mpr ⟨rfl, ?_⟩
    refine congrArg (List.mapIdx · batches) ?_
    funext k c
    rw [List.take_succ_cons, ofText_dump_cons]
    simp only [List.length_append, Segment.mk.injEq, true_and, and_true]
    omega

/-- The segment of a statement for rows is read as these rows. -/
theorem ofSegment_text {b : Batch} (h : b.IsWritable) (index offset : Nat) :
    PlacedStatement.ofSegment ⟨Octets.ofText b.text, index, offset, true⟩ =
      { index, offset, statement := .insert b.insert, notes := [] } := by
  unfold PlacedStatement.ofSegment Segment.decode PlacedStatement.ofText
  rw [Encoding.decode_ofText]
  simp only [parse_text h]
  rfl

end Batch

/-- A dump of rows is read back: a statement for each batch, with its table, columns and rows, at
its position and where it was written, and nothing to note. -/
theorem Document.ofOctets_dump {batches : List Batch} (h : ∀ b ∈ batches, b.IsWritable) :
    Document.ofOctets (.ofText (Batch.dump batches)) = ⟨Batch.placed batches, none⟩ := by
  have hsegments : Segment.all (.ofText (Batch.dump batches)) = batches.mapIdx fun k b =>
      ⟨Octets.ofText b.text, k, (Octets.ofText (Batch.dump (batches.take k))).length, true⟩ := by
    have hall := Batch.fromOffset_dump h (.inl rfl) 0 0
    simpa [Segment.all] using hall
  unfold Document.ofOctets Batch.placed
  simp only [hsegments, Document.mk.injEq]
  constructor
  · rw [List.mapIdx_eq_zipIdx_map, List.mapIdx_eq_zipIdx_map, List.map_map]
    refine List.map_congr_left fun ⟨b, k⟩ hm => ?_
    exact Batch.ofSegment_text (h b (List.fst_mem_of_mem_zipIdx hm)) _ _
  · refine List.findSome?_eq_none_iff.mpr fun s hs => ?_
    obtain ⟨k, hk, rfl⟩ := List.mem_mapIdx.mp hs
    unfold Document.encodingNote? Segment.decode
    rw [Encoding.decode_ofText]
    rfl

theorem isBare_call : IsBare "f(1, 'x')" := by
  have hout : outsideOf .outside "f(1, 'x')" = ['f', '(', '1', ',', ' ', '\x27', '\x27', ')'] := by
    decide
  refine ⟨by decide, by decide, by decide, by decide, ?_, ?_⟩
  · rw [hout]
    exact ⟨'f', by decide, by decide, by unfold IsValueQuote; decide⟩
  · rw [hout]
    exact ⟨by decide, by decide, by decide, by decide⟩

/-- Two tables, with a quote, a semicolon and a call in the values. -/
theorem Document.ofOctets_dump_two :
    Document.ofOctets (.ofText (Batch.dump
      [⟨"a\x60b", some ["c", "d"], [[.text "it's;\n", .null]]⟩,
        ⟨"t", none, [[.bare "f(1, 'x')"]]⟩])) =
      ⟨Batch.placed [⟨"a\x60b", some ["c", "d"], [[.text "it's;\n", .null]]⟩,
        ⟨"t", none, [[.bare "f(1, 'x')"]]⟩], none⟩ := by
  refine Document.ofOctets_dump fun b hb => ?_
  rcases List.mem_cons.mp hb with rfl | hb
  · refine ⟨by simp, by simp, ?_⟩
    intro row hrow token htoken
    simp_all
  · obtain rfl := List.mem_singleton.mp hb
    refine ⟨by simp, by simp, ?_⟩
    intro row hrow token htoken
    obtain rfl := List.mem_singleton.mp hrow
    obtain rfl : token = "f(1, 'x')" := by simpa using htoken
    exact isBare_call

end SqlDump
