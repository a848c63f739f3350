import SqlDump.Proofs.Diagnostic
import SqlDump.Proofs.Dump.Suffix
import SqlDump.Proofs.Schema.Definition
import SqlDump.Proofs.Segment.Partition
import SqlDump.Proofs.Text.Decoding
import SqlDump.Proofs.Value.Faults

/-!
# Where a dump is at fault

Rows that are cut short are noted at the row or the quoted text that was abandoned. The place is
counted in the text of the statement, as UTF-8, and added to where the statement begins. That is
the place in the dump where the statement is UTF-8. A statement that is not is read as Latin-1,
and each octet from 0x80 on before the fault counts twice.

Main statements: `Statement.note_parse`, what the notes on a statement are;
`PlacedStatement.fault_ofSegment`, how far a noted place lies behind that of the fault;
`Document.offset_fault_iff`, when they are the same.
-/

namespace SqlDump

open Text

namespace Encoding

/-- How many octets longer a text is in UTF-8 than the octets that it was read from. -/
def excess : Encoding → Octets → Nat
  | .utf8, _ => 0
  | .latin1, bs => bs.countP (0x80 ≤ ·)

theorem excess_eq_zero {e : Encoding} {bs : Octets} :
    e.excess bs = 0 ↔ e = .utf8 ∨ ∀ b ∈ bs, b < 0x80 := by
  cases e with
  | utf8 => simp [excess]
  | latin1 => simp [excess, List.countP_eq_zero]

/-- A character of one octet takes two in UTF-8 if it is beyond ASCII. -/
theorem utf8Size_latin1 {c : Char} (h : c.toNat < 0x100) :
    c.utf8Size = 1 + if 0x80 ≤ c.toNat then 1 else 0 := by
  have hval : c.val.toNat = c.toNat := rfl
  unfold Char.utf8Size
  simp only [UInt32.le_iff_toNat_le, hval]
  have hone : (UInt32.toNat 0x7f) = 0x7f := rfl
  have htwo : (UInt32.toNat 0x7ff) = 0x7ff := rfl
  grind

theorem size_latin1 {t : Text} (h : ∀ c ∈ t, c.toNat < 0x100) :
    size t = t.length + (Octets.toLatin1 t).countP (0x80 ≤ ·) := by
  induction t with
  | nil => rfl
  | cons c t ih =>
    have hc := h c List.mem_cons_self
    have hoctet : 0x80 ≤ UInt8.ofNat c.toNat ↔ 0x80 ≤ c.toNat := by
      rw [UInt8.le_iff_toNat_le, Octets.toNat_ofNat_of_lt hc]
      rfl
    have htail : Octets.toLatin1 (c :: t) = UInt8.ofNat c.toNat :: Octets.toLatin1 t := rfl
    rw [size_cons, utf8Size_latin1 hc, ih fun d hd => h d (List.mem_cons_of_mem c hd), htail,
      List.countP_cons, List.length_cons]
    simp only [decide_eq_true_eq, hoctet]
    omega

/-- The size of a text, by the octets that it was read from. -/
theorem Reads.size_eq {e : Encoding} {bs : Octets} {t : Text} (h : e.Reads bs t) :
    size t = bs.length + e.excess bs := by
  cases e with
  | utf8 =>
    have hlength := congrArg List.length h.octets
    rw [Encoding.octets, Octets.length_ofText] at hlength
    exact hlength
  | latin1 =>
    have hlength := congrArg List.length h.octets
    rw [Encoding.octets, Octets.toLatin1, List.length_map] at hlength
    rw [size_latin1 (h.narrow rfl), hlength]
    exact congrArg (bs.length + List.countP _ ·) h.octets

end Encoding

/-! ### The notes on a statement -/

/-- The notes on a definition are about what was kept verbatim or left out. -/
theorem Table.note_ofItems {name options : Text} {items : List TableItem} {note : Diagnostic}
    (h : note ∈ (ofItems name items options).2) :
    note.kind = .unsupportedTypeToken ∨ note.kind = .unsupportedClause := by
  have hnotes : (ofItems name items options).2 = items.filterMap (itemNote? name) ++
      (TableOption.parse options).1.filterMap (optionNote? name) ++
      (leftoverNote? name (TableOption.parse options).2).toList := rfl
  rw [hnotes, List.append_assoc] at h
  rcases List.mem_append.mp h with h | h
  · obtain ⟨item, -, hitem⟩ := List.mem_filterMap.mp h
    unfold itemNote? at hitem
    split at hitem <;> cases hitem
    exact .inl rfl
  rcases List.mem_append.mp h with h | h
  · obtain ⟨option, -, hoption⟩ := List.mem_filterMap.mp h
    unfold optionNote? at hoption
    split at hoption <;> cases hoption
    exact .inr rfl
  · have hleft := Option.mem_toList.mp h
    unfold leftoverNote? at hleft
    split at hleft <;> cases hleft
    exact .inr rfl

namespace Statement

/-- A note on a statement is about its end, about something of a definition, or about rows that
were cut short. -/
theorem note_parse {t : Text} {terminated : Bool} {note : Diagnostic}
    (h : note ∈ (parse t terminated).2) :
    note.kind = .unterminatedStatement ∨ note.kind = .unsupportedTypeToken ∨
      note.kind = .unsupportedClause ∨
      ∃ i f, Insert.parse? t = some (i, some f) ∧ note = faultNote i f := by
  cases terminated with
  | false =>
    rw [parse_unterminated] at h
    obtain rfl := List.mem_singleton.mp h
    exact .inl rfl
  | true =>
    obtain ⟨⟨kind, table⟩, hclass⟩ : ∃ p, classify t = p := ⟨_, rfl⟩
    simp only [parse, hclass, Bool.not_true, Bool.false_eq_true, if_false] at h
    cases kind with
    | createTable =>
      dsimp only at h
      split at h
      · next table notes hparse =>
        obtain ⟨name, body, options, hitems⟩ := Table.exists_ofItems hparse
        obtain ⟨-, rfl⟩ := Prod.mk.inj hitems
        rcases Table.note_ofItems h with htype | hclause
        · exact .inr (.inl htype)
        · exact .inr (.inr (.inl hclause))
      · cases h
    | insert =>
      dsimp only at h
      split at h
      · next i fault hparse =>
        obtain ⟨f, rfl, rfl⟩ := Option.map_eq_some_iff.mp (Option.mem_toList.mp h)
        exact .inr (.inr (.inr ⟨i, f, hparse, rfl⟩))
      · cases h
    | _ => cases h

theorem message_faultNote (i : Insert) (f : RowFault) :
    f.kind.message <+: (faultNote i f).message := by
  simp only [faultNote, List.append_assoc]
  exact List.prefix_append _ _

end Statement

/-! ### The place of a fault -/

namespace RowFaultKind.OpensAt

variable {kind : RowFaultKind} {before behind : Text} {mark : Char}

theorem mark_eq (h : kind.OpensAt before mark behind) :
    mark = '(' ∨ mark = '\x27' ∨ mark = '"' := by
  cases kind with
  | unterminatedRow => exact .inl h.1
  | unterminatedQuote => exact .inr h.1.mark

theorem ascii (h : kind.OpensAt before mark behind) : mark.toNat < 0x80 := by
  obtain rfl | rfl | rfl := h.mark_eq <;> decide

end RowFaultKind.OpensAt

/-- The rows of a statement are cut short in a text where it opens what was abandoned. -/
theorem Insert.fault_placed {t : Text} {i : Insert} {f : RowFault}
    (h : parse? t = some (i, some f)) : ∃ lead before mark behind table columns,
      t = lead ++ (before ++ mark :: behind) ∧
      opening? t = some (table, columns, before ++ mark :: behind) ∧
      f.kind.OpensAt before mark behind ∧ f.offset = size (lead ++ before) := by
  rw [parse?_eq] at h
  obtain ⟨⟨table, columns, values⟩, hopening, h⟩ := Option.map_eq_some_iff.mp h
  obtain ⟨fault, hfault, rfl⟩ := Option.map_eq_some_iff.mp (Prod.mk.inj h).2
  obtain ⟨before, mark, behind, rfl, hoffset, hopens⟩ := ParsedRows.fault_placed hfault
  obtain ⟨lead, rfl⟩ := opening?_suffix hopening
  refine ⟨lead, before, mark, behind, table, columns, rfl, hopening, hopens, ?_⟩
  dsimp only
  rw [hoffset, size_append lead, size_append lead before, Nat.add_sub_cancel]

/-- At the place in the octets of a segment, the character opens what its rows abandon. -/
def Segment.Abandons (s : Segment) (kind : RowFaultKind) (mark : Char) (place : Nat) : Prop :=
  ∃ lead before behind table columns,
    s.decode.1 = lead ++ (before ++ mark :: behind) ∧
    Insert.opening? s.decode.1 = some (table, columns, before ++ mark :: behind) ∧
    kind.OpensAt before mark behind ∧
    s.octets = s.decode.2.octets (lead ++ before) ++
      UInt8.ofNat mark.toNat :: s.decode.2.octets behind ∧
    place = (s.decode.2.octets (lead ++ before)).length

/-- What is abandoned was opened by the octet of the dump at its place. -/
theorem Segment.Abandons.octet {s : Segment} {kind : RowFaultKind} {mark : Char} {place : Nat}
    (h : s.Abandons kind mark place) {bs : Octets} (hs : s ∈ Segment.all bs) :
    bs[s.offset + place]? = some (UInt8.ofNat mark.toNat) := by
  obtain ⟨lead, before, behind, -, -, -, -, -, hoctets, rfl⟩ := h
  have hplaced := (Segment.fromOffset_tiles 0 0 bs).octets_eq hs (List.drop_zero)
  have hmark : s.octets[(s.decode.2.octets (lead ++ before)).length]? =
      some (UInt8.ofNat mark.toNat) := by
    rw [hoctets]
    simp
  rw [← hplaced, List.getElem?_take, List.getElem?_drop] at hmark
  split at hmark
  · exact hmark
  · cases hmark

namespace PlacedStatement

/-- A fault is noted with what was abandoned, as far behind its place in the dump as the text
before it is longer in UTF-8 than in the dump. -/
theorem fault_ofSegment {s : Segment} {note : Diagnostic} (h : note ∈ (ofSegment s).notes)
    (hkind : note.kind = .malformedLiteral) :
    ∃ kind mark place, s.Abandons kind mark place ∧ kind.message <+: note.message ∧
      note.statement = some s.index ∧
      note.offset = some (s.offset + place + s.decode.2.excess (s.octets.take place)) := by
  obtain ⟨parsed, hparsed, rfl⟩ := List.mem_map.mp h
  have hparsed : parsed ∈ (Statement.parse s.decode.1 s.terminated).2 := hparsed
  have hkind : parsed.kind = .malformedLiteral := hkind
  obtain hend | htype | hclause | ⟨i, f, hparse, rfl⟩ := Statement.note_parse hparsed
  · rw [hend] at hkind
    cases hkind
  · rw [htype] at hkind
    cases hkind
  · rw [hclause] at hkind
    cases hkind
  obtain ⟨lead, before, mark, behind, table, columns, htext, hopening, hopens, hoffset⟩ :=
    Insert.fault_placed hparse
  have hreads := Encoding.decode_reads s.octets
  have hoctets : s.octets = s.decode.2.octets (lead ++ before) ++
      UInt8.ofNat mark.toNat :: s.decode.2.octets behind := by
    have hall : s.decode.2.octets s.decode.1 = s.octets := hreads.octets
    rw [← hall, htext, ← List.append_assoc, Encoding.octets_append, Encoding.octets_cons _ mark,
      Encoding.octets_ascii _ hopens.ascii, List.singleton_append]
  refine ⟨f.kind, mark, _, ⟨lead, before, behind, table, columns, htext, hopening, hopens, hoctets,
    rfl⟩, ?_, rfl, ?_⟩
  · exact Statement.message_faultNote i f
  · have hbefore : s.decode.2.Reads (s.decode.2.octets (lead ++ before)) (lead ++ before) := by
      refine ⟨rfl, fun he c hc => hreads.narrow he c ?_⟩
      have hmem : c ∈ s.decode.1 := by
        rw [htext, ← List.append_assoc]
        exact List.mem_append_left _ hc
      exact hmem
    have htake : s.octets.take (s.decode.2.octets (lead ++ before)).length =
        s.decode.2.octets (lead ++ before) := by
      rw [hoctets, List.take_left]
    rw [htake, Nat.add_assoc, ← hbefore.size_eq, ← hoffset]
    rfl

end PlacedStatement

/-- A fault noted in a document is that of a statement, and the octet of the dump at its place is
the character that opens what was abandoned. The noted place is this one exactly when the statement
is UTF-8 or only ASCII stands before it in the statement. -/
theorem Document.offset_fault_iff {bs : Octets} {note : Diagnostic}
    (h : note ∈ (Document.ofOctets bs).diagnostics.entries)
    (hkind : note.kind = .malformedLiteral) :
    ∃ s ∈ Segment.all bs, ∃ kind mark place, s.Abandons kind mark place ∧
      kind.message <+: note.message ∧ note.statement = some s.index ∧
      bs[s.offset + place]? = some (UInt8.ofNat mark.toNat) ∧
      (note.offset = some (s.offset + place) ↔
        s.decode.2 = .utf8 ∨ ∀ b ∈ s.octets.take place, b < 0x80) := by
  have hnote : note ∈ (ofOctets bs).encodingNote.toList ++
      (ofOctets bs).statements.flatMap (·.notes) := by
    have hentries := Array.mem_toList_iff.mpr h
    rw [diagnostics, ← Diagnostics.ofList, Diagnostics.entries_ofList] at hentries
    exact List.mem_of_mem_take hentries
  rcases List.mem_append.mp hnote with hencoding | hstatement
  · obtain ⟨s, -, hs⟩ := List.exists_of_findSome?_eq_some (Option.mem_toList.mp hencoding)
    unfold encodingNote? at hs
    split at hs <;> cases hs
    cases hkind
  obtain ⟨statement, hmem, hnotes⟩ := List.mem_flatMap.mp hstatement
  obtain ⟨s, hs, rfl⟩ := List.mem_map.mp hmem
  obtain ⟨kind, mark, place, habandons, hmessage, hindex, hoffset⟩ :=
    PlacedStatement.fault_ofSegment hnotes hkind
  refine ⟨s, hs, kind, mark, place, habandons, hmessage, hindex, habandons.octet hs, ?_⟩
  rw [hoffset, ← Encoding.excess_eq_zero, Option.some.injEq]
  omega

/-- A dump with a row that is cut short by a quote in a comment. -/
def quotedCommentDump : Octets :=
  .ofText "-- é\nINSERT INTO t VALUES ('é'), (2 /* ' */);"

/-- The note on it. -/
def quotedCommentNote : Diagnostic where
  kind := .malformedLiteral
  message := "unterminated quoted literal; 1 rows kept, remainder skipped"
  statement := some 1
  offset := some 41
  table := some "t"

theorem Document.offset_fault_comment :
    quotedCommentNote ∈ (ofOctets quotedCommentDump).diagnostics.entries ∧
    ∃ s ∈ Segment.all quotedCommentDump, ∃ kind mark place, s.Abandons kind mark place ∧
      quotedCommentDump[s.offset + place]? = some (UInt8.ofNat mark.toNat) ∧
      s.offset + place = 41 := by
  have hnote : quotedCommentNote ∈ (ofOctets quotedCommentDump).diagnostics.entries := by
    decide +kernel
  have hdecode : ∀ s ∈ Segment.all quotedCommentDump, s.decode.2 = .utf8 := by decide +kernel
  obtain ⟨s, hs, kind, mark, place, habandons, -, -, hoctet, hplace⟩ :=
    Document.offset_fault_iff hnote rfl
  have hoffset := Option.some.inj (hplace.mpr (.inl (hdecode s hs)))
  exact ⟨hnote, s, hs, kind, mark, place, habandons, hoctet, hoffset.symm⟩

/-- A dump with a row that is cut short behind an octet that is no UTF-8. -/
def displacedDump : Octets :=
  Octets.ofText "INSERT INTO t VALUES ('" ++ 0xE9 :: Octets.ofText "'),(2;"

/-- The row that is cut short begins at 27, and is noted at 28. -/
theorem Document.fault_displaced :
    ∃ note ∈ (ofOctets displacedDump).diagnostics.entries, note.kind = .malformedLiteral ∧
      note.offset = some 28 ∧ displacedDump[27]? = some 0x28 ∧
      ∀ s ∈ Segment.all displacedDump, ∀ kind mark place, s.Abandons kind mark place →
        s.offset + place ≠ 28 := by
  have hnote : ∃ note ∈ (ofOctets displacedDump).diagnostics.entries.toList,
      note.kind = .malformedLiteral ∧ note.offset = some 28 := by decide +kernel
  obtain ⟨note, hnote, hkind, hoffset⟩ := hnote
  refine ⟨note, Array.mem_toList_iff.mp hnote, hkind, hoffset, by decide +kernel, ?_⟩
  intro s hs kind mark place habandons hplace
  have hoctet := habandons.octet hs
  rw [hplace] at hoctet
  have hdigit : displacedDump[28]? = some 0x32 := by decide +kernel
  obtain ⟨lead, before, behind, -, -, -, -, hopens, -, -⟩ := habandons
  obtain rfl | rfl | rfl := hopens.mark_eq <;> exact absurd (hdigit.symm.trans hoctet) (by decide)

end SqlDump
