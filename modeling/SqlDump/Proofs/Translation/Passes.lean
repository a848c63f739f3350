import SqlDump.Proofs.Segment.Boundaries
import SqlDump.Translation.Run

/-!
# What a pass may leave out

A file shows a pass only the statements it has need of, told by their first keywords; a document
shows both passes every statement. A statement that a pass has no need of neither writes anything
nor leaves a trace in the state of the run, so that both runs are the same.

Main statements: `PlacedStatement.ofSegment_terminated`, what a whole statement can be;
`Translation.foldl_schema` and its companions, a pass over the statements it needs is a pass over
all; `execute_ofReaders`, a file and the document of its octets give one outcome.
-/

namespace SqlDump

theorem Statement.parse_terminated (t : Text) :
    ((classify t).1 = .createTable ∧ ∃ table notes, parse t true = (.create table, notes)) ∨
      ((classify t).1 = .insert ∧ ∃ i notes, parse t true = (.insert i, notes)) ∨
      parse t true = (.other ⟨(classify t).1, (classify t).2, t, true⟩, []) := by
  unfold parse
  rcases hc : classify t with ⟨kind, table⟩
  cases kind with
  | createTable =>
    cases hp : Table.parse? t with
    | some p => exact .inl ⟨rfl, p.1, p.2, rfl⟩
    | none => exact .inr (.inr rfl)
  | insert =>
    cases hp : Insert.parse? t with
    | some p => exact .inr (.inl ⟨rfl, p.1, _, rfl⟩)
    | none => exact .inr (.inr rfl)
  | _ => exact .inr (.inr rfl)

/-- A whole statement is a table, rows, or kept as it stands with nothing to note. -/
theorem PlacedStatement.ofSegment_terminated {s : Segment} (h : s.terminated = true) :
    ((Statement.classify s.decode.1).1 = .createTable ∧
        ∃ table, (ofSegment s).statement = .create table) ∨
      ((Statement.classify s.decode.1).1 = .insert ∧ ∃ i, (ofSegment s).statement = .insert i) ∨
      ((ofSegment s).notes = [] ∧ ∃ o, (ofSegment s).statement = .other o ∧
        o.terminated = true ∧ o.kind = (Statement.classify s.decode.1).1) := by
  unfold ofSegment ofText
  rcases hd : s.decode with ⟨text, encoding⟩
  simp only [h]
  obtain ⟨hkind, table, notes, hp⟩ | ⟨hkind, i, notes, hp⟩ | hp := Statement.parse_terminated text
  · rw [hp]
    exact .inl ⟨hkind, table, rfl⟩
  · rw [hp]
    exact .inr (.inl ⟨hkind, _, rfl⟩)
  · rw [hp]
    exact .inr (.inr ⟨rfl, _, rfl, rfl, rfl⟩)

theorem Pass.needsSegment_eq_false {p : Pass} {s : Segment} (h : p.needsSegment s = false) :
    s.terminated = true ∧ p.needs (Statement.classify s.decode.1).1 = false := by
  simpa [needsSegment] using h

namespace Translation

variable {s : Segment}

theorem schemaStatement_of_unneeded (h : Pass.schema.needsSegment s = false) (t : Translation) :
    t.schemaStatement (.ofSegment s) = t := by
  obtain ⟨hterminated, hneeds⟩ := Pass.needsSegment_eq_false h
  have hkind : (Statement.classify s.decode.1).1 = .insert := by simpa [Pass.needs] using hneeds
  unfold schemaStatement
  obtain ⟨hcreate, -⟩ | ⟨-, i, hi⟩ | ⟨hnotes, o, ho, hwhole, hok⟩ :=
    PlacedStatement.ofSegment_terminated hterminated
  · rw [hkind] at hcreate
    cases hcreate
  · rw [hi]
  · rw [ho]
    simp [schemaOther, hnotes, hwhole, hok, hkind, recordAll, Diagnostics.pushAll]

/-- A statement that the data pass has no need of is about tables. -/
theorem statement_of_unneeded (h : Pass.data.needsSegment s = false) :
    (∃ table, (PlacedStatement.ofSegment s).statement = .create table) ∨
      ∃ o, (PlacedStatement.ofSegment s).statement = .other o ∧ o.terminated = true ∧
        (o.kind = .createTable ∨ o.kind = .alterTable) := by
  obtain ⟨hterminated, hneeds⟩ := Pass.needsSegment_eq_false h
  have hkind : (Statement.classify s.decode.1).1 = .createTable ∨
      (Statement.classify s.decode.1).1 = .alterTable := by
    cases hk : (Statement.classify s.decode.1).1 <;> simp [Pass.needs, hk] at hneeds ⊢
  obtain ⟨-, hcreate⟩ | ⟨hinsert, -⟩ | ⟨-, o, ho, hwhole, hok⟩ :=
    PlacedStatement.ofSegment_terminated hterminated
  · exact .inl hcreate
  · rw [hinsert] at hkind
    rcases hkind with hk | hk <;> cases hk
  · exact .inr ⟨o, ho, hwhole, by rwa [hok]⟩

theorem writeData_of_unneeded (h : Pass.data.needsSegment s = false) (t : Translation) :
    t.writeData (.ofSegment s) = (t, []) := by
  unfold writeData
  obtain ⟨table, hs⟩ | ⟨o, hs, hwhole, hkind⟩ := statement_of_unneeded h
  · rw [hs]
  · rw [hs]
    rcases hkind with hk | hk <;> simp [writeOther, hwhole, hk]

theorem exportRows_of_unneeded (h : Pass.data.needsSegment s = false) (t : Translation)
    (store : Option Csv.Store) : t.exportRows (.ofSegment s) store = .ok (t, store) := by
  unfold exportRows
  obtain ⟨table, hs⟩ | ⟨o, hs, -, hkind⟩ := statement_of_unneeded h
  · rw [hs]
  · rw [hs]
    rcases hkind with hk | hk <;> simp [hk]

theorem foldl_schema (t : Translation) (segments : List Segment) :
    (Pass.schema.statements segments).foldl schemaStatement t =
      (segments.map .ofSegment).foldl schemaStatement t := by
  unfold Pass.statements
  induction segments generalizing t with
  | nil => rfl
  | cons s segments ih =>
    cases h : Pass.schema.needsSegment s with
    | true =>
      rw [List.filter_cons_of_pos h]
      exact ih _
    | false =>
      rw [List.filter_cons_of_neg (by simp [h]), ih, List.map_cons, List.foldl_cons,
        schemaStatement_of_unneeded h]

theorem writeFrom_data (done : List Postgres.Part) (t : Translation) (segments : List Segment) :
    t.writeFrom done (Pass.data.statements segments) =
      t.writeFrom done (segments.map .ofSegment) := by
  unfold Pass.statements
  induction segments generalizing done t with
  | nil => rfl
  | cons s segments ih =>
    cases h : Pass.data.needsSegment s with
    | true =>
      rw [List.filter_cons_of_pos h]
      exact ih _ _
    | false =>
      rw [List.filter_cons_of_neg (by simp [h]), ih, List.map_cons, writeFrom,
        writeData_of_unneeded h]
      rfl

theorem exportAll_data (t : Translation) (store : Option Csv.Store) (segments : List Segment) :
    t.exportAll store (Pass.data.statements segments) =
      t.exportAll store (segments.map .ofSegment) := by
  unfold Pass.statements
  induction segments generalizing t store with
  | nil => rfl
  | cons s segments ih =>
    cases h : Pass.data.needsSegment s with
    | true =>
      rw [List.filter_cons_of_pos h, List.map_cons, List.map_cons, exportAll, exportAll]
      cases t.exportRows (.ofSegment s) store with
      | error e => rfl
      | ok next => exact ih _ _
    | false =>
      rw [List.filter_cons_of_neg (by simp [h]), ih, List.map_cons, exportAll,
        exportRows_of_unneeded h]

end Translation

/-- A dump read from a file that is opened anew for each pass. -/
def Source.ofReaders (first second : Reader) : Source :=
  let segments := first.readAll.1.map Prod.fst
  { schema := Pass.schema.statements segments
    data := Pass.data.statements (second.readAll.1.map Prod.fst)
    count := segments.length
    encodingNote := segments.findSome? Document.encodingNote? }

/-- The document of what a reader reads. -/
def Document.ofReader (r : Reader) : Document :=
  let segments := r.readAll.1.map Prod.fst
  { statements := segments.map .ofSegment
    encodingNote := segments.findSome? encodingNote? }

/-- However its octets are buffered, a file is read as the file that stays as it is. -/
theorem Source.ofReaders_ofOctets (first second : Nat) (bs : Octets) :
    ofReaders (.ofOctets (first + 1) bs) (.ofOctets (second + 1) bs) = ofOctets bs := by
  unfold ofReaders
  rw [Reader.segments_fromOffset, Reader.segments_fromOffset]
  rfl

theorem Document.ofReader_ofOctets (size : Nat) (bs : Octets) :
    ofReader (.ofOctets (size + 1) bs) = ofOctets bs := by
  unfold ofReader
  rw [Reader.segments_fromOffset]
  rfl

theorem Translation.ofSource_ofOctets (bs : Octets) (options : Options) :
    ofSource (.ofOctets bs) options = ofSource (.ofDocument (.ofOctets bs)) options := by
  have hschema := foldl_schema (start options) (Segment.all bs)
  unfold ofSource Source.ofDocument Document.ofOctets Source.ofOctets Source.ofReadings
  simp only [hschema, List.length_map]

/-- A file that stays as it is and the document of its octets are run alike. -/
theorem execute_ofOctets (bs : Octets) (options : Options) (target : Target) (name : Option Text) :
    execute (.ofOctets bs) options target name =
      execute (.ofDocument (.ofOctets bs)) options target name := by
  have hwrite (t : Translation) : t.writeAll (Source.ofOctets bs).data =
      t.writeAll (Source.ofDocument (.ofOctets bs)).data :=
    t.writeFrom_data [] (Segment.all bs)
  have hexport (t : Translation) (store : Option Csv.Store) :
      t.exportAll store (Source.ofOctets bs).data =
        t.exportAll store (Source.ofDocument (.ofOctets bs)).data :=
    t.exportAll_data store (Segment.all bs)
  unfold execute Translation.produceRows Translation.produceScript
  simp only [Translation.ofSource_ofOctets, hwrite, hexport]

/-- A run over a file and a run over the document of the same octets are one: the same script or
CSV files, and the same outcome, whatever the buffers and the target. -/
theorem execute_ofReaders (fileBuffer documentBuffer : Nat) (bs : Octets) (options : Options)
    (target : Target) (name : Option Text) :
    execute (.ofReaders (.ofOctets (fileBuffer + 1) bs) (.ofOctets (fileBuffer + 1) bs)) options
        target name =
      execute (.ofDocument (.ofReader (.ofOctets (documentBuffer + 1) bs))) options target name := by
  rw [Source.ofReaders_ofOctets, Document.ofReader_ofOctets]
  exact execute_ofOctets bs options target name

end SqlDump
