import SqlDump.Proofs.Diagnostic
import SqlDump.Proofs.Plan.Cycles
import SqlDump.Proofs.Translation.DryRun

/-!
# What a run records

Nothing that a run does depends on which of its diagnostics were kept, so a step of a run under one
limit is the step under any other, with the same notes recorded.

Main statements: `Translation.schemaStatement_under` and its companions, one step under any limit;
`Translation.ofSource_under`, so the schema pass and the plan.
-/

namespace SqlDump

/-- None of the notes is about the width of a row. -/
def NoArity (notes : List Diagnostic) : Prop := ∀ note ∈ notes, note.kind ≠ .rowArityMismatch

theorem NoArity.append {notes more : List Diagnostic} (h : NoArity notes) (k : NoArity more) :
    NoArity (notes ++ more) := by
  intro note hnote
  obtain hnote | hnote := List.mem_append.mp hnote
  · exact h note hnote
  · exact k note hnote

theorem noArity_iff {notes : List Diagnostic} :
    NoArity notes ↔ notes.filter (·.kind = .rowArityMismatch) = [] := by
  simp [NoArity, List.filter_eq_nil_iff]

namespace Translation

/-- The run as it is under another limit, with a list recorded. -/
def under (t : Translation) (limit : Nat) (notes : List Diagnostic) : Translation :=
  { t with
    options := { t.options with diagnosticsLimit := limit }
    diagnostics := .ofList limit notes }

variable {t : Translation} {s : PlacedStatement}

theorem record_under (t : Translation) (limit : Nat) (notes : List Diagnostic) (d : Diagnostic) :
    (t.under limit notes).record d = t.under limit (notes ++ [d]) := by
  unfold record under
  simp only [Diagnostics.push_ofList]

theorem recordAll_under (t : Translation) (limit : Nat) (notes more : List Diagnostic) :
    (t.under limit notes).recordAll more = t.under limit (notes ++ more) := by
  unfold recordAll under
  simp only [Diagnostics.pushAll_ofList]

/-- A table is taken into the catalog under any limit. -/
theorem define_under (t : Translation) (s : PlacedStatement) (table : Table) :
    ∃ notes, (∀ limit before, (t.under limit before).define s table =
        (t.define s table).under limit (before ++ notes)) ∧
      (NoArity s.notes → NoArity notes) := by
  by_cases hdefined : (t.recordAll s.notes).catalog.defines table.name
  · refine ⟨s.notes ++ [noteOn s .duplicateTable table.name
      ("table " ++ table.name ++ " defined again; the later definition wins")], ?_, ?_⟩
    · intro limit before
      have hunder : (t.under limit (before ++ s.notes)).catalog.defines table.name = true :=
        hdefined
      unfold define
      simp only [recordAll_under, if_pos hunder, if_pos hdefined, ← List.append_assoc]
      exact record_under { t with
        catalog := t.catalog.insert table
        origins := setOrigin t.origins (t.catalog.insertId table) (s.index, s.offset) }
        limit (before ++ s.notes) _
    · intro hnotes
      exact hnotes.append (by simp [NoArity, noteOn])
  · refine ⟨s.notes, ?_, id⟩
    intro limit before
    have hunder : ¬(t.under limit (before ++ s.notes)).catalog.defines table.name = true := hdefined
    unfold define
    simp only [recordAll_under, if_neg hunder, if_neg hdefined]
    rfl

theorem noArity_alteration {catalog changed : Catalog} {text : Text} {a : Alteration}
    (h : Alteration.parse? catalog text = some (a, changed)) (index offset : Nat) :
    NoArity (a.notes.map (·.stamp index offset)) := by
  have hnotes (table : Text) (absorbed : Nat) (remaining : List Text) :
      NoArity ((Alteration.ofRemaining table absorbed remaining).notes.map
        (·.stamp index offset)) := by
    unfold Alteration.ofRemaining
    dsimp only
    split
    · simp [NoArity]
    · simp [NoArity, Table.clauseNote, Diagnostic.stamp]
  obtain ⟨⟨name, clauses⟩, -, h⟩ := Option.bind_eq_some_iff.mp h
  obtain ⟨id, -, h⟩ := Option.bind_eq_some_iff.mp h
  obtain ⟨table, -, h⟩ := Option.bind_eq_some_iff.mp h
  obtain ⟨rfl, -⟩ := Prod.mk.inj (Option.some.inj h)
  exact hnotes _ _ _

/-- A table is altered under any limit. -/
theorem alter_under (t : Translation) (s : PlacedStatement) (o : OtherStatement) :
    ∃ notes, (∀ limit before, (t.under limit before).alter s o =
        (t.alter s o).under limit (before ++ notes)) ∧ NoArity notes := by
  cases hparse : Alteration.parse? t.catalog o.text with
  | none =>
    refine ⟨[noteOn s .unsupportedClause o.table
      ("ALTER TABLE on undefined table " ++ o.table ++ " passed through")], ?_, ?_⟩
    · intro limit before
      have hunder : Alteration.parse? (t.under limit before).catalog o.text = none := hparse
      unfold alter
      rw [hunder, hparse]
      dsimp only
      rw [record_under]
      rfl
    · simp [NoArity, noteOn]
  | some parsed =>
    obtain ⟨a, catalog⟩ := parsed
    refine ⟨a.notes.map (·.stamp s.index s.offset), ?_, noArity_alteration hparse s.index s.offset⟩
    intro limit before
    have hunder : Alteration.parse? (t.under limit before).catalog o.text = some (a, catalog) :=
      hparse
    have hpush : (t.under limit before).diagnostics.pushAt a.notes s.index s.offset =
        .ofList limit (before ++ a.notes.map (·.stamp s.index s.offset)) :=
      Diagnostics.pushAll_ofList _ _ _
    unfold alter
    rw [hunder, hparse]
    dsimp only
    rw [hpush]
    cases a.remainder with
    | none => rfl
    | some text => rfl

/-- The schema pass takes a statement that is no table definition under any limit. -/
theorem schemaOther_under (t : Translation) (s : PlacedStatement) (o : OtherStatement) :
    ∃ notes, (∀ limit before, (t.under limit before).schemaOther s o =
        (t.schemaOther s o).under limit (before ++ notes)) ∧
      (NoArity s.notes → NoArity notes) := by
  have hcatalog : (t.recordAll s.notes).under = t.under := rfl
  cases hterminated : o.terminated with
  | false =>
    refine ⟨s.notes, ?_, id⟩
    intro limit before
    unfold schemaOther
    simp only [hterminated, Bool.not_false, if_true, recordAll_under, hcatalog]
  | true =>
    cases hkind : o.kind with
    | alterTable =>
      obtain ⟨notes, hstep, hnotes⟩ := alter_under (t.recordAll s.notes) s o
      refine ⟨s.notes ++ notes, ?_, fun h => h.append hnotes⟩
      intro limit before
      unfold schemaOther
      simp only [hterminated, hkind, Bool.not_true, Bool.false_eq_true, if_false, recordAll_under]
      rw [← List.append_assoc, ← hstep, hcatalog]
    | createTable =>
      refine ⟨s.notes ++ [noteOn s .unsupportedClause o.table
        "CREATE TABLE without a column list passed through"], ?_, fun h => h.append ?_⟩
      · intro limit before
        unfold schemaOther
        simp only [hterminated, hkind, Bool.not_true, Bool.false_eq_true, if_false,
          recordAll_under, record_under, List.append_assoc]
        rfl
      · simp [NoArity, noteOn]
    | unknown =>
      refine ⟨s.notes ++ [noteOn s .unclassifiedStatement []
        (unclassifiedMessage t.options.mode (Statement.isCreate o.text))], ?_,
        fun h => h.append ?_⟩
      · intro limit before
        unfold schemaOther
        simp only [hterminated, hkind, Bool.not_true, Bool.false_eq_true, if_false,
          recordAll_under, record_under, List.append_assoc]
        split
        · rfl
        · rfl
      · simp [NoArity, noteOn]
    | _ =>
      refine ⟨s.notes, ?_, id⟩
      intro limit before
      unfold schemaOther
      simp only [hterminated, hkind, Bool.not_true, Bool.false_eq_true, if_false, recordAll_under,
        hcatalog]

/-- The schema pass takes a statement under any limit. -/
theorem schemaStatement_under (t : Translation) (s : PlacedStatement) :
    ∃ notes, (∀ limit before, (t.under limit before).schemaStatement s =
        (t.schemaStatement s).under limit (before ++ notes)) ∧
      (NoArity s.notes → NoArity notes) := by
  unfold schemaStatement
  cases s.statement with
  | create table => exact define_under t s table
  | insert i => exact ⟨[], fun limit before => by simp, fun _ => by simp [NoArity]⟩
  | other o => exact schemaOther_under t s o

/-- The schema pass takes all statements under any limit. -/
theorem foldl_schemaStatement_under (t : Translation) (ss : List PlacedStatement) :
    ∃ notes, (∀ limit before, ss.foldl schemaStatement (t.under limit before) =
        (ss.foldl schemaStatement t).under limit (before ++ notes)) ∧
      ((∀ s ∈ ss, NoArity s.notes) → NoArity notes) := by
  induction ss generalizing t with
  | nil => exact ⟨[], fun limit before => by simp, fun _ => by simp [NoArity]⟩
  | cons s ss ih =>
    obtain ⟨notes, hstep, hnotes⟩ := schemaStatement_under t s
    obtain ⟨more, hrest, hmore⟩ := ih (t.schemaStatement s)
    refine ⟨notes ++ more, ?_, ?_⟩
    · intro limit before
      rw [List.foldl_cons, hstep, hrest, List.append_assoc, List.foldl_cons]
    · intro hall
      exact (hnotes (hall s List.mem_cons_self)).append
        (hmore fun s hs => hall s (List.mem_cons_of_mem _ hs))

theorem recordOnce_under (t : Translation) (notes : List Diagnostic) (d : Diagnostic) :
    ∃ more, (∀ limit, (t.under limit notes).recordOnce d = t.under limit (notes ++ more)) ∧
      ∀ note ∈ more, note = d := by
  by_cases hknown : ∃ note ∈ notes, note.kind = d.kind
  · refine ⟨[], ?_, by simp⟩
    intro limit
    unfold recordOnce under
    simp only [Diagnostics.pushOnce_ofList, if_pos hknown, List.append_nil]
  · refine ⟨[d], ?_, by simp⟩
    intro limit
    unfold recordOnce under
    simp only [Diagnostics.pushOnce_ofList, if_neg hknown, Diagnostics.push_ofList]

theorem noArity_plan (t : Translation) (options : PlanOptions) :
    NoArity ((Plan.ofCatalog t.catalog options).2.map t.placePlanNote) := by
  have hkind (note : Diagnostic) : (t.placePlanNote note).kind = note.kind := by
    unfold placePlanNote
    split <;> rfl
  have hnotes : NoArity (Plan.ofCatalog t.catalog options).2 :=
    noArity_iff.mpr (Plan.filter_notes options.pinned _ _ .rowArityMismatch)
  intro note hnote
  obtain ⟨planned, hplanned, rfl⟩ := List.mem_map.mp hnote
  rw [hkind]
  exact hnotes planned hplanned

/-- The plan is made under any limit. -/
theorem finishSchema_under (t : Translation) :
    ∃ notes, (∀ limit before, (t.under limit before).finishSchema =
        t.finishSchema.under limit (before ++ notes)) ∧ NoArity notes := by
  refine ⟨(Plan.ofCatalog t.catalog
    { pinned := t.options.pinned, deferAll := t.options.mode == .schema }).2.map t.placePlanNote,
    ?_, noArity_plan t _⟩
  intro limit before
  unfold finishSchema under
  simp only [Diagnostics.pushAll_ofList]
  rfl

/-- The run with the note on the encoding of its source. -/
def noteEncoding (t : Translation) (source : Source) : Translation :=
  match source.encodingNote with
  | some note => t.recordOnce note
  | none => t

theorem ofSource_eq (source : Source) (options : Options) :
    ofSource source options =
      (((source.schema.foldl schemaStatement (start options)).noteEncoding source).count fun stats =>
        { stats with statements := source.count }).finishSchema := rfl

theorem noteEncoding_under (t : Translation) (source : Source) (notes : List Diagnostic) :
    ∃ more, (∀ limit, (t.under limit notes).noteEncoding source =
        (t.noteEncoding source).under limit (notes ++ more)) ∧
      (NoArity source.encodingNote.toList → NoArity more) := by
  cases hencoding : source.encodingNote with
  | none =>
    refine ⟨[], ?_, id⟩
    intro limit
    unfold noteEncoding
    simp only [hencoding, List.append_nil]
  | some note =>
    obtain ⟨once, honce, honly⟩ := recordOnce_under t notes note
    refine ⟨once, ?_, ?_⟩
    · intro limit
      unfold noteEncoding
      simp only [hencoding]
      exact honce limit
    · intro hnote more hmore
      rw [honly more hmore]
      exact hnote note (by simp)

/-- The schema pass and the plan are made under any limit. -/
theorem ofSource_under (source : Source) (options : Options) :
    ∃ notes, (∀ limit, ofSource source { options with diagnosticsLimit := limit } =
        (ofSource source options).under limit notes) ∧
      ((∀ s ∈ source.schema, NoArity s.notes) → NoArity source.encodingNote.toList →
        NoArity notes) := by
  obtain ⟨read, hread, hreadNotes⟩ := foldl_schemaStatement_under (start options) source.schema
  obtain ⟨once, honce, honceNotes⟩ :=
    noteEncoding_under (source.schema.foldl schemaStatement (start options)) source read
  obtain ⟨planned, hplan, hplanned⟩ := finishSchema_under
    (((source.schema.foldl schemaStatement (start options)).noteEncoding source).count fun stats =>
      { stats with statements := source.count })
  refine ⟨read ++ once ++ planned, ?_, ?_⟩
  · intro limit
    have hschema : source.schema.foldl schemaStatement
        (start { options with diagnosticsLimit := limit }) =
          (source.schema.foldl schemaStatement (start options)).under limit read := hread limit []
    rw [ofSource_eq, ofSource_eq, hschema, honce, ← hplan]
    rfl
  · intro hall hnote
    exact ((hreadNotes hall).append (honceNotes hnote)).append hplanned

end Translation

end SqlDump
