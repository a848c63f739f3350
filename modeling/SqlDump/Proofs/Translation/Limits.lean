import SqlDump.Proofs.Translation.Recording
import SqlDump.Proofs.Translation.Writing

/-!
# The limit on diagnostics

A run that keeps fewer diagnostics than another does the same in everything else: it writes the same
script or files, makes the same plan and counts the same, the diagnostics by kind included. What it
keeps are the first of those that the other keeps.

Main statements: `Translation.writeAll_under` and `Translation.exportAll_under`, the data pass under
any limit; `Stage.state_under`, so every state of a run; `execute_limits`, two runs with different
limits.
-/

namespace SqlDump

namespace Translation

variable {t : Translation} {s : PlacedStatement}

theorem noArity_create (t : Translation) : NoArity t.createNotes := by
  have hcolumn (table : Table) (c : Column) : NoArity (Postgres.columnNotes table c) := by
    have htypes : NoArity (Postgres.typeNotes table c) := by
      unfold Postgres.typeNotes
      refine .append ?_ ?_
      · split <;> simp [NoArity, Postgres.tableNote]
      · split <;> simp [NoArity, Postgres.tableNote]
    have hdefaults : NoArity (Postgres.defaultNotes table c) := by
      unfold Postgres.defaultNotes
      split
      · simp [NoArity, Postgres.tableNote]
      · split <;> simp [NoArity, Postgres.tableNote]
      · simp [NoArity]
    unfold Postgres.columnNotes
    refine ((((NoArity.append ?_ ?_).append hdefaults).append ?_).append ?_)
    · split <;> simp [NoArity, Postgres.tableNote]
    · split
      · simp [NoArity]
      · exact htypes
    · split <;> simp [NoArity, Postgres.tableNote]
    · split <;> simp [NoArity, Postgres.tableNote]
  intro note hnote
  obtain ⟨⟨id, table⟩, -, hnote⟩ := List.mem_flatMap.mp hnote
  obtain ⟨column, hcolumnNote, rfl⟩ := List.mem_map.mp hnote
  obtain ⟨c, -, hc⟩ := List.mem_flatMap.mp hcolumnNote
  exact hcolumn table c column hc

/-- The script up to the data is written under any limit. -/
theorem writeSchema_under (t : Translation) (limit : Nat) (before : List Diagnostic)
    (name : Option Text) :
    (t.under limit before).writeSchema name =
      ((t.writeSchema name).1.under limit (before ++ t.createNotes), (t.writeSchema name).2) := by
  have hnotes : (t.under limit before).createNotes = t.createNotes := rfl
  unfold writeSchema
  simp only [hnotes, recordAll_under]
  rfl

/-- The notes on the width of the rows of a statement. -/
def arityOf (t : Translation) (s : PlacedStatement) : List Diagnostic :=
  match s.statement with
  | .insert i => t.arityNotes s i
  | _ => []

theorem filter_arityNotes (t : Translation) (s : PlacedStatement) (i : Insert) :
    (t.arityNotes s i).filter (·.kind = .rowArityMismatch) = t.arityNotes s i := by
  rw [List.filter_eq_self]
  intro note hnote
  unfold arityNotes at hnote
  split at hnote
  · cases hnote
  · obtain ⟨⟨n, width⟩, -, hrow⟩ := List.mem_filterMap.mp hnote
    dsimp only at hrow
    split at hrow
    · cases hrow
    · cases hrow
      rfl

theorem noArity_trailing (s : PlacedStatement) (i : Insert) :
    NoArity (trailingNote? s i).toList := by
  unfold trailingNote?
  cases i.trailing with
  | none => simp [NoArity]
  | some clause => simp [NoArity, noteOn]

/-- Rows are counted and checked under any limit. -/
theorem checkInsert_under (t : Translation) (s : PlacedStatement) (i : Insert) (limit : Nat)
    (before : List Diagnostic) :
    (t.under limit before).checkInsert s i = (t.checkInsert s i).under limit
      (before ++ (s.notes ++ t.arityNotes s i ++ (trailingNote? s i).toList)) := by
  unfold checkInsert
  exact recordAll_under (t.count fun stats =>
    { stats with inserts := stats.inserts + 1, rows := stats.rows + i.rows.length }) limit before _

theorem filter_checked (h : NoArity s.notes) (t : Translation) (i : Insert) :
    (s.notes ++ t.arityNotes s i ++ (trailingNote? s i).toList).filter
      (·.kind = .rowArityMismatch) = t.arityNotes s i := by
  rw [List.filter_append, List.filter_append, noArity_iff.mp h, filter_arityNotes,
    noArity_iff.mp (noArity_trailing s i), List.nil_append, List.append_nil]

theorem noteZeroDates_under (t : Translation) (s : PlacedStatement) (table : Text) (n : Nat) :
    ∃ notes, (∀ limit before, (t.under limit before).noteZeroDates s table n =
        (t.noteZeroDates s table n).under limit (before ++ notes)) ∧ NoArity notes := by
  by_cases hn : n = 0
  · refine ⟨[], ?_, by simp [NoArity]⟩
    intro limit before
    unfold noteZeroDates
    simp only [if_pos hn, List.append_nil]
  · refine ⟨[noteOn s .lossyConversion table
      (Text.ofNat n ++ " zero date value(s) written as NULL")], ?_, by simp [NoArity, noteOn]⟩
    intro limit before
    unfold noteZeroDates
    simp only [if_neg hn, record_under]
    rfl

/-- The rows of a statement are written under any limit. -/
theorem writeInsert_under (t : Translation) (s : PlacedStatement) (i : Insert) :
    ∃ notes, (∀ limit before, (t.under limit before).writeInsert s i =
        ((t.writeInsert s i).1.under limit (before ++ notes), (t.writeInsert s i).2)) ∧
      (NoArity s.notes → notes.filter (·.kind = .rowArityMismatch) = t.arityNotes s i) := by
  by_cases hrows : i.rows.isEmpty
  · refine ⟨_, ?_, fun h => filter_checked h t i⟩
    intro limit before
    unfold writeInsert
    simp only [if_pos hrows, checkInsert_under]
  · obtain ⟨dates, hdates, hdateNotes⟩ := noteZeroDates_under (t.checkInsert s i) s i.table
      (Postgres.nulledDates i (t.familiesFor i))
    refine ⟨s.notes ++ t.arityNotes s i ++ (trailingNote? s i).toList ++ dates, ?_, ?_⟩
    · intro limit before
      have hfamilies : (t.under limit before).familiesFor i = t.familiesFor i := rfl
      unfold writeInsert
      simp only [if_neg hrows, checkInsert_under, hfamilies, hdates, List.append_assoc]
    · intro h
      rw [List.filter_append, filter_checked h, noArity_iff.mp hdateNotes, List.append_nil]

theorem passStatement_under (t : Translation) (limit : Nat) (before : List Diagnostic)
    (text : Text) :
    (t.under limit before).passStatement text =
      ((t.passStatement text).1.under limit before, (t.passStatement text).2) := by
  unfold passStatement
  split <;> rfl

theorem passComment_under (t : Translation) (limit : Nat) (before : List Diagnostic)
    (text : Text) :
    (t.under limit before).passComment text =
      ((t.passComment text).1.under limit before, (t.passComment text).2) := by
  have hoptions : (t.under limit before).options.keepComments = t.options.keepComments := rfl
  unfold passComment
  rw [hoptions]
  split
  · rfl
  · split <;> rfl

/-- A statement that is no `INSERT` is written under any limit. -/
theorem writeOther_under (t : Translation) (s : PlacedStatement) (o : OtherStatement) :
    ∃ notes, (∀ limit before, (t.under limit before).writeOther s o =
        ((t.writeOther s o).1.under limit (before ++ notes), (t.writeOther s o).2)) ∧
      NoArity notes := by
  have hnone (h : ∀ limit before, (t.under limit before).writeOther s o =
      ((t.writeOther s o).1.under limit before, (t.writeOther s o).2)) :
      ∃ notes, (∀ limit before, (t.under limit before).writeOther s o =
        ((t.writeOther s o).1.under limit (before ++ notes), (t.writeOther s o).2)) ∧
      NoArity notes :=
    ⟨[], by simpa using h, by simp [NoArity]⟩
  cases hterminated : o.terminated with
  | false =>
    refine hnone fun limit before => ?_
    unfold writeOther
    simp only [hterminated, Bool.not_false, if_true]
    rfl
  | true =>
    cases hkind : o.kind with
    | insert =>
      refine ⟨[noteOn s .unclassifiedStatement o.table
        "INSERT without a VALUES list passed through"], ?_, by simp [NoArity, noteOn]⟩
      intro limit before
      unfold writeOther
      simp only [hterminated, hkind, Bool.not_true, Bool.false_eq_true, if_false, record_under,
        passStatement_under]
      unfold passStatement
      split <;> rfl
    | unknown =>
      refine hnone fun limit before => ?_
      unfold writeOther
      simp only [hterminated, hkind, Bool.not_true, Bool.false_eq_true, if_false,
        passStatement_under]
      split <;> rfl
    | comment =>
      refine hnone fun limit before => ?_
      unfold writeOther
      simp only [hterminated, hkind, Bool.not_true, Bool.false_eq_true, if_false,
        passComment_under]
    | session | lockTables | dropTable =>
      refine hnone fun limit before => ?_
      unfold writeOther
      simp only [hterminated, hkind, Bool.not_true, Bool.false_eq_true, if_false]
      rfl
    | createTable | alterTable =>
      refine hnone fun limit before => ?_
      unfold writeOther
      simp only [hterminated, hkind, Bool.not_true, Bool.false_eq_true, if_false]

/-- The data pass takes a statement under any limit, and notes the widths of its rows. -/
theorem writeData_under (t : Translation) (s : PlacedStatement) :
    ∃ notes, (∀ limit before, (t.under limit before).writeData s =
        ((t.writeData s).1.under limit (before ++ notes), (t.writeData s).2)) ∧
      (NoArity s.notes → notes.filter (·.kind = .rowArityMismatch) = t.arityOf s) := by
  unfold writeData arityOf
  cases s.statement with
  | create table => exact ⟨[], fun limit before => by simp, fun _ => rfl⟩
  | insert i => exact writeInsert_under t s i
  | other o =>
    obtain ⟨notes, hstep, hnotes⟩ := writeOther_under t s o
    exact ⟨notes, hstep, fun _ => noArity_iff.mp hnotes⟩

theorem SameTables.arityOf {u : Translation} (h : SameTables t u) (s : PlacedStatement) :
    t.arityOf s = u.arityOf s := by
  simp only [Translation.arityOf, arityNotes, expectedWidth?, h.catalog]

/-- The data pass for a script is made under any limit. -/
theorem writeAll_under (t : Translation) (ss : List PlacedStatement) :
    ∃ notes, (∀ limit before, (t.under limit before).writeAll ss =
        ((t.writeAll ss).1.under limit (before ++ notes), (t.writeAll ss).2)) ∧
      ((∀ s ∈ ss, NoArity s.notes) →
        notes.filter (·.kind = .rowArityMismatch) = ss.flatMap t.arityOf) := by
  induction ss generalizing t with
  | nil =>
    refine ⟨[], ?_, fun _ => rfl⟩
    intro limit before
    rw [List.append_nil]
    rfl
  | cons s ss ih =>
    obtain ⟨notes, hstep, hnotes⟩ := writeData_under t s
    obtain ⟨more, hrest, hmore⟩ := ih (t.writeData s).1
    refine ⟨notes ++ more, ?_, ?_⟩
    · intro limit before
      simp only [writeAll_cons, hstep, hrest, List.append_assoc]
    · intro hall
      have hsame : (t.writeData s).1.arityOf = t.arityOf :=
        funext (sameTables_writeData t s).arityOf
      rw [List.filter_append, hnotes (hall s List.mem_cons_self),
        hmore (fun s hs => hall s (List.mem_cons_of_mem _ hs)), hsame, List.flatMap_cons]

/-- The data pass takes a statement for CSV files under any limit, and notes the widths of its
rows. -/
theorem exportRows_under (t : Translation) (s : PlacedStatement) (store : Option Csv.Store) :
    ∃ notes, (∀ limit before, (t.under limit before).exportRows s store =
        (t.exportRows s store).map fun (u, stored) => (u.under limit (before ++ notes), stored)) ∧
      (NoArity s.notes → notes.filter (·.kind = .rowArityMismatch) = t.arityOf s) := by
  unfold exportRows arityOf
  cases s.statement with
  | create table => exact ⟨[], fun limit before => by simp [Except.map], fun _ => rfl⟩
  | insert i =>
    cases store with
    | none =>
      refine ⟨_, ?_, fun h => filter_checked h t i⟩
      intro limit before
      simp only [checkInsert_under, Except.map]
    | some store =>
      obtain ⟨dates, hdates, hdateNotes⟩ := noteZeroDates_under (t.checkInsert s i) s i.table
        (Csv.emptiedDates i (t.familiesFor i))
      refine ⟨s.notes ++ t.arityNotes s i ++ (trailingNote? s i).toList ++ dates, ?_, ?_⟩
      · intro limit before
        have hfamilies : (t.under limit before).familiesFor i = t.familiesFor i := rfl
        simp only [checkInsert_under, hfamilies, hdates, List.append_assoc]
        cases store.insert i (t.familiesFor i) with
        | error e => rfl
        | ok stored => rfl
      · intro h
        rw [List.filter_append, filter_checked h, noArity_iff.mp hdateNotes, List.append_nil]
  | other o =>
    by_cases hinsert : (o.terminated && o.kind == .insert) = true
    · refine ⟨[noteOn s .unclassifiedStatement o.table
        "INSERT without a VALUES list not exported"], ?_, fun _ => rfl⟩
      intro limit before
      simp only [if_pos hinsert, record_under, Except.map]
      rfl
    · refine ⟨[], ?_, fun _ => rfl⟩
      intro limit before
      simp only [if_neg hinsert, Except.map, List.append_nil]

theorem sameSchema_exportRows {u : Translation} {store stored : Option Csv.Store}
    (h : t.exportRows s store = .ok (u, stored)) : SameSchema u t := by
  cases store with
  | none =>
    rw [exportRows_checked] at h
    cases h
    exact ⟨⟨rfl, rfl⟩, rfl, rfl⟩
  | some store =>
    obtain ⟨rfl, -⟩ := exportRows_written h
    exact ⟨⟨rfl, rfl⟩, rfl, rfl⟩

theorem sameTables_exportRows {u : Translation} {store stored : Option Csv.Store}
    (h : t.exportRows s store = .ok (u, stored)) : SameTables u t :=
  (sameSchema_exportRows h).toSameTables

/-- The data pass for CSV files is made under any limit. -/
theorem exportAll_under (t : Translation) (ss : List PlacedStatement) (store : Option Csv.Store) :
    ∃ notes, (∀ limit before, (t.under limit before).exportAll store ss =
        (t.exportAll store ss).map fun (u, stored) => (u.under limit (before ++ notes), stored)) ∧
      ((∀ s ∈ ss, NoArity s.notes) → (∃ done, t.exportAll store ss = .ok done) →
        notes.filter (·.kind = .rowArityMismatch) = ss.flatMap t.arityOf) := by
  induction ss generalizing t store with
  | nil =>
    refine ⟨[], ?_, fun _ _ => rfl⟩
    intro limit before
    simp only [exportAll, Except.map, List.append_nil]
  | cons s ss ih =>
    obtain ⟨notes, hstep, hnotes⟩ := exportRows_under t s store
    cases hexport : t.exportRows s store with
    | error e =>
      refine ⟨notes, ?_, ?_⟩
      · intro limit before
        simp only [exportAll, hstep, hexport, Except.map]
      · rintro - ⟨done, hdone⟩
        simp [exportAll, hexport] at hdone
    | ok next =>
      obtain ⟨u, stored⟩ := next
      obtain ⟨more, hrest, hmore⟩ := ih u stored
      refine ⟨notes ++ more, ?_, ?_⟩
      · intro limit before
        simp only [exportAll, hstep, hexport, Except.map, hrest, List.append_assoc]
      · rintro hall ⟨done, hdone⟩
        have hsame : u.arityOf = t.arityOf := funext (sameTables_exportRows hexport).arityOf
        simp only [exportAll, hexport] at hdone
        rw [List.filter_append, hnotes (hall s List.mem_cons_self),
          hmore (fun s hs => hall s (List.mem_cons_of_mem _ hs)) ⟨done, hdone⟩, hsame,
          List.flatMap_cons]

end Translation

/-- How far a run has come. -/
inductive Stage where
  /-- It has taken so many statements of the schema pass. -/
  | schema (read : Nat)
  /-- It has noted the encoding of its source. -/
  | noted
  /-- It has made the plan. -/
  | planned
  /-- It has written the script up to the data. -/
  | begun
  /-- It has taken so many statements of the data pass for a script. -/
  | written (read : Nat)
  /-- It has taken so many statements of the data pass for CSV files. -/
  | exported (store : Option Csv.Store) (read : Nat)

namespace Stage

open Translation

/-- The state of a run that has come so far; an error where it ended before. -/
def state (source : Source) (options : Options) (name : Option Text) :
    Stage → Except RunError Translation
  | schema read => .ok ((source.schema.take read).foldl schemaStatement (start options))
  | noted => .ok ((source.schema.foldl schemaStatement (start options)).noteEncoding source)
  | planned => .ok (ofSource source options)
  | begun => .ok ((ofSource source options).writeSchema name).1
  | written read =>
    .ok (((ofSource source options).writeSchema name).1.writeAll (source.data.take read)).1
  | exported store read =>
    ((ofSource source options).exportAll (store.map Csv.Store.ensureFolder)
      (source.data.take read)).map Prod.fst

/-- Every state of a run is the same under any limit, with the same diagnostics recorded. -/
theorem state_under (stage : Stage) (source : Source) (options : Options) (name : Option Text) :
    ∃ recorded, ∀ limit, stage.state source { options with diagnosticsLimit := limit } name =
      (stage.state source options name).map (·.under limit recorded) := by
  obtain ⟨notes, hsource, -⟩ := ofSource_under source options
  cases stage with
  | schema read =>
    obtain ⟨notes, hread, -⟩ := foldl_schemaStatement_under (start options) (source.schema.take read)
    exact ⟨notes, fun limit => congrArg Except.ok (hread limit [])⟩
  | noted =>
    obtain ⟨read, hread, -⟩ := foldl_schemaStatement_under (start options) source.schema
    obtain ⟨once, honce, -⟩ :=
      noteEncoding_under (source.schema.foldl schemaStatement (start options)) source read
    refine ⟨read ++ once, fun limit => ?_⟩
    have hschema : source.schema.foldl schemaStatement
        (start { options with diagnosticsLimit := limit }) =
          (source.schema.foldl schemaStatement (start options)).under limit read := hread limit []
    simp only [state, hschema, honce, Except.map]
  | planned => exact ⟨notes, fun limit => congrArg Except.ok (hsource limit)⟩
  | begun =>
    refine ⟨notes ++ (ofSource source options).createNotes, fun limit => ?_⟩
    simp only [state]
    rw [hsource limit, writeSchema_under]
    rfl
  | written read =>
    obtain ⟨more, hwrite, -⟩ :=
      writeAll_under ((ofSource source options).writeSchema name).1 (source.data.take read)
    refine ⟨notes ++ (ofSource source options).createNotes ++ more, fun limit => ?_⟩
    simp only [state]
    rw [hsource limit, writeSchema_under]
    simp only [hwrite, Except.map]
  | exported store read =>
    obtain ⟨more, hexport, -⟩ := exportAll_under (ofSource source options) (source.data.take read)
      (store.map Csv.Store.ensureFolder)
    refine ⟨notes ++ more, fun limit => ?_⟩
    simp only [state]
    rw [hsource limit, hexport]
    cases (ofSource source options).exportAll (store.map Csv.Store.ensureFolder)
        (source.data.take read) with
    | error e => rfl
    | ok done => rfl

end Stage

/-- What a run has made, with other diagnostics to report. -/
def Produced.under (p : Produced) (limit : Nat) (notes : List Diagnostic) : Produced :=
  { p with outcome := { p.outcome with diagnostics := .ofList limit notes } }

/-- No statement of a source comes with a note on the width of a row. -/
structure Source.NoArity (source : Source) : Prop where
  schema : ∀ s ∈ source.schema, SqlDump.NoArity s.notes
  data : ∀ s ∈ source.data, SqlDump.NoArity s.notes
  encoding : SqlDump.NoArity source.encodingNote.toList

namespace Translation

/-- In full mode the rows are written behind the tables. -/
theorem produceScript_eq {t : Translation} (hmode : t.options.mode = .full) (source : Source)
    (name : Option Text) :
    t.produceScript source name =
      { outcome := ((t.writeSchema name).1.writeAll source.data).1.outcome
        script := t.schemaScript name ++ ((t.writeSchema name).1.writeAll source.data).2 ++
          ((t.writeSchema name).1.writeAll source.data).1.epilogue } := by
  have hwritten : (t.writeSchema name).1.options.mode = .full := hmode
  unfold produceScript
  simp only [if_pos hwritten]
  rfl

/-- A script is made under any limit, and in full mode the notes on the widths of the rows are those
of its statements. -/
theorem produceScript_under (t : Translation) (source : Source) (name : Option Text) :
    ∃ notes, (∀ limit before, (t.under limit before).produceScript source name =
        (t.produceScript source name).under limit (before ++ notes)) ∧
      (source.NoArity → t.options.mode = .full →
        notes.filter (·.kind = .rowArityMismatch) = source.data.flatMap t.arityOf) := by
  by_cases hmode : t.options.mode = .full
  · obtain ⟨more, hwrite, hmore⟩ := writeAll_under (t.writeSchema name).1 source.data
    refine ⟨t.createNotes ++ more, ?_, ?_⟩
    · intro limit before
      have hunder : (t.under limit before).options.mode = .full := hmode
      rw [produceScript_eq hunder, produceScript_eq hmode, writeSchema_under]
      simp only [hwrite, List.append_assoc]
      rfl
    · intro hsource _
      have hsame : (t.writeSchema name).1.arityOf = t.arityOf :=
        funext fun s => SameTables.arityOf ⟨rfl, rfl⟩ s
      rw [List.filter_append, noArity_iff.mp (noArity_create t), hmore hsource.data, hsame,
        List.nil_append]
  · have hwritten : ¬(t.writeSchema name).1.options.mode = .full := hmode
    refine ⟨t.createNotes, ?_, fun _ h => absurd h hmode⟩
    intro limit before
    have hunder : ¬((t.writeSchema name).1.under limit (before ++ t.createNotes)).options.mode =
      .full := hmode
    unfold produceScript
    simp only [writeSchema_under, if_neg hunder, if_neg hwritten]
    rfl

/-- CSV files are made under any limit, and where they are the notes on the widths of the rows
are those of the statements. -/
theorem produceRows_under (t : Translation) (source : Source) (store : Option Csv.Store) :
    ∃ notes, (∀ limit before, (t.under limit before).produceRows source store =
        (t.produceRows source store).map (·.under limit (before ++ notes))) ∧
      (source.NoArity → (∃ p, t.produceRows source store = .ok p) →
        notes.filter (·.kind = .rowArityMismatch) = source.data.flatMap t.arityOf) := by
  obtain ⟨notes, hexport, hnotes⟩ :=
    exportAll_under t source.data (store.map Csv.Store.ensureFolder)
  refine ⟨notes, ?_, ?_⟩
  · intro limit before
    unfold produceRows
    rw [hexport]
    cases t.exportAll (store.map Csv.Store.ensureFolder) source.data with
    | error e => rfl
    | ok done =>
      obtain ⟨u, stored⟩ := done
      cases stored with
      | none => rfl
      | some filled => rfl
  · rintro hsource ⟨p, hp⟩
    apply hnotes hsource.data
    unfold produceRows at hp
    cases hdone : t.exportAll (store.map Csv.Store.ensureFolder) source.data with
    | error e => simp [hdone] at hp
    | ok done => exact ⟨done, rfl⟩

end Translation

/-- A run is the same under any limit, with the same diagnostics recorded. Where rows are written,
the notes on their widths are those of their statements. -/
theorem execute_under (source : Source) (options : Options) (target : Target)
    (name : Option Text) :
    ∃ recorded, (∀ limit, execute source { options with diagnosticsLimit := limit } target name =
        (execute source options target name).map (·.under limit recorded)) ∧
      (source.NoArity → options.mode ≠ .schema → (∃ p, execute source options target name = .ok p) →
        recorded.filter (·.kind = .rowArityMismatch) =
          source.data.flatMap (Translation.ofSource source options).arityOf) := by
  obtain ⟨notes, hsource, hnotes⟩ := Translation.ofSource_under source options
  have hoptions := Translation.options_ofSource source options
  unfold execute
  generalize Translation.ofSource source options = t at hsource hoptions ⊢
  cases target with
  | script =>
    obtain ⟨more, hscript, hmore⟩ := t.produceScript_under source name
    refine ⟨notes ++ more, ?_, ?_⟩
    · intro limit
      rw [hsource limit]
      cases options.mode with
      | rows => rfl
      | full => exact congrArg Except.ok (hscript limit notes)
      | schema => exact congrArg Except.ok (hscript limit notes)
    · intro hclean hschema hdone
      cases hmode : options.mode with
      | schema => exact absurd hmode hschema
      | rows =>
        obtain ⟨p, hp⟩ := hdone
        simp [hmode] at hp
      | full =>
        rw [List.filter_append, noArity_iff.mp (hnotes hclean.schema hclean.encoding),
          hmore hclean (hoptions ▸ hmode), List.nil_append]
  | rows store =>
    obtain ⟨more, hrows, hmore⟩ := t.produceRows_under source store
    refine ⟨notes ++ more, ?_, ?_⟩
    · intro limit
      rw [hsource limit]
      cases options.mode with
      | rows => exact hrows limit notes
      | full => rfl
      | schema => rfl
    · intro hclean hschema hdone
      cases hmode : options.mode with
      | schema => exact absurd hmode hschema
      | full =>
        obtain ⟨p, hp⟩ := hdone
        simp [hmode] at hp
      | rows =>
        simp only [hmode] at hdone
        rw [List.filter_append, noArity_iff.mp (hnotes hclean.schema hclean.encoding),
          hmore hclean hdone, List.nil_append]

/-- What a run has made that keeps at most `m` diagnostics, beside one that keeps at most `n`. -/
structure Produced.Beside (m n : Nat) (small large : Produced) : Prop where
  script : small.script = large.script
  store : small.store = large.store
  mode : small.outcome.mode = large.outcome.mode
  plan : small.outcome.plan = large.outcome.plan
  stats : small.outcome.stats = large.outcome.stats
  total : small.outcome.diagnostics.total = large.outcome.diagnostics.total
  counts : small.outcome.diagnostics.counts = large.outcome.diagnostics.counts
  entries : small.outcome.diagnostics.entries.toList =
    large.outcome.diagnostics.entries.toList.take m
  recorded : ∃ notes, small.outcome.diagnostics = .ofList m notes ∧
    small.outcome.diagnostics.Records notes ∧ large.outcome.diagnostics = .ofList n notes ∧
    large.outcome.diagnostics.Records notes

theorem Produced.beside_under {m n : Nat} (hmn : m ≤ n) (p : Produced) (notes : List Diagnostic) :
    Beside m n (p.under m notes) (p.under n notes) where
  script := rfl
  store := rfl
  mode := rfl
  plan := rfl
  stats := rfl
  total := by simp only [under, Diagnostics.total_ofList]
  counts := Diagnostics.counts_ofList m n notes
  entries := by
    simp only [under, Diagnostics.entries_ofList, List.take_take, Nat.min_eq_left hmn]
  recorded := ⟨notes, rfl, Diagnostics.records_ofList m notes, rfl,
    Diagnostics.records_ofList n notes⟩

/-- Two runs that differ in the limit on diagnostics fail together and for the same reason, or make
the same script, files, plan and counts, the one with the first of the diagnostics of the other. In
every state of either run all recorded diagnostics are counted, by kind too, the first ones are
kept, and one told once is told only if none of its kind was recorded before. -/
theorem execute_limits {m n : Nat} (hmn : m ≤ n) (source : Source) (options : Options)
    (target : Target) (name : Option Text) :
    ((∃ error, execute source { options with diagnosticsLimit := m } target name = .error error ∧
        execute source { options with diagnosticsLimit := n } target name = .error error) ∨
      ∃ small large, execute source { options with diagnosticsLimit := m } target name = .ok small ∧
        execute source { options with diagnosticsLimit := n } target name = .ok large ∧
        Produced.Beside m n small large) ∧
    ∀ stage : Stage, ∃ recorded, ∀ limit t,
      stage.state source { options with diagnosticsLimit := limit } name = .ok t →
        t.diagnostics = .ofList limit recorded ∧ t.diagnostics.Records recorded := by
  constructor
  · obtain ⟨recorded, hrun, -⟩ := execute_under source options target name
    rw [hrun m, hrun n]
    cases execute source options target name with
    | error error => exact .inl ⟨error, rfl, rfl⟩
    | ok p => exact .inr ⟨_, _, rfl, rfl, p.beside_under hmn recorded⟩
  · intro stage
    obtain ⟨recorded, hstate⟩ := stage.state_under source options name
    refine ⟨recorded, ?_⟩
    intro limit t ht
    rw [hstate limit] at ht
    cases hwithout : stage.state source options name with
    | error error => simp [hwithout, Except.map] at ht
    | ok u =>
      simp only [hwithout, Except.map, Except.ok.injEq] at ht
      have hdiagnostics : t.diagnostics = .ofList limit recorded := by rw [← ht]; rfl
      exact ⟨hdiagnostics, hdiagnostics ▸ Diagnostics.records_ofList limit recorded⟩

/-- A dump with three rows that are too short. -/
def shortRowsDump : Octets :=
  .ofText "CREATE TABLE t (a int, b int);\nINSERT INTO t VALUES (1),(2),(3);\n"

/-- Of three diagnostics one run keeps the first and another the first two. -/
theorem execute_limits_short_rows :
    ∃ small large,
      execute (.ofOctets shortRowsDump) { diagnosticsLimit := 1 } .script none = .ok small ∧
      execute (.ofOctets shortRowsDump) { diagnosticsLimit := 2 } .script none = .ok large ∧
      small.script = large.script ∧ small.outcome.diagnostics.total = 3 ∧
      large.outcome.diagnostics.total = 3 ∧
      small.outcome.diagnostics.entries.toList =
        large.outcome.diagnostics.entries.toList.take 1 ∧
      large.outcome.diagnostics.entries.size = 2 := by
  have hkept : (execute (.ofOctets shortRowsDump) { diagnosticsLimit := 2 } .script none).toOption.map
      (fun p => (p.outcome.diagnostics.total, p.outcome.diagnostics.entries.size)) =
        some (3, 2) := by
    decide +kernel
  obtain ⟨⟨error, -, hlarge⟩ | ⟨small, large, hsmall, hlarge, hbeside⟩, -⟩ :=
    execute_limits (by decide : 1 ≤ 2) (.ofOctets shortRowsDump) {} .script none
  · have herror : execute (.ofOctets shortRowsDump) { diagnosticsLimit := 2 } .script none =
      .error error := hlarge
    rw [herror] at hkept
    cases hkept
  · have hlarge : execute (.ofOctets shortRowsDump) { diagnosticsLimit := 2 } .script none =
      .ok large := hlarge
    rw [hlarge] at hkept
    simp only [Except.toOption, Option.map_some, Option.some.injEq, Prod.mk.injEq] at hkept
    obtain ⟨htotal, hsize⟩ := hkept
    exact ⟨small, large, hsmall, hlarge, hbeside.script, hbeside.total.trans htotal, htotal,
      hbeside.entries, hsize⟩

end SqlDump
