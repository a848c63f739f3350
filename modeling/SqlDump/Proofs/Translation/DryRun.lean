import SqlDump.Proofs.Diagnostic
import SqlDump.Translation.Run

/-!
# Dry runs

A run into CSV files can be made without the files, to learn what it would have to tell. It
reads and counts the same rows and finds the same plan. What it does not learn is which zero dates
were written as empty fields, since they are counted as they are written.

Main statements: `Translation.exportAll_checked` and `Translation.exportAll_written`, what either
run leaves behind; `execute_dry`, a dry run has the outcome of a real one up to the number of files
and the notes on zero dates.
-/

namespace SqlDump

namespace Translation

/-- The notes on the rows of a statement, whether they are written or not. -/
def checkNotes (t : Translation) (s : PlacedStatement) : List Diagnostic :=
  match s.statement with
  | .create _ => []
  | .insert i => s.notes ++ t.arityNotes s i ++ (trailingNote? s i).toList
  | .other o =>
    if o.terminated && o.kind == .insert then
      [noteOn s .unclassifiedStatement o.table "INSERT without a VALUES list not exported"]
    else
      []

/-- The note that writing the rows of a statement leaves, where it empties zero dates. -/
def dateNotes (t : Translation) (s : PlacedStatement) : List Diagnostic :=
  match s.statement with
  | .insert i =>
    let n := Csv.emptiedDates i (t.familiesFor i)
    if n = 0 then []
    else [noteOn s .lossyConversion i.table (Text.ofNat n ++ " zero date value(s) written as NULL")]
  | _ => []

/-- The notes on the rows of a statement that are written. -/
def writeNotes (t : Translation) (s : PlacedStatement) : List Diagnostic :=
  t.checkNotes s ++ t.dateNotes s

/-- The counts with the rows of a statement. -/
def countRows (stats : Stats) (s : PlacedStatement) : Stats :=
  match s.statement with
  | .insert i => { stats with inserts := stats.inserts + 1, rows := stats.rows + i.rows.length }
  | _ => stats

/-- The run behind statements whose rows were counted and that left the given notes. -/
def behind (t : Translation) (notes : PlacedStatement → List Diagnostic)
    (ss : List PlacedStatement) : Translation :=
  { t with
    diagnostics := t.diagnostics.pushAll (ss.flatMap notes)
    stats := ss.foldl countRows t.stats }

variable {t t' : Translation} {s : PlacedStatement} {ss : List PlacedStatement}

theorem behind_cons (t : Translation) (notes : PlacedStatement → List Diagnostic)
    (s : PlacedStatement) (ss : List PlacedStatement) :
    (t.behind notes [s]).behind notes ss = t.behind notes (s :: ss) := by
  unfold behind
  simp only [List.flatMap_cons, List.flatMap_nil, List.append_nil, Diagnostics.pushAll_append,
    List.foldl_cons, List.foldl_nil]

theorem recordAll_behind (t : Translation) (first second : PlacedStatement → List Diagnostic)
    (s : PlacedStatement) :
    (t.behind first [s]).recordAll (second s) =
      t.behind (fun s => first s ++ second s) [s] := by
  unfold behind recordAll
  simp only [List.flatMap_cons, List.flatMap_nil, List.append_nil, Diagnostics.pushAll_append]

theorem checkInsert_eq {i : Insert} (h : s.statement = .insert i) (t : Translation) :
    t.checkInsert s i = t.behind t.checkNotes [s] := by
  unfold behind
  simp only [checkNotes, countRows, h, List.flatMap_cons, List.flatMap_nil, List.append_nil,
    List.foldl_cons, List.foldl_nil]
  rfl

theorem noteZeroDates_eq {i : Insert} (h : s.statement = .insert i) (t u : Translation) :
    u.noteZeroDates s i.table (Csv.emptiedDates i (t.familiesFor i)) =
      u.recordAll (t.dateNotes s) := by
  unfold noteZeroDates dateNotes
  rw [h]
  dsimp only
  split
  · rfl
  · rfl

theorem exportRows_other {o : OtherStatement} (h : s.statement = .other o) (t : Translation)
    (store : Option Csv.Store) : t.exportRows s store = .ok (t.behind t.checkNotes [s], store) := by
  unfold exportRows behind
  simp only [checkNotes, countRows, h, List.flatMap_cons, List.flatMap_nil, List.append_nil,
    List.foldl_cons, List.foldl_nil]
  split
  · rfl
  · rfl

theorem exportRows_create {table : Table} (h : s.statement = .create table) (t : Translation)
    (store : Option Csv.Store) : t.exportRows s store = .ok (t.behind t.checkNotes [s], store) := by
  unfold exportRows behind
  simp only [checkNotes, countRows, h, List.flatMap_cons, List.flatMap_nil, List.append_nil,
    List.foldl_cons, List.foldl_nil]
  rfl

theorem exportRows_checked (t : Translation) (s : PlacedStatement) :
    t.exportRows s none = .ok (t.behind t.checkNotes [s], none) := by
  cases h : s.statement with
  | create table => exact exportRows_create h t none
  | other o => exact exportRows_other h t none
  | insert i =>
    unfold exportRows
    simp only [h, checkInsert_eq h]

theorem exportRows_written {store : Csv.Store} {written : Option Csv.Store}
    (h : t.exportRows s (some store) = .ok (t', written)) :
    t' = t.behind t.writeNotes [s] ∧ written.isSome = true := by
  have hnone (hs : ∀ i, s.statement ≠ .insert i) : t.dateNotes s = [] := by
    unfold dateNotes
    split
    · next i hi => exact absurd hi (hs i)
    · rfl
  have hwritten : t.behind t.writeNotes [s] =
      (t.behind t.checkNotes [s]).recordAll (t.dateNotes s) :=
    (recordAll_behind t t.checkNotes t.dateNotes s).symm
  rw [hwritten]
  cases hs : s.statement with
  | create table =>
    rw [exportRows_create hs] at h
    cases h
    rw [hnone (by simp [hs])]
    exact ⟨rfl, rfl⟩
  | other o =>
    rw [exportRows_other hs] at h
    cases h
    rw [hnone (by simp [hs])]
    exact ⟨rfl, rfl⟩
  | insert i =>
    unfold exportRows at h
    simp only [hs, checkInsert_eq hs, noteZeroDates_eq hs] at h
    cases hstore : store.insert i (t.familiesFor i) with
    | error e => simp [hstore, Except.map] at h
    | ok next =>
      simp only [hstore, Except.map, Except.ok.injEq, Prod.mk.injEq] at h
      obtain ⟨rfl, rfl⟩ := h
      exact ⟨rfl, rfl⟩

/-- A dry run cannot fail, and leaves the notes on the rows. -/
theorem exportAll_checked (t : Translation) (ss : List PlacedStatement) :
    t.exportAll none ss = .ok (t.behind t.checkNotes ss, none) := by
  induction ss generalizing t with
  | nil => rfl
  | cons s ss ih =>
    rw [exportAll, exportRows_checked, ← behind_cons _ _ s ss]
    exact ih _

/-- A real run leaves the notes on the rows and, statement by statement, those on dates. -/
theorem exportAll_written {store : Csv.Store} {written : Option Csv.Store}
    (h : t.exportAll (some store) ss = .ok (t', written)) :
    t' = t.behind t.writeNotes ss ∧ written.isSome = true := by
  induction ss generalizing t store with
  | nil =>
    cases h
    exact ⟨rfl, rfl⟩
  | cons s ss ih =>
    rw [exportAll] at h
    cases hs : t.exportRows s (some store) with
    | error e => simp [hs] at h
    | ok next =>
      obtain ⟨u, stored⟩ := next
      obtain ⟨rfl, hstored⟩ := exportRows_written hs
      obtain ⟨next, rfl⟩ := Option.isSome_iff_exists.mp hstored
      simp only [hs] at h
      rw [← behind_cons]
      exact ih h

/-- No zero date among the rows of the statements is written as an empty field. -/
def EmptiesNoDate (t : Translation) (ss : List PlacedStatement) : Prop :=
  ∀ s ∈ ss, ∀ i, s.statement = .insert i → Csv.emptiedDates i (t.familiesFor i) = 0

theorem dateNotes_eq_nil_iff (t : Translation) (s : PlacedStatement) :
    t.dateNotes s = [] ↔
      ∀ i, s.statement = .insert i → Csv.emptiedDates i (t.familiesFor i) = 0 := by
  unfold dateNotes
  cases s.statement with
  | create table => simp
  | other o => simp
  | insert i =>
    simp only [Statement.insert.injEq, forall_eq']
    by_cases hn : Csv.emptiedDates i (t.familiesFor i) = 0
    · simp only [hn, if_pos]
    · simp only [hn, if_neg, not_false_eq_true, List.cons_ne_nil]

theorem emptiesNoDate_iff (t : Translation) (ss : List PlacedStatement) :
    t.EmptiesNoDate ss ↔ ss.flatMap t.dateNotes = [] := by
  simp only [EmptiesNoDate, List.flatMap_eq_nil_iff, dateNotes_eq_nil_iff]

theorem length_writeNotes (t : Translation) (ss : List PlacedStatement) :
    (ss.flatMap t.writeNotes).length =
      (ss.flatMap t.checkNotes).length + (ss.flatMap t.dateNotes).length := by
  induction ss with
  | nil => rfl
  | cons s ss ih =>
    simp only [List.flatMap_cons, List.length_append, ih, writeNotes]
    omega

theorem flatMap_writeNotes (h : t.EmptiesNoDate ss) :
    ss.flatMap t.writeNotes = ss.flatMap t.checkNotes := by
  have hnone (s : PlacedStatement) (hs : s ∈ ss) : t.writeNotes s = t.checkNotes s := by
    rw [writeNotes, (dateNotes_eq_nil_iff t s).mpr (h s hs), List.append_nil]
  rw [List.flatMap, List.flatMap, List.map_congr_left hnone]

/-- A real run has one note more for each statement whose dates it empties. -/
theorem total_written (t : Translation) (ss : List PlacedStatement) :
    (t.behind t.writeNotes ss).diagnostics.total =
      (t.behind t.checkNotes ss).diagnostics.total + (ss.flatMap t.dateNotes).length := by
  simp only [behind, Diagnostics.total_pushAll, length_writeNotes]
  omega

theorem diagnostics_checked_iff (t : Translation) (ss : List PlacedStatement) :
    (t.behind t.checkNotes ss).diagnostics = (t.behind t.writeNotes ss).diagnostics ↔
      t.EmptiesNoDate ss := by
  constructor
  · intro h
    have htotal := total_written t ss
    rw [← h] at htotal
    rw [emptiesNoDate_iff, ← List.length_eq_zero_iff]
    omega
  · intro h
    simp only [behind, flatMap_writeNotes h]

theorem isEmpty_written_iff (t : Translation) (ss : List PlacedStatement) :
    (t.behind t.writeNotes ss).diagnostics.isEmpty = true ↔
      (t.behind t.checkNotes ss).diagnostics.isEmpty = true ∧ t.EmptiesNoDate ss := by
  simp only [Diagnostics.isEmpty_iff, total_written, emptiesNoDate_iff, ← List.length_eq_zero_iff]
  omega

end Translation

/-- Where a real run into CSV files comes to its end, the dry run finds the same mode and plan
and the same counts but for the files. It has the same diagnostics, and finds a dump clean where the
real run does, as long as no zero date is written as an empty field; and only then. -/
theorem execute_dry {source : Source} {options : Options} {store : Csv.Store}
    {name : Option Text} {real : Produced}
    (hreal : execute source options (.rows (some store)) name = .ok real) :
    ∃ dry, execute source options (.rows none) name = .ok dry ∧
      dry.outcome.mode = real.outcome.mode ∧ dry.outcome.plan = real.outcome.plan ∧
      real.outcome.stats = { dry.outcome.stats with files := real.outcome.stats.files } ∧
      (dry.outcome.diagnostics = real.outcome.diagnostics ↔
        (Translation.ofSource source options).EmptiesNoDate source.data) ∧
      (real.outcome.diagnostics.isEmpty = true ↔ dry.outcome.diagnostics.isEmpty = true ∧
        (Translation.ofSource source options).EmptiesNoDate source.data) := by
  cases hmode : options.mode with
  | full => simp [execute, hmode] at hreal
  | schema => simp [execute, hmode] at hreal
  | rows =>
    simp only [execute, hmode, Translation.produceRows, Option.map_some] at hreal
    simp only [execute, hmode, Translation.produceRows, Option.map_none,
      Translation.exportAll_checked]
    refine ⟨_, rfl, ?_⟩
    generalize Translation.ofSource source options = t at hreal ⊢
    cases hexport : t.exportAll (some store.ensureFolder) source.data with
    | error e => simp [hexport] at hreal
    | ok done =>
      obtain ⟨u, written⟩ := done
      obtain ⟨rfl, hwritten⟩ := Translation.exportAll_written hexport
      obtain ⟨filled, rfl⟩ := Option.isSome_iff_exists.mp hwritten
      simp only [hexport, Except.ok.injEq] at hreal
      subst hreal
      refine ⟨rfl, rfl, rfl, ?_, ?_⟩
      · exact Translation.diagnostics_checked_iff t source.data
      · exact Translation.isEmpty_written_iff t source.data

/-- A dump with one row, which is a date. -/
def dateDump (date : Text) : Octets :=
  .ofText ("CREATE TABLE t (d date);\nINSERT INTO t VALUES ('" ++ date ++ "');\n")

/-- A dry run finds nothing wrong with a zero date, which the real run notes. -/
theorem execute_dry_zero_date :
    (execute (.ofOctets (dateDump "0000-00-00")) { mode := .rows } (.rows none) none).toOption.map
        (·.outcome.diagnostics.total) = some 0 ∧
      (execute (.ofOctets (dateDump "0000-00-00")) { mode := .rows } (.rows (some {}))
        none).toOption.map (·.outcome.diagnostics.total) = some 1 := by
  decide +kernel

/-- Any other date passes both. -/
theorem execute_dry_date :
    ∃ real dry,
      execute (.ofOctets (dateDump "2001-02-03")) { mode := .rows } (.rows (some {})) none =
        .ok real ∧
      execute (.ofOctets (dateDump "2001-02-03")) { mode := .rows } (.rows none) none = .ok dry ∧
      dry.outcome.plan = real.outcome.plan ∧ real.outcome.stats.files = 1 ∧
      real.outcome.stats = { dry.outcome.stats with files := 1 } ∧
      dry.outcome.diagnostics = real.outcome.diagnostics := by
  have hfiles : (execute (.ofOctets (dateDump "2001-02-03")) { mode := .rows } (.rows (some {}))
      none).toOption.map (·.outcome.stats.files) = some 1 := by
    decide +kernel
  have hdates : (Source.ofOctets (dateDump "2001-02-03")).data.flatMap
      (Translation.ofSource (.ofOctets (dateDump "2001-02-03")) { mode := .rows }).dateNotes =
        [] := by
    decide +kernel
  cases hreal : execute (.ofOctets (dateDump "2001-02-03")) { mode := .rows } (.rows (some {}))
      none with
  | error e =>
    rw [hreal] at hfiles
    cases hfiles
  | ok real =>
    obtain ⟨dry, hdry, -, hplan, hstats, hnotes, -⟩ := execute_dry hreal
    rw [hreal] at hfiles
    have hone : real.outcome.stats.files = 1 := by simpa [Except.toOption] using hfiles
    rw [hone] at hstats
    refine ⟨real, dry, rfl, hdry, hplan, hone, hstats, ?_⟩
    exact hnotes.mpr ((Translation.emptiesNoDate_iff _ _).mpr hdates)

end SqlDump
