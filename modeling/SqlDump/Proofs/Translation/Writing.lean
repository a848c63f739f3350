import SqlDump.Proofs.Translation.Passes
import SqlDump.Proofs.Translation.Steps

/-!
# What a run writes for a statement

The data pass only counts and notes; the tables and the families of their columns stay as the schema
pass left them. So what a run writes for a statement is what it would write for it alone.

Main statements: `Translation.writeAll_split`, the script holds what is written for each statement;
`execute_writes`, so it does for each segment of a dump; `Postgres.renderInsert?_cells`, an
`INSERT` is printed from its values as they are written.
-/

namespace SqlDump

namespace Postgres

open Text

/-- The values of the rows as they are written, row by row. -/
def cells (i : Insert) (families : List TypeFamily) : List (List Text) :=
  i.rows.map fun row => row.mapIdx fun k v => renderValue v (families.getD k .other) i.encoding

/-- What is written before the rows. -/
def insertHead (i : Insert) : Text :=
  "INSERT INTO " ++ quoteName i.table ++
    (match i.columns with
      | some columns => " (" ++ quoteNames columns ++ ")"
      | none => []) ++ " VALUES\n"

/-- The `INSERT` with its values as they are written. -/
def insertText (i : Insert) (cells : List (List Text)) : Text :=
  insertHead i ++ join ",\n" (cells.map fun row => "(" ++ join ", " row ++ ")") ++ ";"

/-- The statement is printed from its values as they are written. -/
theorem renderInsert?_cells {i : Insert} (h : i.rows ≠ []) (families : List TypeFamily) :
    renderInsert? i families = some (insertText i (cells i families)) := by
  have hrows : i.rows.map (renderRow families i.encoding) =
      (cells i families).map fun row => "(" ++ join ", " row ++ ")" := by
    rw [cells, List.map_map]
    rfl
  unfold renderInsert?
  rw [if_neg (by simpa using h), hrows]
  rfl

/-- What the data pass writes: rows, or a text of the dump. -/
inductive Part.IsData : Part → Prop
  | rows (i : Insert) (families : List TypeFamily) : IsData (.insert i families)
  | text (sql : Text) : IsData (.other sql)

end Postgres

namespace Translation

variable {t u : Translation}

theorem options_ofSource (source : Source) (options : Options) :
    (ofSource source options).options = options := by
  have schema (statements : List PlacedStatement) (t : Translation) :
      (statements.foldl schemaStatement t).options = t.options := by
    induction statements generalizing t with
    | nil => rfl
    | cons s statements ih => rw [List.foldl_cons, ih, (schemaStep t s).options]
  have all := schema source.schema (start options)
  unfold ofSource
  dsimp only
  split <;> exact all

/-- The families of the columns are those of the tables. -/
theorem families_ofSource (source : Source) (options : Options) :
    (ofSource source options).families =
      (ofSource source options).catalog.tables.map Postgres.families := by
  unfold ofSource finishSchema
  rfl

/-- Runs that know the same tables. -/
structure SameTables (t u : Translation) : Prop where
  catalog : t.catalog = u.catalog
  families : t.families = u.families

theorem SameTables.refl (t : Translation) : SameTables t t := ⟨rfl, rfl⟩

theorem SameTables.trans {v : Translation} (h : SameTables t u) (k : SameTables u v) :
    SameTables t v :=
  ⟨h.catalog.trans k.catalog, h.families.trans k.families⟩

/-- Runs that know the same tables, with the places of their definitions and the plan for them. -/
structure SameSchema (t u : Translation) : Prop extends SameTables t u where
  origins : t.origins = u.origins
  plan : t.plan = u.plan

theorem SameSchema.refl (t : Translation) : SameSchema t t := ⟨.refl t, rfl, rfl⟩

theorem SameSchema.trans {v : Translation} (h : SameSchema t u) (k : SameSchema u v) :
    SameSchema t v :=
  ⟨h.toSameTables.trans k.toSameTables, h.origins.trans k.origins, h.plan.trans k.plan⟩

theorem SameTables.familiesFor (h : SameTables t u) (i : Insert) :
    t.familiesFor i = u.familiesFor i := by
  simp only [Translation.familiesFor, h.catalog, h.families]

/-- What a statement that is no `INSERT` does to a run in the data pass: neither the tables nor the
counts of `INSERT` statements and of their rows change, and only texts of the dump are written. -/
structure TextStep (t : Translation) (step : Translation × Postgres.Script) : Prop where
  tables : SameSchema step.1 t
  inserts : step.1.stats.inserts = t.stats.inserts
  rows : step.1.stats.rows = t.stats.rows
  texts : ∃ texts : List Text, step.2 = texts.map .other

theorem textStep_passStatement (t : Translation) (text : Text) :
    TextStep t (t.passStatement text) := by
  unfold passStatement
  split
  · next sql _ => exact ⟨⟨⟨rfl, rfl⟩, rfl, rfl⟩, rfl, rfl, [sql], rfl⟩
  · exact ⟨.refl t, rfl, rfl, [], rfl⟩

/-- One statement that is no `INSERT` in the data pass. -/
theorem textStep (t : Translation) (s : PlacedStatement) (o : OtherStatement) :
    TextStep t (t.writeOther s o) := by
  unfold writeOther
  split
  · exact ⟨⟨⟨rfl, rfl⟩, rfl, rfl⟩, rfl, rfl, [_], rfl⟩
  · split
    · -- The note that is recorded first changes nothing that is told of a step.
      have hstep := textStep_passStatement (t.record (noteOn s .unclassifiedStatement o.table
        "INSERT without a VALUES list passed through")) o.text
      exact ⟨hstep.tables.trans ⟨⟨rfl, rfl⟩, rfl, rfl⟩, hstep.inserts, hstep.rows, hstep.texts⟩
    · split
      · exact ⟨.refl t, rfl, rfl, [], rfl⟩
      · exact textStep_passStatement t o.text
    · unfold passComment
      split
      · exact ⟨⟨⟨rfl, rfl⟩, rfl, rfl⟩, rfl, rfl, [], rfl⟩
      · split
        · next sql _ => exact ⟨.refl t, rfl, rfl, [sql], rfl⟩
        · exact ⟨⟨⟨rfl, rfl⟩, rfl, rfl⟩, rfl, rfl, [], rfl⟩
    all_goals exact ⟨⟨⟨rfl, rfl⟩, rfl, rfl⟩, rfl, rfl, [], rfl⟩

/-- The data pass leaves the tables as they are. -/
theorem sameSchema_writeData (t : Translation) (s : PlacedStatement) :
    SameSchema (t.writeData s).1 t := by
  unfold writeData
  split
  · exact .refl t
  · unfold writeInsert noteZeroDates
    dsimp only
    split
    · exact ⟨⟨rfl, rfl⟩, rfl, rfl⟩
    · split <;> exact ⟨⟨rfl, rfl⟩, rfl, rfl⟩
  · exact (textStep t s _).tables

theorem sameTables_writeData (t : Translation) (s : PlacedStatement) :
    SameTables (t.writeData s).1 t :=
  (sameSchema_writeData t s).toSameTables

theorem writeData_insert {s : PlacedStatement} {i : Insert} (h : s.statement = .insert i)
    (hrows : i.rows ≠ []) (t : Translation) :
    (t.writeData s).2 = [.insert i (t.familiesFor i)] := by
  unfold writeData writeInsert
  rw [h]
  dsimp only
  rw [if_neg (by simpa using hrows)]

theorem writeAll_cons (t : Translation) (s : PlacedStatement) (rest : List PlacedStatement) :
    t.writeAll (s :: rest) = (((t.writeData s).1.writeAll rest).1,
      (t.writeData s).2 ++ ((t.writeData s).1.writeAll rest).2) := by
  have hdone := writeFrom_done ((t.writeData s).2.reverse ++ []) (t.writeData s).1 rest
  rw [List.append_nil, List.reverse_reverse] at hdone
  rw [← hdone, ← List.append_nil (t.writeData s).2.reverse]
  rfl

theorem isData_writeData {s : PlacedStatement} {part : Postgres.Part}
    (h : part ∈ (t.writeData s).2) : part.IsData := by
  unfold writeData at h
  split at h
  · cases h
  · unfold writeInsert at h
    dsimp only at h
    split at h
    · cases h
    · obtain rfl := List.mem_singleton.mp h
      exact .rows ..
  · next o _ =>
    obtain ⟨texts, htexts⟩ := (textStep t s o).texts
    rw [htexts] at h
    obtain ⟨text, -, rfl⟩ := List.mem_map.mp h
    exact .text text

/-- The data pass writes nothing but data, and leaves the tables as they are. -/
theorem isData_writeAll (t : Translation) (ss : List PlacedStatement) :
    (∀ part ∈ (t.writeAll ss).2, part.IsData) ∧ SameSchema (t.writeAll ss).1 t := by
  induction ss generalizing t with
  | nil => exact ⟨List.forall_mem_nil _, .refl t⟩
  | cons s ss ih =>
    obtain ⟨hdata, hsame⟩ := ih (t.writeData s).1
    rw [writeAll_cons]
    refine ⟨?_, hsame.trans (sameSchema_writeData t s)⟩
    intro part hpart
    rcases List.mem_append.mp hpart with hfirst | hrest
    · exact isData_writeData hfirst
    · exact hdata part hrest

/-- A script holds what is written for each statement. -/
theorem writeAll_split (t : Translation) (first : List PlacedStatement) (s : PlacedStatement)
    (rest : List PlacedStatement) :
    ∃ u before behind, SameTables u t ∧
      (t.writeAll (first ++ s :: rest)).2 = before ++ ((u.writeData s).2 ++ behind) := by
  induction first generalizing t with
  | nil =>
    refine ⟨t, [], ((t.writeData s).1.writeAll rest).2, .refl t, ?_⟩
    rw [List.nil_append, writeAll_cons]
    rfl
  | cons d first ih =>
    obtain ⟨u, before, behind, hu, heq⟩ := ih (t.writeData d).1
    refine ⟨u, (t.writeData d).2 ++ before, behind, hu.trans (sameTables_writeData t d), ?_⟩
    rw [List.cons_append, writeAll_cons]
    dsimp only
    rw [heq, List.append_assoc]

end Translation

/-- A run in full mode writes for each segment of a dump what it would write for it alone. -/
theorem execute_writes {bs : Octets} {options : Options} {first rest : List Segment} {s : Segment}
    (hmode : options.mode = .full) (hsegments : Segment.all bs = first ++ s :: rest)
    (name : Option Text) :
    ∃ produced u before behind, execute (.ofOctets bs) options .script name = .ok produced ∧
      Translation.SameTables u (.ofSource (.ofOctets bs) options) ∧
      produced.script = before ++ ((u.writeData (.ofSegment s)).2 ++ behind) := by
  have hoptions := Translation.options_ofSource (.ofOctets bs) options
  generalize htranslation : Translation.ofSource (.ofOctets bs) options = t at hoptions
  obtain ⟨u, before, behind, hu, hdata⟩ := (t.writeSchema name).1.writeAll_split
    (first.map .ofSegment) (.ofSegment s) (rest.map .ofSegment)
  have hall : (t.writeSchema name).1.writeAll (Source.ofOctets bs).data =
      (t.writeSchema name).1.writeAll (first.map .ofSegment ++ .ofSegment s ::
        rest.map .ofSegment) := by
    rw [← List.map_cons, ← List.map_append, ← hsegments]
    exact Translation.writeFrom_data [] _ (Segment.all bs)
  have hfull : (t.writeSchema name).1.options.mode = .full := by
    rw [← hmode, ← hoptions]
    rfl
  refine ⟨t.produceScript (.ofOctets bs) name, u, t.schemaScript name ++ before,
    behind ++ ((t.writeSchema name).1.writeAll (Source.ofOctets bs).data).1.epilogue, ?_,
    hu.trans ⟨rfl, rfl⟩, ?_⟩
  · simp only [execute, hmode, htranslation]
  · have hscript : (t.produceScript (.ofOctets bs) name).script = t.schemaScript name ++
        ((t.writeSchema name).1.writeAll (Source.ofOctets bs).data).2 ++
        ((t.writeSchema name).1.writeAll (Source.ofOctets bs).data).1.epilogue := by
      unfold Translation.produceScript
      simp only [if_pos hfull]
      rfl
    rw [hscript, hall, hdata]
    simp only [List.append_assoc]

/-- A run in full mode writes the rows of an `INSERT`, for the columns that the schema pass
knows. -/
theorem execute_insert {bs : Octets} {options : Options} {first rest : List Segment} {s : Segment}
    (hmode : options.mode = .full) (hsegments : Segment.all bs = first ++ s :: rest) {i : Insert}
    (hi : (PlacedStatement.ofSegment s).statement = .insert i) (name : Option Text) :
    ∃ produced, execute (.ofOctets bs) options .script name = .ok produced ∧
      (i.rows ≠ [] → .insert i ((Translation.ofSource (.ofOctets bs) options).familiesFor i) ∈
        produced.script) := by
  obtain ⟨produced, u, before, behind, hrun, htables, hscript⟩ :=
    execute_writes hmode hsegments name
  refine ⟨produced, hrun, fun hrows => ?_⟩
  rw [hscript, Translation.writeData_insert hi hrows, htables.familiesFor]
  simp

end SqlDump
