import SqlDump.Proofs.Plan.Emission
import SqlDump.Proofs.Schema.References
import SqlDump.Proofs.Translation.Accounting

/-!
# Names of tables in a script

A table is found by its name in any case, and printed under the name that a statement gives it:
where it is created, the name of its last definition, and where rows are written to it or a foreign
key refers to it, the name that stands there. Where a dump spells these names like the definitions,
a script spells a table everywhere as where it creates it.

Main statements: `Translation.spells_ofSource`, what the schema pass knows of the names of tables;
`execute_spells`, the names in the script of a dump; `execute_misspells`, a script that spells a
table in two ways.
-/

namespace SqlDump

open Text

namespace Statement

/-- The names that a statement gives to tables in rows and foreign keys. -/
def named : Statement → List Text
  | .create table => table.references
  | .insert i => [i.table]
  | .other o => if o.terminated && o.kind == .alterTable then Alteration.references o.text else []

/-- The name of the table that a statement defines. -/
def defined? : Statement → Option Text
  | .create table => some table.name
  | _ => none

end Statement

namespace PlacedStatement

/-- The names that statements give to tables in rows and foreign keys. -/
def named (ss : List PlacedStatement) : List Text := ss.flatMap (·.statement.named)

/-- The name of a table where statements define it for the last time. -/
def spelling? (ss : List PlacedStatement) (name : Text) : Option Text :=
  ((ss.filterMap (·.statement.defined?)).filter fun defined => lower defined == lower name).getLast?

variable {ss : List PlacedStatement} {s : PlacedStatement}

theorem named_append (ss more : List PlacedStatement) : named (ss ++ more) = named ss ++ named more :=
  List.flatMap_append

theorem spelling?_create {table : Table} (h : s.statement = .create table) (name : Text) :
    spelling? (ss ++ [s]) name =
      if lower table.name = lower name then some table.name else spelling? ss name := by
  unfold spelling?
  rw [List.filterMap_append, List.filter_append]
  by_cases same : lower table.name = lower name
  · simp [h, Statement.defined?, same]
  · simp [h, Statement.defined?, same]

theorem spelling?_undefined (h : ∀ table, s.statement ≠ .create table) (name : Text) :
    spelling? (ss ++ [s]) name = spelling? ss name := by
  have hdefined : s.statement.defined? = none := by
    cases hs : s.statement with
    | create table => exact absurd hs (h table)
    | _ => rfl
  unfold spelling?
  rw [List.filterMap_append, List.filter_append]
  simp [hdefined]

end PlacedStatement

open PlacedStatement (named spelling?)

/-- A statement that defines a table is the text of a definition. -/
theorem Statement.create_of_parse {text : Text} {terminated : Bool} {table : Table}
    (h : (parse text terminated).1 = .create table) :
    ∃ notes, Table.parse? text = some (table, notes) := by
  unfold parse at h
  dsimp only at h
  split at h
  · cases h
  split at h
  · split at h
    · next notes hparse =>
      cases h
      exact ⟨notes, hparse⟩
    · cases h
  · split at h <;> cases h
  · cases h

/-- The foreign keys of a table that a segment defines are its own. -/
theorem PlacedStatement.ownsKeys_ofSegment {segment : Segment} {table : Table}
    (h : (ofSegment segment).statement = .create table) : table.OwnsKeys := by
  have hstatement : ((Statement.parse segment.decode.1 segment.terminated).1.withEncoding
      segment.decode.2) = .create table := h
  cases hparse : (Statement.parse segment.decode.1 segment.terminated).1 with
  | create found =>
    rw [hparse] at hstatement
    cases hstatement
    obtain ⟨notes, hparse⟩ := Statement.create_of_parse hparse
    exact Table.ownsKeys_parse? hparse
  | insert i =>
    rw [hparse] at hstatement
    cases hstatement
  | other o =>
    rw [hparse] at hstatement
    cases hstatement

/-! ### The schema pass -/

/-- What is known of the tables behind statements: each is found under the name of its last
definition, and its foreign keys are its own and refer to tables by names that the statements give
them. -/
structure Catalog.Spells (c : Catalog) (ss : List PlacedStatement) : Prop where
  names : ∀ name, (c.find? name).map Table.name = spelling? ss name
  owned : ∀ table ∈ c.tables, table.OwnsKeys
  references : ∀ table ∈ c.tables, ∀ key ∈ table.foreignKeys, key.referencedTable ∈ named ss

namespace Translation

open Catalog (Spells)

variable {c : Catalog} {ss : List PlacedStatement} {s : PlacedStatement}

/-- A definition, of a table whose keys are its own. -/
theorem spells_define (h : c.Spells ss) {table : Table} (hs : s.statement = .create table)
    (howns : table.OwnsKeys) : (c.insert table).Spells (ss ++ [s]) := by
  constructor
  · intro name
    rw [Catalog.find?_insert, PlacedStatement.spelling?_create hs, ← h.names]
    split <;> rfl
  · intro other hother
    rcases Catalog.mem_insert hother with rfl | hkept
    · exact howns
    · exact h.owned other hkept
  · intro other hother key hkey
    rw [PlacedStatement.named_append, List.mem_append]
    rcases Catalog.mem_insert hother with rfl | hkept
    · refine .inr ?_
      rw [named, List.flatMap_singleton, hs]
      exact List.mem_map_of_mem hkey
    · exact .inl (h.references other hkept key hkey)

/-- A statement that leaves the tables as they are. -/
theorem spells_keep (h : c.Spells ss) (hs : ∀ table, s.statement ≠ .create table) :
    c.Spells (ss ++ [s]) := by
  constructor
  · intro name
    rw [PlacedStatement.spelling?_undefined hs, h.names]
  · exact h.owned
  · intro table htable key hkey
    rw [PlacedStatement.named_append, List.mem_append]
    exact .inl (h.references table htable key hkey)

/-- A statement that alters a table. -/
theorem spells_alter (h : c.Spells ss) {o : OtherStatement} (hs : s.statement = .other o)
    (hkind : (o.terminated && o.kind == .alterTable) = true) {a : Alteration} {d : Catalog}
    (hparse : Alteration.parse? c o.text = some (a, d)) : d.Spells (ss ++ [s]) := by
  obtain ⟨id, old, altered, hold, rfl, hname, hkeys⟩ := Alteration.parse?_eq hparse
  have hmem : old ∈ c.tables := List.mem_of_getElem? hold
  have hundefined : ∀ table, s.statement ≠ .create table := by
    rw [hs]
    intro table hcreate
    cases hcreate
  constructor
  · intro name
    rw [Catalog.map_name_find?_set hold hname, PlacedStatement.spelling?_undefined hundefined,
      h.names]
  · intro table htable key hkey
    rcases List.mem_or_eq_of_mem_set htable with hkept | rfl
    · exact h.owned table hkept key hkey
    · rw [hname]
      rcases hkeys key hkey with hkept | ⟨howns, -⟩
      · exact h.owned old hmem key hkept
      · exact howns
  · intro table htable key hkey
    rw [PlacedStatement.named_append, List.mem_append]
    rcases List.mem_or_eq_of_mem_set htable with hkept | rfl
    · exact .inl (h.references table hkept key hkey)
    · rcases hkeys key hkey with hkept | ⟨-, hreference⟩
      · exact .inl (h.references old hmem key hkept)
      · refine .inr ?_
        rw [named, List.flatMap_singleton, hs, Statement.named, if_pos hkind]
        exact hreference

/-- One statement of a dump. -/
theorem spells_step {d : Catalog} (hstep : TableStep c s.statement d) (h : c.Spells ss)
    (howns : ∀ table, s.statement = .create table → table.OwnsKeys) : d.Spells (ss ++ [s]) := by
  generalize hstatement : s.statement = statement at hstep
  cases hstep with
  | define hs =>
    rw [hs] at hstatement
    exact spells_define h hstatement (howns _ hstatement)
  | alter hs hkind hparse =>
    rw [hs] at hstatement
    exact spells_alter h hstatement hkind hparse
  | keep hs =>
    rw [← hstatement] at hs
    exact spells_keep h hs

/-- All statements of a dump. -/
theorem spells_foldl {t : Translation} (h : t.catalog.Spells ss) {more : List PlacedStatement}
    (howns : ∀ s ∈ more, ∀ table, s.statement = .create table → table.OwnsKeys) :
    (more.foldl schemaStatement t).catalog.Spells (ss ++ more) := by
  induction more generalizing t ss with
  | nil =>
    rw [List.append_nil]
    exact h
  | cons s more ih =>
    have hstep := spells_step (schemaStep t s).tables h (howns s List.mem_cons_self)
    have hrest := ih hstep fun s hs => howns s (List.mem_cons_of_mem _ hs)
    rw [List.append_assoc] at hrest
    exact hrest

/-- The tables of a run over a dump. -/
theorem spells_ofSource (bs : Octets) (options : Options) :
    (ofSource (.ofOctets bs) options).catalog.Spells (Document.ofOctets bs).statements := by
  have hempty : (start options).catalog.Spells [] := by
    refine ⟨fun _ => rfl, ?_, ?_⟩
    · intro table htable
      cases htable
    · intro table htable
      cases htable
  have howns : ∀ s ∈ (Document.ofOctets bs).statements, ∀ table,
      s.statement = .create table → table.OwnsKeys := by
    intro s hs table htable
    obtain ⟨segment, -, rfl⟩ := List.mem_map.mp hs
    exact PlacedStatement.ownsKeys_ofSegment htable
  have hcatalog : (ofSource (.ofOctets bs) options).catalog =
      ((Document.ofOctets bs).statements.foldl schemaStatement (start options)).catalog := by
    rw [ofSource_ofOctets, ofSource_eq]
    unfold noteEncoding
    split <;> rfl
  rw [hcatalog]
  exact spells_foldl hempty howns

end Translation

namespace Postgres

/-! ### What is printed of a name -/

/-- What a foreign key prints before the table that it refers to. -/
def keyHead (key : ForeignKey) : Text :=
  "CONSTRAINT " ++ quoteName key.name ++ " FOREIGN KEY (" ++ quoteNames key.columns ++
    ") REFERENCES "

theorem renderForeignKey_eq (key : ForeignKey) :
    ∃ rest : Text,
      renderForeignKey key = keyHead key ++ quoteName key.referencedTable ++ " (" ++ rest := by
  unfold renderForeignKey keyHead
  simp only [List.append_assoc]
  exact ⟨_, rfl⟩

namespace Part

theorem text_create_eq (c : CreateTable) :
    (create c).text = "CREATE TABLE " ++ quoteName c.name ++ " (" ++
      ("\n    " ++ join ",\n    " (c.items.map CreateItem.render) ++ "\n);" ++ "\n\n") := by
  have hopen : (" (\n    " : Text) = " (" ++ "\n    " := by decide
  have htext : (create c).text = c.render ++ "\n\n" := rfl
  rw [htext]
  unfold CreateTable.render
  rw [hopen]
  simp only [List.append_assoc]

theorem text_insert {i : Insert} (h : i.rows ≠ []) (families : List TypeFamily) :
    ∃ rest : Text,
      (insert i families).text = "INSERT INTO " ++ quoteName i.table ++ " " ++ rest := by
  have hcolumns : (" (" : Text) = " " ++ "(" := by decide
  have hvalues : (" VALUES\n" : Text) = " " ++ "VALUES\n" := by decide
  have hstatement : (insert i families).statement? = some (insertText i (cells i families)) :=
    renderInsert?_cells h families
  unfold text
  dsimp only
  rw [hstatement]
  unfold insertText insertHead
  cases i.columns with
  | none =>
    rw [hvalues]
    simp only [List.append_assoc, List.nil_append]
    exact ⟨_, rfl⟩
  | some columns =>
    dsimp only
    rw [hcolumns]
    simp only [List.append_assoc]
    exact ⟨_, rfl⟩

theorem text_foreignKey (key : ForeignKey) :
    ∃ rest : Text, (foreignKey key).text = "ALTER TABLE " ++ quoteName key.table ++ " ADD " ++
      keyHead key ++ quoteName key.referencedTable ++ " (" ++ rest := by
  obtain ⟨rest, hrest⟩ := renderForeignKey_eq key
  have htext : (foreignKey key).text = renderAddForeignKey key ++ "\n\n" := rfl
  refine ⟨rest ++ ";" ++ "\n\n", ?_⟩
  rw [htext]
  unfold renderAddForeignKey
  rw [hrest]
  simp only [List.append_assoc]

/-- A statement that creates a table holds the foreign keys that it creates with it. -/
theorem text_inline {c : CreateTable} {key : ForeignKey} (h : key ∈ c.foreignKeys) :
    ∃ before rest : Text, (create c).text =
      before ++ keyHead key ++ quoteName key.referencedTable ++ " (" ++ rest := by
  obtain ⟨item, hitem, hkey⟩ := List.mem_filterMap.mp h
  have hitem : CreateItem.foreignKey key ∈ c.items := by
    cases item with
    | foreignKey other =>
      cases hkey
      exact hitem
    | _ => cases hkey
  have hrender : renderForeignKey key ∈ c.items.map CreateItem.render :=
    List.mem_map.mpr ⟨_, hitem, rfl⟩
  obtain ⟨before, behind, hjoin⟩ := exists_join ",\n    " hrender
  obtain ⟨rest, hrest⟩ := renderForeignKey_eq key
  refine ⟨"CREATE TABLE " ++ quoteName c.name ++ " (" ++ "\n    " ++ before,
    rest ++ behind ++ "\n);" ++ "\n\n", ?_⟩
  rw [text_create_eq, hjoin, hrest]
  simp only [List.append_assoc]

end Part

namespace Script

/-! ### The foreign keys of a script -/

theorem keys_map {α : Type} {f : α → Part} (h : ∀ x, (f x).keys = []) (xs : List α) :
    (xs.map f).flatMap Part.keys = [] := by
  rw [List.flatMap_map, List.flatMap_eq_nil_iff]
  intro x _
  exact h x

/-- The keys that are created with tables are keys of these. -/
theorem mem_keys_tables {catalog : Catalog} {plan : Plan} {key : ForeignKey}
    (h : key ∈ (tables catalog plan).flatMap Part.keys) :
    ∃ table ∈ catalog.tables, key ∈ table.foreignKeys := by
  rw [tables, Plan.flatMap_keys_titled, List.flatMap_map] at h
  obtain ⟨⟨id, table⟩, hplanned, hkey⟩ := List.mem_flatMap.mp h
  obtain ⟨other, -, hother⟩ := List.mem_filterMap.mp hplanned
  obtain ⟨found, hfound, heq⟩ := Option.map_eq_some_iff.mp hother
  cases heq
  have hflagged : key ∈ flaggedKeys table (plan.inline.getD id []) := by
    rw [← Plan.foreignKeys_ofTable]
    exact hkey
  obtain ⟨⟨kept, flag⟩, hzip, hflag⟩ := List.mem_filterMap.mp hflagged
  dsimp only at hflag
  split at hflag
  · cases hflag
    exact ⟨table, List.mem_of_getElem? hfound, (List.of_mem_zip hzip).1⟩
  · cases hflag

/-- So are those that are added behind them. -/
theorem mem_keys_deferred {catalog : Catalog} {plan : Plan} {key : ForeignKey}
    (h : key ∈ (deferred catalog plan).flatMap Part.keys) :
    ∃ table ∈ catalog.tables, key ∈ table.foreignKeys := by
  rw [deferred, Plan.flatMap_keys_titled, List.flatMap_map] at h
  obtain ⟨other, hdeferred, hkey⟩ := List.mem_flatMap.mp h
  obtain rfl := List.mem_singleton.mp hkey
  obtain ⟨⟨id, place⟩, -, hplace⟩ := List.mem_filterMap.mp hdeferred
  obtain ⟨table, htable, hget⟩ := Option.bind_eq_some_iff.mp hplace
  exact ⟨table, List.mem_of_getElem? htable, List.mem_of_getElem? hget⟩

end Script

end Postgres

namespace Translation

open Postgres (Part Script)

theorem keys_schemaScript (t : Translation) (name : Option Text) :
    (t.schemaScript name).flatMap Part.keys =
      (Script.tables t.catalog t.plan).flatMap Part.keys := by
  have hdrops : (if t.options.dropTables then Script.drops t.catalog t.plan else []).flatMap
      Part.keys = [] := by
    split
    · rw [Script.drops, Plan.flatMap_keys_titled]
      exact Script.keys_map (fun _ => rfl) _
    · rfl
  have hstatements : (Script.schemaStatements t.passthrough).flatMap Part.keys = [] := by
    rw [Script.schemaStatements, Plan.flatMap_keys_titled]
    exact Script.keys_map (fun _ => rfl) _
  have hheading : (if t.options.mode = .full then [Part.heading "Data"] else []).flatMap
      Part.keys = [] := by
    split <;> rfl
  unfold schemaScript
  simp only [List.flatMap_append, hdrops, hstatements, hheading, List.append_nil]
  rfl

/-- The data pass creates no keys. -/
theorem keys_writeAll (t : Translation) (ss : List PlacedStatement) :
    (t.writeAll ss).2.flatMap Part.keys = [] := by
  refine List.flatMap_eq_nil_iff.mpr fun part hpart => ?_
  cases (isData_writeAll t ss).1 part hpart <;> rfl

theorem keys_epilogue (t : Translation) :
    t.epilogue.flatMap Part.keys = (Script.deferred t.catalog t.plan).flatMap Part.keys := by
  have hsequences : (Script.sequences t.catalog t.plan).flatMap Part.keys = [] := by
    rw [Script.sequences, List.flatMap_cons, Plan.flatMap_keys_titled, List.flatMap_assoc]
    refine List.append_eq_nil_iff.mpr ⟨rfl, List.flatMap_eq_nil_iff.mpr ?_⟩
    intro planned _
    exact Script.keys_map (fun _ => rfl) _
  unfold epilogue
  rw [List.flatMap_append]
  split
  · rw [hsequences, List.nil_append]
  · rfl

/-- The foreign keys of a script are keys of the tables. -/
theorem mem_keys_produceScript {t : Translation} (hmode : t.options.mode = .full)
    {source : Source} {name : Option Text} {part : Part}
    (hpart : part ∈ (t.produceScript source name).script) {key : ForeignKey}
    (hkey : key ∈ part.keys) : ∃ table ∈ t.catalog.tables, key ∈ table.foreignKeys := by
  have hdata := (t.writeSchema name).1.keys_writeAll source.data
  obtain ⟨-, hsame⟩ := isData_writeAll (t.writeSchema name).1 source.data
  have hcatalog : ((t.writeSchema name).1.writeAll source.data).1.catalog = t.catalog :=
    hsame.catalog
  have hall : key ∈ (t.produceScript source name).script.flatMap Part.keys :=
    List.mem_flatMap.mpr ⟨part, hpart, hkey⟩
  rw [produceScript_eq hmode, List.flatMap_append, List.flatMap_append, hdata, List.append_nil,
    keys_schemaScript, keys_epilogue, hcatalog] at hall
  rcases List.mem_append.mp hall with hcreated | hadded
  · exact Script.mem_keys_tables hcreated
  · exact Script.mem_keys_deferred hadded

/-- A script creates every table that is found, under its quoted name. -/
theorem created_produceScript {t : Translation} {asked : PlanOptions}
    (hplan : t.plan = (Plan.ofCatalog t.catalog asked).1) {given : Text} {table : Table}
    (htable : t.catalog.find? given = some table) (source : Source) (name : Option Text) :
    ∃ flags, .create (.ofTable table flags) ∈ (t.produceScript source name).script := by
  obtain ⟨id, -, hid⟩ := Option.bind_eq_some_iff.mp htable
  refine ⟨t.plan.inline.getD id [], ?_⟩
  have hcreation : Plan.creation? t.catalog t.plan id =
      some (.create (.ofTable table (t.plan.inline.getD id []))) := by
    rw [Plan.creation?, hid]
    rfl
  have htables : Part.create (.ofTable table (t.plan.inline.getD id [])) ∈
      Script.tables t.catalog t.plan := by
    rw [hplan] at hcreation ⊢
    exact Plan.mem_tables hcreation
  have hhead : Part.create (.ofTable table (t.plan.inline.getD id [])) ∈ t.schemaScript name := by
    unfold schemaScript
    exact List.mem_append_left _ (List.mem_append_left _ (List.mem_append_right _ htables))
  unfold produceScript
  exact List.mem_append_left _ (List.mem_append_left _ hhead)

/-- The statements of a script that write rows are statements of the dump that have some. -/
theorem inserted_produceScript {t : Translation} (hmode : t.options.mode = .full)
    {source : Source} {name : Option Text} {i : Insert} {families : List TypeFamily}
    (h : .insert i families ∈ (t.produceScript source name).script) :
    i.rows ≠ [] ∧ i.table ∈ named source.data := by
  have hexport : (i, families) ∈ (t.exportsOf source.data).filter fun e => !e.1.rows.isEmpty := by
    rw [← (produceScript_full hmode source name).2]
    exact List.mem_filterMap.mpr ⟨_, h, rfl⟩
  obtain ⟨hexport, hrows⟩ := List.mem_filter.mp hexport
  obtain ⟨⟨s, given⟩, hgiven, heq⟩ := List.mem_map.mp hexport
  cases heq
  obtain ⟨other, hother, hinsert⟩ := List.mem_filterMap.mp hgiven
  refine ⟨by simpa using hrows, List.mem_flatMap.mpr ⟨other, hother, ?_⟩⟩
  split at hinsert
  · next i hstatement =>
    cases hinsert
    rw [hstatement]
    exact List.mem_singleton_self _
  · cases hinsert

end Translation

/-! ### Whole scripts -/

/-- A script spells the tables of a catalog everywhere as where it creates them: where it writes
rows to them, and where foreign keys, created with their tables or behind them, belong or refer to
them. -/
structure Postgres.Script.Spells (script : Script) (catalog : Catalog) : Prop where
  created : ∀ name table, catalog.find? name = some table →
    ∃ (flags : List Bool) (rest : Text), .create (.ofTable table flags) ∈ script ∧
      (Part.create (.ofTable table flags)).text =
        "CREATE TABLE " ++ quoteName table.name ++ " (" ++ rest
  inserted : ∀ i families, .insert i families ∈ script →
    ∀ table, catalog.find? i.table = some table → ∃ rest : Text,
      (Part.insert i families).text = "INSERT INTO " ++ quoteName table.name ++ " " ++ rest
  inline : ∀ c, .create c ∈ script → ∀ key ∈ c.foreignKeys,
    ∀ table, catalog.find? key.referencedTable = some table → ∃ before rest : Text,
      (Part.create c).text = before ++ keyHead key ++ quoteName table.name ++ " (" ++ rest
  deferred : ∀ key, .foreignKey key ∈ script → ∃ owner, catalog.find? key.table = some owner ∧
    owner.name = key.table ∧
    ∀ table, catalog.find? key.referencedTable = some table → ∃ rest : Text,
      (Part.foreignKey key).text = "ALTER TABLE " ++ quoteName owner.name ++ " ADD " ++
        keyHead key ++ quoteName table.name ++ " (" ++ rest

/-- A dump spells the names of tables in rows and foreign keys as in the last definitions of these
tables. -/
def Document.SpellsAlike (d : Document) : Prop :=
  ∀ name ∈ named d.statements, ∀ defined ∈ spelling? d.statements name, defined = name

instance : DecidablePred Document.SpellsAlike := fun d =>
  inferInstanceAs (Decidable (∀ name ∈ named d.statements,
    ∀ defined ∈ spelling? d.statements name, defined = name))

/-- Where a dump spells a table as its last definition does, so does the script. -/
theorem execute_spells (bs : Octets) (options : Options) (name : Option Text)
    (hmode : options.mode = .full) (halike : (Document.ofOctets bs).SpellsAlike) :
    ∃ produced, execute (.ofOctets bs) options .script name = .ok produced ∧
      produced.script.Spells (Translation.ofSource (.ofOctets bs) options).catalog := by
  have hspells := Translation.spells_ofSource bs options
  have hdistinct := Translation.distinct_ofSource (.ofOctets bs) options
  have hoptions := Translation.options_ofSource (.ofOctets bs) options
  obtain ⟨asked, hplan⟩ : ∃ asked, (Translation.ofSource (.ofOctets bs) options).plan =
      (Plan.ofCatalog (Translation.ofSource (.ofOctets bs) options).catalog asked).1 := ⟨_, rfl⟩
  have hrun : execute (.ofOctets bs) options .script name = .ok
      ((Translation.ofSource (.ofOctets bs) options).produceScript (.ofDocument (.ofOctets bs))
        name) := by
    rw [execute_ofOctets, Translation.ofSource_ofOctets]
    simp only [execute, hmode]
  generalize Translation.ofSource (.ofOctets bs) options = t at *
  have hfull : t.options.mode = .full := by rw [hoptions, hmode]
  have hspelled {given : Text} (hgiven : given ∈ named (Document.ofOctets bs).statements)
      {table : Table} (htable : t.catalog.find? given = some table) : table.name = given := by
    have hname := hspells.names given
    rw [htable, Option.map_some] at hname
    exact halike given hgiven table.name hname.symm
  have hkeys {part : Postgres.Part}
      (hpart : part ∈ (t.produceScript (.ofDocument (.ofOctets bs)) name).script)
      {key : ForeignKey} (hkey : key ∈ part.keys) :=
    Translation.mem_keys_produceScript hfull hpart hkey
  refine ⟨_, hrun, ?_, ?_, ?_, ?_⟩
  · intro given table htable
    obtain ⟨flags, hcreated⟩ := Translation.created_produceScript hplan htable _ name
    exact ⟨flags, _, hcreated, Postgres.Part.text_create_eq _⟩
  · intro i families hinsert table htable
    obtain ⟨hrows, hnamed⟩ := Translation.inserted_produceScript hfull hinsert
    rw [hspelled hnamed htable]
    exact Postgres.Part.text_insert hrows families
  · intro c hc key hkey table htable
    obtain ⟨owner, howner, howned⟩ := hkeys hc hkey
    rw [hspelled (hspells.references owner howner key howned) htable]
    exact Postgres.Part.text_inline hkey
  · intro key hkey
    obtain ⟨owner, howner, howned⟩ := hkeys hkey List.mem_cons_self
    have hname := hspells.owned owner howner key howned
    refine ⟨owner, ?_, hname.symm, ?_⟩
    · rw [hname]
      exact Catalog.find?_of_mem hdistinct howner
    · intro table htable
      rw [hspelled (hspells.references owner howner key howned) htable, ← hname]
      exact Postgres.Part.text_foreignKey key

/-- A dump with a table that is defined again under a name in another case, and with two tables that
refer to one another. -/
def redefinedDump : Octets :=
  .ofText ("CREATE TABLE u (a int);\nCREATE TABLE U (a int REFERENCES t (a));\n" ++
    "CREATE TABLE t (a int REFERENCES U (a));\nINSERT INTO U VALUES (1);\n")

theorem execute_spells_redefined :
    (Document.ofOctets redefinedDump).SpellsAlike ∧
    ∃ produced, execute (.ofOctets redefinedDump) {} .script none = .ok produced ∧
      produced.script.Spells (Translation.ofSource (.ofOctets redefinedDump) {}).catalog := by
  have halike : (Document.ofOctets redefinedDump).SpellsAlike := by decide +kernel
  exact ⟨halike, execute_spells redefinedDump {} none rfl halike⟩

/-- A dump that gives a table a name in another case where it refers and writes to it. -/
def misspeltDump : Octets :=
  .ofText ("CREATE TABLE U (a int);\nCREATE TABLE t (a int REFERENCES u (a));\n" ++
    "INSERT INTO u VALUES (1);\n")

/-- The name is found to be that of the table, but is printed as it stands. -/
theorem execute_misspells :
    ((Translation.ofSource (.ofOctets misspeltDump) {}).catalog.find? "u").map Table.name =
      some "U" ∧
    (execute (.ofOctets misspeltDump) {} .script none).toOption.map
      (fun produced => produced.script.filterMap Postgres.Part.statement?) =
        some (["CREATE TABLE \"U\" (\n    \"a\" INTEGER\n);",
          "CREATE TABLE \"t\" (\n    \"a\" INTEGER,\n    CONSTRAINT \"fk_t_a\" " ++
            "FOREIGN KEY (\"a\") REFERENCES \"u\" (\"a\")\n);",
          "INSERT INTO \"u\" VALUES\n(1);"] : List Text) := by
  decide +kernel

end SqlDump
