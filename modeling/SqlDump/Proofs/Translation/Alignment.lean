import SqlDump.Proofs.Plan.Emission
import SqlDump.Proofs.Segment.Partition
import SqlDump.Proofs.Schema.References
import SqlDump.Proofs.Translation.Limits

/-!
# What a run keeps for each table

A run keeps the tables of a dump, the places of their definitions, the families of their columns,
which of their foreign keys are created with them, and their order, each in a list of its own where
a table is known by its number. The lists fit together once the plan is made, and from then on a run
only counts and notes. So whatever is looked up for a table is there.

Main statements: `Translation.traced_ofSource`, the place that is kept for a table is that of its
last definition; `Translation.aligned_ofSource`, the lists fit together;
`Translation.reached_aligned`, so they do in every state of a run from the plan on; `Stage.reached`,
these are the states of a run.
-/

namespace SqlDump

open Text

/-- A statement defines a table of that name, whatever its case. -/
def Statement.Defines (s : Statement) (name : Text) : Prop :=
  ∃ table, s = .create table ∧ lower table.name = lower name

/-- Of some statements, the one that defines a table of a name for the last time. -/
def PlacedStatement.LastDefinition (ss : List PlacedStatement) (name : Text)
    (s : PlacedStatement) : Prop :=
  ∃ before after, ss = before ++ s :: after ∧ s.statement.Defines name ∧
    ∀ later ∈ after, ¬later.statement.Defines name

namespace PlacedStatement

variable {ss : List PlacedStatement} {name : Text} {s last : PlacedStatement}

theorem lastDefinition_define (h : s.statement.Defines name) :
    LastDefinition (ss ++ [s]) name s := by
  refine ⟨ss, [], rfl, h, ?_⟩
  intro later hlater
  cases hlater

theorem LastDefinition.behind (h : LastDefinition ss name last) (hs : ¬s.statement.Defines name) :
    LastDefinition (ss ++ [s]) name last := by
  obtain ⟨before, after, rfl, hdefines, hafter⟩ := h
  refine ⟨before, after ++ [s], by rw [List.append_assoc, List.cons_append], hdefines, ?_⟩
  intro later hlater
  rcases List.mem_append.mp hlater with hlater | hlater
  · exact hafter later hlater
  · obtain rfl := List.mem_singleton.mp hlater
    exact hs

/-- The number of a statement of a dump is its place. -/
theorem index_ofOctets {bs : Octets} {before after : List PlacedStatement}
    (h : (Document.ofOctets bs).statements = before ++ s :: after) : s.index = before.length := by
  have hs : (Document.ofOctets bs).statements[before.length]? = some s := by
    rw [h, List.getElem?_append_right (Nat.le_refl _), Nat.sub_self]
    rfl
  have hmap : ((Segment.all bs).map ofSegment)[before.length]? = some s := hs
  rw [List.getElem?_map] at hmap
  obtain ⟨segment, hsegment, rfl⟩ := Option.map_eq_some_iff.mp hmap
  have hindex := (Segment.fromOffset_tiles 0 0 bs).index_eq hsegment
  rw [Nat.zero_add] at hindex
  exact hindex

end PlacedStatement

open PlacedStatement (LastDefinition)

namespace Translation

variable {t u : Translation} {s : PlacedStatement} {ss : List PlacedStatement} {bs : Octets}
  {options : Options}

/-! ### The schema pass -/

section Origins

variable {origins : List (Nat × Nat)} {id : Nat} {origin : Nat × Nat}

theorem length_setOrigin (h : id ≤ origins.length) :
    (setOrigin origins id origin).length = max origins.length (id + 1) := by
  unfold setOrigin
  split
  · rw [List.length_set]
    omega
  · rw [List.length_append, List.length_singleton]
    omega

theorem setOrigin_self (h : id ≤ origins.length) :
    (setOrigin origins id origin)[id]? = some origin := by
  unfold setOrigin
  split
  · next hlt => exact List.getElem?_set_self hlt
  · next hge =>
    obtain rfl : id = origins.length := by omega
    simp

theorem setOrigin_of_lt {j : Nat} (hj : j < origins.length) (hne : j ≠ id) :
    (setOrigin origins id origin)[j]? = origins[j]? := by
  unfold setOrigin
  split
  · exact List.getElem?_set_ne (Ne.symm hne)
  · exact List.getElem?_append_left hj

end Origins

/-- What is known of the places of definitions behind statements: there is one for each table, that
of its last definition. -/
structure Traced (t : Translation) (ss : List PlacedStatement) : Prop where
  distinct : t.catalog.Distinct
  length : t.origins.length = t.catalog.size
  defined : ∀ id table, t.catalog.table? id = some table →
    ∃ s, LastDefinition ss table.name s ∧ t.origins[id]? = some (s.index, s.offset)

theorem traced_define (h : t.Traced ss) {table : Table} (hs : s.statement = .create table)
    (hcatalog : u.catalog = t.catalog.insert table)
    (horigins : u.origins = setOrigin t.origins (t.catalog.insertId table) (s.index, s.offset)) :
    u.Traced (ss ++ [s]) := by
  have hle : t.catalog.insertId table ≤ t.origins.length := by
    rw [h.length]
    exact t.catalog.insertId_le table
  constructor
  · rw [hcatalog]
    exact Catalog.distinct_insert h.distinct table
  · rw [hcatalog, horigins, length_setOrigin hle, Catalog.size_insert, h.length]
  · intro id other hother
    rw [hcatalog] at hother
    rw [horigins]
    by_cases hid : id = t.catalog.insertId table
    · subst hid
      rw [Catalog.table?_insert] at hother
      obtain rfl := Option.some.inj hother
      exact ⟨s, PlacedStatement.lastDefinition_define ⟨table, hs, rfl⟩, setOrigin_self hle⟩
    · rw [Catalog.table?_insert_of_ne hid] at hother
      obtain ⟨last, hlast, horigin⟩ := h.defined id other hother
      -- A table of the same name would be found under the number of the other.
      have hapart : ¬s.statement.Defines other.name := by
        rintro ⟨defined, hdefined, hname⟩
        obtain rfl := Statement.create.inj (hs.symm.trans hdefined)
        have hfound := Catalog.id?_of_table? h.distinct hother
        rw [← Catalog.id?_congr hname] at hfound
        exact hid (by rw [Catalog.insertId, hfound, Option.getD_some])
      have hlt : id < t.origins.length := by
        rw [h.length]
        exact Catalog.table?_lt hother
      exact ⟨last, hlast.behind hapart, (setOrigin_of_lt hlt hid).trans horigin⟩

/-- A statement that defines no table, where the tables keep their names. -/
theorem traced_keep (h : t.Traced ss) (hs : ∀ table, s.statement ≠ .create table)
    (hnames : u.catalog.tables.map Table.name = t.catalog.tables.map Table.name)
    (horigins : u.origins = t.origins) : u.Traced (ss ++ [s]) := by
  have hlower : u.catalog.tables.map (fun table => lower table.name) =
      t.catalog.tables.map fun table => lower table.name := by
    have hmap := congrArg (List.map lower) hnames
    rwa [List.map_map, List.map_map] at hmap
  constructor
  · rw [Catalog.Distinct, hlower]
    exact h.distinct
  · have hlength := congrArg List.length hnames
    rw [List.length_map, List.length_map] at hlength
    rw [horigins, h.length]
    exact hlength.symm
  · intro id table htable
    have hname : (t.catalog.tables.map Table.name)[id]? = some table.name := by
      have htables : u.catalog.tables[id]? = some table := htable
      rw [← hnames, List.getElem?_map, htables]
      rfl
    rw [List.getElem?_map] at hname
    obtain ⟨old, hold, hname⟩ := Option.map_eq_some_iff.mp hname
    obtain ⟨last, hlast, horigin⟩ := h.defined id old hold
    rw [hname] at hlast
    refine ⟨last, hlast.behind ?_, by rw [horigins, horigin]⟩
    rintro ⟨defined, hdefined, -⟩
    exact hs defined hdefined

theorem originsBehind_of_ne (hs : ∀ table, s.statement ≠ .create table) :
    t.originsBehind s = t.origins := by
  unfold originsBehind
  split
  · next table htable => exact absurd htable (hs table)
  · rfl

/-- One statement of a dump. -/
theorem traced_schemaStatement (h : t.Traced ss) (s : PlacedStatement) :
    (t.schemaStatement s).Traced (ss ++ [s]) := by
  obtain ⟨-, -, htables, horigins⟩ := schemaStep t s
  generalize t.schemaStatement s = u at htables horigins ⊢
  generalize hstatement : s.statement = statement at htables
  generalize hcatalog : u.catalog = catalog at htables
  cases htables with
  | define hs =>
    rw [hs] at hstatement
    rw [originsBehind, hstatement] at horigins
    exact traced_define h hstatement hcatalog horigins
  | alter hs hkind hparse =>
    have hother : ∀ table, s.statement ≠ .create table := by
      rw [hstatement, hs]
      intro table hcreate
      cases hcreate
    obtain ⟨id, old, altered, hold, rfl, hname, -⟩ := Alteration.parse?_eq hparse
    refine traced_keep h hother ?_ (horigins.trans (originsBehind_of_ne hother))
    rw [hcatalog]
    exact Catalog.map_set Table.name hold hname
  | keep hs =>
    rw [← hstatement] at hs
    refine traced_keep h hs ?_ (horigins.trans (originsBehind_of_ne hs))
    rw [hcatalog]

/-- All statements of a dump. -/
theorem traced_foldl (h : t.Traced ss) (more : List PlacedStatement) :
    (more.foldl schemaStatement t).Traced (ss ++ more) := by
  induction more generalizing t ss with
  | nil =>
    rw [List.append_nil]
    exact h
  | cons s more ih =>
    have hrest := ih (traced_schemaStatement h s)
    rw [List.append_assoc] at hrest
    exact hrest

/-- For each table of a run the place of its last definition is kept. -/
theorem traced_ofSource (bs : Octets) (options : Options) :
    (ofSource (.ofOctets bs) options).Traced (Document.ofOctets bs).statements := by
  have hempty : (start options).Traced [] := by
    refine ⟨List.nodup_nil, rfl, ?_⟩
    intro id table htable
    cases htable
  obtain ⟨distinct, length, defined⟩ := traced_foldl hempty (Document.ofOctets bs).statements
  rw [ofSource_ofOctets, ofSource_eq]
  unfold noteEncoding
  split <;> exact ⟨distinct, length, defined⟩

/-! ### The plan -/

/-- The lists that a run keeps for its tables fit together, and what is looked up for a table is
there. -/
structure Aligned (t : Translation) (ss : List PlacedStatement) : Prop where
  /-- Each list has one entry for each table. -/
  origins : t.origins.length = t.catalog.size
  families : t.families.length = t.catalog.size
  inline : t.plan.inline.length = t.catalog.size
  /-- A table has a family for each of its columns. -/
  columns : ∀ id table, t.catalog.table? id = some table →
    ∃ known, t.families[id]? = some known ∧ known.length = table.columns.length
  /-- A table has a flag for each of its foreign keys. -/
  keys : ∀ id table, t.catalog.table? id = some table →
    ∃ flags, t.plan.inline[id]? = some flags ∧ flags.length = table.foreignKeys.length
  /-- The place of a table is the number and the offset of its last definition. -/
  defined : ∀ id table, t.catalog.table? id = some table → ∃ before s after,
    ss = before ++ s :: after ∧ s.statement.Defines table.name ∧
      (∀ later ∈ after, ¬later.statement.Defines table.name) ∧
      t.origins[id]? = some (before.length, s.offset)
  order : t.plan.order.Perm (List.range t.catalog.size)
  deferred : ∀ id place, (id, place) ∈ t.plan.deferred →
    ∃ table key, t.catalog.table? id = some table ∧ table.foreignKeys[place]? = some key
  /-- All is there for a table that is found by its name. -/
  found : ∀ name id, t.catalog.id? name = some id → ∃ table known origin,
    t.catalog.table? id = some table ∧ t.families[id]? = some known ∧
      t.origins[id]? = some origin
  /-- All is there for a table whose turn it is. -/
  emitted : ∀ id ∈ t.plan.order, ∃ table flags origin,
    t.catalog.table? id = some table ∧ t.plan.inline[id]? = some flags ∧
      t.origins[id]? = some origin
  /-- So no table is left out, -/
  planned : (Postgres.Script.planned t.catalog t.plan).map Prod.fst = t.plan.order
  /-- nor is a deferred key. -/
  added : (Postgres.Script.deferredKeys t.catalog t.plan).length = t.plan.deferred.length

/-- The families, flags and places of the tables fit together for the plan of the tables. -/
theorem aligned_of_plan {asked : PlanOptions} (htraced : t.Traced (Document.ofOctets bs).statements)
    (hfamilies : t.families = t.catalog.tables.map Postgres.families)
    (hplan : t.plan = (Plan.ofCatalog t.catalog asked).1) :
    t.Aligned (Document.ofOctets bs).statements := by
  have hinline : t.plan.inline = t.catalog.tables.mapIdx fun id table =>
      Plan.inlineFlags t.catalog asked t.plan.order id table := by
    rw [hplan]
    rfl
  have hcolumns (id : Nat) (table : Table) (htable : t.catalog.table? id = some table) :
      t.families[id]? = some (Postgres.families table) := by
    have htables : t.catalog.tables[id]? = some table := htable
    rw [hfamilies, List.getElem?_map, htables]
    rfl
  have hflags (id : Nat) (table : Table) (htable : t.catalog.table? id = some table) :
      t.plan.inline[id]? = some (Plan.inlineFlags t.catalog asked t.plan.order id table) := by
    have htables : t.catalog.tables[id]? = some table := htable
    rw [hinline, List.getElem?_mapIdx, htables]
    rfl
  have horder (id : Nat) (hid : id ∈ t.plan.order) : ∃ table, t.catalog.table? id = some table := by
    rw [hplan] at hid
    exact Catalog.exists_table? ((Plan.mem_order t.catalog asked).mp hid)
  have hdeferred (id place : Nat) (h : (id, place) ∈ t.plan.deferred) :
      ∃ table key, t.catalog.table? id = some table ∧ table.foreignKeys[place]? = some key := by
    have hin : (id, place) ∈ Plan.deferredIn t.plan.order t.plan.inline := by
      rw [hplan] at h ⊢
      exact h
    obtain ⟨hid, hflag⟩ := Plan.mem_deferredIn.mp hin
    obtain ⟨table, htable⟩ := horder id hid
    rw [List.getD_eq_getElem?_getD, hflags id table htable, Option.getD_some, Plan.inlineFlags,
      List.getElem?_map] at hflag
    obtain ⟨key, hkey, -⟩ := Option.map_eq_some_iff.mp hflag
    exact ⟨table, key, htable, hkey⟩
  constructor
  · exact htraced.length
  · rw [hfamilies, List.length_map]
    rfl
  · rw [hinline, List.length_mapIdx]
    rfl
  · intro id table htable
    exact ⟨_, hcolumns id table htable, Postgres.length_families table⟩
  · intro id table htable
    exact ⟨_, hflags id table htable, List.length_map ..⟩
  · intro id table htable
    obtain ⟨s, ⟨before, after, hss, hdefines, hlast⟩, horigin⟩ := htraced.defined id table htable
    rw [PlacedStatement.index_ofOctets hss] at horigin
    exact ⟨before, s, after, hss, hdefines, hlast, horigin⟩
  · rw [hplan]
    exact Plan.order_perm t.catalog asked
  · exact hdeferred
  · intro name id hid
    obtain ⟨table, htable⟩ := Catalog.exists_table? (Catalog.id?_lt hid)
    obtain ⟨s, -, horigin⟩ := htraced.defined id table htable
    exact ⟨table, _, _, htable, hcolumns id table htable, horigin⟩
  · intro id hid
    obtain ⟨table, htable⟩ := horder id hid
    obtain ⟨s, -, horigin⟩ := htraced.defined id table htable
    exact ⟨table, _, _, htable, hflags id table htable, horigin⟩
  · unfold Postgres.Script.planned
    rw [List.map_filterMap]
    refine (List.filterMap_congr ?_).trans (List.filterMap_some ..)
    intro id hid
    obtain ⟨table, htable⟩ := horder id hid
    rw [htable]
    rfl
  · refine List.filterMap_length_eq_length.mpr ?_
    rintro ⟨id, place⟩ h
    obtain ⟨table, key, htable, hkey⟩ := hdeferred id place h
    dsimp only
    rw [htable, Option.bind_some, hkey]
    rfl

/-- The lists fit together once the plan is made. -/
theorem aligned_ofSource (bs : Octets) (options : Options) :
    (ofSource (.ofOctets bs) options).Aligned (Document.ofOctets bs).statements := by
  obtain ⟨asked, hplan⟩ : ∃ asked, (ofSource (.ofOctets bs) options).plan =
      (Plan.ofCatalog (ofSource (.ofOctets bs) options).catalog asked).1 := ⟨_, rfl⟩
  exact aligned_of_plan (traced_ofSource bs options) (families_ofSource ..) hplan

/-! ### The data pass -/

theorem Aligned.of_sameSchema (h : t.Aligned ss) (same : SameSchema u t) : u.Aligned ss := by
  obtain ⟨⟨hcatalog, hfamilies⟩, horigins, hplan⟩ := same
  obtain ⟨origins, families, inline, columns, keys, defined, order, deferred, found, emitted,
    planned, added⟩ := h
  constructor <;> simp only [hcatalog, hfamilies, horigins, hplan] <;> assumption

/-- One step of a run from the plan on: the script is begun, a statement is written into it, or its
rows into files, or the files are counted. -/
inductive DataStep : Translation → Translation → Prop
  | begin (t : Translation) (name : Option Text) : DataStep t (t.writeSchema name).1
  | script (t : Translation) (s : PlacedStatement) : DataStep t (t.writeData s).1
  | rows {t u : Translation} {s : PlacedStatement} {store stored : Option Csv.Store}
      (h : t.exportRows s store = .ok (u, stored)) : DataStep t u
  | files (t : Translation) (n : Nat) : DataStep t (t.noteFiles n)

/-- The states of a run over a dump from the plan on. -/
inductive Reached (bs : Octets) (options : Options) : Translation → Prop
  | planned : Reached bs options (ofSource (.ofOctets bs) options)
  | step {t u : Translation} (h : Reached bs options t) (hstep : DataStep t u) :
    Reached bs options u

/-- A step only counts and notes. -/
theorem DataStep.sameSchema (h : DataStep t u) : SameSchema u t := by
  cases h with
  | begin name => exact ⟨⟨rfl, rfl⟩, rfl, rfl⟩
  | script s => exact sameSchema_writeData t s
  | rows h => exact sameSchema_exportRows h
  | files n => exact ⟨⟨rfl, rfl⟩, rfl, rfl⟩

theorem Reached.sameSchema (h : Reached bs options t) :
    SameSchema t (ofSource (.ofOctets bs) options) := by
  induction h with
  | planned => exact .refl _
  | step _ hstep ih => exact hstep.sameSchema.trans ih

theorem Reached.writeAll (h : Reached bs options t) (statements : List PlacedStatement) :
    Reached bs options (t.writeAll statements).1 := by
  induction statements generalizing t with
  | nil => exact h
  | cons s statements ih =>
    rw [writeAll_cons]
    exact ih (h.step (.script t s))

theorem Reached.exportAll (h : Reached bs options t) {statements : List PlacedStatement}
    {store stored : Option Csv.Store} (hexport : t.exportAll store statements = .ok (u, stored)) :
    Reached bs options u := by
  induction statements generalizing t store with
  | nil =>
    obtain ⟨rfl, -⟩ := Prod.mk.inj (Except.ok.inj hexport)
    exact h
  | cons s statements ih =>
    rw [Translation.exportAll] at hexport
    split at hexport
    · next hrows => exact ih (h.step (.rows hrows)) hexport
    · cases hexport

/-- In every state of a run from the plan on, what is kept for the tables fits together, and no step
changes it. -/
theorem reached_aligned (h : Reached bs options t) :
    t.Aligned (Document.ofOctets bs).statements ∧ ∀ u, DataStep t u → SameSchema u t :=
  ⟨(aligned_ofSource bs options).of_sameSchema h.sameSchema, fun _ hstep => hstep.sameSchema⟩

/-- A dump that defines a table again in another spelling, and then gives it a foreign key. -/
def respeltDump : Octets := .ofText <|
  "CREATE TABLE a (x int, y int);\nCREATE TABLE b (x int);\nCREATE TABLE A (x int);\n" ++
    "ALTER TABLE a ADD FOREIGN KEY (x) REFERENCES b (x);\nINSERT INTO B VALUES (1);\n"

/-- The run over it behind its rows. -/
def respeltRun : Translation :=
  (((ofSource (.ofOctets respeltDump) {}).writeSchema none).1.writeAll
    (Source.ofOctets respeltDump).data).1

theorem reached_aligned_respelt :
    Reached respeltDump {} respeltRun ∧
      (respeltRun.Aligned (Document.ofOctets respeltDump).statements ∧
        ∀ u, DataStep respeltRun u → SameSchema u respeltRun) ∧
      respeltRun.origins = [(2, 55), (1, 31)] ∧ respeltRun.plan = ⟨[1, 0], [[true], []], []⟩ := by
  have hreached : Reached respeltDump {} respeltRun :=
    (Reached.planned.step (.begin _ none)).writeAll _
  have hrun : respeltRun.origins = [(2, 55), (1, 31)] ∧
      respeltRun.plan = ⟨[1, 0], [[true], []], []⟩ := by decide +kernel
  exact ⟨hreached, reached_aligned hreached, hrun⟩

end Translation

open Translation

/-- A stage of a run that has its plan. -/
def Stage.IsPlanned : Stage → Prop
  | .schema _ | .noted => False
  | .planned | .begun | .written _ | .exported _ _ => True

/-- What is reached is what runs go through. -/
theorem Stage.reached {stage : Stage} (hplanned : stage.IsPlanned) {bs : Octets} {options : Options}
    {name : Option Text} {t : Translation}
    (h : stage.state (.ofOctets bs) options name = .ok t) : Reached bs options t := by
  have hbegun : Reached bs options ((ofSource (.ofOctets bs) options).writeSchema name).1 :=
    .step .planned (.begin _ name)
  cases stage with
  | schema read => exact hplanned.elim
  | noted => exact hplanned.elim
  | planned =>
    obtain rfl := Except.ok.inj h
    exact .planned
  | begun =>
    obtain rfl := Except.ok.inj h
    exact hbegun
  | written read =>
    obtain rfl := Except.ok.inj h
    exact hbegun.writeAll _
  | exported store read =>
    simp only [state] at h
    cases hexport : (ofSource (.ofOctets bs) options).exportAll (store.map Csv.Store.ensureFolder)
        ((Source.ofOctets bs).data.take read) with
    | error error =>
      rw [hexport] at h
      cases h
    | ok done =>
      rw [hexport] at h
      obtain rfl := Except.ok.inj h
      exact Reached.planned.exportAll hexport

theorem Translation.reached_produceScript (bs : Octets) (options : Options) (name : Option Text) :
    ∃ t, Reached bs options t ∧
      ((ofSource (.ofOctets bs) options).produceScript (.ofOctets bs) name).outcome = t.outcome := by
  have hbegun : Reached bs options ((ofSource (.ofOctets bs) options).writeSchema name).1 :=
    .step .planned (.begin _ name)
  unfold produceScript
  dsimp only
  split
  · exact ⟨_, hbegun.writeAll _, rfl⟩
  · exact ⟨_, hbegun, rfl⟩

/-- A run that ends well ends in a state that is reached. -/
theorem execute_reached {bs : Octets} {options : Options} {target : Target} {name : Option Text}
    {produced : Produced} (h : execute (.ofOctets bs) options target name = .ok produced) :
    ∃ t, Reached bs options t ∧ produced.outcome = t.outcome := by
  unfold execute at h
  dsimp only at h
  split at h
  · unfold produceRows at h
    split at h
    · cases h
    · next t hexport =>
      obtain rfl := Except.ok.inj h
      exact ⟨t, Reached.planned.exportAll hexport, rfl⟩
    · next t store hexport =>
      obtain rfl := Except.ok.inj h
      exact ⟨_, (Reached.planned.exportAll hexport).step (.files t _), rfl⟩
  · obtain rfl := Except.ok.inj h
    exact reached_produceScript bs options name
  · obtain rfl := Except.ok.inj h
    exact reached_produceScript bs options name
  · cases h

end SqlDump
