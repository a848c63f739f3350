import SqlDump.Proofs.Schema.Clause
import SqlDump.Proofs.Translation.Alignment
import SqlDump.Proofs.Translation.Families

/-!
# The order of columns in a statement

A value is written for the column that the list of its statement names at its place, so that columns
and values may be brought into another order together: the same texts are written, each at its new
place. Without a list the values are for the columns in the order of the table, which is what a list
of all of them in that order says.

Main statements: `Translation.moves_arrange`, the values of a statement in another order;
`Translation.moves_list`, those of a statement that lists all columns;
`Translation.exchange_writeAll`, a run that writes another statement in the place of one;
`execute_arrange`, both for whole runs.
-/

namespace SqlDump

open Text

/-! ## Lists in another order -/

/-- The values that stand at the given places, in the order of the places. -/
def arrange {α : Type} (order : List Nat) (xs : List α) : List α := order.filterMap (xs[·]?)

section Arrange

variable {α β : Type} {order : List Nat} {xs : List α}

theorem getElem?_arrange (h : ∀ n ∈ order, n < xs.length) (k : Nat) :
    (arrange order xs)[k]? = order[k]?.bind (xs[·]?) := by
  induction order generalizing k with
  | nil => rfl
  | cons n order ih =>
    obtain ⟨x, hn⟩ : ∃ x, xs[n]? = some x :=
      ⟨_, List.getElem?_eq_getElem (h n List.mem_cons_self)⟩
    have hrest : ∀ m ∈ order, m < xs.length := fun m hm => h m (List.mem_cons_of_mem n hm)
    have hcons : arrange (n :: order) xs = x :: arrange order xs := List.filterMap_cons_some hn
    rw [hcons]
    cases k with
    | zero => exact hn.symm
    | succ k => exact ih hrest k

theorem arrange_range (xs : List α) : arrange (List.range xs.length) xs = xs := by
  refine List.ext_getElem? fun k => ?_
  rw [getElem?_arrange fun n hn => List.mem_range.mp hn]
  by_cases hk : k < xs.length
  · rw [List.getElem?_range hk, Option.bind_some]
  · rw [List.getElem?_eq_none (by simpa using hk), List.getElem?_eq_none (by omega)]
    rfl

/-- A list in another order has the same values. -/
theorem arrange_perm (h : order.Perm (List.range xs.length)) : (arrange order xs).Perm xs := by
  have hperm := h.filterMap (xs[·]?)
  rwa [← arrange, ← arrange, arrange_range] at hperm

theorem lt_of_perm_range {n : Nat} (h : order.Perm (List.range n)) : ∀ m ∈ order, m < n :=
  fun _ hm => List.mem_range.mp (h.mem_iff.mp hm)

/-- What is made of each value and its place is in the new order too, if it depends on the place as
much as the places do. -/
theorem mapIdx_arrange {f g : Nat → α → β} (h : ∀ n ∈ order, n < xs.length)
    (hplaces : ∀ k n, order[k]? = some n → ∀ x, g k x = f n x) :
    (arrange order xs).mapIdx g = arrange order (xs.mapIdx f) := by
  refine List.ext_getElem? fun k => ?_
  rw [List.getElem?_mapIdx, getElem?_arrange h, getElem?_arrange (by simpa using h)]
  cases hk : order[k]? with
  | none => rfl
  | some n =>
    rw [Option.bind_some, Option.bind_some, List.getElem?_mapIdx]
    exact Option.map_congr fun x _ => hplaces k n hk x

end Arrange

/-- The statement with its columns and the values of each row in another order. -/
def Insert.arrange (order : List Nat) (i : Insert) : Insert :=
  { i with
    columns := i.columns.map (SqlDump.arrange order)
    rows := i.rows.map (SqlDump.arrange order) }

namespace Translation

variable {t : Translation} {i i' : Insert}

/-! ## The values of a statement -/

/-- A statement has the values of another, written alike and moved within each row, and a run has as
much to tell of the one as of the other. -/
structure Moves (t : Translation) (i i' : Insert) (move : List Text → List Text) : Prop where
  table : i'.table = i.table
  trailing : i'.trailing = i.trailing
  width : t.expectedWidth? i' = t.expectedWidth? i
  widths : i'.rows.map List.length = i.rows.map List.length
  cells : Postgres.cells i' (t.familiesFor i') = (Postgres.cells i (t.familiesFor i)).map move
  dates : Postgres.nulledDates i' (t.familiesFor i') = Postgres.nulledDates i (t.familiesFor i)

/-- The family for a value is the one that it had at its old place. -/
theorem familiesFor_arrange {names : List Text} (hcolumns : i.columns = some names)
    {order : List Nat} (horder : ∀ n ∈ order, n < names.length) {k n : Nat}
    (hk : order[k]? = some n) :
    (t.familiesFor (i.arrange order)).getD k .other = (t.familiesFor i).getD n .other := by
  unfold familiesFor Insert.arrange
  rw [hcolumns, Option.map_some]
  cases hid : t.catalog.id? i.table with
  | none => rfl
  | some id =>
    obtain ⟨table, htable⟩ := Catalog.exists_table? (Catalog.id?_lt hid)
    dsimp only
    rw [htable]
    dsimp only
    simp only [List.getD_eq_getElem?_getD, List.getElem?_map, getElem?_arrange horder, hk,
      Option.bind_some]

/-- A statement in another order has its values in that order. -/
theorem moves_arrange {names : List Text} (hcolumns : i.columns = some names)
    (hrows : ∀ row ∈ i.rows, row.length = names.length) {order : List Nat}
    (horder : order.Perm (List.range names.length)) :
    t.Moves i (i.arrange order) (arrange order) := by
  have hlt := lt_of_perm_range horder
  have hplaces {row : Row} (hrow : row ∈ i.rows) : order.Perm (List.range row.length) := by
    rwa [hrows row hrow]
  have hfamily {k n : Nat} (hk : order[k]? = some n) :
      (t.familiesFor (i.arrange order)).getD k .other = (t.familiesFor i).getD n .other :=
    familiesFor_arrange hcolumns hlt hk
  refine ⟨rfl, rfl, ?_, ?_, ?_, ?_⟩
  · have hwidth : (arrange order names).length = names.length := (arrange_perm horder).length_eq
    simp only [expectedWidth?, Insert.arrange, hcolumns, Option.map_some, hwidth]
  · refine (List.map_map ..).trans (List.map_congr_left fun row hrow => ?_)
    exact (arrange_perm (hplaces hrow)).length_eq
  · refine (List.map_map ..).trans ((List.map_congr_left fun row hrow => ?_).trans
      (List.map_map ..).symm)
    refine mapIdx_arrange (lt_of_perm_range (hplaces hrow)) fun k n hk v => ?_
    rw [hfamily hk]
    rfl
  · have hrow (row : Row) (hrow : row ∈ i.rows) :
        (Postgres.nulledInRow (t.familiesFor (i.arrange order)) (arrange order row)).countP id =
          (Postgres.nulledInRow (t.familiesFor i) row).countP id := by
      have hmap : Postgres.nulledInRow (t.familiesFor (i.arrange order)) (arrange order row) =
          arrange order (Postgres.nulledInRow (t.familiesFor i) row) := by
        refine mapIdx_arrange (lt_of_perm_range (hplaces hrow)) fun k n hk v => ?_
        rw [hfamily hk]
      have hlength : (Postgres.nulledInRow (t.familiesFor i) row).length = row.length :=
        List.length_mapIdx
      rw [hmap]
      refine (arrange_perm ?_).countP_eq id
      rw [hlength]
      exact hplaces hrow
    unfold Postgres.nulledDates
    rw [List.countP_flatMap, List.countP_flatMap]
    refine congrArg List.sum ((List.map_map ..).trans (List.map_congr_left hrow))

/-- Names of all columns in their order lead to the columns in their order. -/
theorem column?_of_listed {table : Table} {names : List Text}
    (hnames : names.map asciiLower = table.columnNames) (hdistinct : table.columnNames.Nodup)
    (n : Nat) : names[n]?.bind table.column? = table.columns[n]? := by
  have hn : names[n]?.map asciiLower = table.columns[n]?.map fun c => asciiLower c.name := by
    rw [← List.getElem?_map, hnames, Table.columnNames, List.getElem?_map]
  cases hname : names[n]? with
  | none =>
    rw [hname] at hn
    exact (Option.map_eq_none_iff.mp hn.symm).symm
  | some name =>
    rw [hname] at hn
    obtain ⟨c, hc, hlower⟩ := Option.map_eq_some_iff.mp hn.symm
    rw [Option.bind_some, hc]
    obtain ⟨hlt, hget⟩ := List.getElem?_eq_some_iff.mp hc
    refine List.find?_eq_some_iff_getElem.mpr ⟨?_, n, hlt, hget, ?_⟩
    · exact beq_iff_eq.mpr hlower
    · intro m hm
      -- An earlier column of that name would be there twice.
      have hlength : n < table.columnNames.length := by simpa [Table.columnNames] using hlt
      have hne := List.nodup_iff_getElem?_ne_getElem?.mp hdistinct m n hm hlength
      have hm : m < table.columns.length := by omega
      simp only [Table.columnNames, List.getElem?_map, hc, List.getElem?_eq_getElem hm,
        Option.map_some, ne_eq, Option.some_inj] at hne
      simpa [sameAscii, hlower] using hne

/-- A statement that lists all columns in their order has the values of the same without a list. -/
theorem moves_list (hfamilies : t.families = t.catalog.tables.map Postgres.families)
    {table : Table} (htable : t.catalog.find? i.table = some table) (hcolumns : i.columns = none)
    {names : List Text} (hnames : names.map asciiLower = table.columnNames)
    (hdistinct : table.columnNames.Nodup) :
    t.Moves i { i with columns := some names } id := by
  have hfamily (n : Nat) : (t.familiesFor { i with columns := some names }).getD n .other =
      (t.familiesFor i).getD n .other := by
    rw [getD_familiesFor (i := { i with columns := some names }) hfamilies htable,
      getD_familiesFor hfamilies htable, hcolumns]
    exact congrArg (fun c => (c.map fun c => (ColumnType.map c.type).family).getD .other)
      (column?_of_listed hnames hdistinct n)
  refine ⟨rfl, rfl, ?_, rfl, ?_, ?_⟩
  · have hlength : names.length = table.columns.length := by
      have h := congrArg List.length hnames
      simpa [Table.columnNames] using h
    simp only [expectedWidth?, hcolumns, htable, Option.map_some, hlength]
  · unfold Postgres.cells
    rw [List.map_id]
    simp only [hfamily]
  · unfold Postgres.nulledDates Postgres.nulledInRow
    simp only [hfamily]

/-! ## Runs -/

/-- What is written of a statement. -/
def written (t : Translation) (i : Insert) : Postgres.Script :=
  if i.rows.isEmpty then [] else [.insert i (t.familiesFor i)]

theorem Moves.text {move : List Text → List Text} (h : t.Moves i i' move) (hrows : i.rows ≠ []) :
    Postgres.renderInsert? i' (t.familiesFor i') =
      some (Postgres.insertText i' ((Postgres.cells i (t.familiesFor i)).map move)) := by
  have hrows' : i'.rows ≠ [] := by
    intro hnil
    have hwidths := h.widths
    rw [hnil] at hwidths
    exact hrows (List.map_eq_nil_iff.mp hwidths.symm)
  rw [Postgres.renderInsert?_cells hrows', h.cells]

/-- The notes on the rows of a statement depend on their widths alone. -/
theorem arityNotes_congr (s : PlacedStatement) (htable : i'.table = i.table)
    (hwidth : t.expectedWidth? i' = t.expectedWidth? i)
    (hwidths : i'.rows.map List.length = i.rows.map List.length) :
    t.arityNotes s i' = t.arityNotes s i := by
  have hplaced (rows : List Row) : (rows.mapIdx fun n row => (n, row.length)) =
      (rows.map List.length).mapIdx Prod.mk := by
    refine List.ext_getElem? fun n => ?_
    rw [List.getElem?_mapIdx, List.getElem?_mapIdx, List.getElem?_map, Option.map_map]
    rfl
  unfold arityNotes
  rw [hwidth, hplaced, hplaced, hwidths, htable]

/-- A run is the same behind a statement and behind another with its values moved. -/
theorem Moves.writeInsert {move : List Text → List Text} (h : t.Moves i i' move)
    (s : PlacedStatement) :
    t.writeInsert { s with statement := .insert i' } i' =
      ((t.writeInsert s i).1, t.written i') := by
  have hlength : i'.rows.length = i.rows.length := by
    simpa using congrArg List.length h.widths
  have hempty : i'.rows.isEmpty = i.rows.isEmpty := by
    rw [Bool.eq_iff_iff, List.isEmpty_iff_length_eq_zero, List.isEmpty_iff_length_eq_zero, hlength]
  have hcheck : t.checkInsert { s with statement := .insert i' } i' = t.checkInsert s i := by
    have hnotes := arityNotes_congr s h.table h.width h.widths
    unfold checkInsert trailingNote?
    rw [hlength, h.trailing, h.table]
    exact congrArg (fun notes => Translation.recordAll _ (s.notes ++ notes ++ _)) hnotes
  unfold Translation.writeInsert written
  dsimp only
  rw [hempty, hcheck, h.dates, h.table]
  split <;> rfl

theorem written_congr {u : Translation} (h : SameTables u t) (i : Insert) :
    u.written i = t.written i := by
  unfold written
  rw [h.familiesFor]

theorem writeData_of_insert {s : PlacedStatement} (h : s.statement = .insert i) :
    (t.writeData s) = ((t.writeInsert s i).1, t.written i) := by
  unfold writeData Translation.writeInsert written
  rw [h]
  dsimp only
  split <;> rfl

/-- What is moved for one run is moved for any that knows the same tables. -/
theorem Moves.congr {u : Translation} (hsame : SameTables u t) {move : List Text → List Text}
    (h : t.Moves i i' move) : u.Moves i i' move := by
  have hwidth (i : Insert) : u.expectedWidth? i = t.expectedWidth? i := by
    unfold expectedWidth?
    rw [hsame.catalog]
  refine ⟨h.table, h.trailing, ?_, h.widths, ?_, ?_⟩
  · rw [hwidth, hwidth, h.width]
  · rw [hsame.familiesFor, hsame.familiesFor, h.cells]
  · rw [hsame.familiesFor, hsame.familiesFor, h.dates]

/-- The data pass over statements of which one is exchanged for another with its values moved: it
ends in the same state, and the two are written in the same place. -/
theorem exchange_writeAll {move : List Text → List Text} (h : t.Moves i i' move)
    {s : PlacedStatement} (hs : s.statement = .insert i) (first rest : List PlacedStatement) :
    ∃ before behind,
      (t.writeAll (first ++ { s with statement := .insert i' } :: rest)).1 =
        (t.writeAll (first ++ s :: rest)).1 ∧
      (t.writeAll (first ++ s :: rest)).2 = before ++ (t.written i ++ behind) ∧
      (t.writeAll (first ++ { s with statement := .insert i' } :: rest)).2 =
        before ++ (t.written i' ++ behind) := by
  induction first generalizing t with
  | nil =>
    refine ⟨[], ((t.writeInsert s i).1.writeAll rest).2, ?_⟩
    have hstep : t.writeData { s with statement := .insert i' } =
        ((t.writeInsert s i).1, t.written i') := h.writeInsert s
    rw [List.nil_append, List.nil_append, writeAll_cons, writeAll_cons, hstep,
      writeData_of_insert hs]
    exact ⟨rfl, rfl, rfl⟩
  | cons d first ih =>
    have hsame := sameTables_writeData t d
    obtain ⟨before, behind, hstate, hscript, hscript'⟩ := ih (h.congr hsame)
    refine ⟨(t.writeData d).2 ++ before, behind, ?_⟩
    rw [List.cons_append, List.cons_append, writeAll_cons, writeAll_cons]
    dsimp only
    rw [hstate, hscript, hscript', written_congr hsame, written_congr hsame, List.append_assoc,
      List.append_assoc]
    exact ⟨rfl, rfl, rfl⟩

end Translation

/-- The source with the rows of another statement in a place of the data. -/
def Source.exchange (source : Source) (n : Nat) (s : PlacedStatement) (i : Insert) : Source :=
  { source with data := source.data.set n { s with statement := .insert i } }

/-- Two runs for a script differ in what they write for one statement alone, and they write its
values alike, moved within each row. -/
structure Source.Moves (source source' : Source) (options : Options) (name : Option Text)
    (i i' : Insert) (move : List Text → List Text) : Prop where
  moves : (Translation.ofSource source options).Moves i i' move
  text : i.rows ≠ [] →
    Postgres.renderInsert? i' ((Translation.ofSource source options).familiesFor i') =
      some (Postgres.insertText i'
        ((Postgres.cells i ((Translation.ofSource source options).familiesFor i)).map move))
  runs : ∃ produced produced' before behind,
    execute source options .script name = .ok produced ∧
    execute source' options .script name = .ok produced' ∧
    produced'.outcome = produced.outcome ∧
    produced.script = before ++ ((Translation.ofSource source options).written i ++ behind) ∧
    produced'.script = before ++ ((Translation.ofSource source options).written i' ++ behind)

/-- A run over the source with one statement exchanged for another with its values moved. -/
theorem Source.moves_exchange {source : Source} {options : Options} (hmode : options.mode = .full)
    {n : Nat} {s : PlacedStatement} (hs : source.data[n]? = some s) {i i' : Insert}
    (hi : s.statement = .insert i) {move : List Text → List Text}
    (h : (Translation.ofSource source options).Moves i i' move) (name : Option Text) :
    source.Moves (source.exchange n s i') options name i i' move := by
  refine ⟨h, h.text, ?_⟩
  have hschema : Translation.ofSource (source.exchange n s i') options =
      Translation.ofSource source options := rfl
  have hfull : (Translation.ofSource source options).options.mode = .full := by
    rw [Translation.options_ofSource, hmode]
  generalize htranslation : Translation.ofSource source options = t at h hschema hfull ⊢
  obtain ⟨hlt, hget⟩ := List.getElem?_eq_some_iff.mp hs
  obtain ⟨first, rest, hdata, -, hset⟩ :=
    @List.exists_of_set _ n { s with statement := .insert i' } source.data hlt
  rw [hget] at hdata
  have hsame : Translation.SameTables (t.writeSchema name).1 t := ⟨rfl, rfl⟩
  obtain ⟨before, behind, hstate, hscript, hscript'⟩ :=
    Translation.exchange_writeAll (h.congr hsame) hi first rest
  rw [← hdata] at hstate hscript
  rw [← hset] at hstate hscript'
  rw [Translation.written_congr hsame] at hscript hscript'
  have hrun (source' : Source) (hsource : Translation.ofSource source' options = t) :
      execute source' options .script name = .ok (t.produceScript source' name) := by
    simp only [execute, hmode, hsource]
  refine ⟨_, _, t.schemaScript name ++ before,
    behind ++ ((t.writeSchema name).1.writeAll source.data).1.epilogue,
    hrun source htranslation, hrun _ hschema, ?_⟩
  rw [Translation.produceScript_eq hfull, Translation.produceScript_eq hfull]
  dsimp only [exchange]
  rw [hscript, hscript', hstate]
  refine ⟨rfl, ?_, ?_⟩
  · simp only [List.append_assoc]
  · simp only [List.append_assoc]

/-- A run writes the values of a statement with its columns in another order as it does without,
each at its new place, and those of a statement that lists all columns of its table in their order
as without the list. Nothing else of the run is different. -/
theorem execute_arrange (source : Source) {options : Options} (hmode : options.mode = .full)
    {n : Nat} {s : PlacedStatement} (hs : source.data[n]? = some s) {i : Insert}
    (hi : s.statement = .insert i) (name : Option Text) :
    (∀ names order, i.columns = some names → (∀ row ∈ i.rows, row.length = names.length) →
      order.Perm (List.range names.length) →
        source.Moves (source.exchange n s (i.arrange order)) options name i (i.arrange order)
          (arrange order)) ∧
      ∀ table names, (Translation.ofSource source options).catalog.find? i.table = some table →
        i.columns = none → names.map asciiLower = table.columnNames →
        (names.map asciiLower).Nodup →
          source.Moves (source.exchange n s { i with columns := some names }) options name i
            { i with columns := some names } id := by
  constructor
  · intro names order hcolumns hrows horder
    exact Source.moves_exchange hmode hs hi (Translation.moves_arrange hcolumns hrows horder) name
  · intro table names htable hcolumns hnames hdistinct
    rw [hnames] at hdistinct
    have hmoves := Translation.moves_list (Translation.families_ofSource source options) htable
      hcolumns hnames hdistinct
    exact Source.moves_exchange hmode hs hi hmoves name

def orderedInsert : Insert where
  table := "t"
  columns := some ["d", "A"]
  rows := [[.text "0000-00-00", .bare "1"]]
  trailing := none
  encoding := .utf8

def unlistedInsert : Insert where
  table := "t"
  columns := none
  rows := [[.bare "1", .null]]
  trailing := none
  encoding := .utf8

def orderedTable : Table where
  name := "t"
  columns := [{ name := "a", type := "bool" }, { name := "d", type := "date" }]

/-- A dump with an `INSERT` that has its columns in an order of its own, and one that lists none. -/
def orderedSource : Source where
  schema := [⟨0, 0, .create orderedTable, []⟩]
  data := [⟨1, 33, .insert orderedInsert, []⟩, ⟨2, 80, .insert unlistedInsert, []⟩]
  count := 3
  encodingNote := none

/-- A dump with rows in two statements. -/
def pairDump (first second : Text) : Octets :=
  .ofText ("CREATE TABLE t (a bool, d date);\n" ++ first ++ "\n" ++ second)

theorem orderedSource_eq :
    .ofOctets (pairDump "INSERT INTO t (d, A) VALUES ('0000-00-00', 1);"
      "INSERT INTO t VALUES (1, NULL);") = orderedSource := by
  decide +kernel

theorem orderedSource_arranged :
    .ofOctets (pairDump "INSERT INTO t (A, d) VALUES (1, '0000-00-00');"
      "INSERT INTO t VALUES (1, NULL);") =
        orderedSource.exchange 0 ⟨1, 33, .insert orderedInsert, []⟩
          (orderedInsert.arrange [1, 0]) := by
  decide +kernel

theorem orderedSource_listed :
    .ofOctets (pairDump "INSERT INTO t (d, A) VALUES ('0000-00-00', 1);"
      "INSERT INTO t (A, d) VALUES (1, NULL);") =
        orderedSource.exchange 1 ⟨2, 80, .insert unlistedInsert, []⟩
          { unlistedInsert with columns := some ["A", "d"] } := by
  decide +kernel

theorem execute_arrange_dates :
    (Source.ofOctets (pairDump "INSERT INTO t (d, A) VALUES ('0000-00-00', 1);"
        "INSERT INTO t VALUES (1, NULL);")).Moves
      (.ofOctets (pairDump "INSERT INTO t (A, d) VALUES (1, '0000-00-00');"
        "INSERT INTO t VALUES (1, NULL);"))
      {} none orderedInsert (orderedInsert.arrange [1, 0]) (arrange [1, 0]) ∧
    (Source.ofOctets (pairDump "INSERT INTO t (d, A) VALUES ('0000-00-00', 1);"
        "INSERT INTO t VALUES (1, NULL);")).Moves
      (.ofOctets (pairDump "INSERT INTO t (d, A) VALUES ('0000-00-00', 1);"
        "INSERT INTO t (A, d) VALUES (1, NULL);"))
      {} none unlistedInsert { unlistedInsert with columns := some ["A", "d"] } id := by
  have hmode : ({} : Options).mode = .full := rfl
  have hrows : ∀ row ∈ orderedInsert.rows, row.length = (["d", "A"] : List Text).length := by
    decide
  have htable : (Translation.ofSource orderedSource {}).catalog.find? "t" = some orderedTable := by
    decide +kernel
  have hfirst := execute_arrange orderedSource hmode (n := 0) rfl rfl none
  have hsecond := execute_arrange orderedSource hmode (n := 1) rfl rfl none
  rw [orderedSource_eq, orderedSource_arranged, orderedSource_listed]
  constructor
  · exact hfirst.1 ["d", "A"] [1, 0] rfl hrows (by decide)
  · exact hsecond.2 orderedTable ["A", "d"] htable rfl (by decide) (by decide)

end SqlDump
