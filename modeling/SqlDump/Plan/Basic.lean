import SqlDump.Diagnostic
import SqlDump.Plan.Graph
import SqlDump.Plan.Schedule

/-!
# Plans

The order in which tables are created, and which foreign keys are created with their tables. Pinned
tables come first; of the others parents come before children and the order of the dump decides
between equals. A key to a table that comes later is deferred until all tables exist.

Main statement: `Plan.mem_deferredIn`, a key is deferred exactly when it is not inline.
-/

namespace SqlDump

/-- What is asked of a plan. -/
structure PlanOptions where
  /-- The tables to put first, by name and in this order. -/
  pinned : List Text := []
  /-- Whether every foreign key is deferred. -/
  deferAll : Bool := false
  deriving DecidableEq, Repr

/-- The order of tables and the place of each foreign key. -/
structure Plan where
  /-- The tables in the order of their creation, by number. -/
  order : List Nat := []
  /-- For each table, by number, which of its foreign keys are created with it. -/
  inline : List (List Bool) := []
  /-- The other foreign keys, as the number of their table and their place in it. -/
  deferred : List (Nat × Nat) := []
  deriving DecidableEq, Repr

namespace Plan

/-- The pinned tables that the catalog has, each once. -/
def pins (catalog : Catalog) (options : PlanOptions) : List Nat :=
  (options.pinned.filterMap catalog.id?).eraseDups

/-- The note for a pinned table that the catalog does not have. -/
def unknownPinNote? (catalog : Catalog) (name : Text) : Option Diagnostic :=
  if catalog.defines name then none
  else
    some {
      kind := .unknownPinnedTable
      message := "pinned table " ++ name ++ " is not defined in the dump"
      table := some name }

/-- The name of a table. -/
def nameOf (catalog : Catalog) (id : Nat) : Text :=
  match catalog.table? id with
  | some t => t.name
  | none => []

/-- The note for a table that came before some of its parents. -/
def cycleNote (catalog : Catalog) (b : CycleBreak) : Diagnostic where
  kind := .cyclicDependency
  message :=
    "cycle broken at " ++ nameOf catalog b.id ++ "; constraints to " ++
      Text.join ", " (b.parents.map (nameOf catalog)) ++ " deferred"
  table := some (nameOf catalog b.id)

/-- Whether a foreign key of table `id` can be created with it once the tables `before` exist. -/
def createsInline (catalog : Catalog) (before : List Nat) (id : Nat) (key : ForeignKey) : Bool :=
  match catalog.id? key.referencedTable with
  | none => false
  | some parent => parent == id || before.contains parent

/-- Which foreign keys of table `id` are created with it. -/
def inlineFlags (catalog : Catalog) (options : PlanOptions) (order : List Nat) (id : Nat)
    (t : Table) : List Bool :=
  let before := order.takeWhile (· != id)
  t.foreignKeys.map fun key => !options.deferAll && createsInline catalog before id key

/-- The note for a foreign key to a table that the catalog does not have. -/
def unresolvedNote? (catalog : Catalog) (t : Table) (key : ForeignKey) : Option Diagnostic :=
  if catalog.defines key.referencedTable then none
  else
    some {
      kind := .unresolvedForeignKey
      message :=
        "constraint " ++ key.name ++ " references missing table " ++ key.referencedTable
      table := some t.name }

/-- The places of the flags that are off. -/
def offPlaces (flags : List Bool) : List Nat :=
  (List.range flags.length).filter fun i => flags[i]? == some false

/-- The keys that are not inline, table by table in the order of creation. -/
def deferredIn (order : List Nat) (inline : List (List Bool)) : List (Nat × Nat) :=
  order.flatMap fun id => (offPlaces (inline.getD id [])).map (id, ·)

/-- The plan for a catalog, and the notes on what did not work out. -/
def ofCatalog (catalog : Catalog) (options : PlanOptions) : Plan × List Diagnostic :=
  let graph := Graph.ofCatalog catalog
  let schedule := (Schedule.start graph (pins catalog options)).finish graph
  let order := schedule.order
  let inline := catalog.tables.mapIdx fun id t => inlineFlags catalog options order id t
  let unresolved := (order.filterMap catalog.table?).flatMap fun t =>
    t.foreignKeys.filterMap (unresolvedNote? catalog t)
  ({ order, inline, deferred := deferredIn order inline },
    options.pinned.filterMap (unknownPinNote? catalog) ++ schedule.breaks.map (cycleNote catalog) ++
      unresolved)

/-- Whether a foreign key is created with its table. -/
def isInline (p : Plan) (id key : Nat) : Bool := (p.inline.getD id []).getD key false

/-- A key of a planned table is deferred exactly when its flag is off. -/
theorem mem_deferredIn {order : List Nat} {inline : List (List Bool)} {id key : Nat} :
    (id, key) ∈ deferredIn order inline ↔ id ∈ order ∧ (inline.getD id [])[key]? = some false := by
  simp only [deferredIn, offPlaces, List.mem_flatMap, List.mem_map, List.mem_filter,
    List.mem_range, beq_iff_eq, Prod.mk.injEq]
  constructor
  · rintro ⟨i, hi, k, ⟨_, hk⟩, rfl, rfl⟩
    exact ⟨hi, hk⟩
  · rintro ⟨hi, hk⟩
    exact ⟨id, hi, key, ⟨(List.getElem?_eq_some_iff.mp hk).1, hk⟩, rfl, rfl⟩

end Plan

end SqlDump
