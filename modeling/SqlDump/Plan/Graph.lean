import SqlDump.Schema.Catalog

/-!
# Dependencies between tables

A table depends on the tables its foreign keys refer to, its parents. References to the table
itself and to tables that the catalog does not have are no dependencies.

Main statement: `Graph.mem_childrenOf`, children are the tables that have a table as a parent.
-/

namespace SqlDump

/-- The dependencies of the tables of a catalog, by number. -/
structure Graph where
  /-- The parents of each table, each once, in the order of the keys. -/
  parents : List (List Nat)
  deriving DecidableEq, Repr

namespace Graph

/-- The parents of one table. -/
def parentsIn (catalog : Catalog) (id : Nat) (t : Table) : List Nat :=
  ((t.foreignKeys.filterMap fun key => catalog.id? key.referencedTable).filter
    (· != id)).eraseDups

/-- The dependencies between the tables of a catalog. -/
def ofCatalog (catalog : Catalog) : Graph where
  parents := catalog.tables.mapIdx fun id t => parentsIn catalog id t

/-- The number of tables. -/
def size (g : Graph) : Nat := g.parents.length

/-- The parents of a table. -/
def parentsOf (g : Graph) (id : Nat) : List Nat := g.parents.getD id []

/-- The tables that have a table as a parent, in the order of their numbers. -/
def childrenOf (g : Graph) (id : Nat) : List Nat :=
  (List.range g.size).filter fun child => (g.parentsOf child).contains id

/-- The children of each table. -/
def children (g : Graph) : List (List Nat) := (List.range g.size).map g.childrenOf

theorem mem_childrenOf {g : Graph} {id child : Nat} :
    child ∈ g.childrenOf id ↔ child < g.size ∧ id ∈ g.parentsOf child := by
  simp [childrenOf]

end Graph

end SqlDump
