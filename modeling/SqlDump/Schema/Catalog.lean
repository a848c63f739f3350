import SqlDump.Schema.Basic

/-!
# The catalog

The tables of a dump in the order of their first definitions. A table is found by its lower-case
name, and its number is its place.

Main statements: `Catalog.length_insert`, inserting adds a table or replaces one;
`Catalog.table?_insert`, the inserted table is found under its number.
-/

namespace SqlDump

/-- The tables of a dump. -/
structure Catalog where
  tables : List Table := []
  deriving DecidableEq, Repr

namespace Catalog

/-- The number of the table of that name, whatever its case. -/
def id? (c : Catalog) (name : Text) : Option Nat :=
  let key := Text.lower name
  c.tables.findIdx? fun t => Text.lower t.name == key

/-- The table of a number. -/
def table? (c : Catalog) (id : Nat) : Option Table := c.tables[id]?

/-- The table of that name. -/
def find? (c : Catalog) (name : Text) : Option Table := (c.id? name).bind c.table?

/-- The number of tables. -/
def size (c : Catalog) : Nat := c.tables.length

/-- The catalog with the table of a number replaced. -/
def set (c : Catalog) (id : Nat) (t : Table) : Catalog := ⟨c.tables.set id t⟩

/-- Whether a table of that name is there already. -/
def defines (c : Catalog) (name : Text) : Bool := (c.id? name).isSome

/-- The catalog with a table added, or put in the place of the one of its name. Table numbers are
unbounded here; 32 bits hold them for fewer than 2^32 tables. -/
def insert (c : Catalog) (t : Table) : Catalog :=
  match c.id? t.name with
  | some id => c.set id t
  | none => ⟨c.tables ++ [t]⟩

/-- The number that a table has once it is inserted. -/
def insertId (c : Catalog) (t : Table) : Nat := (c.id? t.name).getD c.size

theorem length_insert (c : Catalog) (t : Table) :
    (c.insert t).size = if c.defines t.name then c.size else c.size + 1 := by
  cases h : c.id? t.name <;> simp [insert, defines, h, size, set]

theorem table?_insert (c : Catalog) (t : Table) :
    (c.insert t).table? (c.insertId t) = some t := by
  simp only [insert, insertId]
  cases h : c.id? t.name with
  | none => simp [size, table?]
  | some id =>
    have hid : id < c.tables.length := (List.findIdx?_eq_some_iff_getElem.mp h).1
    simp [set, table?, hid]

end Catalog

end SqlDump
