import Mathlib.Data.List.Induction
import SqlDump.Proofs.Schema.References

/-!
# Tables found by an index

The number of a table is looked up in an index of names in lower case, which grows with the tables:
a definition adds a name that is not there yet, and nothing else changes the index. Tables are
replaced and altered in their places, so that the index stays right however long statements go on,
and gives what a search through the tables would.

Main statements: `IndexedCatalog.lawful_run`, the index is right behind any steps and the tables are
those of the catalog; `IndexedCatalog.run_invariants`, what is looked up and what a step changes.
-/

namespace SqlDump

open Text

/-- The tables of a dump with an index of their names in lower case. -/
structure IndexedCatalog extends Catalog where
  ids : Std.HashMap String Nat := {}

namespace IndexedCatalog

/-- The number that the index has for a name, whatever its case. -/
def lookup? (c : IndexedCatalog) (name : Text) : Option Nat := c.ids[String.ofList (lower name)]?

/-- Adds a table, or puts it in the place of the one of its name: its number, and whether it
replaced one. A new number is that of the tables before it; as in `Catalog.insert` it is unbounded,
where 32 bits hold those of fewer than 2^32 tables. -/
def define (c : IndexedCatalog) (t : Table) : (Nat × Bool) × IndexedCatalog :=
  let key := String.ofList (lower t.name)
  match c.ids[key]? with
  | some id => ((id, true), { c with tables := c.tables.set id t })
  | none =>
    let id := c.tables.length
    ((id, false), { tables := c.tables ++ [t], ids := c.ids.insert key id })

/-- Applies a statement to the table that it names: what became of it, if it is an `ALTER TABLE` and
the table is there. -/
def alter (c : IndexedCatalog) (statement : Text) : Option Alteration × IndexedCatalog :=
  match Alteration.clauses? statement with
  | none => (none, c)
  | some (name, clauses) =>
    match (c.lookup? name).bind fun id => (c.table? id).map fun t => (id, t) with
    | none => (none, c)
    | some (id, t) =>
      let (altered, remaining) := t.alter clauses
      (some (.ofRemaining t.name (clauses.length - remaining.length) remaining),
        { c with tables := c.tables.set id altered })

/-- The catalog behind a step. -/
def step (c : IndexedCatalog) : CatalogStep → IndexedCatalog
  | .define t => (c.define t).2
  | .alter statement => (c.alter statement).2

/-- The catalog behind steps from the beginning. -/
def run (steps : List CatalogStep) : IndexedCatalog := steps.foldl step {}

theorem run_snoc (steps : List CatalogStep) (s : CatalogStep) :
    run (steps ++ [s]) = (run steps).step s := List.foldl_append

/-- The index gives what a search through the tables gives. -/
def Lawful (c : IndexedCatalog) : Prop :=
  ∀ key, c.ids[String.ofList key]? = c.tables.findIdx? fun t => lower t.name == key

variable {c : IndexedCatalog} {t : Table} {statement : Text}

theorem Lawful.lookup?_eq (h : c.Lawful) (name : Text) : c.lookup? name = c.id? name :=
  h (lower name)

/-- A table of the same name in the place of one keeps the index right. -/
theorem Lawful.set (h : c.Lawful) {id : Nat} {u : Table} (hu : c.table? id = some u)
    (same : lower t.name = lower u.name) :
    Lawful { c with tables := c.tables.set id t } := by
  have names (tables : List Table) (key : Text) :
      (tables.findIdx? fun t => lower t.name == key) =
        (tables.map fun t => lower t.name).findIdx? (· == key) := by
    rw [List.findIdx?_map]
    rfl
  intro key
  have hset : (c.tables.set id t).map (fun t => lower t.name) =
      c.tables.map fun t => lower t.name := Catalog.map_set (fun t => lower t.name) hu same
  rw [names, hset, ← names]
  exact h key

/-! ### One step -/

/-- A definition does to the tables what it does without an index. -/
theorem Lawful.define (h : c.Lawful) (t : Table) :
    (c.define t).1 = (c.insertId t, c.defines t.name) ∧
      (c.define t).2.toCatalog = c.toCatalog.insert t ∧ (c.define t).2.Lawful := by
  have hid : c.ids[String.ofList (lower t.name)]? = c.id? t.name := h (lower t.name)
  unfold IndexedCatalog.define Catalog.insertId Catalog.defines Catalog.insert
  dsimp only
  rw [hid]
  cases hfound : c.id? t.name with
  | some id =>
    obtain ⟨hlt, hname, -⟩ := List.findIdx?_eq_some_iff_getElem.mp hfound
    have hu : c.table? id = some c.tables[id] := List.getElem?_eq_getElem hlt
    exact ⟨rfl, rfl, h.set hu (eq_of_beq hname).symm⟩
  | none =>
    refine ⟨rfl, rfl, fun key => ?_⟩
    rw [Std.HashMap.getElem?_insert, List.findIdx?_append, ← h key]
    -- The name is new, so that a search finds the table at the end and the index at its key.
    by_cases hkey : lower t.name = key
    · subst hkey
      rw [hid, hfound]
      simp
    · have hother : String.ofList (lower t.name) ≠ String.ofList key :=
        fun heq => hkey (String.ofList_inj.mp heq)
      simp [hkey, hother]

/-- A statement does to the tables what it does without an index. -/
theorem Lawful.alter (h : c.Lawful) (statement : Text) :
    (c.alter statement).1 = (Alteration.parse? c.toCatalog statement).map Prod.fst ∧
      (c.alter statement).2.toCatalog = c.toCatalog.step (.alter statement) ∧
      (c.alter statement).2.Lawful := by
  rw [Catalog.step]
  unfold IndexedCatalog.alter Alteration.parse?
  cases Alteration.clauses? statement with
  | none => exact ⟨rfl, rfl, h⟩
  | some found =>
    obtain ⟨name, clauses⟩ := found
    simp only [Option.bind_eq_bind, Option.bind_some, h.lookup?_eq]
    cases c.id? name with
    | none => exact ⟨rfl, rfl, h⟩
    | some id =>
      simp only [Option.bind_some]
      cases ht : c.table? id with
      | none => exact ⟨rfl, rfl, h⟩
      | some t => exact ⟨rfl, rfl, h.set ht (congrArg lower (Table.alter_name t clauses))⟩

theorem Lawful.step (h : c.Lawful) (s : CatalogStep) :
    (c.step s).toCatalog = c.toCatalog.step s ∧ (c.step s).Lawful := by
  cases s with
  | define t => exact (h.define t).2
  | alter statement => exact (h.alter statement).2

/-! ### Any steps -/

/-- Behind any steps the index is right, and the tables are those of the catalog. -/
theorem lawful_run (steps : List CatalogStep) :
    (run steps).toCatalog = Catalog.run steps ∧ (run steps).Lawful := by
  induction steps using List.reverseRecOn with
  | nil => exact ⟨rfl, fun key => Std.HashMap.getElem?_empty⟩
  | append_singleton steps s ih =>
    obtain ⟨hrun, hlawful⟩ := ih
    rw [run_snoc, Catalog.run_snoc, ← hrun]
    exact hlawful.step s

/-- What is looked up is the table of that name. -/
theorem Lawful.lookup?_eq_some (h : c.Lawful) (distinct : c.Distinct) {name : Text} {id : Nat} :
    c.lookup? name = some id ↔ ∃ t, c.table? id = some t ∧ lower t.name = lower name := by
  rw [h.lookup?_eq]
  constructor
  · intro hid
    obtain ⟨t, ht⟩ := Catalog.exists_table? (List.findIdx?_eq_some_iff_getElem.mp hid).1
    exact ⟨t, ht, Catalog.lower_name_of_id? hid ht⟩
  · rintro ⟨t, ht, hname⟩
    rw [← Catalog.id?_congr hname]
    exact Catalog.id?_of_table? distinct ht

/-- What a definition does: it puts a table under the number of its name, or else under the next,
and tells which of the two. -/
structure Defines (c : IndexedCatalog) (t : Table) : Prop where
  id : (c.define t).1.1 = (c.lookup? t.name).getD c.size
  replaced : (c.define t).1.2 = (c.lookup? t.name).isSome
  /-- Without an index the outcome is the same. -/
  plain : (c.define t).1 = (c.insertId t, c.defines t.name)
  stored : (c.define t).2.table? (c.define t).1.1 = some t
  others : ∀ id, id ≠ (c.define t).1.1 → (c.define t).2.table? id = c.table? id

/-- What a statement does that may alter a table: nothing, or it puts the altered table in its
place. -/
structure Alters (c : IndexedCatalog) (statement : Text) : Prop where
  /-- Without an index the outcome is the same. -/
  plain : (c.alter statement).1 = (Alteration.parse? c.toCatalog statement).map Prod.fst
  rejected : (c.alter statement).1 = none → (c.alter statement).2 = c
  applied : (c.alter statement).1.isSome → ∃ name clauses id t,
    Alteration.clauses? statement = some (name, clauses) ∧ c.lookup? name = some id ∧
      c.table? id = some t ∧ (c.alter statement).2.table? id = some (t.alter clauses).1 ∧
      ∀ other, other ≠ id → (c.alter statement).2.table? other = c.table? other

theorem Lawful.defines (h : c.Lawful) (t : Table) : c.Defines t := by
  obtain ⟨houtcome, hcatalog, -⟩ := h.define t
  refine ⟨?_, ?_, houtcome, ?_, fun id hid => ?_⟩
  · rw [houtcome, h.lookup?_eq]
    rfl
  · rw [houtcome, h.lookup?_eq]
    rfl
  · rw [hcatalog, houtcome]
    exact Catalog.table?_insert c.toCatalog t
  · rw [houtcome] at hid
    rw [hcatalog]
    exact Catalog.table?_insert_of_ne hid

theorem Lawful.alters (h : c.Lawful) (statement : Text) : c.Alters statement := by
  refine ⟨(h.alter statement).1, ?_, ?_⟩
  · intro hnone
    unfold IndexedCatalog.alter at hnone ⊢
    split at hnone
    · rfl
    · split at hnone
      · rfl
      · cases hnone
  · intro hsome
    unfold IndexedCatalog.alter at hsome ⊢
    split at hsome
    · cases hsome
    · next name clauses hclauses =>
      split at hsome
      · cases hsome
      · next id t hfound =>
        obtain ⟨found, hid, hmap⟩ := Option.bind_eq_some_iff.mp hfound
        obtain ⟨u, ht, heq⟩ := Option.map_eq_some_iff.mp hmap
        obtain ⟨rfl, rfl⟩ := Prod.mk.inj heq
        refine ⟨name, clauses, found, u, hclauses, hid, ht, ?_, ?_⟩
        · exact List.getElem?_set_self (Catalog.table?_lt ht)
        · exact fun other hother => List.getElem?_set_ne (Ne.symm hother)

end IndexedCatalog

namespace Catalog

variable {c d : Catalog}

/-- Every table of one catalog is in another under the same number, with the same name in any
case. -/
def Keeps (c d : Catalog) : Prop :=
  ∀ id t, c.table? id = some t → ∃ u, d.table? id = some u ∧ lower u.name = lower t.name

theorem Keeps.trans {e : Catalog} (h : c.Keeps d) (k : d.Keeps e) : c.Keeps e := by
  intro id t ht
  obtain ⟨u, hu, hname⟩ := h id t ht
  obtain ⟨v, hv, hsame⟩ := k id u hu
  exact ⟨v, hv, hsame.trans hname⟩

theorem keeps_insert (c : Catalog) (t : Table) : c.Keeps (c.insert t) := by
  intro id u hu
  by_cases hid : id = c.insertId t
  · subst hid
    refine ⟨t, table?_insert c t, ?_⟩
    cases hfound : c.id? t.name with
    | some found =>
      rw [insertId, hfound] at hu
      exact (lower_name_of_id? hfound hu).symm
    | none =>
      rw [insertId, hfound] at hu
      exact absurd (table?_lt hu) (Nat.lt_irrefl _)
  · exact ⟨u, (table?_insert_of_ne hid).trans hu, rfl⟩

theorem keeps_set {id : Nat} {t u : Table} (ht : c.table? id = some t)
    (same : lower u.name = lower t.name) : c.Keeps (c.set id u) := by
  intro other v hv
  by_cases hother : id = other
  · subst hother
    obtain rfl := Option.some.inj (ht.symm.trans hv)
    exact ⟨u, List.getElem?_set_self (table?_lt ht), same⟩
  · exact ⟨v, (List.getElem?_set_ne hother).trans hv, rfl⟩

theorem keeps_step (c : Catalog) (s : CatalogStep) : c.Keeps (c.step s) := by
  cases s with
  | define t => exact keeps_insert c t
  | alter statement =>
    rw [step]
    cases hparse : Alteration.parse? c statement with
    | none => exact fun id t ht => ⟨t, ht, rfl⟩
    | some outcome =>
      obtain ⟨id, t, u, ht, hset, hname, -⟩ := Alteration.parse?_eq hparse
      rw [Option.map_some, Option.getD_some, hset]
      exact keeps_set ht (congrArg lower hname)

/-- No step takes a table away or gives it another number. -/
theorem keeps_run (steps more : List CatalogStep) : (run steps).Keeps (run (steps ++ more)) := by
  induction more using List.reverseRecOn with
  | nil =>
    rw [List.append_nil]
    exact fun id t ht => ⟨t, ht, rfl⟩
  | append_singleton more s ih =>
    rw [← List.append_assoc, run_snoc]
    exact ih.trans (keeps_step _ s)

end Catalog

namespace IndexedCatalog

/-- Behind any steps from the beginning, the number that is looked up for a name is that of the
table of this name, names are distinct, and no later step takes a table away or gives it another
number. A definition puts its table under the number of its name or the next one, a statement alters
the table that it names or nothing, and other tables stay as they are. Without an index the tables
are the same, and so is what becomes of a step. -/
theorem run_invariants (steps : List CatalogStep) :
    (run steps).toCatalog = Catalog.run steps ∧
    (∀ name id, (run steps).lookup? name = some id ↔
      ∃ t, (run steps).table? id = some t ∧ lower t.name = lower name) ∧
    ((run steps).tables.map fun t => lower t.name).Nodup ∧
    (∀ more id t, (run steps).table? id = some t →
      ∃ u, (run (steps ++ more)).table? id = some u ∧ lower u.name = lower t.name) ∧
    (∀ t, (run steps).Defines t) ∧
    ∀ statement, (run steps).Alters statement := by
  obtain ⟨hrun, hlawful⟩ := lawful_run steps
  have hdistinct : (run steps).Distinct := hrun ▸ Catalog.distinct_run steps
  refine ⟨hrun, fun name id => hlawful.lookup?_eq_some hdistinct, hdistinct, ?_,
    hlawful.defines, hlawful.alters⟩
  intro more id t ht
  rw [hrun] at ht
  rw [(lawful_run (steps ++ more)).1]
  exact Catalog.keeps_run steps more id t ht

end IndexedCatalog

end SqlDump
