import Mathlib.Data.List.Induction
import Mathlib.Data.List.Nodup
import SqlDump.Proofs.Schema.Clause
import SqlDump.Proofs.Translation.Steps

/-!
# Names of tables

The tables of a dump have different names. Steps that define tables keep this so, and those that
alter them keep the names.

Main statements: `Catalog.distinct_run`, behind any steps no two tables have the same name;
`Translation.exists_run`, the tables of a dump are those behind some steps.
-/

namespace SqlDump

namespace Catalog

/-- No two tables have the same name, whatever its case. -/
def Distinct (c : Catalog) : Prop := (c.tables.map fun t => Text.lower t.name).Nodup

variable {c : Catalog}

/-- A table in the place of one that is the same in some respect leaves the tables the same in that
respect. -/
theorem map_set {α : Type} (f : Table → α) {id : Nat} {t u : Table} (hu : c.table? id = some u)
    (same : f t = f u) : (c.set id t).tables.map f = c.tables.map f := by
  have hvalue : (c.tables.map f)[id]? = some (f t) := by
    have htable : c.tables[id]? = some u := hu
    rw [List.getElem?_map, htable, same]
    rfl
  obtain ⟨hlt, hvalue⟩ := List.getElem?_eq_some_iff.mp hvalue
  rw [set, List.map_set, ← hvalue, List.set_getElem_self]

theorem distinct_set (h : c.Distinct) {id : Nat} {t u : Table} (hu : c.table? id = some u)
    (same : Text.lower t.name = Text.lower u.name) : (c.set id t).Distinct := by
  rw [Distinct, map_set (fun t => Text.lower t.name) hu same]
  exact h

theorem distinct_insert (h : c.Distinct) (t : Table) : (c.insert t).Distinct := by
  unfold insert
  cases hid : c.id? t.name with
  | some id =>
    obtain ⟨hlt, hname, -⟩ := List.findIdx?_eq_some_iff_getElem.mp hid
    have hu : c.table? id = some c.tables[id] := List.getElem?_eq_getElem hlt
    exact distinct_set h hu (eq_of_beq hname).symm
  | none =>
    have fresh : ∀ u ∈ c.tables, Text.lower u.name ≠ Text.lower t.name := by
      intro u hu
      have := List.findIdx?_eq_none_iff.mp hid u hu
      simpa using this
    unfold Distinct
    rw [List.map_append, List.map_singleton, List.nodup_append]
    refine ⟨h, List.nodup_singleton _, ?_⟩
    intro a ha b hb
    obtain ⟨u, hu, rfl⟩ := List.mem_map.mp ha
    rw [List.mem_singleton.mp hb]
    exact fresh u hu

end Catalog

namespace Table

theorem alter_name (t : Table) (clauses : List Text) : (t.alter clauses).1.name = t.name := by
  induction clauses generalizing t with
  | nil => rfl
  | cons clause clauses ih =>
    rw [alter]
    cases h : t.absorb? clause with
    | none => exact ih t
    | some u => exact (ih u).trans (absorb?_name h)

end Table

theorem Alteration.distinct {c d : Catalog} {a : Alteration} {statement : Text} (hc : c.Distinct)
    (h : parse? c statement = some (a, d)) : d.Distinct := by
  obtain ⟨⟨name, clauses⟩, -, h⟩ := Option.bind_eq_some_iff.mp h
  obtain ⟨id, -, h⟩ := Option.bind_eq_some_iff.mp h
  obtain ⟨t, ht, h⟩ := Option.bind_eq_some_iff.mp h
  obtain ⟨rfl, rfl⟩ := Prod.mk.inj (Option.some.inj h)
  exact Catalog.distinct_set hc ht (congrArg Text.lower (Table.alter_name t clauses))

/-- A step that may change the tables: a definition, or the text of a statement that may alter a
table. -/
inductive CatalogStep where
  | define (t : Table)
  | alter (statement : Text)

namespace Catalog

/-- The catalog behind a step. -/
def step (c : Catalog) : CatalogStep → Catalog
  | .define t => c.insert t
  | .alter statement => ((Alteration.parse? c statement).map Prod.snd).getD c

/-- The catalog behind steps from the beginning. -/
def run (steps : List CatalogStep) : Catalog := steps.foldl step {}

theorem run_snoc (steps : List CatalogStep) (s : CatalogStep) :
    run (steps ++ [s]) = (run steps).step s := List.foldl_append

theorem distinct_step {c : Catalog} (h : c.Distinct) (s : CatalogStep) : (c.step s).Distinct := by
  cases s with
  | define t => exact distinct_insert h t
  | alter statement =>
    rw [step]
    cases hparse : Alteration.parse? c statement with
    | none => exact h
    | some outcome => exact Alteration.distinct h hparse

/-- Behind any steps the tables have different names. -/
theorem distinct_run (steps : List CatalogStep) : (run steps).Distinct := by
  induction steps using List.reverseRecOn with
  | nil => exact List.nodup_nil
  | append_singleton steps s ih =>
    rw [run_snoc]
    exact distinct_step ih s

end Catalog

namespace Translation

/-- What a statement of a dump does to its tables is a step, or nothing. -/
theorem TableStep.eq_or_step {c d : Catalog} {s : Statement} (h : TableStep c s d) :
    d = c ∨ ∃ step, d = c.step step := by
  cases h with
  | @define t hs => exact .inr ⟨.define t, rfl⟩
  | @alter o a d hs hkind hparse =>
    refine .inr ⟨.alter o.text, ?_⟩
    rw [Catalog.step, hparse]
    rfl
  | keep hs => exact .inl rfl

/-- The tables of a dump are those behind some steps. -/
theorem exists_run (source : Source) (options : Options) :
    ∃ steps, (ofSource source options).catalog = Catalog.run steps := by
  have schema (statements : List PlacedStatement) (t : Translation)
      (h : ∃ steps, t.catalog = Catalog.run steps) :
      ∃ steps, (statements.foldl schemaStatement t).catalog = Catalog.run steps := by
    induction statements generalizing t with
    | nil => exact h
    | cons s statements ih =>
      refine ih _ ?_
      obtain ⟨steps, hrun⟩ := h
      rcases (schemaStep t s).tables.eq_or_step with hsame | ⟨step, hstep⟩
      · exact ⟨steps, hsame.trans hrun⟩
      · exact ⟨steps ++ [step], by rw [hstep, hrun, Catalog.run_snoc]⟩
  have all := schema source.schema (start options) ⟨[], rfl⟩
  unfold ofSource
  dsimp only
  split <;> exact all

/-- The tables of a run have different names. -/
theorem distinct_ofSource (source : Source) (options : Options) :
    (ofSource source options).catalog.Distinct := by
  obtain ⟨steps, hrun⟩ := exists_run source options
  rw [hrun]
  exact Catalog.distinct_run steps

end Translation

end SqlDump
