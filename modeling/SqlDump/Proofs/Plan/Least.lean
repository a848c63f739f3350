import SqlDump.Proofs.Plan.Cycles

/-!
# The least order

Where the tables that are not pinned depend on each other without a cycle, parents come before
children. Of all the orders in which they do, the plan has the first one by the order of the dump.

Main statement: `Plan.ofCatalog_least`.
-/

namespace SqlDump

/-- The tables that are not pinned, with parents before children. -/
structure Catalog.OrdersUnpinned (c : Catalog) (pinned : List Text) (ids : List Nat) : Prop where
  nodup : ids.Nodup
  mem : ∀ id, id ∈ ids ↔ id < c.size ∧ ¬c.Pinned pinned id
  parents : ∀ child parent, c.DependsUnpinned pinned child parent →
    ids.idxOf parent < ids.idxOf child

/-- The first table of any order misses no parents, so the greedy choice is not later. -/
theorem Graph.Greedy.least {g : Graph} {placed rest other : List Nat} (h : g.Greedy placed rest [])
    (nodup : other.Nodup) (mem : ∀ id, id ∈ other ↔ id < g.size ∧ id ∉ placed)
    (parents : ∀ child parent, g.Waits placed child parent →
      other.idxOf parent < other.idxOf child) : rest = other ∨ List.Lex (· < ·) rest other := by
  generalize hbreaks : ([] : List CycleBreak) = breaks at h
  induction h generalizing other with
  | done all =>
    have empty : other = [] := by
      refine List.eq_nil_iff_forall_not_mem.mpr ?_
      intro id hid
      obtain ⟨hlt, hfresh⟩ := (mem id).mp hid
      exact hfresh (all id hlt)
    exact .inl empty.symm
  | @next placed rest id breaks next tail ih =>
    obtain ⟨-, hbreaks⟩ := List.append_eq_nil_iff.mp hbreaks.symm
    have hid : id ∈ other := (mem id).mpr ⟨next.bound, next.fresh⟩
    cases other with
    | nil => cases hid
    | cons first other =>
      obtain ⟨hlt, hfresh⟩ := (mem first).mp List.mem_cons_self
      have none : g.missing placed first = [] := by
        refine List.eq_nil_iff_forall_not_mem.mpr ?_
        intro parent hmissing
        obtain ⟨hparent, hwaits⟩ := mem_missing.mp hmissing
        have := parents first parent ⟨hparent, hfresh, hwaits⟩
        rw [List.idxOf_cons_self] at this
        omega
      have hle : id ≤ first := by
        have soonest := next.soonest first hlt hfresh
        dsimp only [Sooner] at soonest
        rw [none, List.length_nil] at soonest
        omega
      rcases Nat.lt_or_eq_of_le hle with hless | rfl
      · exact .inr (.rel hless)
      · obtain ⟨unlisted, nodup⟩ := List.nodup_cons.mp nodup
        have mem' (table : Nat) : table ∈ other ↔ table < g.size ∧ table ∉ placed ++ [id] := by
          rw [List.mem_append, List.mem_singleton, not_or, ← and_assoc, ← mem table, List.mem_cons]
          constructor
          · intro h
            refine ⟨.inr h, ?_⟩
            rintro rfl
            exact unlisted h
          · rintro ⟨h | h, hne⟩
            · exact (hne h).elim
            · exact h
        have parents' (child parent : Nat) (waits : g.Waits (placed ++ [id]) child parent) :
            other.idxOf parent < other.idxOf child := by
          obtain ⟨hparent, hchild, hwaits⟩ := waits
          rw [List.mem_append, List.mem_singleton, not_or] at hchild hwaits
          have := parents child parent ⟨hparent, hchild.1, hwaits.1⟩
          rw [List.idxOf_cons_ne other (Ne.symm hchild.2),
            List.idxOf_cons_ne other (Ne.symm hwaits.2)] at this
          omega
        rcases ih nodup mem' parents' hbreaks.symm with rfl | h
        · exact .inl rfl
        · exact .inr (.cons h)

namespace Plan

/-- Without a cycle among the tables that are not pinned, these follow the pinned ones in the least
order that has parents before children. Then there is no note on a cycle, and they are created with
all their keys that refer to a table. -/
theorem ofCatalog_least (catalog : Catalog) (options : PlanOptions)
    (acyclic : ∀ id, ¬Relation.TransGen (catalog.DependsUnpinned options.pinned) id id) :
    (∃ front rest, (ofCatalog catalog options).1.order = front ++ rest ∧
      (∀ id, id ∈ front ↔ catalog.Pinned options.pinned id) ∧
      catalog.OrdersUnpinned options.pinned rest ∧
      ∀ other, catalog.OrdersUnpinned options.pinned other →
        rest = other ∨ List.Lex (· < ·) rest other) ∧
    (∀ note ∈ (ofCatalog catalog options).2, note.kind ≠ .cyclicDependency) ∧
    (options.deferAll = false → ∀ id t k key, ¬catalog.Pinned options.pinned id →
      catalog.table? id = some t → t.foreignKeys[k]? = some key →
      catalog.defines key.referencedTable = true →
        (ofCatalog catalog options).1.isInline id k = true) := by
  obtain ⟨rest, breaks, horder, greedy, hnotes⟩ := ofCatalog_greedy catalog options
  obtain rfl : breaks = [] := (breaks_eq_nil_iff greedy).mpr acyclic
  have unpinned (id : Nat) : id ∈ rest ↔ id < catalog.size ∧ ¬catalog.Pinned options.pinned id := by
    rw [greedy.mem_iff, Graph.size_ofCatalog, mem_pins_iff]
  refine ⟨⟨pins catalog options, rest, horder, fun id => mem_pins_iff, ?_, ?_⟩, ?_, ?_⟩
  · refine ⟨greedy.nodup, unpinned, ?_⟩
    intro child parent h
    rw [← waits_pins] at h
    obtain ⟨hparent, hchild, hwaits⟩ := h
    have before := greedy.parent_before hchild List.not_mem_nil hparent
    rw [List.idxOf_append_of_notMem hchild, List.idxOf_append_of_notMem hwaits] at before
    omega
  · intro other horders
    refine greedy.least horders.nodup ?_ ?_
    · intro id
      rw [horders.mem, Graph.size_ofCatalog, mem_pins_iff]
    · intro child parent h
      rw [waits_pins] at h
      exact horders.parents child parent h
  · intro note hnote hkind
    exact (exists_cyclicNote_iff hnotes).mp ⟨note, hnote, hkind⟩ rfl
  · intro hall id t k key hid ht hkey defined
    rw [isInline_iff ht hkey]
    exact fits_of_unbroken horder greedy hall ht (List.mem_of_getElem? hkey) defined hid
      List.not_mem_nil

/-- Tables `a` and `b` refer to each other, and `c` to itself and to `a`. -/
def ringCatalog : Catalog where
  tables := [
    { name := "a", foreignKeys := [⟨"a_b", "a", ["b"], "b", ["id"], none, none⟩] },
    { name := "b", foreignKeys := [⟨"b_a", "b", ["a"], "a", ["id"], none, none⟩] },
    { name := "c", foreignKeys := [
      ⟨"c_c", "c", ["c"], "c", ["id"], none, none⟩,
      ⟨"c_a", "c", ["a"], "a", ["id"], none, none⟩] }]

theorem ringCatalog_depends {child parent : Nat}
    (h : ringCatalog.DependsUnpinned ["B"] child parent) : child = 2 ∧ parent = 0 := by
  have parents : (Graph.ofCatalog ringCatalog).parents = [[1], [0], [0]] := by decide
  have pinned : ringCatalog.Pinned ["B"] 1 := ⟨"B", List.mem_singleton_self _, by decide⟩
  obtain ⟨depends, hchild, hparent⟩ := h
  have hmem := Graph.mem_parentsOf.mpr depends
  rw [Graph.parentsOf, parents] at hmem
  rcases child with _ | _ | _ | child
  · obtain rfl := List.mem_singleton.mp hmem
    exact (hparent pinned).elim
  · exact (hchild pinned).elim
  · exact ⟨rfl, List.mem_singleton.mp hmem⟩
  · cases hmem

/-- Pinning `b` breaks the ring: `a` and `c` follow without a note. -/
theorem ofCatalog_least_pinned :
    (∀ id, ¬Relation.TransGen (ringCatalog.DependsUnpinned ["B"]) id id) ∧
      (∀ note ∈ (ofCatalog ringCatalog { pinned := ["B"] }).2, note.kind ≠ .cyclicDependency) ∧
      (ofCatalog ringCatalog { pinned := ["B"] }).1.isInline 0 0 = true := by
  have acyclic : ∀ id, ¬Relation.TransGen (ringCatalog.DependsUnpinned ["B"]) id id := by
    intro id cycle
    obtain ⟨next, first, -⟩ := Relation.TransGen.head'_iff.mp cycle
    obtain ⟨last, -, final⟩ := Relation.TransGen.tail'_iff.mp cycle
    have := (ringCatalog_depends first).1
    have := (ringCatalog_depends final).2
    omega
  have unpinned : ¬ringCatalog.Pinned ["B"] 0 := by
    rintro ⟨name, hname, hid⟩
    obtain rfl := List.mem_singleton.mp hname
    exact absurd hid (by decide)
  obtain ⟨-, quiet, inline⟩ := ofCatalog_least ringCatalog { pinned := ["B"] } acyclic
  exact ⟨acyclic, quiet, inline rfl 0 _ 0 _ unpinned rfl rfl (by decide)⟩

end Plan

end SqlDump
