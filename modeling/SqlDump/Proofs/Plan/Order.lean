import SqlDump.Plan.Basic
import SqlDump.Proofs.Plan.Greedy

/-!
# The order of a plan

Pinned tables come first, and the others follow greedily. So each table has one place, and what made
a cycle break can be read off the order.

Main statements: `Graph.Greedy.mem_breaks`, which tables break cycles; `Plan.ofCatalog_greedy`, the
order of a plan; `Plan.order_perm`, it has every table once.
-/

namespace SqlDump

namespace Graph.Greedy

variable {g : Graph} {placed rest : List Nat} {breaks : List CycleBreak}

/-- Greedy tables are those that had no place. -/
theorem mem_iff (h : g.Greedy placed rest breaks) {id : Nat} :
    id ∈ rest ↔ id < g.size ∧ id ∉ placed := by
  induction h with
  | done all =>
    constructor
    · intro h
      cases h
    · rintro ⟨hlt, hfresh⟩
      exact (hfresh (all id hlt)).elim
  | @next placed rest first breaks next tail ih =>
    rw [List.mem_cons, ih, List.mem_append, List.mem_singleton]
    constructor
    · rintro (rfl | ⟨hlt, hfresh⟩)
      · exact ⟨next.bound, next.fresh⟩
      · exact ⟨hlt, fun h => hfresh (.inl h)⟩
    · rintro ⟨hlt, hfresh⟩
      by_cases heq : id = first
      · exact .inl heq
      · exact .inr ⟨hlt, not_or.mpr ⟨hfresh, heq⟩⟩

theorem nodup (h : g.Greedy placed rest breaks) : rest.Nodup := by
  induction h with
  | done => exact List.nodup_nil
  | next next tail ih =>
    refine List.nodup_cons.mpr ⟨?_, ih⟩
    intro hmem
    obtain ⟨-, hfresh⟩ := tail.mem_iff.mp hmem
    exact hfresh (List.mem_append_right _ (List.mem_singleton_self _))

/-- Each table was next when it got its place. -/
theorem next_at {before after : List Nat} {id : Nat}
    (h : g.Greedy placed (before ++ id :: after) breaks) : g.Next (placed ++ before) id := by
  induction before generalizing placed breaks with
  | nil =>
    cases h with
    | next next _ => rwa [List.append_nil]
  | cons first before ih =>
    cases h with
    | next _ tail =>
      have later := ih tail
      rwa [List.append_assoc] at later

theorem mem_breakAt {id : Nat} {b : CycleBreak} :
    b ∈ g.breakAt placed id ↔ b.id = id ∧ b.parents = g.missing placed id ∧ b.parents ≠ [] := by
  unfold breakAt
  obtain ⟨first, parents⟩ := b
  constructor
  · intro hb
    split at hb
    · cases hb
    · obtain ⟨rfl, rfl⟩ := CycleBreak.mk.inj (List.mem_singleton.mp hb)
      exact ⟨rfl, rfl, ‹_›⟩
  · rintro ⟨hfirst, hparents, hne⟩
    dsimp only at hfirst hparents hne
    subst hfirst hparents
    rw [if_neg hne]
    exact List.mem_singleton_self _

/-- A table breaks a cycle if it misses parents when it gets its place. -/
theorem mem_breaks (h : g.Greedy placed rest breaks) {b : CycleBreak} :
    b ∈ breaks ↔ ∃ before after, rest = before ++ b.id :: after ∧
      b.parents = g.missing (placed ++ before) b.id ∧ b.parents ≠ [] := by
  induction h with
  | done =>
    constructor
    · intro h
      cases h
    · rintro ⟨before, after, hrest, -⟩
      simp at hrest
  | @next placed rest id breaks next tail ih =>
    rw [List.mem_append, mem_breakAt, ih]
    constructor
    · rintro (⟨rfl, hparents, hne⟩ | ⟨before, after, rfl, hparents, hne⟩)
      · exact ⟨[], rest, rfl, by rwa [List.append_nil], hne⟩
      · exact ⟨id :: before, after, rfl, by rwa [List.append_assoc] at hparents, hne⟩
    · rintro ⟨before, after, hrest, hparents, hne⟩
      cases before with
      | nil =>
        obtain ⟨rfl, rfl⟩ := List.cons.inj hrest
        exact .inl ⟨rfl, by rwa [List.append_nil] at hparents, hne⟩
      | cons first before =>
        obtain ⟨rfl, rfl⟩ := List.cons.inj hrest
        exact .inr ⟨before, after, rfl, by rwa [List.append_assoc], hne⟩

end Graph.Greedy

namespace Plan

variable (catalog : Catalog) (options : PlanOptions)

/-- The notes on keys to missing tables, table by table. -/
def unresolvedNotes (order : List Nat) : List Diagnostic :=
  (order.filterMap catalog.table?).flatMap fun t =>
    t.foreignKeys.filterMap (unresolvedNote? catalog t)

theorem mem_pins {id : Nat} :
    id ∈ pins catalog options ↔ id ∈ options.pinned.filterMap catalog.id? := by
  rw [pins, List.mem_eraseDups]

theorem pins_lt {id : Nat} (h : id ∈ pins catalog options) : id < catalog.size := by
  obtain ⟨name, -, hid⟩ := List.mem_filterMap.mp ((mem_pins catalog options).mp h)
  exact Catalog.id?_lt hid

theorem nodup_pins : (pins catalog options).Nodup := nodup_eraseDups _

/-- Behind the pinned tables a plan has the others in greedy order, and a note for each that broke a
cycle. -/
theorem ofCatalog_greedy :
    ∃ rest breaks, (ofCatalog catalog options).1.order = pins catalog options ++ rest ∧
      (Graph.ofCatalog catalog).Greedy (pins catalog options) rest breaks ∧
      (ofCatalog catalog options).2 =
        options.pinned.filterMap (unknownPinNote? catalog) ++ breaks.map (cycleNote catalog) ++
          unresolvedNotes catalog (ofCatalog catalog options).1.order := by
  have bound : ∀ id ∈ pins catalog options, id < (Graph.ofCatalog catalog).size := by
    intro id hid
    rw [Graph.size_ofCatalog]
    exact pins_lt catalog options hid
  have sound := Schedule.sound_start (nodup_pins catalog options) bound
  obtain ⟨rest, breaks, horder, hbreaks, greedy⟩ := sound.finish (Graph.ofCatalog_proper catalog)
  refine ⟨rest, breaks, horder, greedy, ?_⟩
  rw [ofCatalog, hbreaks]
  rfl

theorem order_perm :
    (ofCatalog catalog options).1.order.Perm (List.range catalog.size) := by
  obtain ⟨rest, breaks, horder, greedy, -⟩ := ofCatalog_greedy catalog options
  have apart : (pins catalog options).Disjoint rest := by
    intro id hpin hrest
    exact (greedy.mem_iff.mp hrest).2 hpin
  rw [horder, List.perm_ext_iff_of_nodup
    ((nodup_pins catalog options).append greedy.nodup apart) List.nodup_range]
  intro id
  rw [List.mem_append, greedy.mem_iff, Graph.size_ofCatalog, List.mem_range]
  constructor
  · rintro (hpin | ⟨hlt, -⟩)
    · exact pins_lt catalog options hpin
    · exact hlt
  · intro hlt
    by_cases hpin : id ∈ pins catalog options
    · exact .inl hpin
    · exact .inr ⟨hlt, hpin⟩

theorem mem_order {id : Nat} :
    id ∈ (ofCatalog catalog options).1.order ↔ id < catalog.size := by
  rw [(order_perm catalog options).mem_iff, List.mem_range]

end Plan

end SqlDump
