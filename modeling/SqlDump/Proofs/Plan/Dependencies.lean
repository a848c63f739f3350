import Mathlib.Data.Fintype.EquivFin
import Mathlib.Logic.Relation
import Mathlib.Order.WellFounded
import SqlDump.Plan.Schedule

/-!
# Dependencies, told by foreign keys

A table depends on another if one of its foreign keys refers to it. The graph of a catalog holds
just these dependencies, each once.

Main statements: `Graph.mem_parentsOf`, parents are the tables that a table depends on;
`exists_cycle`, a way that goes on and on among finitely many tables closes.
-/

namespace SqlDump

section Deduplication

variable {as : List Nat} {a b : Nat}

theorem idxOf_lt_of_filter {p : Nat → Bool} (ha : p a = true) (hb : p b = true)
    (h : (as.filter p).idxOf a < (as.filter p).idxOf b) : as.idxOf a < as.idxOf b := by
  induction as with
  | nil => exact h
  | cons c as ih =>
    by_cases hc : p c = true
    · rw [List.filter_cons_of_pos hc, List.idxOf_cons, List.idxOf_cons] at h
      rw [List.idxOf_cons, List.idxOf_cons]
      cases hca : c == a <;> cases hcb : c == b <;>
        simp only [hca, hcb, cond_true, cond_false] at h ⊢
      · have := ih (by omega)
        omega
      all_goals omega
    · have hne {d : Nat} (hd : p d = true) : c ≠ d := by
        rintro rfl
        exact hc hd
      rw [List.filter_cons_of_neg hc] at h
      rw [List.idxOf_cons_ne as (hne ha), List.idxOf_cons_ne as (hne hb)]
      have := ih h
      omega

/-- Without repetitions, a list is in the order of first occurrences. -/
theorem pairwise_idxOf_eraseDups (as : List Nat) :
    as.eraseDups.Pairwise fun a b => as.idxOf a < as.idxOf b := by
  induction hn : as.length using Nat.strongRecOn generalizing as with
  | ind n ih =>
    cases as with
    | nil => simp
    | cons a as =>
      rw [List.eraseDups_cons, List.pairwise_cons]
      have hlt : (as.filter fun b => !b == a).length < n := by
        have := List.length_filter_le (fun b => !b == a) as
        simp only [List.length_cons] at hn
        omega
      have other {b : Nat} (hb : b ∈ (as.filter fun b => !b == a).eraseDups) :
          (!b == a) = true := by
        rw [List.mem_eraseDups] at hb
        exact (List.mem_filter.mp hb).2
      constructor
      · intro b hb
        have hne : a ≠ b := by
          rintro rfl
          simpa using other hb
        rw [List.idxOf_cons_self, List.idxOf_cons_ne as hne]
        omega
      · refine (ih _ hlt _ rfl).imp_of_mem ?_
        intro b c hb hc h
        have hab : a ≠ b := by
          rintro rfl
          simpa using other hb
        have hac : a ≠ c := by
          rintro rfl
          simpa using other hc
        have later : as.idxOf b < as.idxOf c := idxOf_lt_of_filter (other hb) (other hc) h
        rw [List.idxOf_cons_ne as hab, List.idxOf_cons_ne as hac]
        omega

theorem nodup_eraseDups (as : List Nat) : as.eraseDups.Nodup := by
  refine (pairwise_idxOf_eraseDups as).imp ?_
  rintro a b h rfl
  omega

end Deduplication

/-- A table has a foreign key to another one. -/
def Catalog.DependsOn (c : Catalog) (child parent : Nat) : Prop :=
  ∃ t key, c.table? child = some t ∧ key ∈ t.foreignKeys ∧
    c.id? key.referencedTable = some parent ∧ parent ≠ child

/-- A table is one of the pinned ones. -/
def Catalog.Pinned (c : Catalog) (pinned : List Text) (id : Nat) : Prop :=
  ∃ name ∈ pinned, c.id? name = some id

/-- A table depends on another one, and neither is pinned. -/
def Catalog.DependsUnpinned (c : Catalog) (pinned : List Text) (child parent : Nat) : Prop :=
  c.DependsOn child parent ∧ ¬c.Pinned pinned child ∧ ¬c.Pinned pinned parent

theorem Catalog.id?_lt {c : Catalog} {name : Text} {id : Nat} (h : c.id? name = some id) :
    id < c.size :=
  (List.findIdx?_eq_some_iff_getElem.mp h).1

namespace Graph

section Catalog

variable {c : Catalog} {child parent : Nat}

theorem size_ofCatalog (c : Catalog) : (ofCatalog c).size = c.size := by
  simp [ofCatalog, size, Catalog.size]

theorem parentsOf_ofCatalog (c : Catalog) (child : Nat) :
    (ofCatalog c).parentsOf child = ((c.table? child).map (parentsIn c child)).getD [] := by
  simp only [parentsOf, ofCatalog, Catalog.table?, List.getD_eq_getElem?_getD,
    List.getElem?_mapIdx]

theorem mem_parentsOf :
    parent ∈ (ofCatalog c).parentsOf child ↔ c.DependsOn child parent := by
  rw [parentsOf_ofCatalog]
  cases ht : c.table? child with
  | none => simp [Catalog.DependsOn, ht]
  | some t =>
    simp only [Option.map_some, Option.getD_some, parentsIn, List.mem_eraseDups,
      List.mem_filter, List.mem_filterMap, bne_iff_ne, Catalog.DependsOn, ht]
    constructor
    · rintro ⟨⟨key, hkey, hid⟩, hne⟩
      exact ⟨t, key, rfl, hkey, hid, hne⟩
    · rintro ⟨_, key, ⟨⟩, hkey, hid, hne⟩
      exact ⟨⟨key, hkey, hid⟩, hne⟩

end Catalog

/-- A table without a place has a parent without one. -/
def Waits (g : Graph) (placed : List Nat) (child parent : Nat) : Prop :=
  parent ∈ g.parentsOf child ∧ child ∉ placed ∧ parent ∉ placed

/-- Parents are other tables of the graph, each once. -/
structure Proper (g : Graph) : Prop where
  nodup : ∀ id, (g.parentsOf id).Nodup
  bound : ∀ id, ∀ parent ∈ g.parentsOf id, parent < g.size
  other : ∀ id, id ∉ g.parentsOf id

theorem ofCatalog_proper (c : Catalog) : (ofCatalog c).Proper where
  nodup id := by
    rw [parentsOf_ofCatalog]
    cases c.table? id with
    | none => exact List.nodup_nil
    | some t => exact nodup_eraseDups _
  bound id parent h := by
    obtain ⟨t, key, -, -, hid, -⟩ := mem_parentsOf.mp h
    rw [size_ofCatalog]
    exact Catalog.id?_lt hid
  other id h := by
    obtain ⟨t, key, -, -, -, hne⟩ := mem_parentsOf.mp h
    exact hne rfl

variable {g : Graph} {placed : List Nat} {id parent : Nat}

theorem mem_missing : parent ∈ g.missing placed id ↔ parent ∈ g.parentsOf id ∧ parent ∉ placed := by
  simp [missing]

theorem missing_append_singleton (g : Graph) (placed : List Nat) (next id : Nat) :
    g.missing (placed ++ [next]) id = (g.missing placed id).filter (· != next) := by
  rw [missing, missing, List.filter_filter]
  refine List.filter_congr ?_
  intro parent _
  rw [List.contains_append, List.contains_cons, List.contains_nil, Bool.or_false, Bool.not_or,
    Bool.and_comm]
  rfl

/-- A table that gets its place is missed no longer by its children. -/
theorem length_missing_append (proper : g.Proper) {next : Nat} (fresh : next ∉ placed) (id : Nat) :
    (g.missing (placed ++ [next]) id).length =
      (g.missing placed id).length - if next ∈ g.parentsOf id then 1 else 0 := by
  have nodup : (g.missing placed id).Nodup := (proper.nodup id).filter _
  rw [missing_append_singleton, ← nodup.erase_eq_filter, List.length_erase]
  simp only [mem_missing, fresh, not_false_eq_true, and_true]
  split <;> simp

end Graph

/-- Where there is a next table for each table, and all are among finitely many, the way closes. -/
theorem exists_cycle {r : Nat → Nat → Prop} {p : Nat → Prop} {n v : Nat}
    (bound : ∀ v, p v → v < n) (start : p v) (next : ∀ v, p v → ∃ w, p w ∧ r v w) :
    ∃ v, Relation.TransGen r v v := by
  by_contra acyclic
  have finite : Finite {v // p v} :=
    Finite.of_injective (fun v => (⟨v.1, bound v.1 v.2⟩ : Fin n)) fun v w h =>
      Subtype.ext (Fin.mk.inj h)
  have trans : IsTrans {v // p v} fun v w => Relation.TransGen r w.1 v.1 :=
    ⟨fun _ _ _ h₁ h₂ => h₂.trans h₁⟩
  have irrefl : Std.Irrefl fun v w : {v // p v} => Relation.TransGen r w.1 v.1 :=
    ⟨fun v h => acyclic ⟨v.1, h⟩⟩
  -- the last table on the way would have no next one
  obtain ⟨last, -, hlast⟩ := (Finite.wellFounded_of_trans_of_irrefl fun v w : {v // p v} =>
    Relation.TransGen r w.1 v.1).has_min Set.univ ⟨⟨v, start⟩, trivial⟩
  obtain ⟨w, hw, hr⟩ := next last.1 last.2
  exact hlast ⟨w, hw⟩ trivial (.single hr)

end SqlDump
