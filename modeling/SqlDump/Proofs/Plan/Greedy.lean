import Mathlib.Data.List.Perm.Subperm
import SqlDump.Proofs.Plan.Dependencies

/-!
# The loop is greedy

The loop counts for each table the parents without a place, and keeps the tables that are ready in
ascending order. Both are kept right by every step, so the next table is always the one that misses
the fewest parents, and of those the first.

Main statements: `Schedule.Sound.step?`, what a step does; `Schedule.Sound.finish`, the loop ends
and has placed tables greedily.
-/

namespace SqlDump

section Ascending

variable {n m : Nat} {ns : List Nat}

theorem mem_insertAscending : m ∈ insertAscending n ns ↔ m = n ∨ m ∈ ns := by
  fun_induction insertAscending n ns with
  | case1 => simp
  | case2 k ns h => simp
  | case3 ns h => simp
  | case4 k ns h₁ h₂ ih =>
    rw [List.mem_cons, ih, List.mem_cons]
    constructor <;> rintro (h | h | h) <;> simp [h]

theorem pairwise_insertAscending (h : ns.Pairwise (· < ·)) :
    (insertAscending n ns).Pairwise (· < ·) := by
  fun_induction insertAscending n ns with
  | case1 => exact List.pairwise_singleton _ _
  | case2 k ns hk =>
    rw [List.pairwise_cons] at h ⊢
    refine ⟨?_, List.pairwise_cons.mpr h⟩
    intro l hl
    rcases List.mem_cons.mp hl with rfl | hl
    · exact hk
    · exact Nat.lt_trans hk (h.1 l hl)
  | case3 ns => exact h
  | case4 k ns h₁ h₂ ih =>
    rw [List.pairwise_cons] at h ⊢
    refine ⟨?_, ih h.2⟩
    intro l hl
    rcases mem_insertAscending.mp hl with rfl | hl
    · omega
    · exact h.1 l hl

end Ascending

/-- The first of two numbers by a measure, and of equals by themselves. -/
def Sooner (measure : Nat → Nat) (a b : Nat) : Prop :=
  measure a < measure b ∨ measure a = measure b ∧ a ≤ b

theorem Sooner.refl (measure : Nat → Nat) (a : Nat) : Sooner measure a a :=
  .inr ⟨rfl, Nat.le_refl a⟩

theorem Sooner.trans {measure : Nat → Nat} {a b c : Nat} (h₁ : Sooner measure a b)
    (h₂ : Sooner measure b c) : Sooner measure a c := by
  unfold Sooner at *
  omega

/-- The table whose turn is next, behind the tables `placed`. -/
structure Graph.Next (g : Graph) (placed : List Nat) (id : Nat) : Prop where
  bound : id < g.size
  fresh : id ∉ placed
  soonest : ∀ other < g.size, other ∉ placed →
    Sooner (fun id => (g.missing placed id).length) id other

/-- The break that a table makes, if it misses parents. -/
def Graph.breakAt (g : Graph) (placed : List Nat) (id : Nat) : List CycleBreak :=
  if g.missing placed id = [] then [] else [⟨id, g.missing placed id⟩]

/-- Tables that follow the tables `placed` greedily, until none is left. -/
inductive Graph.Greedy (g : Graph) : List Nat → List Nat → List CycleBreak → Prop
  | done {placed : List Nat} (all : ∀ id < g.size, id ∈ placed) : Greedy g placed [] []
  | next {placed rest : List Nat} {id : Nat} {breaks : List CycleBreak}
      (next : g.Next placed id) (tail : Greedy g (placed ++ [id]) rest breaks) :
      Greedy g placed (id :: rest) (g.breakAt placed id ++ breaks)

namespace Schedule

/-- A schedule that counts missing parents as `missing` does. -/
structure Counts (n : Nat) (placed : List Nat) (missing : Nat → Nat) (s : Schedule) : Prop where
  order : s.order = placed
  count : ∀ id < n, id ∉ placed → s.missing[id]? = some (missing id)
  ascending : s.ready.Pairwise (· < ·)
  ready : ∀ id, id ∈ s.ready ↔ id < n ∧ id ∉ placed ∧ missing id = 0

section Counts

variable {n : Nat} {placed : List Nat} {missing : Nat → Nat} {s : Schedule}

theorem Counts.release (h : Counts n placed missing s) {child : Nat} (hc : child < n) :
    Counts n placed (fun id => missing id - if id = child then 1 else 0) (s.release child) := by
  unfold Schedule.release
  rw [h.order]
  by_cases hplaced : child ∈ placed
  · have other {id : Nat} (hid : id ∉ placed) : id ≠ child := by
      rintro rfl
      exact hid hplaced
    rw [if_pos (by simpa using hplaced)]
    refine ⟨h.order, ?_, h.ascending, ?_⟩
    · intro id hlt hid
      rw [h.count id hlt hid, if_neg (other hid), Nat.sub_zero]
    · intro id
      rw [h.ready id]
      refine and_congr_right fun _ => and_congr_right fun hid => ?_
      rw [if_neg (other hid), Nat.sub_zero]
  · have count (id : Nat) (hlt : id < n) (hid : id ∉ placed) :
        (s.missing.modify child (· - 1))[id]? =
          some (missing id - if id = child then 1 else 0) := by
      rw [List.getElem?_modify, h.count id hlt hid]
      simp only [Option.map_eq_map, Option.map_some, eq_comm (a := child)]
      split <;> rfl
    rw [if_neg (by simpa using hplaced)]
    refine ⟨rfl, count, ?_, ?_⟩
    · dsimp only
      split
      · exact pairwise_insertAscending h.ascending
      · exact h.ascending
    · intro id
      dsimp only
      rw [count child hc hplaced, if_pos rfl]
      by_cases hid : id = child
      · subst hid
        by_cases hzero : missing id - 1 = 0
        · simp [hzero, mem_insertAscending, hc, hplaced]
        · have : missing id ≠ 0 := by omega
          simp [hzero, h.ready, this]
      · split <;> simp [mem_insertAscending, h.ready, hid]

theorem Counts.foldl_release (h : Counts n placed missing s) {children : List Nat}
    (hc : ∀ child ∈ children, child < n) :
    Counts n placed (fun id => missing id - children.count id)
      (children.foldl Schedule.release s) := by
  induction children generalizing missing s with
  | nil => simpa using h
  | cons child children ih =>
    have released := h.release (hc child List.mem_cons_self)
    have rest := ih released fun c hmem => hc c (List.mem_cons_of_mem _ hmem)
    have same (id : Nat) : missing id - (child :: children).count id =
        missing id - (if id = child then 1 else 0) - children.count id := by
      rw [List.count_cons]
      simp only [beq_iff_eq, eq_comm (a := child)]
      omega
    simpa only [List.foldl_cons, same] using rest

end Counts

/-- A schedule whose counts are right. -/
structure Sound (g : Graph) (s : Schedule) : Prop where
  nodup : s.order.Nodup
  bound : ∀ id ∈ s.order, id < g.size
  counts : Counts g.size s.order (fun id => (g.missing s.order id).length) s

theorem sound_start {g : Graph} {pins : List Nat} (nodup : pins.Nodup)
    (bound : ∀ id ∈ pins, id < g.size) : Sound g (start g pins) := by
  have count (id : Nat) (hid : id < g.size) :
      (start g pins).missing[id]? = some (g.missing pins id).length := by
    simp [start, hid]
  refine ⟨nodup, bound, rfl, fun id hid _ => count id hid, ?_, ?_⟩
  · exact List.pairwise_lt_range.filter _
  · intro id
    change id ∈ (List.range g.size).filter _ ↔ _
    rw [List.mem_filter, List.mem_range]
    refine and_congr_right fun hid => ?_
    have hcount := count id hid
    simp only [start] at hcount
    simp [start, hcount]

variable {g : Graph} {s : Schedule}

theorem count_childrenOf {id child : Nat} (h : child < g.size) :
    (g.childrenOf id).count child = if id ∈ g.parentsOf child then 1 else 0 := by
  have nodup : (g.childrenOf id).Nodup := List.nodup_range.filter _
  rw [nodup.count]
  simp [Graph.mem_childrenOf, h]

/-- Counts are right again once a table that is ready no more has its place. -/
theorem Sound.place (proper : g.Proper) (sound : Sound g s) {id : Nat} (bound : id < g.size)
    (fresh : id ∉ s.order) {ready : List Nat} (ascending : ready.Pairwise (· < ·))
    (left : ∀ other, other ∈ ready ↔ other ∈ s.ready ∧ other ≠ id) (breaks : List CycleBreak) :
    Sound g (Schedule.place g { s with ready, breaks } id) := by
  have before : Counts g.size (s.order ++ [id]) (fun id => (g.missing s.order id).length)
      { s with ready, breaks, order := s.order ++ [id] } := by
    refine ⟨rfl, ?_, ascending, ?_⟩
    · intro other hlt hother
      refine sound.counts.count other hlt fun h => hother ?_
      exact List.mem_append_left _ h
    · intro other
      rw [left, sound.counts.ready, List.mem_append, List.mem_singleton]
      tauto
  have children : ∀ child ∈ g.childrenOf id, child < g.size := fun child h =>
    (Graph.mem_childrenOf.mp h).1
  have after := before.foldl_release children
  have order : (Schedule.place g { s with ready, breaks } id).order = s.order ++ [id] :=
    order_place _ _ _
  have count (other : Nat) (hlt : other < g.size) :
      (g.missing s.order other).length - (g.childrenOf id).count other =
        (g.missing (s.order ++ [id]) other).length := by
    rw [count_childrenOf hlt, Graph.length_missing_append proper fresh]
  refine ⟨?_, ?_, order.symm ▸ ⟨order, ?_, after.ascending, ?_⟩⟩
  · rw [order]
    exact List.nodup_append.mpr ⟨sound.nodup, List.nodup_singleton _, by
      rintro a ha b hb rfl
      exact fresh (List.mem_singleton.mp hb ▸ ha)⟩
  · intro other hother
    rw [order, List.mem_append, List.mem_singleton] at hother
    rcases hother with hother | rfl
    · exact sound.bound other hother
    · exact bound
  · intro other hlt hother
    rw [← count other hlt]
    exact after.count other hlt hother
  · intro other
    refine (after.ready other).trans (and_congr_right fun hlt => ?_)
    rw [count other hlt]

theorem sooner_eq (s : Schedule) (a b : Nat) : s.sooner a b = a ∨ s.sooner a b = b := by
  unfold sooner
  split
  · exact .inr rfl
  · exact .inl rfl

theorem sooner_left (s : Schedule) (a b : Nat) :
    Sooner (fun id => s.missing.getD id 0) (s.sooner a b) a := by
  unfold sooner
  split
  · exact .inl ‹_›
  · exact Sooner.refl _ a

theorem sooner_right (s : Schedule) {a b : Nat} (h : a < b) :
    Sooner (fun id => s.missing.getD id 0) (s.sooner a b) b := by
  unfold sooner
  split
  · exact Sooner.refl _ b
  · dsimp only [Sooner]
    omega

/-- Of tables in ascending order the fold keeps the one that misses the fewest parents. -/
theorem foldl_sooner (s : Schedule) {id : Nat} {ids : List Nat}
    (ascending : (id :: ids).Pairwise (· < ·)) :
    ids.foldl s.sooner id ∈ id :: ids ∧ ∀ other ∈ id :: ids,
      Sooner (fun id => s.missing.getD id 0) (ids.foldl s.sooner id) other := by
  induction ids generalizing id with
  | nil => simp [Sooner.refl]
  | cons next ids ih =>
    obtain ⟨first, ascending⟩ := List.pairwise_cons.mp ascending
    obtain ⟨second, ascending⟩ := List.pairwise_cons.mp ascending
    have later : ∀ other ∈ ids, s.sooner id next < other := by
      intro other hother
      rcases s.sooner_eq id next with heq | heq <;> rw [heq]
      · exact first other (List.mem_cons_of_mem _ hother)
      · exact second other hother
    obtain ⟨hmem, hsooner⟩ := ih (List.pairwise_cons.mpr ⟨later, ascending⟩)
    have hfirst := hsooner _ List.mem_cons_self
    rw [List.foldl_cons]
    constructor
    · rcases List.mem_cons.mp hmem with heq | hmem
      · rw [heq]
        rcases s.sooner_eq id next with heq | heq <;> simp [heq]
      · exact List.mem_cons_of_mem _ (List.mem_cons_of_mem _ hmem)
    · intro other hother
      rcases List.mem_cons.mp hother with rfl | hother
      · exact hfirst.trans (s.sooner_left _ next)
      · rcases List.mem_cons.mp hother with rfl | hother
        · exact hfirst.trans (s.sooner_right (first _ List.mem_cons_self))
        · exact hsooner other (List.mem_cons_of_mem _ hother)

theorem exists_unplaced (unfinished : s.order.length < g.size) : ∃ id < g.size, id ∉ s.order := by
  by_contra none
  push Not at none
  have all : List.range g.size ⊆ s.order := fun id hid => none id (List.mem_range.mp hid)
  have := (List.subperm_of_subset List.nodup_range all).length_le
  rw [List.length_range] at this
  omega

theorem Sound.fewest? (sound : Sound g s) (unfinished : s.order.length < g.size) :
    ∃ id, fewest? g s = some id ∧ g.Next s.order id := by
  have ascending : ((List.range g.size).filter fun id => !s.order.contains id).Pairwise (· < ·) :=
    List.pairwise_lt_range.filter _
  have mem (id : Nat) : id ∈ ((List.range g.size).filter fun id => !s.order.contains id) ↔
      id < g.size ∧ id ∉ s.order := by simp
  have count {id : Nat} (hid : id < g.size ∧ id ∉ s.order) :
      s.missing.getD id 0 = (g.missing s.order id).length := by
    rw [List.getD_eq_getElem?_getD, sound.counts.count id hid.1 hid.2]
    rfl
  unfold Schedule.fewest?
  cases hl : (List.range g.size).filter fun id => !s.order.contains id with
  | nil =>
    obtain ⟨id, hid⟩ := exists_unplaced unfinished
    have := (mem id).mpr hid
    rw [hl] at this
    cases this
  | cons id ids =>
    rw [hl] at ascending mem
    obtain ⟨hmem, hsooner⟩ := foldl_sooner s ascending
    have hnext := (mem _).mp hmem
    refine ⟨_, rfl, hnext.1, hnext.2, ?_⟩
    intro other hlt hother
    have h := hsooner other ((mem other).mpr ⟨hlt, hother⟩)
    simp only [Sooner, count hnext, count ⟨hlt, hother⟩] at h
    exact h

theorem breaks_foldl_release (children : List Nat) (s : Schedule) :
    (children.foldl release s).breaks = s.breaks := by
  induction children generalizing s with
  | nil => rfl
  | cons child children ih =>
    rw [List.foldl_cons, ih, release]
    split <;> rfl

theorem breaks_place (g : Graph) (s : Schedule) (id : Nat) : (place g s id).breaks = s.breaks :=
  breaks_foldl_release _ _

/-- The first of the tables that are ready is the next one. -/
theorem Sound.next_of_ready (sound : Sound g s) {id : Nat} {ready : List Nat}
    (hr : s.ready = id :: ready) : g.Next s.order id ∧ g.missing s.order id = [] := by
  have ascending := sound.counts.ascending
  rw [hr, List.pairwise_cons] at ascending
  obtain ⟨bound, fresh, hnone⟩ := (sound.counts.ready id).mp (hr ▸ List.mem_cons_self)
  have none := List.length_eq_zero_iff.mp hnone
  refine ⟨⟨bound, fresh, ?_⟩, none⟩
  intro other hlt hother
  dsimp only [Sooner]
  rw [none, List.length_nil]
  by_cases hzero : (g.missing s.order other).length = 0
  · have hmem := (sound.counts.ready other).mpr ⟨hlt, hother, hzero⟩
    rw [hr, List.mem_cons] at hmem
    refine .inr ⟨hzero.symm, ?_⟩
    rcases hmem with rfl | hmem
    · exact Nat.le_refl _
    · exact Nat.le_of_lt (ascending.1 other hmem)
  · exact .inl (Nat.pos_of_ne_zero hzero)

/-- A step gives the table whose turn it is its place, and keeps the counts right. -/
theorem Sound.step? (proper : g.Proper) (sound : Sound g s)
    (unfinished : s.order.length < g.size) :
    ∃ id t, step? g s = some t ∧ g.Next s.order id ∧ Sound g t ∧ t.order = s.order ++ [id] ∧
      t.breaks = s.breaks ++ g.breakAt s.order id := by
  cases hr : s.ready with
  | cons id ready =>
    obtain ⟨next, none⟩ := sound.next_of_ready hr
    have ascending := sound.counts.ascending
    rw [hr, List.pairwise_cons] at ascending
    have left (other : Nat) : other ∈ ready ↔ other ∈ s.ready ∧ other ≠ id := by
      rw [hr, List.mem_cons]
      constructor
      · intro h
        have := ascending.1 other h
        exact ⟨.inr h, by omega⟩
      · rintro ⟨rfl | h, hne⟩
        · exact (hne rfl).elim
        · exact h
    have step : Schedule.step? g s = some (Schedule.place g { s with ready } id) := by
      unfold Schedule.step?
      rw [hr]
    refine ⟨id, _, step, next,
      sound.place proper next.bound next.fresh ascending.2 left s.breaks, order_place _ _ _, ?_⟩
    rw [breaks_place, Graph.breakAt, if_pos none, List.append_nil]
  | nil =>
    obtain ⟨id, hid, next⟩ := sound.fewest? unfinished
    have left (other : Nat) : other ∈ s.ready ↔ other ∈ s.ready ∧ other ≠ id := by simp [hr]
    have missing : g.missing s.order id ≠ [] := by
      intro h
      have := (sound.counts.ready id).mpr ⟨next.bound, next.fresh, by rw [h]; rfl⟩
      rw [hr] at this
      cases this
    have step : Schedule.step? g s = some (Schedule.place g
        { s with breaks := s.breaks ++ [⟨id, g.missing s.order id⟩] } id) := by
      unfold Schedule.step?
      rw [hr, hid]
      rfl
    refine ⟨id, _, step, next,
      sound.place proper next.bound next.fresh sound.counts.ascending left _,
      order_place _ _ _, ?_⟩
    rw [breaks_place, Graph.breakAt, if_neg missing]

/-- The loop ends with all tables in their places, which they got greedily. -/
theorem Sound.finish (proper : g.Proper) (sound : Sound g s) :
    ∃ rest breaks, (finish g s).order = s.order ++ rest ∧
      (finish g s).breaks = s.breaks ++ breaks ∧ g.Greedy s.order rest breaks := by
  induction hn : g.size - s.order.length generalizing s with
  | zero =>
    have finished : ¬s.order.length < g.size := by omega
    have all : ∀ id < g.size, id ∈ s.order := by
      have within : s.order ⊆ List.range g.size := fun id hid =>
        List.mem_range.mpr (sound.bound id hid)
      have perm := (List.subperm_of_subset sound.nodup within).perm_of_length_le (by
        rw [List.length_range]
        omega)
      intro id hid
      exact perm.mem_iff.mpr (List.mem_range.mpr hid)
    refine ⟨[], [], ?_, ?_, .done all⟩ <;> rw [Schedule.finish, if_neg finished, List.append_nil]
  | succ n ih =>
    have unfinished : s.order.length < g.size := by omega
    obtain ⟨id, t, step, next, sound', order, breaks⟩ := sound.step? proper unfinished
    have finish : Schedule.finish g s = Schedule.finish g t := by
      rw [Schedule.finish, if_pos unfinished]
      split
      · rename_i hnone
        rw [step] at hnone
        cases hnone
      · rename_i u hu
        rw [step] at hu
        cases hu
        rfl
    have fewer : g.size - t.order.length = n := by
      rw [order, List.length_append, List.length_singleton]
      omega
    obtain ⟨rest, later, horder, hbreaks, greedy⟩ := ih sound' fewer
    rw [order] at greedy
    refine ⟨id :: rest, g.breakAt s.order id ++ later, ?_, ?_, .next next greedy⟩
    · rw [finish, horder, order, List.append_assoc]
      rfl
    · rw [finish, hbreaks, breaks, List.append_assoc]

end Schedule

end SqlDump
