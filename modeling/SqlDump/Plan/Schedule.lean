import SqlDump.Plan.Graph

/-!
# Schedules

Tables are put in order one at a time. Next is the first of the tables that are ready, all of whose
parents have their place. Where no table is ready there is a cycle, and the table that misses the
fewest parents breaks it.

Main statement: `Schedule.length_order_step?`, a step gives one more table its place.
-/

namespace SqlDump

/-- Adds a number to an ascending list, unless it is there. -/
def insertAscending (n : Nat) : List Nat → List Nat
  | [] => [n]
  | m :: ms =>
    if n < m then n :: m :: ms
    else if n = m then m :: ms
    else m :: insertAscending n ms

/-- The parents of a table that have no place among the tables `placed`. -/
def Graph.missing (g : Graph) (placed : List Nat) (id : Nat) : List Nat :=
  (g.parentsOf id).filter fun parent => !placed.contains parent

/-- A table that got its place before some of its parents. -/
structure CycleBreak where
  id : Nat
  parents : List Nat
  deriving DecidableEq, Repr

/-- How far the tables of a catalog are put in order. -/
structure Schedule where
  /-- The tables that have their place, in order. -/
  order : List Nat
  /-- For each table, by number, how many of its parents have no place. -/
  missing : List Nat
  /-- The tables without a place that miss no parents, in ascending order. -/
  ready : List Nat
  breaks : List CycleBreak := []
  deriving DecidableEq, Repr

namespace Schedule

/-- The schedule that gives the pinned tables their places. -/
def start (g : Graph) (pins : List Nat) : Schedule :=
  let missing := (List.range g.size).map fun id => (g.missing pins id).length
  { order := pins
    missing
    ready := (List.range g.size).filter fun id => !pins.contains id && missing[id]? == some 0 }

/-- Tells a table that one of its parents got its place. -/
def release (s : Schedule) (child : Nat) : Schedule :=
  if s.order.contains child then s
  else
    let missing := s.missing.modify child (· - 1)
    { s with
      missing
      ready := if missing[child]? = some 0 then insertAscending child s.ready else s.ready }

/-- Gives a table its place. -/
def place (g : Graph) (s : Schedule) (id : Nat) : Schedule :=
  (g.childrenOf id).foldl release { s with order := s.order ++ [id] }

/-- The one of two tables that misses fewer parents, the first if they miss as many. -/
def sooner (s : Schedule) (a b : Nat) : Nat :=
  if s.missing.getD b 0 < s.missing.getD a 0 then b else a

/-- The table that misses the fewest parents of those without a place, and of these the first. -/
def fewest? (g : Graph) (s : Schedule) : Option Nat :=
  match (List.range g.size).filter fun id => !s.order.contains id with
  | [] => none
  | id :: ids => some (ids.foldl s.sooner id)

/-- Gives the next table its place. -/
def step? (g : Graph) (s : Schedule) : Option Schedule :=
  match s.ready with
  | id :: ready => some (place g { s with ready } id)
  | [] =>
    (fewest? g s).map fun id =>
      place g { s with breaks := s.breaks ++ [⟨id, g.missing s.order id⟩] } id

theorem order_foldl_release (children : List Nat) (s : Schedule) :
    (children.foldl release s).order = s.order := by
  induction children generalizing s with
  | nil => rfl
  | cons child children ih =>
    rw [List.foldl_cons, ih, release]
    split <;> rfl

theorem order_place (g : Graph) (s : Schedule) (id : Nat) :
    (place g s id).order = s.order ++ [id] :=
  order_foldl_release _ _

theorem length_order_step? {g : Graph} {s t : Schedule} (h : step? g s = some t) :
    t.order.length = s.order.length + 1 := by
  unfold step? at h
  cases hr : s.ready with
  | nil =>
    obtain ⟨id, -, rfl⟩ := by simpa [hr] using h
    simp [order_place]
  | cons id ready =>
    obtain rfl := by simpa [hr] using h
    simp [order_place]

/-- Gives all tables their places. -/
def finish (g : Graph) (s : Schedule) : Schedule :=
  if s.order.length < g.size then
    match _h : step? g s with
    | none => s
    | some t => finish g t
  else s
termination_by g.size - s.order.length
decreasing_by
  have := length_order_step? _h
  omega

end Schedule

end SqlDump
