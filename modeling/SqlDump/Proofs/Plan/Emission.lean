import Mathlib.Data.List.Perm.Basic
import SqlDump.Postgres.Script
import SqlDump.Proofs.Plan.Order
import SqlDump.Proofs.Postgres.ForeignKey

/-!
# Tables and foreign keys in a script

A planned script creates each table once, with the foreign keys that can be part of it, and adds the
others when all tables exist. This is told of the text that is printed: the statement for a table is
a `CREATE TABLE` with a line for each of these keys, and each of the others has an `ALTER TABLE`,
which are read back as the keys.

Main statement: `Plan.ofCatalog_emission`, what is printed for the tables and foreign keys of a
catalog.
-/

namespace SqlDump

open Postgres

/-- The foreign keys of a table, by number. -/
def Catalog.keysOf (c : Catalog) (id : Nat) : List ForeignKey :=
  match c.table? id with
  | some t => t.foreignKeys
  | none => []

/-- The foreign keys that a statement creates with its table. -/
def Postgres.CreateTable.foreignKeys (c : CreateTable) : List ForeignKey :=
  c.items.filterMap fun
    | .foreignKey key => some key
    | _ => none

/-- The foreign keys that a part of a script creates. -/
def Postgres.Part.keys : Part → List ForeignKey
  | .create c => c.foreignKeys
  | .foreignKey key => [key]
  | _ => []

namespace Plan

/-- A foreign key can be created with table `id` if it refers to that table or one before it, unless
all foreign keys are to be deferred. -/
def Fits (catalog : Catalog) (options : PlanOptions) (order : List Nat) (id : Nat)
    (key : ForeignKey) : Prop :=
  options.deferAll = false ∧
    ∃ parent ∈ catalog.id? key.referencedTable, parent = id ∨ order.idxOf parent < order.idxOf id

instance (catalog : Catalog) (options : PlanOptions) (order : List Nat) (id : Nat)
    (key : ForeignKey) : Decidable (Fits catalog options order id key) :=
  inferInstanceAs (Decidable (_ ∧ _))

/-- The foreign keys of a table that fit. -/
def fitting (catalog : Catalog) (options : PlanOptions) (order : List Nat) (id : Nat) :
    List ForeignKey :=
  (catalog.keysOf id).filter fun key => Fits catalog options order id key

/-- The foreign keys of a table that do not fit. -/
def misfits (catalog : Catalog) (options : PlanOptions) (order : List Nat) (id : Nat) :
    List ForeignKey :=
  (catalog.keysOf id).filter fun key => ¬Fits catalog options order id key

/-- What is printed for the tables and foreign keys of a catalog by a plan. -/
structure Emission (catalog : Catalog) (options : PlanOptions) (plan : Plan) : Prop where
  /-- Every table has one place in the order. -/
  order : plan.order.Perm (List.range catalog.size)
  /-- The pinned tables that the catalog has come first, in the order in which they are first
  named. -/
  pinned : ∃ front rest, plan.order = front ++ rest ∧
    (∀ id, id ∈ front ↔ id ∈ options.pinned.filterMap catalog.id?) ∧
    front.Pairwise fun a b =>
      (options.pinned.filterMap catalog.id?).idxOf a <
        (options.pinned.filterMap catalog.id?).idxOf b
  /-- One statement for each table, in order, creates it with the keys that fit. -/
  created : ∃ parts, Script.tables catalog plan = Script.titled "Tables" parts ∧
    List.Forall₂ (fun id part => ∃ t, catalog.table? id = some t ∧
      part.keys = fitting catalog options plan.order id ∧ Creates part.text t part.keys)
      plan.order parts
  /-- Then one statement for each key that does not fit adds it to its table. -/
  added : ∃ parts, Script.deferred catalog plan = Script.titled "Foreign keys" parts ∧
    List.Forall₂ (fun key part => part.keys = [key] ∧ ForeignKey.ofAddition? part.text = some key)
      (plan.order.flatMap (misfits catalog options plan.order)) parts
  /-- Every key is created once. -/
  once : ((Script.tables catalog plan ++ Script.deferred catalog plan).flatMap Part.keys).Perm
    (catalog.tables.flatMap Table.foreignKeys)
  /-- No key is created before the table it refers to. -/
  resolved : ∀ before part after,
    Script.tables catalog plan ++ Script.deferred catalog plan = before ++ part :: after →
    ∀ key ∈ part.keys, ∀ target, catalog.find? key.referencedTable = some target →
      ∃ creation ∈ before ++ [part], Creates creation.text target creation.keys

theorem mem_takeWhile_ne {order : List Nat} {id parent : Nat} :
    parent ∈ order.takeWhile (· != id) ↔ order.idxOf parent < order.idxOf id := by
  induction order with
  | nil => simp
  | cons first order ih =>
    by_cases hid : first = id
    · subst hid
      simp
    · rw [List.takeWhile_cons_of_pos (by simpa using hid), List.mem_cons, ih,
        List.idxOf_cons_ne order hid]
      by_cases hparent : first = parent
      · subst hparent
        simp
      · rw [List.idxOf_cons_ne order hparent]
        simp only [eq_comm (a := parent), hparent, false_or]
        omega

theorem deferred_ofCatalog (catalog : Catalog) (options : PlanOptions) :
    (ofCatalog catalog options).1.deferred =
      deferredIn (ofCatalog catalog options).1.order (ofCatalog catalog options).1.inline :=
  rfl

section Keys

variable {catalog : Catalog} {options : PlanOptions} {order : List Nat} {id : Nat}

theorem inlineFlags_eq (t : Table) :
    inlineFlags catalog options order id t =
      t.foreignKeys.map fun key => decide (Fits catalog options order id key) := by
  unfold inlineFlags
  refine List.map_congr_left ?_
  intro key _
  rw [Bool.eq_iff_iff, decide_eq_true_iff]
  unfold Fits createsInline
  cases hid : catalog.id? key.referencedTable with
  | none => simp
  | some parent => simp [mem_takeWhile_ne]

theorem inline_getD {t : Table} (h : catalog.table? id = some t) :
    (ofCatalog catalog options).1.inline.getD id [] =
      t.foreignKeys.map fun key =>
        decide (Fits catalog options (ofCatalog catalog options).1.order id key) := by
  have ht : catalog.tables[id]? = some t := h
  simp only [ofCatalog, List.getD_eq_getElem?_getD, List.getElem?_mapIdx, ht, Option.map_some,
    Option.getD_some, inlineFlags_eq]

theorem inline_getD_none (h : catalog.table? id = none) :
    (ofCatalog catalog options).1.inline.getD id [] = [] := by
  have ht : catalog.tables[id]? = none := h
  simp only [ofCatalog, List.getD_eq_getElem?_getD, List.getElem?_mapIdx, ht, Option.map_none,
    Option.getD_none]

theorem isInline_iff {t : Table} (ht : catalog.table? id = some t) {k : Nat} {key : ForeignKey}
    (hkey : t.foreignKeys[k]? = some key) :
    (ofCatalog catalog options).1.isInline id k = true ↔
      Fits catalog options (ofCatalog catalog options).1.order id key := by
  rw [isInline, inline_getD ht, List.getD_eq_getElem?_getD, List.getElem?_map, hkey]
  simp

end Keys

section Flags

variable (p : ForeignKey → Bool) (keys : List ForeignKey)

/-- Keys with their flags are those that the flags pick. -/
theorem filterMap_zip_map :
    ((keys.zip (keys.map p)).filterMap fun (key, flag) => if flag then some key else none) =
      keys.filter p := by
  induction keys with
  | nil => rfl
  | cons key keys ih =>
    rw [List.map_cons, List.zip_cons_cons, List.filterMap_cons, List.filter_cons, ih]
    cases p key <;> rfl

/-- The keys at the places of the flags that are off are the others. -/
theorem filterMap_offPlaces :
    (offPlaces (keys.map p)).filterMap (keys[·]?) = keys.filter fun key => !p key := by
  induction keys with
  | nil => rfl
  | cons key keys ih =>
    have rest : ((List.range keys.length).map Nat.succ).filter
        (fun i => ((key :: keys).map p)[i]? == some false) =
          (offPlaces (keys.map p)).map Nat.succ := by
      rw [List.filter_map, offPlaces, List.length_map]
      rfl
    have later : ((offPlaces (keys.map p)).map Nat.succ).filterMap ((key :: keys)[·]?) =
        keys.filter fun key => !p key := by
      rw [List.filterMap_map, ← ih]
      rfl
    rw [offPlaces, List.length_map, List.length_cons, List.range_succ_eq_map, List.filter_cons,
      rest, List.filter_cons]
    cases hp : p key <;> simp [hp, later]

end Flags

theorem foreignKeys_ofTable (t : Table) (flags : List Bool) :
    (CreateTable.ofTable t flags).foreignKeys = flaggedKeys t flags := by
  have primary : (primaryKeyItem? t).toList.filterMap (fun
      | .foreignKey key => some key
      | _ => none) = ([] : List ForeignKey) := by
    unfold primaryKeyItem?
    split
    · split <;> rfl
    · rfl
  simp only [CreateTable.foreignKeys, CreateTable.ofTable, List.filterMap_append, primary,
    List.filterMap_map]
  simp

section Script

variable (catalog : Catalog) (options : PlanOptions)

/-- The statement that creates a table of a plan. -/
def creation? (plan : Plan) (id : Nat) : Option Part :=
  (catalog.table? id).map fun t => .create (.ofTable t (plan.inline.getD id []))

theorem tables_eq (plan : Plan) :
    Script.tables catalog plan =
      Script.titled "Tables" (plan.order.filterMap (creation? catalog plan)) := by
  unfold Script.tables Script.planned creation?
  rw [List.map_filterMap]
  simp only [Option.map_map]
  rfl

theorem deferredKeys_eq :
    Script.deferredKeys catalog (ofCatalog catalog options).1 =
      (ofCatalog catalog options).1.order.flatMap
        (misfits catalog options (ofCatalog catalog options).1.order) := by
  rw [Script.deferredKeys, deferred_ofCatalog, deferredIn, List.filterMap_flatMap]
  refine List.flatMap_congr ?_
  intro id _
  rw [List.filterMap_map]
  cases ht : catalog.table? id with
  | none =>
    rw [inline_getD_none ht]
    simp [misfits, Catalog.keysOf, ht]
  | some t =>
    have other := filterMap_offPlaces
      (fun key => decide (Fits catalog options (ofCatalog catalog options).1.order id key))
      t.foreignKeys
    rw [inline_getD ht]
    simpa [misfits, Catalog.keysOf, ht, Function.comp_def] using other

/-- The statement for a table of the order creates it with the keys that fit. -/
theorem creates_creation? {id : Nat} {part : Part}
    (h : creation? catalog (ofCatalog catalog options).1 id = some part) :
    ∃ t, catalog.table? id = some t ∧
      part.keys = fitting catalog options (ofCatalog catalog options).1.order id ∧
      Creates part.text t part.keys := by
  obtain ⟨t, ht, rfl⟩ := Option.map_eq_some_iff.mp h
  refine ⟨t, ht, ?_, ?_⟩
  · simp only [Part.keys, foreignKeys_ofTable, flaggedKeys, inline_getD ht, filterMap_zip_map,
      fitting, Catalog.keysOf, ht]
  · rw [Part.keys, foreignKeys_ofTable]
    exact creates_text t _

theorem forall₂_filterMap {α β : Type} {R : α → β → Prop} {f : α → Option β} {xs : List α}
    (h : ∀ x ∈ xs, ∃ y, f x = some y ∧ R x y) : List.Forall₂ R xs (xs.filterMap f) := by
  induction xs with
  | nil => exact .nil
  | cons x xs ih =>
    obtain ⟨y, hy, hxy⟩ := h x List.mem_cons_self
    rw [List.filterMap_cons_some hy]
    exact .cons hxy (ih fun z hz => h z (List.mem_cons_of_mem _ hz))

theorem flatMap_keys_titled (title : Text) (parts : Script) :
    (Script.titled title parts).flatMap Part.keys = parts.flatMap Part.keys := by
  cases parts <;> rfl

theorem keys_creation? (id : Nat) :
    (creation? catalog (ofCatalog catalog options).1 id).toList.flatMap Part.keys =
      fitting catalog options (ofCatalog catalog options).1.order id := by
  cases hid : creation? catalog (ofCatalog catalog options).1 id with
  | none =>
    have ht : catalog.table? id = none := Option.map_eq_none_iff.mp hid
    simp [fitting, Catalog.keysOf, ht]
  | some part =>
    obtain ⟨-, -, hkeys, -⟩ := creates_creation? catalog options hid
    rw [Option.toList_some, List.flatMap_singleton, hkeys]

/-- The tables by number are the tables in order. -/
theorem flatMap_table? {α : Type} (c : Catalog) (f : Table → List α) :
    (List.range c.size).flatMap (fun id => (c.table? id).toList.flatMap f) =
      c.tables.flatMap f := by
  obtain ⟨tables⟩ := c
  change (List.range tables.length).flatMap _ = _
  induction tables with
  | nil => rfl
  | cons t tables ih =>
    rw [List.length_cons, List.range_succ_eq_map, List.flatMap_cons, List.flatMap_map,
      List.flatMap_cons, ← ih]
    exact congrArg (· ++ _) (List.flatMap_singleton ..)

theorem flatMap_keysOf (c : Catalog) :
    (List.range c.size).flatMap c.keysOf = c.tables.flatMap Table.foreignKeys := by
  rw [← flatMap_table? c Table.foreignKeys]
  refine List.flatMap_congr fun id _ => ?_
  unfold Catalog.keysOf
  cases c.table? id with
  | none => rfl
  | some t => exact (List.flatMap_singleton ..).symm

theorem fitting_append_misfits (order : List Nat) (id : Nat) :
    (fitting catalog options order id ++ misfits catalog options order id).Perm
      (catalog.keysOf id) := by
  simpa only [fitting, misfits, decide_not] using List.filter_append_perm _ (catalog.keysOf id)

/-- With the tables or behind them, every key is created once. -/
theorem keys_once :
    ((Script.tables catalog (ofCatalog catalog options).1 ++
      Script.deferred catalog (ofCatalog catalog options).1).flatMap Part.keys).Perm
        (catalog.tables.flatMap Table.foreignKeys) := by
  generalize horder : (ofCatalog catalog options).1.order = order
  have inside : (Script.tables catalog (ofCatalog catalog options).1).flatMap Part.keys =
      order.flatMap (fitting catalog options order) := by
    rw [tables_eq, flatMap_keys_titled, List.filterMap_eq_flatMap_toList, List.flatMap_assoc,
      ← horder]
    exact List.flatMap_congr fun id _ => keys_creation? catalog options id
  have behind : (Script.deferred catalog (ofCatalog catalog options).1).flatMap Part.keys =
      order.flatMap (misfits catalog options order) := by
    rw [Script.deferred, flatMap_keys_titled, deferredKeys_eq, List.flatMap_map, horder]
    exact List.flatMap_singleton' _
  have perm : order.Perm (List.range catalog.size) := horder ▸ order_perm catalog options
  rw [List.flatMap_append, inside, behind, ← flatMap_keysOf]
  calc
    (order.flatMap (fitting catalog options order) ++
        order.flatMap (misfits catalog options order)).Perm
        (order.flatMap fun id =>
          fitting catalog options order id ++ misfits catalog options order id) :=
      List.flatMap_append_perm _ _ _
    List.Perm _ (order.flatMap catalog.keysOf) :=
      List.Perm.flatMap_left _ fun id _ => fitting_append_misfits catalog options order id
    List.Perm _ ((List.range catalog.size).flatMap catalog.keysOf) := perm.flatMap_right _

end Script

section Resolution

variable {catalog : Catalog} {options : PlanOptions}

theorem titled_split {title : Text} {parts before after : Script} {part : Part}
    (h : Script.titled title parts = before ++ part :: after) :
    part = .heading title ∨ ∃ front, before = .heading title :: front ∧
      parts = front ++ part :: after := by
  cases parts with
  | nil => simp [Script.titled] at h
  | cons first parts =>
    change .heading title :: first :: parts = _ at h
    cases before with
    | nil => exact .inl (List.cons.inj h).1.symm
    | cons heading front =>
      obtain ⟨hheading, h⟩ := List.cons.inj h
      exact .inr ⟨front, by rw [hheading], h⟩

theorem mem_titled {title : Text} {parts : Script} {part : Part} (h : part ∈ parts) :
    part ∈ Script.titled title parts := by
  cases parts with
  | nil => cases h
  | cons first parts => exact List.mem_cons_of_mem _ h

/-- A table is created behind those before it in the order. -/
theorem creations_split {plan : Plan} {before after : Script} {part : Part}
    (h : plan.order.filterMap (creation? catalog plan) = before ++ part :: after) :
    ∃ earlier id later, plan.order = earlier ++ id :: later ∧
      creation? catalog plan id = some part ∧
      earlier.filterMap (creation? catalog plan) = before := by
  obtain ⟨front, back, horder, hfront, hback⟩ := List.filterMap_eq_append_iff.mp h
  obtain ⟨skipped, id, later, rfl, hskipped, hid, -⟩ := List.filterMap_eq_cons_iff.mp hback
  refine ⟨front ++ skipped, id, later, by rw [horder, List.append_assoc], hid, ?_⟩
  rw [List.filterMap_append, hfront, List.filterMap_eq_nil_iff.mpr hskipped, List.append_nil]

theorem mem_of_idxOf_lt {earlier later : List Nat} {id parent : Nat}
    (h : (earlier ++ id :: later).idxOf parent < (earlier ++ id :: later).idxOf id) :
    parent ∈ earlier := by
  by_contra hparent
  have hid : (earlier ++ id :: later).idxOf id ≤ earlier.length := by
    rw [List.idxOf_append]
    split
    · exact List.idxOf_le_length
    · simp
  rw [List.idxOf_append, if_neg hparent] at h
  omega

theorem fits_of_mem_keys {id : Nat} {part : Part}
    (hpart : creation? catalog (ofCatalog catalog options).1 id = some part) {key : ForeignKey}
    (hkey : key ∈ part.keys) :
    Fits catalog options (ofCatalog catalog options).1.order id key := by
  have keys := keys_creation? catalog options id
  rw [hpart, Option.toList_some, List.flatMap_singleton] at keys
  rw [keys] at hkey
  exact of_decide_eq_true (List.mem_filter.mp hkey).2

/-- A table is created behind those that its keys refer to, itself apart. -/
theorem mem_before_creation {before after : Script} {part : Part}
    (h : (ofCatalog catalog options).1.order.filterMap
      (creation? catalog (ofCatalog catalog options).1) = before ++ part :: after)
    {key : ForeignKey} (hkey : key ∈ part.keys) {parent : Nat}
    (hparent : catalog.id? key.referencedTable = some parent) {target : Part}
    (htarget : creation? catalog (ofCatalog catalog options).1 parent = some target) :
    target ∈ before ++ [part] := by
  obtain ⟨earlier, id, later, horder, hid, rfl⟩ := creations_split h
  obtain ⟨-, other, hother, hbefore⟩ := fits_of_mem_keys hid hkey
  obtain rfl : parent = other := Option.some.inj (hparent.symm.trans hother)
  rcases hbefore with rfl | hbefore
  · obtain rfl := Option.some.inj (htarget.symm.trans hid)
    exact List.mem_append_right _ (List.mem_singleton_self _)
  · rw [horder] at hbefore
    exact List.mem_append_left _
      (List.mem_filterMap.mpr ⟨parent, mem_of_idxOf_lt hbefore, htarget⟩)

/-- Every table of a catalog is created. -/
theorem mem_tables {id : Nat} {part : Part}
    (h : creation? catalog (ofCatalog catalog options).1 id = some part) :
    part ∈ Script.tables catalog (ofCatalog catalog options).1 := by
  obtain ⟨t, ht, -⟩ := Option.map_eq_some_iff.mp h
  have placed : id ∈ (ofCatalog catalog options).1.order :=
    (mem_order catalog options).mpr (List.getElem?_eq_some_iff.mp ht).1
  rw [tables_eq]
  exact mem_titled (List.mem_filterMap.mpr ⟨id, placed, h⟩)

/-- The statement that creates a table stands before every key that refers to it, or has it. -/
theorem mem_before {before after : Script} {part : Part}
    (h : Script.tables catalog (ofCatalog catalog options).1 ++
      Script.deferred catalog (ofCatalog catalog options).1 = before ++ part :: after)
    {key : ForeignKey} (hkey : key ∈ part.keys) {target : Table}
    (htarget : catalog.find? key.referencedTable = some target) :
    ∃ flags, Part.create (.ofTable target flags) ∈ before ++ [part] := by
  obtain ⟨parent, hparent, htable⟩ := Option.bind_eq_some_iff.mp htarget
  generalize hflags : (ofCatalog catalog options).1.inline.getD parent [] = flags
  refine ⟨flags, ?_⟩
  have created : creation? catalog (ofCatalog catalog options).1 parent =
      some (.create (.ofTable target flags)) := by
    rw [creation?, htable, hflags]
    rfl
  have among := mem_tables created
  rcases List.append_eq_append_iff.mp h with ⟨more, rfl, -⟩ | ⟨more, htables, hrest⟩
  · -- the part stands behind all tables
    exact List.mem_append_left _ (List.mem_append_left _ among)
  cases more with
  | nil =>
    rw [List.append_nil] at htables
    exact List.mem_append_left _ (htables ▸ among)
  | cons first more =>
    obtain ⟨rfl, -⟩ := List.cons.inj hrest
    rw [tables_eq] at htables
    rcases titled_split htables with rfl | ⟨front, rfl, hcreations⟩
    · cases hkey
    · exact List.mem_cons_of_mem _ (mem_before_creation hcreations hkey hparent created)

end Resolution

/-- Planned, the tables of a catalog are printed once and in order, the pinned ones first, and every
foreign key is printed once: with its table if it can be, and else behind all tables. -/
theorem ofCatalog_emission (catalog : Catalog) (options : PlanOptions) :
    Emission catalog options (ofCatalog catalog options).1 where
  order := order_perm catalog options
  pinned := by
    obtain ⟨rest, -, horder, -, -⟩ := ofCatalog_greedy catalog options
    refine ⟨pins catalog options, rest, horder, ?_, pairwise_idxOf_eraseDups _⟩
    exact fun id => mem_pins catalog options
  created := by
    refine ⟨_, tables_eq catalog _, forall₂_filterMap fun id hid => ?_⟩
    obtain ⟨t, ht⟩ : ∃ t, catalog.table? id = some t :=
      ⟨_, List.getElem?_eq_getElem ((mem_order catalog options).mp hid)⟩
    have hcreation : creation? catalog (ofCatalog catalog options).1 id = some _ :=
      Option.map_eq_some_iff.mpr ⟨t, ht, rfl⟩
    exact ⟨_, hcreation, creates_creation? catalog options hcreation⟩
  added := by
    refine ⟨_, rfl, ?_⟩
    rw [deferredKeys_eq, List.forall₂_map_right_iff, List.forall₂_same]
    exact fun key _ => ⟨rfl, ForeignKey.ofAddition?_text key⟩
  once := keys_once catalog options
  resolved _ _ _ h _ hkey _ htarget := by
    obtain ⟨flags, hcreation⟩ := mem_before h hkey htarget
    refine ⟨_, hcreation, ?_⟩
    rw [Part.keys, foreignKeys_ofTable]
    exact creates_text _ flags

/-- Three tables that refer to one another in a ring, one also to a table that is not there and one
to itself. -/
def ring : Catalog where
  tables := [
    { name := "a", columns := [{ name := "id", type := "int" }, { name := "up", type := "int" }]
      foreignKeys := [⟨"a_c", "a", ["up"], "C", ["id"], some .cascade, none⟩,
        ⟨"a_x", "a", ["up"], "x", ["id"], none, none⟩] },
    { name := "b", columns := [{ name := "id", type := "int" }]
      foreignKeys := [⟨"b_a", "b", ["id"], "a", ["id"], none, some .setNull⟩,
        ⟨"b_b", "b", ["id"], "b", ["id"], none, none⟩] },
    { name := "c", columns := [{ name := "id", type := "int" }]
      foreignKeys := [⟨"c_b", "c", ["id"], "b", ["id"], none, none⟩] }]

/-- Pinned, the last table of the ring comes first, and its key has to wait. -/
theorem ofCatalog_emission_ring :
    Emission ring { pinned := ["C"] } (ofCatalog ring { pinned := ["C"] }).1 ∧
    Script.text (Script.tables ring (ofCatalog ring { pinned := ["C"] }).1 ++
      Script.deferred ring (ofCatalog ring { pinned := ["C"] }).1) =
      ("--\n-- Tables\n--\n\n" : Text) ++
      "CREATE TABLE \"c\" (\n    \"id\" INTEGER\n);\n\n" ++
      "CREATE TABLE \"a\" (\n    \"id\" INTEGER,\n    \"up\" INTEGER,\n" ++
      "    CONSTRAINT \"a_c\" FOREIGN KEY (\"up\") REFERENCES \"C\" (\"id\")" ++
      " ON DELETE CASCADE\n);\n\n" ++
      "CREATE TABLE \"b\" (\n    \"id\" INTEGER,\n" ++
      "    CONSTRAINT \"b_a\" FOREIGN KEY (\"id\") REFERENCES \"a\" (\"id\")" ++
      " ON UPDATE SET NULL,\n" ++
      "    CONSTRAINT \"b_b\" FOREIGN KEY (\"id\") REFERENCES \"b\" (\"id\")\n);\n\n" ++
      "--\n-- Foreign keys\n--\n\n" ++
      "ALTER TABLE \"c\" ADD CONSTRAINT \"c_b\" FOREIGN KEY (\"id\")" ++
      " REFERENCES \"b\" (\"id\");\n\n" ++
      "ALTER TABLE \"a\" ADD CONSTRAINT \"a_x\" FOREIGN KEY (\"up\")" ++
      " REFERENCES \"x\" (\"id\");\n\n" :=
  ⟨ofCatalog_emission ring { pinned := ["C"] }, by decide +kernel⟩

end Plan

end SqlDump
