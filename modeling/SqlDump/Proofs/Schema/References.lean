import SqlDump.Proofs.Schema.Alteration

/-!
# Tables that foreign keys refer to

A foreign key is read from an item of a table definition, from a column, or from a clause that adds
a key or changes a column. It belongs to the table it is read for, and keeps the name of the other
table as it is written there.

Main statements: `Table.ownsKeys_parse?` and `Table.mem_alter`, the foreign keys of a defined and of
an altered table; `Catalog.find?_insert` and `Catalog.map_name_find?_set`, what is found behind a
definition and behind an alteration.
-/

namespace SqlDump

open Text

namespace TableItem

/-- The table that an item refers to, if it is a foreign key. -/
def reference? : TableItem → Option Text
  | .foreignKey key => some key.referencedTable
  | _ => none

/-- A foreign key belongs to a table; other items may be of any. -/
def BelongsTo (table : Text) : TableItem → Prop
  | .foreignKey key => key.table = table
  | .column _ _ | .primaryKey _ | .uniqueKey _ | .index | .check _ | .verbatim _ => True

theorem belongsTo_readForeignKey? (table : Text) (name : Option Text) (t text : Text) :
    ((readForeignKey? table name t).getD (.verbatim text)).BelongsTo table := by
  unfold readForeignKey?
  cases group? t with
  | none => trivial
  | some columns =>
    simp only [Option.bind_eq_bind, Option.bind_some]
    cases Reference.parse? (trimStart columns.2) with
    | none => trivial
    | some reference => rfl

/-- A foreign key belongs to the table it is an item of. -/
theorem belongsTo_parse (table text : Text) : (parse table text).BelongsTo table := by
  unfold parse
  dsimp only
  split
  · next name rest _ =>
    unfold readPrimaryKey?
    cases group? rest <;> trivial
  · split
    · exact belongsTo_readForeignKey? ..
    · split
      · next name rest _ =>
        unfold readUniqueKey?
        cases group? rest <;> trivial
      · split
        · trivial
        · split
          · trivial
          · split <;> trivial

theorem reference?_readForeignKey? (a b : Text) (name : Option Text) (t text : Text) :
    ((readForeignKey? a name t).getD (.verbatim text)).reference? =
      ((readForeignKey? b name t).getD (.verbatim text)).reference? := by
  unfold readForeignKey?
  cases group? t with
  | none => rfl
  | some columns =>
    simp only [Option.bind_eq_bind, Option.bind_some]
    cases Reference.parse? (trimStart columns.2) with
    | none => rfl
    | some reference => rfl

/-- What an item refers to does not depend on the name of the table it is an item of. -/
theorem reference?_parse (a b text : Text) :
    (parse a text).reference? = (parse b text).reference? := by
  unfold parse
  dsimp only
  split
  · rfl
  · split
    · exact reference?_readForeignKey? ..
    · rfl

end TableItem

namespace Table

/-- Every foreign key of a table is its own. -/
def OwnsKeys (t : Table) : Prop := ∀ key ∈ t.foreignKeys, key.table = t.name

/-- The tables that the foreign keys of a table refer to. -/
def references (t : Table) : List Text := t.foreignKeys.map (·.referencedTable)

/-- The table that a clause of an `ALTER TABLE` makes a table refer to, whatever that is called. -/
def clauseReference? (clause : Text) : Option Text :=
  match keywordBlanks? "add" clause with
  | some item => (TableItem.parse [] item).reference?
  | none =>
    (keywordBlanks? "modify" clause).bind fun rest =>
      (Column.parse? (optionally (keywordBlanks? "column") rest)).bind fun (_, reference) =>
        reference.map (·.table)

theorem mem_addColumnKeys {t : Table} {c : Column} {reference : Option Reference}
    {key : ForeignKey} (h : key ∈ (t.addColumnKeys c reference).foreignKeys) :
    key ∈ t.foreignKeys ∨
      key.table = t.name ∧ reference.map (·.table) = some key.referencedTable := by
  unfold addColumnKeys at h
  cases reference with
  | none =>
    refine .inl ?_
    split at h <;> exact h
  | some r =>
    have hkeys : key ∈ t.foreignKeys ++ [r.toForeignKey none t.name [c.name]] := by
      split at h <;> exact h
    rcases List.mem_append.mp hkeys with hkey | hkey
    · exact .inl hkey
    · obtain rfl := List.mem_singleton.mp hkey
      exact .inr ⟨rfl, rfl⟩

theorem ownsKeys_addItem {t : Table} (ht : t.OwnsKeys) {item : TableItem}
    (h : item.BelongsTo t.name) : (t.addItem item).OwnsKeys := by
  intro key hkey
  rw [addItem_name]
  cases item with
  | foreignKey added =>
    rcases List.mem_append.mp hkey with hkey | hkey
    · exact ht key hkey
    · obtain rfl := List.mem_singleton.mp hkey
      exact h
  | column c reference =>
    rcases mem_addColumnKeys hkey with hkey | ⟨hkey, -⟩
    · exact ht key hkey
    · exact hkey
  | _ => exact ht key hkey

/-- The foreign keys of a defined table are its own. -/
theorem ownsKeys_parse? {statement : Text} {p : Table × List Diagnostic}
    (h : parse? statement = some p) : p.1.OwnsKeys := by
  obtain ⟨name, body, options, rfl⟩ := exists_ofItems h
  have hitems (texts : List Text) (t : Table) (ht : t.OwnsKeys) (hname : t.name = name) :
      ((texts.map (TableItem.parse name)).foldl addItem t).OwnsKeys := by
    induction texts generalizing t with
    | nil => exact ht
    | cons text texts ih =>
      rw [List.map_cons, List.foldl_cons]
      refine ih _ (ownsKeys_addItem ht ?_) ((addItem_name ..).trans hname)
      rw [hname]
      exact TableItem.belongsTo_parse name text
  have hempty : ({ name } : Table).OwnsKeys := by
    intro key hkey
    cases hkey
  exact hitems (items body) { name } hempty rfl

/-- A clause adds no key but its own. -/
theorem mem_absorb? {t u : Table} {clause : Text} (h : t.absorb? clause = some u)
    {key : ForeignKey} (hkey : key ∈ u.foreignKeys) :
    key ∈ t.foreignKeys ∨
      key.table = t.name ∧ clauseReference? clause = some key.referencedTable := by
  unfold clauseReference?
  cases absorb?_eq_some_iff.mp h with
  | number _ => exact .inl hkey
  | @key item hadd hisKey =>
    have hbelongs := TableItem.belongsTo_parse t.name item
    rw [hadd]
    dsimp only
    rw [TableItem.reference?_parse [] t.name]
    cases hparse : TableItem.parse t.name item with
    | foreignKey added =>
      rw [hparse] at hkey hbelongs
      rcases List.mem_append.mp hkey with hkey | hkey
      · exact .inl hkey
      · obtain rfl := List.mem_singleton.mp hkey
        exact .inr ⟨hbelongs, rfl⟩
    | primaryKey _ | uniqueKey _ | index =>
      rw [hparse] at hkey
      exact .inl hkey
    | check _ | column _ _ | verbatim _ =>
      rw [hparse] at hisKey
      cases hisKey
  | @column rest before after old new reference hmodify hparse hcolumns hname hbefore =>
    rw [keywordBlanks?_eq_none hmodify (by decide), hmodify, Option.bind_some, hparse]
    exact mem_addColumnKeys (t := t.withColumns (before ++ new :: after)) hkey

/-- Clauses add no keys but their own. -/
theorem mem_alter {t : Table} {clauses : List Text} {key : ForeignKey}
    (h : key ∈ (t.alter clauses).1.foreignKeys) :
    key ∈ t.foreignKeys ∨ key.table = t.name ∧
      ∃ clause ∈ clauses, clauseReference? clause = some key.referencedTable := by
  induction clauses generalizing t with
  | nil => exact .inl h
  | cons clause clauses ih =>
    rw [alter] at h
    cases habsorb : t.absorb? clause with
    | none =>
      rw [habsorb] at h
      rcases ih h with hkey | ⟨htable, later, hlater, hreference⟩
      · exact .inl hkey
      · exact .inr ⟨htable, later, List.mem_cons_of_mem _ hlater, hreference⟩
    | some u =>
      rw [habsorb] at h
      rcases ih h with hkey | ⟨htable, later, hlater, hreference⟩
      · rcases mem_absorb? habsorb hkey with hkey | ⟨htable, hreference⟩
        · exact .inl hkey
        · exact .inr ⟨htable, clause, List.mem_cons_self, hreference⟩
      · rw [absorb?_name habsorb] at htable
        exact .inr ⟨htable, later, List.mem_cons_of_mem _ hlater, hreference⟩

end Table

namespace Alteration

/-- The tables that the clauses of an `ALTER TABLE` make its table refer to. -/
def references (statement : Text) : List Text :=
  match clauses? statement with
  | some (_, clauses) => clauses.filterMap Table.clauseReference?
  | none => []

/-- A statement puts a table of the same name in the place of one, with no keys more but its own. -/
theorem parse?_eq {c d : Catalog} {a : Alteration} {statement : Text}
    (h : parse? c statement = some (a, d)) :
    ∃ id t u, c.table? id = some t ∧ d = c.set id u ∧ u.name = t.name ∧
      ∀ key ∈ u.foreignKeys, key ∈ t.foreignKeys ∨
        key.table = t.name ∧ key.referencedTable ∈ references statement := by
  obtain ⟨⟨name, clauses⟩, hclauses, h⟩ := Option.bind_eq_some_iff.mp h
  obtain ⟨id, -, h⟩ := Option.bind_eq_some_iff.mp h
  obtain ⟨t, ht, h⟩ := Option.bind_eq_some_iff.mp h
  obtain ⟨-, rfl⟩ := Prod.mk.inj (Option.some.inj h)
  refine ⟨id, t, _, ht, rfl, Table.alter_name t clauses, ?_⟩
  intro key hkey
  rcases Table.mem_alter hkey with hkept | ⟨htable, clause, hclause, hreference⟩
  · exact .inl hkept
  · rw [references, hclauses]
    exact .inr ⟨htable, List.mem_filterMap.mpr ⟨clause, hclause, hreference⟩⟩

end Alteration

namespace Catalog

variable {c : Catalog}

theorem id?_congr {a b : Text} (h : lower a = lower b) : c.id? a = c.id? b := by
  simp only [id?, h]

theorem id?_eq (name : Text) :
    c.id? name = (c.tables.map fun t => lower t.name).findIdx? (· == lower name) := by
  rw [List.findIdx?_map]
  rfl

theorem lower_name_of_id? {id : Nat} {name : Text} {t : Table} (hid : c.id? name = some id)
    (ht : c.table? id = some t) : lower t.name = lower name := by
  obtain ⟨hlt, hname, -⟩ := List.findIdx?_eq_some_iff_getElem.mp hid
  obtain ⟨-, rfl⟩ := List.getElem?_eq_some_iff.mp ht
  exact eq_of_beq hname

/-- A table of the same name in the place of one is found where that was. -/
theorem id?_set {id : Nat} {t u : Table} (ht : c.table? id = some t)
    (same : lower u.name = lower t.name) (name : Text) : (c.set id u).id? name = c.id? name := by
  rw [id?_eq, id?_eq, map_set (fun t => lower t.name) ht same]

/-- An altered table is found by the name that it had. -/
theorem map_name_find?_set {id : Nat} {t u : Table} (ht : c.table? id = some t)
    (same : u.name = t.name) (name : Text) :
    ((c.set id u).find? name).map Table.name = (c.find? name).map Table.name := by
  have hnames := map_set Table.name ht same
  have hname (c : Catalog) (j : Nat) :
      (c.table? j).map Table.name = (c.tables.map Table.name)[j]? := by
    rw [List.getElem?_map]
    rfl
  rw [find?, find?, id?_set ht (congrArg lower same), Option.map_bind, Option.map_bind]
  congr 1
  funext j
  exact (hname _ j).trans ((congrArg (·[j]?) hnames).trans (hname c j).symm)

theorem mem_insert {t table : Table} (h : table ∈ (c.insert t).tables) :
    table = t ∨ table ∈ c.tables := by
  unfold insert at h
  split at h
  · exact (List.mem_or_eq_of_mem_set h).symm
  · rcases List.mem_append.mp h with hkept | hadded
    · exact .inr hkept
    · exact .inl (List.mem_singleton.mp hadded)

/-- Behind its definition a table is found by its name, others as before. -/
theorem find?_insert (c : Catalog) (t : Table) (name : Text) :
    (c.insert t).find? name = if lower t.name = lower name then some t else c.find? name := by
  by_cases same : lower t.name = lower name
  · rw [if_pos same, find?, ← id?_congr same, id?_insert, Option.bind_some, table?_insert]
  · rw [if_neg same]
    unfold insert
    cases hid : c.id? t.name with
    | none =>
      have happend : (Catalog.mk (c.tables ++ [t])).id? name = c.id? name := by
        simp [id?, List.findIdx?_append, same]
      rw [find?, find?, happend]
      cases hname : c.id? name with
      | none => rfl
      | some j =>
        have hlt : j < c.tables.length := (List.findIdx?_eq_some_iff_getElem.mp hname).1
        exact List.getElem?_append_left hlt
    | some id =>
      obtain ⟨hlt, hu, -⟩ := List.findIdx?_eq_some_iff_getElem.mp hid
      have htable : c.table? id = some c.tables[id] := List.getElem?_eq_getElem hlt
      rw [find?, find?, id?_set htable (eq_of_beq hu).symm]
      cases hname : c.id? name with
      | none => rfl
      | some j =>
        have hne : id ≠ j := by
          rintro rfl
          exact same ((eq_of_beq hu).symm.trans (lower_name_of_id? hname htable))
        exact List.getElem?_set_ne hne

/-- Where names are distinct, a table is found by its own. -/
theorem find?_of_mem (h : c.Distinct) {t : Table} (ht : t ∈ c.tables) : c.find? t.name = some t := by
  cases hid : c.id? t.name with
  | none =>
    have hother := List.findIdx?_eq_none_iff.mp hid t ht
    simp at hother
  | some id =>
    have hlt : id < c.tables.length := (List.findIdx?_eq_some_iff_getElem.mp hid).1
    have hfound : c.table? id = some c.tables[id] := List.getElem?_eq_getElem hlt
    have hsame : c.tables[id] = t :=
      List.inj_on_of_nodup_map h (List.getElem_mem hlt) ht (lower_name_of_id? hid hfound)
    rw [find?, hid, Option.bind_some, hfound, hsame]

/-- Where names are distinct, the number of a table is found by its name. -/
theorem id?_of_table? (h : c.Distinct) {id : Nat} {t : Table} (ht : c.table? id = some t) :
    c.id? t.name = some id := by
  obtain ⟨hlt, rfl⟩ := List.getElem?_eq_some_iff.mp ht
  refine List.findIdx?_eq_some_iff_getElem.mpr ⟨hlt, by simp, ?_⟩
  intro j hj
  simpa using List.pairwise_iff_getElem.mp (List.pairwise_map.mp h) j id (hj.trans hlt) hlt hj

theorem table?_lt {id : Nat} {t : Table} (ht : c.table? id = some t) : id < c.size :=
  (List.getElem?_eq_some_iff.mp ht).1

theorem exists_table? {id : Nat} (h : id < c.size) : ∃ t, c.table? id = some t :=
  ⟨c.tables[id], List.getElem?_eq_getElem h⟩

/-- A definition leaves the other tables as they are. -/
theorem table?_insert_of_ne {id : Nat} {t : Table} (h : id ≠ c.insertId t) :
    (c.insert t).table? id = c.table? id := by
  unfold insert insertId at *
  cases hid : c.id? t.name with
  | some found =>
    rw [hid, Option.getD_some] at h
    exact List.getElem?_set_ne (Ne.symm h)
  | none =>
    rw [hid, Option.getD_none] at h
    rcases Nat.lt_or_gt_of_ne h with hlt | hlt
    · exact List.getElem?_append_left hlt
    · have hadded : c.tables.length < id := hlt
      have hold : c.table? id = none := List.getElem?_eq_none (Nat.le_of_lt hadded)
      rw [hold]
      refine List.getElem?_eq_none ?_
      rw [List.length_append, List.length_singleton]
      exact hadded

theorem insertId_le (c : Catalog) (t : Table) : c.insertId t ≤ c.size := by
  unfold insertId
  cases hid : c.id? t.name with
  | none => exact Nat.le_refl _
  | some id => exact Nat.le_of_lt (List.findIdx?_eq_some_iff_getElem.mp hid).1

theorem size_insert (c : Catalog) (t : Table) :
    (c.insert t).size = max c.size (c.insertId t + 1) := by
  have hle := insertId_le c t
  unfold insert insertId at *
  cases hid : c.id? t.name with
  | none => simp [size]
  | some id =>
    have hlt : id < c.size := (List.findIdx?_eq_some_iff_getElem.mp hid).1
    simp only [size, set, List.length_set, Option.getD_some] at *
    omega

end Catalog

end SqlDump
