import SqlDump.Proofs.Schema.Clauses
import SqlDump.Proofs.Schema.Distinct

/-!
# Tables altered after their definition

One dump gives the keys of a table in its definition, another in `ALTER TABLE` statements behind it.
Items are added to a table one after another, and a column is replaced in its place, so that the
table is the same either way.

Main statements: `Alteration.parse?_add`, a statement of keys adds them; `Alteration.parse?_modify`,
a column is replaced in its place; `Catalog.altered_eq_created`, the altered table is the one
created so.
-/

namespace SqlDump

open Text

/-! ## The catalog -/

namespace Catalog

theorem id?_insert (c : Catalog) (t : Table) : (c.insert t).id? t.name = some (c.insertId t) := by
  cases hid : c.id? t.name with
  | some id =>
    obtain ⟨hlt, hname, hfirst⟩ := List.findIdx?_eq_some_iff_getElem.mp hid
    rw [insert, insertId, hid, Option.getD_some]
    refine List.findIdx?_eq_some_iff_getElem.mpr ⟨by simpa [set] using hlt, by simp [set], ?_⟩
    intro j hj
    have hne : id ≠ j := Nat.ne_of_gt hj
    simpa [set, hne] using hfirst j hj
  | none =>
    have hfirst : c.tables.findIdx? (fun u => Text.lower u.name == Text.lower t.name) = none := hid
    rw [insert, insertId, hid]
    simp [id?, hfirst, List.findIdx?_append, size]

theorem set_insert (c : Catalog) {t u : Table} (h : u.name = t.name) :
    (c.insert t).set (c.insertId t) u = c.insert u := by
  cases hid : c.id? t.name with
  | some id => simp [insert, insertId, set, h, hid]
  | none => simp [insert, insertId, set, size, h, hid]

/-- Applies statements one after another: what became of each, and the catalog behind the last. -/
def alterAll? (c : Catalog) : List Text → Option (List Alteration × Catalog)
  | [] => some ([], c)
  | statement :: statements => do
    let (outcome, c) ← Alteration.parse? c statement
    let (outcomes, c) ← c.alterAll? statements
    return (outcome :: outcomes, c)

end Catalog

/-- A statement of which no clause remains. -/
theorem Alteration.parse?_insert (c : Catalog) {t u : Table} {statement : Text}
    {clauses : List Text} (hclauses : clauses? statement = some (t.name, clauses))
    (halter : t.alter clauses = (u, [])) :
    parse? (c.insert t) statement = some (⟨t.name, clauses.length, none, []⟩, c.insert u) := by
  have hname : u.name = t.name := by
    have hname := Table.alter_name t clauses
    rwa [halter] at hname
  unfold parse?
  simp only [hclauses, Option.bind_eq_bind, Option.bind_some, Catalog.id?_insert,
    Catalog.table?_insert, halter, Catalog.set_insert c hname]
  rfl

namespace Table

/-! ## Items added one after another -/

theorem foldl_addItem_name (t : Table) (items : List TableItem) :
    (items.foldl addItem t).name = t.name := by
  induction items generalizing t with
  | nil => rfl
  | cons item items ih => rw [List.foldl_cons, ih, addItem_name]

theorem addItem_options (t : Table) (item : TableItem) (options : List (Text × Text)) :
    { t with options }.addItem item = { t.addItem item with options } := by
  cases item with
  | column c reference =>
    simp only [addItem, addColumnKeys]
    split <;> split <;> rfl
  | _ => rfl

theorem foldl_addItem_options (t : Table) (items : List TableItem)
    (options : List (Text × Text)) :
    items.foldl addItem { t with options } = { items.foldl addItem t with options } := by
  induction items generalizing t with
  | nil => rfl
  | cons item items ih => rw [List.foldl_cons, addItem_options, ih, List.foldl_cons]

theorem ofItems_name (name options : Text) (items : List TableItem) :
    (ofItems name items options).1.name = name := by
  unfold ofItems
  exact foldl_addItem_name { name } items

theorem itemNote?_of_isKey {name : Text} {item : TableItem} (h : item.isKey = true) :
    itemNote? name item = none := by
  cases item with
  | verbatim text => cases h
  | _ => rfl

/-- Keys at the end of a definition are added last, and there is nothing to note on them. -/
theorem ofItems_append (name options : Text) (items keys : List TableItem)
    (h : ∀ key ∈ keys, key.isKey = true) :
    ofItems name (items ++ keys) options =
      (keys.foldl addItem (ofItems name items options).1, (ofItems name items options).2) := by
  have hnotes : keys.filterMap (itemNote? name) = [] :=
    List.filterMap_eq_nil_iff.mpr fun key hkey => itemNote?_of_isKey (h key hkey)
  unfold ofItems
  generalize TableOption.parse options = found
  have hoptions := foldl_addItem_options (items.foldl addItem { name }) keys found.1
  dsimp only at hoptions ⊢
  rw [List.filterMap_append, hnotes, List.append_nil, List.foldl_append, hoptions]

/-- The columns of an item. -/
def columnsOf : TableItem → List Column
  | .column c _ => [c]
  | _ => []

/-- An item adds its column behind those that are there, whichever these are. -/
theorem addItem_withColumns (t : Table) (columns : List Column) (item : TableItem) :
    (t.withColumns columns).addItem item =
      (t.addItem item).withColumns (columns ++ columnsOf item) := by
  cases item with
  | column c reference =>
    simp only [addItem, addColumnKeys, columnsOf, withColumns]
    split <;> split <;> rfl
  | _ => simp [addItem, columnsOf, withColumns]

theorem foldl_addItem_withColumns (t : Table) (columns : List Column) (items : List TableItem) :
    items.foldl addItem (t.withColumns columns) =
      (items.foldl addItem t).withColumns (columns ++ items.flatMap columnsOf) := by
  induction items generalizing t columns with
  | nil => simp
  | cons item items ih =>
    rw [List.foldl_cons, addItem_withColumns, ih, List.foldl_cons, List.flatMap_cons,
      List.append_assoc]

theorem addColumnKeys_eq_self {c : Column} (h : c.primaryKey = false) (t : Table) :
    t.addColumnKeys c none = t := by
  rw [addColumnKeys, h, if_neg Bool.false_ne_true]

/-- A column without keys is all that its item adds, in its place among the columns. -/
theorem ofItems_column (name options : Text) (before after : List TableItem) {c : Column}
    (h : c.primaryKey = false) :
    ofItems name (before ++ .column c none :: after) options =
      ((ofItems name (before ++ after) options).1.withColumns
          (before.flatMap columnsOf ++ c :: after.flatMap columnsOf),
        (ofItems name (before ++ after) options).2) := by
  have hcolumns : (before.foldl addItem { name }).columns = before.flatMap columnsOf :=
    congrArg columns (foldl_addItem_withColumns { name } [] before)
  have hadd : (before.foldl addItem { name }).addItem (.column c none) =
      (before.foldl addItem { name }).withColumns (before.flatMap columnsOf ++ [c]) := by
    rw [addItem, addColumnKeys_eq_self h, hcolumns, withColumns]
  unfold ofItems
  generalize TableOption.parse options = found
  dsimp only
  rw [List.foldl_append, List.foldl_cons, hadd, foldl_addItem_withColumns, List.foldl_append,
    List.filterMap_append, List.filterMap_append, List.filterMap_cons, List.append_assoc]
  rfl

/-! ## Keys added -/

theorem absorb?_add (t : Table) (item : Text) :
    t.absorb? ("ADD " ++ trimEnd item) = t.addKey? item := by
  have hauto : isAutoIncrementClause ("ADD " ++ trimEnd item) = false := rfl
  have hadd : keywordBlanks? "add" ("ADD " ++ trimEnd item) = some (trimStart (trimEnd item)) := rfl
  have hparse :
      TableItem.parse t.name (trimStart (trimEnd item)) = TableItem.parse t.name item := by
    rw [← TableItem.parse_trim, trim_trimStart, trim_trimEnd, TableItem.parse_trim]
  rw [absorb?, hauto, if_neg Bool.false_ne_true, hadd]
  simp only [addKey?, hparse]

theorem alter_add {t : Table} {items : List Text}
    (h : ∀ item ∈ items, (TableItem.parse t.name item).isKey = true) :
    t.alter (items.map fun item => "ADD " ++ trimEnd item) =
      ((items.map (TableItem.parse t.name)).foldl addItem t, []) := by
  induction items generalizing t with
  | nil => rfl
  | cons item items ih =>
    have hname := addItem_name t (TableItem.parse t.name item)
    rw [List.map_cons, alter, absorb?_add,
      addKey?_eq_some_iff.mpr ⟨h item List.mem_cons_self, rfl⟩]
    dsimp only
    rw [ih, hname]
    · rfl
    · intro other hother
      rw [hname]
      exact h other (List.mem_cons_of_mem item hother)

end Table

theorem Alteration.parse?_add (c : Catalog) (t : Table) {lead : Text} (hlead : isBlank lead = true)
    {keys : List Text}
    (h : ∀ key ∈ keys, IsItem key ∧ (TableItem.parse t.name key).isKey = true) :
    parse? (c.insert t) (Table.alterText t.name (keys.map (Table.addClause lead))) =
      some (⟨t.name, keys.length, none, []⟩,
        c.insert ((keys.map (TableItem.parse t.name)).foldl Table.addItem t)) := by
  have hkeys : ∀ key ∈ keys, (TableItem.parse t.name key).isKey = true :=
    fun key hkey => (h key hkey).2
  have hclause : ∀ clause ∈ keys.map (Table.addClause lead), Table.IsClause clause := by
    intro clause hclause
    obtain ⟨key, hkey, rfl⟩ := List.mem_map.mp hclause
    exact Table.isClause_add hlead (h key hkey).1
  have hclauses := Table.clauses?_alterText t.name hclause
  have hparse := Table.parse_unended hkeys
  have hunended : ∀ key ∈ Table.unended keys, (TableItem.parse t.name key).isKey = true :=
    Table.isKey_unended hkeys
  have hlength : (Table.unended keys).length = keys.length := by
    have hlength := congrArg List.length hparse
    rwa [List.length_map, List.length_map] at hlength
  rw [Table.read_add hlead hkeys] at hclauses
  rw [parse?_insert c hclauses (Table.alter_add hunended), List.length_map, hlength, hparse]

/-- Keys in any number of statements. -/
theorem Catalog.alterAll?_add (c : Catalog) (t : Table) (statements : List (List Text))
    {lead : Text} (hlead : isBlank lead = true)
    (h : ∀ keys ∈ statements, ∀ key ∈ keys,
      IsItem key ∧ (TableItem.parse t.name key).isKey = true) :
    (c.insert t).alterAll? (statements.map fun keys =>
        Table.alterText t.name (keys.map (Table.addClause lead))) =
      some (statements.map fun keys => ⟨t.name, keys.length, none, []⟩,
        c.insert ((statements.flatten.map (TableItem.parse t.name)).foldl Table.addItem t)) := by
  induction statements generalizing t with
  | nil => rfl
  | cons keys statements ih =>
    have hstep := Alteration.parse?_add c t hlead (h keys List.mem_cons_self)
    have hname := Table.foldl_addItem_name t (keys.map (TableItem.parse t.name))
    have hrest := ih ((keys.map (TableItem.parse t.name)).foldl Table.addItem t)
    rw [hname] at hrest
    have hall := hrest fun more hmore => h more (List.mem_cons_of_mem keys hmore)
    rw [List.map_cons, alterAll?, hstep]
    simp only [Option.bind_eq_bind, Option.bind_some, hall]
    rw [List.flatten_cons, List.map_append, List.foldl_append]
    rfl

/-! ## A column defined anew -/

namespace TableItem

theorem isKey_of_readPrimaryKey? {name : Option Text} {t : Text} {item : TableItem}
    (h : readPrimaryKey? name t = some item) : item.isKey = true := by
  obtain ⟨found, -, rfl⟩ := Option.map_eq_some_iff.mp h
  rfl

theorem isKey_of_readForeignKey? {table : Text} {name : Option Text} {t : Text} {item : TableItem}
    (h : readForeignKey? table name t = some item) : item.isKey = true := by
  obtain ⟨found, -, h⟩ := Option.bind_eq_some_iff.mp h
  obtain ⟨reference, -, h⟩ := Option.bind_eq_some_iff.mp h
  obtain rfl := Option.some.inj h
  rfl

theorem isKey_of_readUniqueKey? {name : Option Text} {t : Text} {item : TableItem}
    (h : readUniqueKey? name t = some item) : item.isKey = true := by
  obtain ⟨found, -, rfl⟩ := Option.map_eq_some_iff.mp h
  rfl

end TableItem

namespace Table

/-- The column that an item defines. -/
theorem column_of_parse {table item : Text} {c : Column} {reference : Option Reference}
    (h : TableItem.parse table item = .column c reference) :
    Column.parse? item = some (c, reference) := by
  have hkey {found : Option TableItem} {text : Text}
      (hfound : ∀ {other}, found = some other → other.isKey = true) :
      found.getD (.verbatim text) ≠ .column c reference := by
    cases found with
    | none => exact nofun
    | some other =>
      rintro rfl
      cases hfound rfl
  have hcolumn : Column.parse? (trim item) = some (c, reference) := by
    unfold TableItem.parse at h
    dsimp only at h
    split at h
    · exact absurd h (hkey TableItem.isKey_of_readPrimaryKey?)
    split at h
    · exact absurd h (hkey TableItem.isKey_of_readForeignKey?)
    split at h
    · exact absurd h (hkey TableItem.isKey_of_readUniqueKey?)
    split at h
    · cases h
    split at h
    · cases h
    split at h
    · next heq =>
      obtain ⟨rfl, rfl⟩ := TableItem.column.inj h
      exact heq
    · cases h
  rwa [Column.parse?, trim_trim, ← Column.parse?] at hcolumn

theorem absorb?_modify (t : Table) (long : Bool) (body : Text) :
    t.absorb? (modifyKeyword long ++ trimEnd ('\x60' :: body)) =
      t.modifyColumn? ('\x60' :: body) := by
  have hend : trimEnd ('\x60' :: body) = '\x60' :: trimEnd body :=
    trimEnd_solid (c := '\x60') rfl [] body
  have hparse : Column.parse? ('\x60' :: trimEnd body) = Column.parse? ('\x60' :: body) := by
    rw [← hend, Column.parse?, trim_trimEnd, Column.parse?]
  have hmodify : t.modifyColumn? ('\x60' :: trimEnd body) = t.modifyColumn? ('\x60' :: body) := by
    rw [modifyColumn?, hparse, modifyColumn?]
  rw [hend, ← hmodify]
  cases long <;> rfl

/-- A column of its own name is found in its place. -/
theorem modifyColumn?_distinct (t : Table) {before after : List Column} {c d : Column}
    {definition : Text} (hparse : Column.parse? definition = some (d, none))
    (hname : d.name = c.name) (hkey : d.primaryKey = false)
    (hdistinct : ((before ++ c :: after).map fun x => asciiLower x.name).Nodup) :
    (t.withColumns (before ++ c :: after)).modifyColumn? definition =
      some (t.withColumns (before ++ d :: after)) := by
  have hself : sameAscii c.name d.name = true := by rw [sameAscii, hname, beq_self_eq_true]
  refine modifyColumn?_eq_some_iff.mpr ⟨d, none, before, c, after, hparse, rfl, hself,
    fun x hx => ?_, addColumnKeys_eq_self hkey _⟩
  rw [List.map_append, List.map_cons, List.nodup_append] at hdistinct
  have hne := hdistinct.2.2 _ (List.mem_map_of_mem hx) _ List.mem_cons_self
  rw [sameAscii, hname, beq_eq_false_iff_ne]
  exact hne

end Table

theorem Alteration.parse?_modify (c : Catalog) (t : Table) {lead body : Text}
    (hlead : isBlank lead = true) (long : Bool) {before after : List Column} {x y : Column}
    (hitem : IsItem ('\x60' :: body))
    (hparse : Column.parse? ('\x60' :: trimEndWhile (· == ';') body) = some (y, none))
    (hname : y.name = x.name) (hkey : y.primaryKey = false)
    (hdistinct : ((before ++ x :: after).map fun column => asciiLower column.name).Nodup) :
    parse? (c.insert (t.withColumns (before ++ x :: after)))
        (Table.alterText t.name [Table.modifyClause lead long ('\x60' :: body)]) =
      some (⟨t.name, 1, none, []⟩, c.insert (t.withColumns (before ++ y :: after))) := by
  have hclause : ∀ clause ∈ [Table.modifyClause lead long ('\x60' :: body)],
      Table.IsClause clause := by
    intro clause hclause
    rw [List.mem_singleton.mp hclause]
    exact Table.isClause_modify hlead long hitem
  have hclauses := Table.clauses?_alterText t.name hclause
  rw [Table.read_modify hlead long body] at hclauses
  have halter : (t.withColumns (before ++ x :: after)).alter
      [Table.modifyKeyword long ++ trimEnd ('\x60' :: trimEndWhile (· == ';') body)] =
        (t.withColumns (before ++ y :: after), []) := by
    rw [Table.alter, Table.absorb?_modify,
      Table.modifyColumn?_distinct t hparse hname hkey hdistinct]
    rfl
  exact parse?_insert c (t := t.withColumns (before ++ x :: after)) hclauses halter

/-- Semicolons are cut off behind the name of a column. -/
theorem trimEndWhile_quoted (name body : Text) :
    trimEndWhile (· == ';') (Identifier.quoted '\x60' name ++ body) =
      Identifier.quoted '\x60' name ++ trimEndWhile (· == ';') body := by
  have hlast : trimEndWhile (· == ';') ('\x60' :: body) = '\x60' :: trimEndWhile (· == ';') body :=
    trimEndWhile_cons (by decide) body
  have hsplit (t : Text) : Identifier.quoted '\x60' name ++ t =
      '\x60' :: double '\x60' name ++ '\x60' :: t := by
    simp [Identifier.quoted]
  rw [hsplit, hsplit, trimEndWhile_append (by simp [hlast]), hlast]

namespace TableItem

theorem parseAll_keys {table : Text} {keys : List Text}
    (h : ∀ key ∈ keys, (parse table key).isKey = true) :
    parseAll table keys = keys.map (parse table) :=
  parseAll_eq_map fun key hkey hverbatim => by
    have hkey := h key hkey
    rw [hverbatim] at hkey
    cases hkey

theorem parseAll_column {table text : Text} {c : Column} {reference : Option Reference}
    (h : parse table text = .column c reference) (before after : List Text) :
    parseAll table (before ++ text :: after) =
      parseAll table before ++ .column c reference :: parseAll table after := by
  have hne : trim text ≠ [] := trim_ne_nil (by rw [h]; nofun)
  have hsingle : parseAll table [text] = [.column c reference] := by
    simp [parseAll, hne, h]
  rw [parseAll_append, ← List.singleton_append, parseAll_append, hsingle, List.singleton_append]

end TableItem

/-- A definition of which one item is a column, anywhere among the others. -/
theorem Table.parse?_column (name options : Text) {before after : List Text} {text : Text}
    {c : Column} {reference : Option Reference} (hitems : ∀ item ∈ before ++ after, IsItem item)
    (htext : IsItem text) (hc : TableItem.parse name text = .column c reference) :
    Table.parse? (Table.createText name (join [','] (before ++ text :: after)) options) =
      some (Table.ofItems name (TableItem.parseAll name before ++
        .column c reference :: TableItem.parseAll name after) options) := by
  have hall : ∀ item ∈ before ++ text :: after, IsItem item := by
    intro item hitem
    simp only [List.mem_append, List.mem_cons] at hitem hitems
    obtain hitem | rfl | hitem := hitem
    · exact hitems item (.inl hitem)
    · exact htext
    · exact hitems item (.inr hitem)
  rw [Table.parse?_items name options hall, TableItem.parseAll_column hc]

/-- The table that a dump alters after its definition is the one created so at once. Keys may stand
behind the columns of a definition, or be added in their order by any number of statements, each of
which absorbs all its clauses. A column without keys of its own may be defined anew in its place, or
by `MODIFY` in a statement behind, where no other column has its name. Such a statement is cut off
before the semicolons at its end, and so is the definition in it. -/
theorem Catalog.altered_eq_created (c : Catalog) (name options : Text) {lead : Text}
    (hlead : isBlank lead = true) :
    (∀ (columns : List Text) (statements : List (List Text)),
      (∀ item ∈ columns, IsItem item) →
      (∀ keys ∈ statements, ∀ key ∈ keys,
        IsItem key ∧ (TableItem.parse name key).isKey = true) →
      ∃ bare whole notes,
        Table.parse? (Table.createText name (join [','] columns) options) = some (bare, notes) ∧
        Table.parse? (Table.createText name (join [','] (columns ++ statements.flatten)) options) =
          some (whole, notes) ∧
        (c.insert bare).alterAll? (statements.map fun keys =>
            Table.alterText name (keys.map (Table.addClause lead))) =
          some (statements.map fun keys => ⟨name, keys.length, none, []⟩, c.insert whole)) ∧
    ∀ (long : Bool) (before after : List Text) (old body : Text) (x y : Column),
      (∀ item ∈ before ++ after, IsItem item) → IsItem old →
      IsItem (Identifier.quoted '\x60' x.name ++ body) →
      TableItem.parse name old = .column x none →
      TableItem.parse name (Identifier.quoted '\x60' x.name ++ trimEndWhile (· == ';') body) =
        .column y none →
      y.name = x.name → x.primaryKey = false → y.primaryKey = false →
      ∃ t u notes,
        Table.parse? (Table.createText name (join [','] (before ++ old :: after)) options) =
          some (t, notes) ∧
        Table.parse? (Table.createText name (join [','] (before ++
            (Identifier.quoted '\x60' x.name ++ trimEndWhile (· == ';') body) :: after))
            options) = some (u, notes) ∧
        ((t.columns.map fun column => asciiLower column.name).Nodup →
          Alteration.parse? (c.insert t) (Table.alterText name
              [Table.modifyClause lead long (Identifier.quoted '\x60' x.name ++ body)]) =
            some (⟨name, 1, none, []⟩, c.insert u)) := by
  constructor
  · intro columns statements hcolumns hkeys
    have hflat : ∀ key ∈ statements.flatten,
        IsItem key ∧ (TableItem.parse name key).isKey = true := by
      intro key hkey
      obtain ⟨keys, hmem, hkey⟩ := List.mem_flatten.mp hkey
      exact hkeys keys hmem key hkey
    have hall : ∀ item ∈ columns ++ statements.flatten, IsItem item := fun item hitem =>
      (List.mem_append.mp hitem).elim (hcolumns item) fun hkey => (hflat item hkey).1
    have hparsed := TableItem.parseAll_keys fun key hkey => (hflat key hkey).2
    have hwhole := Table.ofItems_append name options (TableItem.parseAll name columns)
      (statements.flatten.map (TableItem.parse name)) fun key hkey => by
        obtain ⟨text, htext, rfl⟩ := List.mem_map.mp hkey
        exact (hflat text htext).2
    have halter := alterAll?_add c
      (Table.ofItems name (TableItem.parseAll name columns) options).1 statements hlead
    rw [Table.ofItems_name] at halter
    refine ⟨_, _, (Table.ofItems name (TableItem.parseAll name columns) options).2,
      Table.parse?_items name options hcolumns, ?_, halter hkeys⟩
    rw [Table.parse?_items name options hall, TableItem.parseAll_append, hparsed, hwhole]
  · intro long before after old body x y hitems hold hnew hx hy hname hxkey hykey
    have hcut := trimEndWhile_quoted x.name body
    have hshort := hnew.trimEndWhile_semicolon
    rw [hcut] at hshort
    rw [Table.parse?_column name options hitems hold hx,
      Table.parse?_column name options hitems hshort hy, Table.ofItems_column _ _ _ _ hxkey,
      Table.ofItems_column _ _ _ _ hykey]
    refine ⟨_, _, _, rfl, rfl, fun hdistinct => ?_⟩
    have hread := Table.column_of_parse hy
    have hopen := trimEndWhile_cons (p := (· == ';')) (c := '\x60') rfl
      (double '\x60' x.name ++ ['\x60'] ++ body)
    rw [← hcut, show Identifier.quoted '\x60' x.name ++ body =
      '\x60' :: (double '\x60' x.name ++ ['\x60'] ++ body) from rfl, hopen] at hread
    have hmodify := Alteration.parse?_modify c
      (Table.ofItems name (TableItem.parseAll name before ++ TableItem.parseAll name after)
        options).1
      hlead long hnew hread hname hykey hdistinct
    rwa [Table.ofItems_name] at hmodify

theorem Catalog.altered_eq_created_small :
    (∃ bare whole notes,
      Table.parse? (Table.createText "t" (join [','] ["`a` int", "`b` text"]) " ENGINE=InnoDB") =
        some (bare, notes) ∧
      Table.parse? (Table.createText "t" (join [','] ["`a` int", "`b` text", "PRIMARY KEY (`a`)",
          "UNIQUE KEY `u` (`b`)", "KEY `k` (`b`)"]) " ENGINE=InnoDB") = some (whole, notes) ∧
      (insert {} bare).alterAll?
          [Table.alterText "t" [Table.addClause " " "PRIMARY KEY (`a`)"],
            Table.alterText "t" [Table.addClause " " "UNIQUE KEY `u` (`b`)",
              Table.addClause " " "KEY `k` (`b`)"]] =
        some ([⟨"t", 1, none, []⟩, ⟨"t", 2, none, []⟩], insert {} whole)) ∧
    ∃ t u notes,
      Table.parse? (Table.createText "t" (join [','] ["`b` text", "`a` int"]) []) =
        some (t, notes) ∧
      Table.parse? (Table.createText "t" (join [','] ["`b` text",
          Identifier.quoted '\x60' ['a'] ++ " bigint NOT NULL"]) []) = some (u, notes) ∧
      Alteration.parse? (insert {} t) (Table.alterText "t"
          [Table.modifyClause " " false (Identifier.quoted '\x60' ['a'] ++ " bigint NOT NULL;")]) =
        some (⟨"t", 1, none, []⟩, insert {} u) := by
  have hlead : isBlank [' '] = true := rfl
  constructor
  · exact (altered_eq_created {} "t" " ENGINE=InnoDB" hlead).1 ["`a` int", "`b` text"]
      [["PRIMARY KEY (`a`)"], ["UNIQUE KEY `u` (`b`)", "KEY `k` (`b`)"]]
      (by decide +kernel) (by decide +kernel)
  · obtain ⟨t, u, notes, ht, hu, halter⟩ := (altered_eq_created {} "t" [] hlead).2 false
      ["`b` text"] [] "`a` int" " bigint NOT NULL;" { name := ['a'], type := "int" }
      { name := ['a'], type := "bigint", nullable := false } (by decide +kernel) (by decide +kernel)
      (by decide +kernel) (by decide +kernel) (by decide +kernel) rfl rfl rfl
    have hdistinct :
        ((Table.parse? (Table.createText "t" (join [','] ["`b` text", "`a` int"]) [])).all
          fun found => decide ((found.1.columns.map fun c => asciiLower c.name).Nodup)) = true := by
      decide +kernel
    have ht' : Table.parse? (Table.createText "t" (join [','] ["`b` text", "`a` int"]) []) =
        some (t, notes) := ht
    rw [ht', Option.all_some, decide_eq_true_eq] at hdistinct
    exact ⟨t, u, notes, ht, hu, halter hdistinct⟩

/-- A definition that ends in a semicolon keeps it in `CREATE TABLE`, but not in `MODIFY`. -/
theorem Catalog.altered_ne_created :
    IsItem "`a` int;" ∧ ∃ t u d,
      Table.parse? (Table.createText "t" "`a` bigint" []) = some (t, []) ∧
      Table.parse? (Table.createText "t" "`a` int;" []) = some (u, []) ∧
      Alteration.parse? (insert {} t) (Table.alterText "t" [Table.modifyClause " " false "`a` int;"]) =
        some (⟨"t", 1, none, []⟩, d) ∧
      d.tables.map Table.columns = [[{ name := "a", type := "int" }]] ∧
      (insert {} u).tables.map Table.columns = [[{ name := "a", type := "int;" }]] :=
  ⟨by decide +kernel, { name := "t", columns := [{ name := "a", type := "bigint" }] },
    { name := "t", columns := [{ name := "a", type := "int;" }] },
    ⟨[{ name := "t", columns := [{ name := "a", type := "int" }] }]⟩,
    by decide +kernel, by decide +kernel, by decide +kernel, rfl, rfl⟩

end SqlDump
