import SqlDump.Proofs.Schema.Options

/-!
# Tables as a dump lists them

The statement that a dump writes for a table: its columns, then its keys, one item on each line, and
behind them its options. The statement defines the table that was listed, whatever its names and
literals hold.

Main statements: `ItemListing.parse_text`, an item is read back; `TableListing.parse?_statement`, so
is the table.
-/

namespace SqlDump

open Text

/-! ## Keys -/

/-- A key as a dump lists it. -/
structure KeyListing where
  name : Name
  columns : List Name

/-- A foreign key as a dump lists it. -/
structure ForeignKeyListing where
  name : Name
  columns : List Name
  table : Name
  referencedColumns : List Name
  onDelete : Option ReferentialAction
  onUpdate : Option ReferentialAction

/-- One item of a table as a dump lists it. -/
inductive ItemListing where
  | column (c : ColumnListing)
  | primaryKey (columns : List Name)
  | uniqueKey (key : KeyListing)
  | key (key : KeyListing)
  | foreignKey (key : ForeignKeyListing)

/-- A blank and a group of names, with a comma and `gap` between. -/
def columnGroup (gap : Text) (names : List Name) : Text :=
  ' ' :: '(' :: (namesWith gap (names.map Name.text) ++ [')'])

/-- What is to happen on an event, if anything is. -/
def actionText (event : Text) : Option ReferentialAction → Text
  | some action => " ON " ++ event ++ " " ++ action.keywords
  | none => []

def actionsText (onDelete onUpdate : Option ReferentialAction) : Text :=
  actionText "DELETE" onDelete ++ actionText "UPDATE" onUpdate

namespace ForeignKeyListing

/-- What stands behind the columns of a foreign key. -/
def referenceText (k : ForeignKeyListing) : Text :=
  "REFERENCES " ++ (k.table.quoted ++
    (columnGroup [' '] k.referencedColumns ++ actionsText k.onDelete k.onUpdate))

/-- The item as a dump writes it. -/
def text (k : ForeignKeyListing) : Text :=
  "CONSTRAINT " ++ (k.name.quoted ++
    (" FOREIGN KEY" ++ (columnGroup [' '] k.columns ++ ' ' :: k.referenceText)))

/-- The foreign key that the listing describes. -/
def foreignKey (table : Text) (k : ForeignKeyListing) : ForeignKey where
  name := k.name.text
  table := table
  columns := k.columns.map Name.text
  referencedTable := k.table.text
  referencedColumns := k.referencedColumns.map Name.text
  onDelete := k.onDelete
  onUpdate := k.onUpdate

end ForeignKeyListing

namespace KeyListing

/-- The item of a unique key as a dump writes it. -/
def uniqueText (k : KeyListing) : Text :=
  "UNIQUE KEY " ++ (k.name.quoted ++ columnGroup [] k.columns)

/-- The item of any other key as a dump writes it. -/
def text (k : KeyListing) : Text := "KEY " ++ (k.name.quoted ++ columnGroup [] k.columns)

/-- The unique key that the listing describes. -/
def uniqueKey (k : KeyListing) : UniqueKey := ⟨some k.name.text, k.columns.map Name.text⟩

end KeyListing

namespace ItemListing

/-- The item as a dump writes it. -/
def text : ItemListing → Text
  | .column c => c.text
  | .primaryKey columns => "PRIMARY KEY" ++ columnGroup [] columns
  | .uniqueKey k => k.uniqueText
  | .key k => k.text
  | .foreignKey k => k.text

/-- The item on a line of its own. -/
def line (i : ItemListing) : Text := "\n  " ++ i.text

/-- What the item is in the definition of the table of that name. -/
def item (table : Text) : ItemListing → TableItem
  | .column c => .column c.column none
  | .primaryKey columns => .primaryKey ⟨none, columns.map Name.text⟩
  | .uniqueKey k => .uniqueKey k.uniqueKey
  | .key _ => .index
  | .foreignKey k => .foreignKey (k.foreignKey table)

end ItemListing

/-! ## Reading names and actions -/

section Names

variable {gap : Text} (hgap : isBlank gap = true) (names : List Name)

include hgap

theorem shields_columnNames : Shields (· == ')') (namesWith gap (names.map Name.text)) := by
  have hblank : Shields (· == ')') gap :=
    Shields.of_blank
      (fun _ => Unicode.of_isBlank (p := fun c => (c == ')') = false) (by decide)) hgap
  exact shields_namesWith rfl (Shields.cons rfl (by decide) (by decide) rfl hblank) _

theorem isItem_columnGroup : IsItem (columnGroup gap names) :=
  Shields.cons rfl (by decide) (by decide) rfl
    (Shields.group (shields_columnNames hgap names) rfl)

theorem group?_columnGroup (rest : Text) :
    group? (columnGroup gap names ++ rest) = some (namesWith gap (names.map Name.text), rest) := by
  have hgroup := group?_shields (shields_columnNames hgap names) rest
  rw [columnGroup, List.cons_append, List.cons_append, List.append_assoc]
  exact hgroup

end Names

/-- What is made of the names of a group is made of the names that were listed. -/
theorem map_group?_columnGroup {α : Type} (f : List Text → α) (names : List Name) :
    ((group? (columnGroup [] names)).map fun (columns, _) => f (nameList columns)) =
      some (f (names.map Name.text)) := by
  have hgroup : group? (columnGroup [] names ++ []) =
      some (namesWith [] (names.map Name.text), []) := group?_columnGroup rfl names []
  have hlist : nameList (namesWith [] (names.map Name.text)) = names.map Name.text :=
    nameList_namesWith rfl _
  rw [← List.append_nil (columnGroup [] names), hgroup, Option.map_some]
  exact congrArg (some ∘ f) hlist

theorem trimStart_columnGroup (gap : Text) (names : List Name) (rest : Text) :
    trimStart (columnGroup gap names ++ rest) =
      '(' :: (namesWith gap (names.map Name.text) ++ ')' :: rest) := by
  rw [columnGroup, List.cons_append, List.cons_append, List.append_assoc]
  rfl

theorem endsSolid_columnGroup (gap : Text) (names : List Name) :
    endsSolid (columnGroup gap names) = true :=
  endsSolid_iff.mpr ⟨' ' :: '(' :: namesWith gap (names.map Name.text), ')', rfl, rfl⟩

theorem Definition.name?_quoted (n : Name) (rest : Text) (h : ∀ tail, rest ≠ '\x60' :: tail) :
    Definition.name? (n.quoted ++ rest) = some (n.text, rest) := by
  have hread := quotedNameFrom?_double '\x60' [] n.text rest none n.ne_nil h
  simpa [Definition.name?, Name.quoted, Identifier.quoted] using hread

theorem Definition.qualifiedName?_quoted (n : Name) {rest : Text}
    (h : ∀ tail, rest ≠ '\x60' :: tail) (hdot : ∀ tail, trimStart rest ≠ '.' :: tail) :
    Definition.qualifiedName? (n.quoted ++ rest) = some (n.text, rest) := by
  rw [Definition.qualifiedName?, Definition.name?_quoted n rest h, Option.bind_eq_bind,
    Option.bind_some]
  dsimp only
  split
  · next tail heq => exact absurd heq (hdot tail)
  · rfl

/-- A reader with no part in a name finds it behind the name of a constraint. -/
theorem afterConstraint?_quoted {α : Type} (reader : Text → Option α) (n : Name) {rest : Text}
    (hrest : trimStart rest = rest) (hname : reader (n.quoted ++ ' ' :: rest) = none) :
    Definition.afterConstraint? reader ("CONSTRAINT " ++ (n.quoted ++ ' ' :: rest)) =
      (reader rest).map (some n.text, ·) := by
  have hkeyword : keyword? "constraint" ("CONSTRAINT " ++ (n.quoted ++ ' ' :: rest)) =
      some (' ' :: (n.quoted ++ ' ' :: rest)) := rfl
  have hfirst : blanks? (' ' :: (n.quoted ++ ' ' :: rest)) = some (n.quoted ++ ' ' :: rest) := rfl
  have hsecond : blanks? (' ' :: rest) = some rest := congrArg some hrest
  have hread := Definition.name?_quoted n (' ' :: rest) nofun
  rw [Definition.afterConstraint?, hkeyword]
  simp only [hfirst, hread, hsecond, Option.bind_eq_bind, Option.bind_some, hname, Option.map_none]
  cases reader rest <;> rfl

section Actions

variable (onDelete onUpdate : Option ReferentialAction)

theorem find?_actionsText :
    ReferentialAction.find? "delete" false (actionsText onDelete onUpdate) = onDelete ∧
      ReferentialAction.find? "update" false (actionsText onDelete onUpdate) = onUpdate := by
  obtain _ | (_ | _ | _ | _ | _) := onDelete <;> obtain _ | (_ | _ | _ | _ | _) := onUpdate <;>
    exact ⟨rfl, rfl⟩

theorem isItem_actionText (event : Text) (action : Option ReferentialAction)
    (h : event ∈ (["DELETE", "UPDATE"] : List Text)) : IsItem (actionText event action) := by
  have hall : ∀ event ∈ (["DELETE", "UPDATE"] : List Text), ∀ action ∈ ReferentialAction.all,
      IsItem (actionText event (some action)) := by decide
  cases action with
  | none => exact Shields.nil
  | some action => exact hall event h action (by cases action <;> decide)

theorem isItem_actionsText : IsItem (actionsText onDelete onUpdate) :=
  (isItem_actionText "DELETE" onDelete (by decide)).append
    (isItem_actionText "UPDATE" onUpdate (by decide))

/-- An action ends with a letter, so that no blank ends what it stands behind. -/
theorem endsSolid_actionText (event : Text) (action : Option ReferentialAction) {t : Text}
    (h : endsSolid t = true) : endsSolid (t ++ actionText event action) = true := by
  cases action with
  | none => exact (List.append_nil t).symm ▸ h
  | some action =>
    have hkeywords : endsSolid action.keywords = true := by cases action <;> rfl
    exact endsSolid_append t (endsSolid_append _ hkeywords)

theorem endsSolid_actionsText {t : Text} (h : endsSolid t = true) :
    endsSolid (t ++ actionsText onDelete onUpdate) = true := by
  have hboth : endsSolid (t ++ actionText "DELETE" onDelete ++ actionText "UPDATE" onUpdate) =
      true := endsSolid_actionText "UPDATE" onUpdate (endsSolid_actionText "DELETE" onDelete h)
  exact List.append_assoc t _ _ ▸ hboth

end Actions

/-! ## Reading items -/

namespace ForeignKeyListing

/-- The reference of a foreign key is read back. -/
theorem parse?_referenceText (k : ForeignKeyListing) :
    Reference.parse? k.referenceText =
      some ⟨k.table.text, k.referencedColumns.map Name.text, k.onDelete, k.onUpdate⟩ := by
  have hkeyword : keywordBlanks? "references" k.referenceText =
      some (k.table.quoted ++
        (columnGroup [' '] k.referencedColumns ++ actionsText k.onDelete k.onUpdate)) := rfl
  have hname : Definition.qualifiedName? (k.table.quoted ++
      (columnGroup [' '] k.referencedColumns ++ actionsText k.onDelete k.onUpdate)) =
        some (k.table.text,
          columnGroup [' '] k.referencedColumns ++ actionsText k.onDelete k.onUpdate) :=
    Definition.qualifiedName?_quoted k.table nofun fun tail h => by
      rw [trimStart_columnGroup] at h
      cases h
  have hcolumns : Shields (· == ')') (namesWith [' '] (k.referencedColumns.map Name.text)) :=
    shields_columnNames rfl k.referencedColumns
  have hgroup := group?_shields hcolumns (actionsText k.onDelete k.onUpdate)
  have hlist : nameList (namesWith [' '] (k.referencedColumns.map Name.text)) =
      k.referencedColumns.map Name.text := nameList_namesWith rfl _
  obtain ⟨hdelete, hupdate⟩ := find?_actionsText k.onDelete k.onUpdate
  rw [Reference.parse?, hkeyword]
  simp only [Option.bind_eq_bind, Option.bind_some, hname, trimStart_columnGroup, hgroup, hlist,
    hdelete, hupdate]
  rfl

theorem isItem_text (k : ForeignKeyListing) : IsItem k.text := by
  have hreferences : IsItem "REFERENCES " := by decide
  have hconstraint : IsItem "CONSTRAINT " := by decide
  have hkey : IsItem " FOREIGN KEY" := by decide
  have hcolumns (names : List Name) : IsItem (columnGroup [' '] names) :=
    isItem_columnGroup rfl names
  have hreference : IsItem k.referenceText :=
    hreferences.append ((shields_quoted rfl k.table.text).append
      ((hcolumns k.referencedColumns).append (isItem_actionsText k.onDelete k.onUpdate)))
  exact hconstraint.append ((shields_quoted rfl k.name.text).append
    (hkey.append ((hcolumns k.columns).append
      (Shields.cons rfl (by decide) (by decide) rfl hreference))))

theorem endsSolid_text (k : ForeignKeyListing) : endsSolid k.text = true := by
  have hreference : endsSolid k.referenceText = true :=
    endsSolid_append _ (endsSolid_append _ (endsSolid_actionsText k.onDelete k.onUpdate
      (endsSolid_columnGroup [' '] k.referencedColumns)))
  exact endsSolid_append _ (endsSolid_append _ (endsSolid_append _ (endsSolid_append _
    (endsSolid_append [' '] hreference))))

/-- The foreign key is read back. -/
theorem parse_text (table : Text) (k : ForeignKeyListing) :
    TableItem.parse table k.text = .foreignKey (k.foreignKey table) := by
  have htrim : trim k.text = k.text := trim_of_endsSolid rfl k.endsSolid_text
  have hprimary : Definition.afterConstraint? (TableItem.keyHead? "primary") k.text = none :=
    afterConstraint?_quoted (TableItem.keyHead? "primary") k.name rfl rfl
  have hforeign : Definition.afterConstraint? (TableItem.keyHead? "foreign") k.text =
      some (some k.name.text, columnGroup [' '] k.columns ++ ' ' :: k.referenceText) :=
    afterConstraint?_quoted (TableItem.keyHead? "foreign") k.name rfl rfl
  have hgroup : group? (columnGroup [' '] k.columns ++ ' ' :: k.referenceText) =
      some (namesWith [' '] (k.columns.map Name.text), ' ' :: k.referenceText) :=
    group?_columnGroup rfl k.columns _
  have hblank : trimStart (' ' :: k.referenceText) = k.referenceText := rfl
  have hlist : nameList (namesWith [' '] (k.columns.map Name.text)) = k.columns.map Name.text :=
    nameList_namesWith rfl _
  rw [TableItem.parse, htrim]
  simp only [hprimary, hforeign, TableItem.readForeignKey?, hgroup, hblank,
    k.parse?_referenceText, hlist, Option.bind_eq_bind, Option.bind_some]
  rfl

end ForeignKeyListing

namespace KeyListing

theorem isItem_uniqueText (k : KeyListing) : IsItem k.uniqueText := by
  have hkeyword : IsItem "UNIQUE KEY " := by decide
  exact hkeyword.append ((shields_quoted rfl k.name.text).append (isItem_columnGroup rfl k.columns))

theorem isItem_text (k : KeyListing) : IsItem k.text := by
  have hkeyword : IsItem "KEY " := by decide
  exact hkeyword.append ((shields_quoted rfl k.name.text).append (isItem_columnGroup rfl k.columns))

theorem endsSolid_uniqueText (k : KeyListing) : endsSolid k.uniqueText = true :=
  endsSolid_append _ (endsSolid_append _ (endsSolid_columnGroup [] k.columns))

theorem endsSolid_text (k : KeyListing) : endsSolid k.text = true :=
  endsSolid_append _ (endsSolid_append _ (endsSolid_columnGroup [] k.columns))

/-- The unique key is read back. -/
theorem parse_uniqueText (table : Text) (k : KeyListing) :
    TableItem.parse table k.uniqueText = .uniqueKey k.uniqueKey := by
  have htrim : trim k.uniqueText = k.uniqueText := trim_of_endsSolid rfl k.endsSolid_uniqueText
  have hprimary : Definition.afterConstraint? (TableItem.keyHead? "primary") k.uniqueText = none :=
    rfl
  have hforeign : Definition.afterConstraint? (TableItem.keyHead? "foreign") k.uniqueText = none :=
    rfl
  have hname := Definition.name?_quoted k.name (columnGroup [] k.columns) nofun
  have hhead : TableItem.uniqueHead? k.uniqueText =
      some (some k.name.text, columnGroup [] k.columns) := by
    have hunique : wholeKeyword? "unique" k.uniqueText =
        some (" KEY " ++ (k.name.quoted ++ columnGroup [] k.columns)) := rfl
    have hkey : optionally (fun t => (blanks? t).bind (anyKeyword? ["key", "index"]))
        (" KEY " ++ (k.name.quoted ++ columnGroup [] k.columns)) =
          " " ++ (k.name.quoted ++ columnGroup [] k.columns) := rfl
    have hblank : blanks? (" " ++ (k.name.quoted ++ columnGroup [] k.columns)) =
        some (k.name.quoted ++ columnGroup [] k.columns) := rfl
    rw [TableItem.uniqueHead?, hunique]
    simp only [Option.bind_eq_bind, Option.bind_some, hkey, hblank, hname]
  have hconstraint : Definition.afterConstraint? TableItem.uniqueHead? k.uniqueText =
      some (none, some k.name.text, columnGroup [] k.columns) := by
    have hnone : keyword? "constraint" k.uniqueText = none := rfl
    rw [Definition.afterConstraint?, hnone, hhead]
    rfl
  have hread :
      TableItem.readUniqueKey? (some k.name.text <|> none) (columnGroup [] k.columns) =
        some (.uniqueKey k.uniqueKey) :=
    map_group?_columnGroup (fun columns => TableItem.uniqueKey ⟨some k.name.text, columns⟩)
      k.columns
  rw [TableItem.parse, htrim]
  simp only [hprimary, hforeign, hconstraint, hread]
  rfl

/-- No content is told by any other key. -/
theorem parse_text (table : Text) (k : KeyListing) : TableItem.parse table k.text = .index := by
  rw [TableItem.parse, trim_of_endsSolid rfl k.endsSolid_text]
  rfl

end KeyListing

/-- What begins with a name in backticks is a column, as no keyword opens with a backtick. -/
theorem TableItem.parse_quoted (table : Text) {name rest : Text}
    (hend : endsSolid (Identifier.quoted '\x60' name ++ rest) = true) {c : Column}
    {reference : Option Reference}
    (hcolumn : Column.parse? (Identifier.quoted '\x60' name ++ rest) = some (c, reference)) :
    TableItem.parse table (Identifier.quoted '\x60' name ++ rest) = .column c reference := by
  have hprimary : Definition.afterConstraint? (TableItem.keyHead? "primary")
      (Identifier.quoted '\x60' name ++ rest) = none := rfl
  have hforeign : Definition.afterConstraint? (TableItem.keyHead? "foreign")
      (Identifier.quoted '\x60' name ++ rest) = none := rfl
  have hunique : Definition.afterConstraint? TableItem.uniqueHead?
      (Identifier.quoted '\x60' name ++ rest) = none := rfl
  have hindex : TableItem.isIndexHead (Identifier.quoted '\x60' name ++ rest) = false := rfl
  have hcheck : Definition.afterConstraint?
      (fun t => if TableItem.isCheckHead t then some t else none)
        (Identifier.quoted '\x60' name ++ rest) = none := rfl
  rw [TableItem.parse, trim_of_endsSolid rfl hend]
  simp only [hprimary, hforeign, hunique, hindex, hcheck, hcolumn]
  rfl

namespace ItemListing

/-- The column is an item of its own. -/
theorem parse_column (table : Text) (c : ColumnListing) :
    TableItem.parse table c.text = .column c.column none :=
  TableItem.parse_quoted table c.endsSolid_text c.parse?_text

theorem parse_primaryKey (table : Text) (columns : List Name) :
    TableItem.parse table ("PRIMARY KEY" ++ columnGroup [] columns) =
      .primaryKey ⟨none, columns.map Name.text⟩ := by
  have htrim : trim ("PRIMARY KEY" ++ columnGroup [] columns) =
      "PRIMARY KEY" ++ columnGroup [] columns :=
    trim_of_endsSolid rfl (endsSolid_append _ (endsSolid_columnGroup [] columns))
  have hprimary : Definition.afterConstraint? (TableItem.keyHead? "primary")
      ("PRIMARY KEY" ++ columnGroup [] columns) = some (none, columnGroup [] columns) := rfl
  have hread : TableItem.readPrimaryKey? none (columnGroup [] columns) =
      some (.primaryKey ⟨none, columns.map Name.text⟩) :=
    map_group?_columnGroup (fun columns => TableItem.primaryKey ⟨none, columns⟩) columns
  rw [TableItem.parse, htrim]
  simp only [hprimary, hread]
  rfl

/-- What a dump writes for an item is read as the item. -/
theorem parse_text (table : Text) (i : ItemListing) :
    TableItem.parse table i.text = i.item table := by
  cases i with
  | column c => exact parse_column table c
  | primaryKey columns => exact parse_primaryKey table columns
  | uniqueKey k => exact k.parse_uniqueText table
  | key k => exact k.parse_text table
  | foreignKey k => exact k.parse_text table

/-- What a dump writes for an item does not end it. -/
theorem isItem_text (i : ItemListing) : IsItem i.text := by
  cases i with
  | column c => exact c.isItem_text
  | primaryKey columns =>
    have hkeyword : IsItem "PRIMARY KEY" := by decide
    exact hkeyword.append (isItem_columnGroup rfl columns)
  | uniqueKey k => exact k.isItem_uniqueText
  | key k => exact k.isItem_text
  | foreignKey k => exact k.isItem_text

theorem isItem_line (i : ItemListing) : IsItem i.line := by
  have hlead : IsItem "\n  " := by decide
  exact hlead.append i.isItem_text

theorem parse_line (table : Text) (i : ItemListing) :
    TableItem.parse table i.line = i.item table := by
  rw [← TableItem.parse_trim, line, trim_blank_append rfl, TableItem.parse_trim, i.parse_text]

theorem itemNote?_item (table : Text) (i : ItemListing) :
    Table.itemNote? table (i.item table) = none := by
  cases i <;> rfl

end ItemListing

/-! ## Tables -/

/-- A table as a dump lists it. -/
structure TableListing where
  name : Name
  columns : List ColumnListing
  primaryKey : Option (List Name)
  uniqueKeys : List KeyListing
  keys : List KeyListing
  foreignKeys : List ForeignKeyListing
  options : List OptionListing

namespace TableListing

/-- The items in the order of a dump. -/
def items (l : TableListing) : List ItemListing :=
  l.columns.map .column ++ (l.primaryKey.toList.map .primaryKey ++ (l.uniqueKeys.map .uniqueKey ++
    (l.keys.map .key ++ l.foreignKeys.map .foreignKey)))

/-- The items on lines of their own. -/
def body (l : TableListing) : Text :=
  join [','] (l.items.map ItemListing.line) ++ "\n"

/-- The statement as a dump writes it, without the semicolon. -/
def text (l : TableListing) : Text :=
  Table.createText l.name.text l.body (l.options.flatMap OptionListing.text)

/-- The table that the listing describes. -/
def table (l : TableListing) : Table where
  name := l.name.text
  columns := l.columns.map ColumnListing.column
  primaryKey := l.primaryKey.map fun columns => ⟨none, columns.map Name.text⟩
  foreignKeys := l.foreignKeys.map (ForeignKeyListing.foreignKey l.name.text)
  uniqueKeys := l.uniqueKeys.map KeyListing.uniqueKey
  options := l.options.map OptionListing.option

theorem isItem_lines (l : TableListing) : ∀ t ∈ l.items.map ItemListing.line, IsItem t := by
  intro t ht
  obtain ⟨i, -, rfl⟩ := List.mem_map.mp ht
  exact i.isItem_line

/-- The items of the body are those that were listed. -/
theorem items_body (l : TableListing) :
    (Text.items l.body).map (TableItem.parse l.name.text) = l.items.map (·.item l.name.text) := by
  have hread : TableItem.parse l.name.text ∘ ItemListing.line = (·.item l.name.text) :=
    funext fun i => i.parse_line l.name.text
  rw [body, items_append_blank rfl, TableItem.parseAll_join _ l.isItem_lines,
    TableItem.parseAll_eq_map, List.map_map, hread]
  intro t ht
  obtain ⟨i, -, rfl⟩ := List.mem_map.mp ht
  rw [i.parse_line]
  cases i <;> nofun

/-- The table with the items of a list. -/
def addItems (name : Text) (t : Table) (is : List ItemListing) : Table :=
  (is.map (·.item name)).foldl Table.addItem t

theorem addItems_append (name : Text) (t : Table) (is more : List ItemListing) :
    addItems name t (is ++ more) = addItems name (addItems name t is) more := by
  rw [addItems, List.map_append, List.foldl_append, addItems, addItems]

/-- Items of one kind are added in order. -/
theorem addItems_map {α β : Type} {name : Text} {item : α → ItemListing} (value : α → β)
    (build : List β → Table)
    (h : ∀ before a, (build before).addItem ((item a).item name) = build (before ++ [value a]))
    (as : List α) : addItems name (build []) (as.map item) = build (as.map value) := by
  have hbehind (before : List β) :
      addItems name (build before) (as.map item) = build (before ++ as.map value) := by
    induction as generalizing before with
    | nil => simp [addItems]
    | cons a as ih =>
      have hnext := ih (before ++ [value a])
      simp only [addItems, List.map_cons, List.foldl_cons] at hnext ⊢
      rw [h, hnext, List.append_assoc, List.singleton_append]
  exact hbehind []

/-- The items define the table that was listed, up to the options behind them. -/
theorem addItems_items (l : TableListing) :
    addItems l.name.text { name := l.name.text } l.items = { l.table with options := [] } := by
  have hcolumns : addItems l.name.text { name := l.name.text } (l.columns.map .column) =
      { name := l.name.text, columns := l.table.columns } :=
    addItems_map ColumnListing.column (fun columns => { name := l.name.text, columns })
      (fun _ _ => rfl) l.columns
  have hprimaryKey :
      addItems l.name.text { name := l.name.text, columns := l.table.columns }
        (l.primaryKey.toList.map .primaryKey) =
        { name := l.name.text, columns := l.table.columns, primaryKey := l.table.primaryKey } := by
    rw [table]
    cases l.primaryKey <;> rfl
  have huniqueKeys :
      addItems l.name.text
        { name := l.name.text, columns := l.table.columns, primaryKey := l.table.primaryKey }
        (l.uniqueKeys.map .uniqueKey) = { l.table with options := [], foreignKeys := [] } :=
    addItems_map KeyListing.uniqueKey
      (fun uniqueKeys => { l.table with options := [], foreignKeys := [], uniqueKeys })
      (fun _ _ => rfl) l.uniqueKeys
  have hkeys (t : Table) : addItems l.name.text t (l.keys.map .key) = t :=
    addItems_map id (fun _ => t) (fun _ _ => rfl) l.keys
  have hforeignKeys :
      addItems l.name.text { l.table with options := [], foreignKeys := [] }
        (l.foreignKeys.map .foreignKey) = { l.table with options := [] } :=
    addItems_map (ForeignKeyListing.foreignKey l.name.text)
      (fun foreignKeys => { l.table with options := [], foreignKeys })
      (fun _ _ => rfl) l.foreignKeys
  rw [items, addItems_append, hcolumns, addItems_append, hprimaryKey, addItems_append, huniqueKeys,
    addItems_append, hkeys, hforeignKeys]

/-- The statement that a dump writes defines the table that was listed, and nothing is noted. -/
theorem parse?_statement (l : TableListing) (semicolons : Nat) :
    Table.parse? (l.text ++ List.replicate semicolons ';') = some (l.table, []) := by
  have hbody : Shields (· == ')') l.body := (IsItem.join l.isItem_lines).append (by decide)
  have hitems := l.addItems_items
  rw [addItems] at hitems
  have hitemNotes :
      (l.items.map (·.item l.name.text)).filterMap (Table.itemNote? l.name.text) = [] := by
    rw [List.filterMap_map, List.filterMap_eq_nil_iff]
    exact fun i _ => i.itemNote?_item l.name.text
  have hoptionNotes :
      (l.options.map OptionListing.option).filterMap (Table.optionNote? l.name.text) = [] := by
    rw [List.filterMap_map, List.filterMap_eq_nil_iff]
    intro o _
    exact if_pos o.kind.isSilent_key
  rw [text, Table.createText_append, Table.parse?_createText _ _ hbody, l.items_body,
    Table.ofItems, OptionListing.parse_text, hitems, hitemNotes]
  simp only [hoptionNotes]
  rfl

/-- The statement for a table of one column. -/
example : TableListing.text {
    name := ⟨"a`b", by decide⟩
    columns := [{
      name := ⟨"id", by decide⟩
      type := ⟨"int", by decide, by decide, some ⟨"10", by decide⟩, [.unsigned]⟩
      notNull := true
      default := none
      autoIncrement := true
      comment := none }]
    primaryKey := some [⟨"id", by decide⟩]
    uniqueKeys := []
    keys := []
    foreignKeys := []
    options := [⟨.engine, "InnoDB", by decide, by decide⟩,
      ⟨.charset, "latin1", by decide, by decide⟩] } =
    ("CREATE TABLE `a``b` (\n  `id` int(10) unsigned NOT NULL AUTO_INCREMENT,\n" ++
      "  PRIMARY KEY (`id`)\n) ENGINE=InnoDB DEFAULT CHARSET=latin1" : String) := by
  decide +kernel

end TableListing

end SqlDump
