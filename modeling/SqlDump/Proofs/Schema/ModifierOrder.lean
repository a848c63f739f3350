import SqlDump.Proofs.Schema.Alteration
import SqlDump.Proofs.Schema.Modifiers

/-!
# Columns with their modifiers in another order

The text of a column, and the statement that it stands in. Whatever order the modifiers of a column
are in, the statement defines the same table, as long as none of them stands behind a reference.

Main statements: `ColumnText.parse_perm`, a text with another order of modifiers is read as the same
column; `Table.ofItems_withColumn`, what the other items see of a column; `Table.parse?_modifiers`,
another order of modifiers defines the same table.
-/

namespace SqlDump

open Text

/-- A text defines a column by its name in backticks, its type and modifiers, with blanks before
each token and around the whole. -/
inductive ColumnText (name : Text) (type : WrittenType) (ms : List ColumnClause) : Text → Prop
  | mk {lead definition tail : Text} (hlead : isBlank lead = true) (htail : isBlank tail = true)
      (h : Spaced (type.tokens ++ ms.flatMap ColumnClause.tokens) definition) :
      ColumnText name type ms (lead ++ (Identifier.quoted '\x60' name ++ definition ++ tail))

namespace ColumnText

variable {name : Text} {type : WrittenType} {ms : List ColumnClause} {t : Text}

theorem isToken_of_mem {token : Text}
    (h : token ∈ type.tokens ++ ms.flatMap ColumnClause.tokens) : IsToken token := by
  obtain h | h := List.mem_append.mp h
  · exact WrittenType.isToken_of_mem h
  · obtain ⟨m, -, hm⟩ := List.mem_flatMap.mp h
    exact m.isToken_of_mem token hm

theorem isItem (h : ColumnText name type ms t) : IsItem t := by
  obtain ⟨hlead, htail, h⟩ := h
  have hdefinition : IsItem _ := h.shields
    (fun _ => Unicode.of_isBlank (p := fun c => (c == ',' || c == ')') = false) (by decide))
    fun token htoken => (isToken_of_mem htoken).isItem
  exact (IsItem.blank hlead).append
    (((shields_quoted rfl name).append hdefinition).append (IsItem.blank htail))

/-- The definition is read as the column that its tokens make. -/
theorem parse (h : ColumnText name type ms t) (table : Text) :
    ∃ c reference, TableItem.parse table t = .column c reference ∧
      Column.applyModifiers { name, type := type.text } (ms.flatMap ColumnClause.tokens) =
        (c, reference) := by
  obtain ⟨hlead, htail, h⟩ := h
  rename_i lead definition tail
  obtain ⟨c, reference, happly⟩ : ∃ c reference, Column.applyModifiers { name, type := type.text }
      (ms.flatMap ColumnClause.tokens) = (c, reference) := ⟨_, _, rfl⟩
  refine ⟨c, reference, ?_, happly⟩
  have htokens : Text.tokens definition = type.tokens ++ ms.flatMap ColumnClause.tokens :=
    h.tokens_eq fun token htoken => ⟨(isToken_of_mem htoken).ne_nil, (isToken_of_mem htoken).blank⟩
  have hend : endsSolid (Identifier.quoted '\x60' name ++ definition) = true :=
    endsSolid_append _ (h.endsSolid nofun fun token htoken => (isToken_of_mem htoken).ends)
  have hname : Identifier.read (Identifier.quoted '\x60' name ++ definition) =
      some (name, definition) := by
    refine Identifier.read_quoted name fun rest hrest => ?_
    -- A blank stands before the type.
    cases h with
    | @cons gap _ _ _ hgap hblank _ =>
      obtain ⟨d, gap, rfl⟩ := List.exists_cons_of_ne_nil hgap
      obtain rfl : d = '\x60' := (List.cons.inj hrest).1
      have hmark : Unicode.isBlank '\x60' = true := List.all_eq_true.mp hblank _ List.mem_cons_self
      cases hmark
  have hcolumn : Column.parse? (Identifier.quoted '\x60' name ++ definition) =
      some (c, reference) := by
    rw [Column.parse?, trim_of_endsSolid rfl hend, hname]
    simp only [Option.bind_eq_bind, Option.bind_some, htokens,
      type.readType?_tokens (ColumnClause.head?_flatMap_tokens ms), happly]
    rfl
  rw [← TableItem.parse_trim, trim_blank_append hlead, trim_append_blank htail,
    TableItem.parse_trim]
  exact TableItem.parse_quoted table hend hcolumn

/-- With its modifiers in another order a text is read as the same column, but for the order of the
unknown words, and with the same reference. No modifier is lost. -/
theorem parse_perm {ms' : List ColumnClause} {t' : Text} (ht : ColumnText name type ms t)
    (ht' : ColumnText name type ms' t') (honce : ColumnClause.UsedOnce ms) (hperm : ms.Perm ms')
    (hlast : ColumnClause.ReferenceLast ms) (hlast' : ColumnClause.ReferenceLast ms')
    (table : Text) :
    ∃ c reference, TableItem.parse table t = .column c reference ∧
      TableItem.parse table t' = .column (c.withExtra (ColumnClause.words ms')) reference ∧
      (c.name = name ∧ c.type = type.text ∧ c.extra = ColumnClause.words ms) ∧
      ∀ m ∈ ms, m.Recorded c reference := by
  obtain ⟨c, reference, hparse, happly⟩ := ht.parse table
  obtain ⟨c', reference', hparse', happly'⟩ := ht'.parse table
  rw [ColumnClause.applyModifiers_tokens _ hlast] at happly
  rw [ColumnClause.applyModifiers_tokens _ hlast', ColumnClause.apply_perm honce hperm,
    ColumnClause.reference?_perm honce hperm] at happly'
  obtain ⟨rfl, rfl⟩ := Prod.mk.inj happly
  obtain ⟨rfl, rfl⟩ := Prod.mk.inj happly'
  obtain ⟨hname, htype⟩ := ColumnClause.foldl_apply_eq { name, type := type.text } ms
  refine ⟨_, _, hparse, hparse', ⟨hname, htype, ?_⟩, ?_⟩
  · exact ColumnClause.extra_foldl_apply { name, type := type.text } ms
  · intro m hm
    exact ColumnClause.recorded_of_mem honce _ hm

/-- What stands behind a reference is no part of the column, nor of what it refers to. -/
theorem parse_behind {before behind : List ColumnClause} {r : ReferenceClause}
    (h : ColumnText name type (before ++ .references r :: behind) t)
    (hbefore : ∀ m ∈ before, m.kind ≠ .reference) (table : Text) :
    ∃ reference, TableItem.parse table t =
        .column (before.foldl ColumnClause.apply { name, type := type.text }) (some reference) ∧
      reference.table = r.reference.table ∧ reference.columns = r.reference.columns := by
  obtain ⟨c, reference, hparse, happly⟩ := h.parse table
  rw [ColumnClause.applyModifiers_behind _ hbefore, r.parse?_tokens_append] at happly
  obtain ⟨rfl, rfl⟩ := Prod.mk.inj happly
  exact ⟨_, hparse, rfl, rfl⟩

end ColumnText

namespace Table

/-- The items around a column see no more of it than its name and whether it is the primary key. -/
theorem ofItems_withColumn (name options : Text) (before after : List TableItem) {c d : Column}
    (hname : d.name = c.name) (hkey : d.primaryKey = c.primaryKey) (reference : Option Reference) :
    ofItems name (before ++ .column d reference :: after) options =
      ((ofItems name (before ++ .column c reference :: after) options).1.withColumns
          (before.flatMap columnsOf ++ d :: after.flatMap columnsOf),
        (ofItems name (before ++ .column c reference :: after) options).2) := by
  obtain ⟨t, ht⟩ : ∃ t, before.foldl addItem { name } = t := ⟨_, rfl⟩
  have hcolumns : t.columns = before.flatMap columnsOf := by
    rw [← ht]
    exact congrArg columns (foldl_addItem_withColumns { name } [] before)
  have hadd : t.addItem (.column d reference) =
      (t.addItem (.column c reference)).withColumns (before.flatMap columnsOf ++ [d]) := by
    simp only [addItem, addColumnKeys, withColumns, hname, hkey, hcolumns]
    split <;> split <;> rfl
  unfold ofItems
  generalize TableOption.parse options = found
  dsimp only
  rw [List.foldl_append, List.foldl_cons, ht, hadd, foldl_addItem_withColumns, List.foldl_append,
    List.foldl_cons, ht, List.filterMap_append, List.filterMap_append, List.filterMap_cons,
    List.append_assoc]
  rfl

theorem columns_ofItems (name options : Text) (before after : List TableItem) (c : Column)
    (reference : Option Reference) :
    (ofItems name (before ++ .column c reference :: after) options).1.columns =
      before.flatMap columnsOf ++ c :: after.flatMap columnsOf :=
  congrArg (fun p => p.1.columns)
    (ofItems_withColumn name options before after (c := c) rfl rfl reference)

/-- What is added to a table stays there: a primary key until another takes its place. -/
structure Extends (t u : Table) : Prop where
  primaryKey : t.primaryKey.isSome = true → u.primaryKey.isSome = true
  foreignKeys : ∀ key ∈ t.foreignKeys, key ∈ u.foreignKeys

theorem primaryKey_addItem_column (t : Table) (c : Column) (reference : Option Reference) :
    (t.addItem (.column c reference)).primaryKey =
      if c.primaryKey then some ⟨none, [c.name]⟩ else t.primaryKey := by
  simp only [addItem, addColumnKeys]
  cases reference <;> cases c.primaryKey <;> rfl

theorem foreignKeys_addItem_column (t : Table) (c : Column) (reference : Option Reference) :
    (t.addItem (.column c reference)).foreignKeys =
      t.foreignKeys ++ (reference.map (·.toForeignKey none t.name [c.name])).toList := by
  simp only [addItem, addColumnKeys]
  cases reference <;> cases c.primaryKey <;> simp

theorem extends_addItem (t : Table) (item : TableItem) : Extends t (t.addItem item) := by
  cases item with
  | primaryKey key => exact ⟨fun _ => rfl, fun _ h => h⟩
  | foreignKey key => exact ⟨id, fun _ h => List.mem_append_left _ h⟩
  | column c reference =>
    constructor
    · intro h
      rw [primaryKey_addItem_column]
      split
      · rfl
      · exact h
    · intro key h
      rw [foreignKeys_addItem_column]
      exact List.mem_append_left _ h
  | _ => exact ⟨id, fun _ h => h⟩

theorem extends_foldl (t : Table) (items : List TableItem) : Extends t (items.foldl addItem t) := by
  induction items generalizing t with
  | nil => exact ⟨id, fun _ h => h⟩
  | cons item items ih =>
    have hstep := extends_addItem t item
    have hrest := ih (t.addItem item)
    exact ⟨fun h => hrest.primaryKey (hstep.primaryKey h),
      fun key h => hrest.foreignKeys key (hstep.foreignKeys key h)⟩

/-- The keys in the definition of a column become keys of its table. -/
theorem keys_ofItems (name options : Text) (before after : List TableItem) (c : Column)
    (reference : Option Reference) :
    (c.primaryKey = true →
      (ofItems name (before ++ .column c reference :: after) options).1.primaryKey.isSome = true) ∧
    ∀ r ∈ reference, r.toForeignKey none name [c.name] ∈
      (ofItems name (before ++ .column c reference :: after) options).1.foreignKeys := by
  obtain ⟨t, ht⟩ : ∃ t, before.foldl addItem { name } = t := ⟨_, rfl⟩
  have hname : t.name = name := by
    rw [← ht]
    exact foldl_addItem_name { name } before
  have hrest := extends_foldl (t.addItem (.column c reference)) after
  unfold ofItems
  generalize TableOption.parse options = found
  dsimp only
  rw [List.foldl_append, List.foldl_cons, ht]
  constructor
  · intro hkey
    refine hrest.primaryKey ?_
    rw [primaryKey_addItem_column, hkey]
    rfl
  · intro r hr
    refine hrest.foreignKeys _ ?_
    rw [foreignKeys_addItem_column, Option.mem_def.mp hr, hname]
    exact List.mem_append_right _ (List.mem_singleton_self _)

/-- A column of a table holds what its definition says, with its keys among those of the table. -/
structure Holds (u : Table) (c : Column) (name : Text) (type : WrittenType)
    (ms : List ColumnClause) : Prop where
  name_eq : c.name = name
  type_eq : c.type = type.text
  extra_eq : c.extra = ColumnClause.words ms
  recorded : ∃ reference, (∀ m ∈ ms, m.Recorded c reference) ∧
    ∀ r ∈ reference, r.toForeignKey none u.name [c.name] ∈ u.foreignKeys
  key : c.primaryKey = true → u.primaryKey.isSome = true

/-- The definition of a table is read alike whatever order the modifiers of a column are in, if none
stands behind a reference: the tables are the same but for the order of the unknown words of the
column, and no modifier is lost. What stands behind a reference is no part of the column. -/
theorem parse?_modifiers (table options name : Text) (type : WrittenType) {first rest : List Text}
    (hfirst : ∀ item ∈ first, IsItem item) (hrest : ∀ item ∈ rest, IsItem item) :
    (∀ ms ms' t t', ColumnClause.UsedOnce ms → ms.Perm ms' → ColumnClause.ReferenceLast ms →
      ColumnClause.ReferenceLast ms' → ColumnText name type ms t → ColumnText name type ms' t' →
        ∃ u notes before c after,
          parse? (createText table (join [','] (first ++ t :: rest)) options) = some (u, notes) ∧
          u.columns = before ++ c :: after ∧ u.Holds c name type ms ∧
          parse? (createText table (join [','] (first ++ t' :: rest)) options) =
            some (u.withColumns (before ++ c.withExtra (ColumnClause.words ms') :: after), notes)) ∧
    ∀ before r behind t, (∀ m ∈ before, m.kind ≠ .reference) →
      ColumnText name type (before ++ .references r :: behind) t →
        ∃ reference, TableItem.parse table t =
            .column (before.foldl ColumnClause.apply { name, type := type.text })
              (some reference) ∧
          reference.table = r.reference.table ∧ reference.columns = r.reference.columns := by
  constructor
  · intro ms ms' t t' honce hperm hlast hlast' ht ht'
    obtain ⟨c, reference, hparse, hparse', ⟨hname, htype, hextra⟩, hrecorded⟩ :=
      ht.parse_perm ht' honce hperm hlast hlast' table
    have hitems : ∀ item ∈ first ++ rest, IsItem item := List.forall_mem_append.mpr ⟨hfirst, hrest⟩
    obtain ⟨u, hu⟩ : ∃ u, ofItems table (TableItem.parseAll table first ++
        .column c reference :: TableItem.parseAll table rest) options = u := ⟨_, rfl⟩
    refine ⟨u.1, u.2, (TableItem.parseAll table first).flatMap columnsOf, c,
      (TableItem.parseAll table rest).flatMap columnsOf, ?_, ?_, ?_, ?_⟩
    · rw [parse?_column table options hitems ht.isItem hparse, hu]
    · rw [← hu, columns_ofItems]
    · obtain ⟨hprimary, hforeign⟩ := keys_ofItems table options (TableItem.parseAll table first)
        (TableItem.parseAll table rest) c reference
      have htable : u.1.name = table := by
        rw [← hu]
        exact ofItems_name table options _
      rw [hu] at hprimary
      rw [hu, ← htable] at hforeign
      exact ⟨hname, htype, hextra, ⟨reference, hrecorded, hforeign⟩, hprimary⟩
    · have hcolumn := ofItems_withColumn (c := c) (d := c.withExtra (ColumnClause.words ms')) table
        options (TableItem.parseAll table first) (TableItem.parseAll table rest) rfl rfl reference
      rw [hu] at hcolumn
      rw [parse?_column table options hitems ht'.isItem hparse', hcolumn]
  · intro before r behind t hbefore ht
    exact ht.parse_behind hbefore table

def plainType : WrittenType where
  head := "int"
  isToken := ⟨by decide, by decide⟩
  letter := rfl
  arguments := none
  opened := nofun
  attributes := ["UNSIGNED"]
  known := by decide

def requiredClause : ColumnClause := .notNull ⟨"NOT", by decide⟩ ⟨"NULL", by decide⟩

def hiddenClause : ColumnClause :=
  .word ⟨"INVISIBLE", ⟨by decide, by decide⟩, by decide, by decide, by decide⟩

def initialClause : ColumnClause := .default ⟨"default", by decide⟩ ⟨"'b c'", by decide, by decide⟩

/-- What is written as ``REFERENCES u (`id`) ON DELETE SET NULL``. -/
def parentClause : ReferenceClause where
  keyword := ⟨"REFERENCES", by decide⟩
  table := .bare "u" (by decide) (List.forall_mem_singleton.mpr (by decide))
  apart := true
  columns := [.quoted ⟨"id", by decide⟩]
  gap := []
  gap_blank := rfl
  onDelete := some .setNull
  onUpdate := none
  actions := ["ON", "DELETE", "SET", "NULL"]
  same := by decide

theorem columnText_flatMap (name : Text) (type : WrittenType) (ms : List ColumnClause) :
    ColumnText name type ms ([] ++ (Identifier.quoted '\x60' name ++
      (type.tokens ++ ms.flatMap ColumnClause.tokens).flatMap (' ' :: ·) ++ [])) :=
  .mk rfl rfl (.of_flatMap _)

/-- `NOT NULL` and an unknown word move behind the default. -/
theorem parse?_modifiers_moved :
    (∃ u notes before c after,
      parse? (createText "t" (join [','] ["k int",
          "`a` int UNSIGNED NOT NULL INVISIBLE default 'b c' REFERENCES u (`id`) ON DELETE SET NULL"])
        []) = some (u, notes) ∧
      u.columns = before ++ c :: after ∧
      u.Holds c "a" plainType
        [requiredClause, hiddenClause, initialClause, .references parentClause] ∧
      parse? (createText "t" (join [','] ["k int",
          "`a` int UNSIGNED default 'b c' NOT NULL INVISIBLE REFERENCES u (`id`) ON DELETE SET NULL"])
        []) = some (u.withColumns (before ++ c.withExtra ["INVISIBLE"] :: after), notes)) ∧
    ∃ reference, TableItem.parse "t"
        "`a` int UNSIGNED default 'b c' REFERENCES u (`id`) ON DELETE SET NULL NOT NULL" =
          .column { name := "a", type := "int UNSIGNED", default := some "'b c'" } (some reference) ∧
        reference.table = "u" ∧ reference.columns = ["id"] := by
  have hfirst : ∀ item ∈ [("k int" : Text)], IsItem item := by decide
  have hrest : ∀ item ∈ ([] : List Text), IsItem item := nofun
  have hmodifiers := parse?_modifiers "t" [] "a" plainType hfirst hrest
  have hperm := @List.perm_middle _ initialClause [requiredClause, hiddenClause]
    [.references parentClause]
  have hbefore : ColumnText "a" plainType
      [requiredClause, hiddenClause, initialClause, .references parentClause]
      "`a` int UNSIGNED NOT NULL INVISIBLE default 'b c' REFERENCES u (`id`) ON DELETE SET NULL" :=
    columnText_flatMap ..
  have hafter : ColumnText "a" plainType
      [initialClause, requiredClause, hiddenClause, .references parentClause]
      "`a` int UNSIGNED default 'b c' NOT NULL INVISIBLE REFERENCES u (`id`) ON DELETE SET NULL" :=
    columnText_flatMap ..
  have hbehind : ColumnText "a" plainType [initialClause, .references parentClause, requiredClause]
      "`a` int UNSIGNED default 'b c' REFERENCES u (`id`) ON DELETE SET NULL NOT NULL" :=
    columnText_flatMap ..
  constructor
  · exact hmodifiers.1 _ _ _ _ (by decide) hperm (by decide) (by decide) hbefore hafter
  · exact hmodifiers.2 [initialClause] parentClause [requiredClause] _ (by decide) hbehind

/-- `NOT NULL` behind a reference is lost, and nothing tells of it. -/
theorem parse?_modifiers_behind :
    ColumnClause.UsedOnce [.references parentClause, requiredClause] ∧
    [ColumnClause.references parentClause, requiredClause].Perm
      [requiredClause, .references parentClause] ∧
    ColumnText "a" plainType [.references parentClause, requiredClause]
      "`a` int UNSIGNED REFERENCES u (`id`) ON DELETE SET NULL NOT NULL" ∧
    ColumnText "a" plainType [requiredClause, .references parentClause]
      "`a` int UNSIGNED NOT NULL REFERENCES u (`id`) ON DELETE SET NULL" ∧
    (parse? "CREATE TABLE t (`a` int UNSIGNED REFERENCES u (`id`) ON DELETE SET NULL NOT NULL)").map
      (fun p => (p.1.columns.map (·.nullable), p.2)) = some ([true], []) ∧
    (parse? "CREATE TABLE t (`a` int UNSIGNED NOT NULL REFERENCES u (`id`) ON DELETE SET NULL)").map
      (fun p => (p.1.columns.map (·.nullable), p.2)) = some ([false], []) := by
  refine ⟨by decide, .swap .., ?_, ?_, by decide +kernel, by decide +kernel⟩
  · exact columnText_flatMap "a" plainType [.references parentClause, requiredClause]
  · exact columnText_flatMap "a" plainType [requiredClause, .references parentClause]

end Table

end SqlDump
