import SqlDump.Postgres.Script
import SqlDump.Proofs.Postgres.Constraints
import SqlDump.Proofs.Postgres.Statement

/-!
# Foreign keys in the text of a script

A foreign key is written as a constraint: a line of the `CREATE TABLE` of its table, or the one
clause of an `ALTER TABLE`. Here the constraint is read by the grammar of PostgreSQL, over its
tokens, and so is the `ALTER TABLE`. Of a `CREATE TABLE`, whose lines can hold any text of the dump,
it is told which lines are foreign keys.

Main statements: `ForeignKey.ofLine?_render`, `ForeignKey.ofAddition?_text`, what is written for a
foreign key is read back as it; `creates_text`, a `CREATE TABLE` has a line for each of its foreign
keys.
-/

namespace SqlDump.Postgres

open Text

/-- The keywords of an action, as tokens. -/
def actionTokens : ReferentialAction → List Token
  | .restrict => [.keyword "restrict"]
  | .cascade => [.keyword "cascade"]
  | .setNull => [.keyword "set", .keyword "null"]
  | .setDefault => [.keyword "set", .keyword "default"]
  | .noAction => [.keyword "no", .keyword "action"]

/-- The action at the start of tokens, and what follows. -/
def action? (ts : List Token) : Option (ReferentialAction × List Token) :=
  [ReferentialAction.restrict, .cascade, .setNull, .setDefault, .noAction].findSome? fun action =>
    ((actionTokens action).isPrefixOf? ts).map (action, ·)

/-- The action on an event, if there is a clause for it, and what follows. -/
def actionOn? (event : String) (ts : List Token) :
    Option (Option ReferentialAction × List Token) :=
  match [Token.keyword "on", .keyword event].isPrefixOf? ts with
  | some ts => (action? ts).map fun (action, ts) => (some action, ts)
  | none => some (none, ts)

end SqlDump.Postgres

namespace SqlDump.ForeignKey

open Postgres Text
open InsertStatement (isPrefixOf?_append)

/-- The foreign key of the table `owner` whose constraint the tokens begin with, and what
follows. -/
def ofTokens? (owner : Text) (ts : List Token) : Option (ForeignKey × List Token) := do
  let .name name :: ts ← [Token.keyword "constraint"].isPrefixOf? ts | none
  let ts ← [Token.keyword "foreign", .keyword "key"].isPrefixOf? ts
  let (columns, ts) ← group? Token.name? ts
  let .name referencedTable :: ts ← [Token.keyword "references"].isPrefixOf? ts | none
  let (referencedColumns, ts) ← group? Token.name? ts
  let (onDelete, ts) ← actionOn? "delete" ts
  let (onUpdate, ts) ← actionOn? "update" ts
  return ({ name, table := owner, columns, referencedTable, referencedColumns, onDelete, onUpdate },
    ts)

/-- The foreign key that a line of the `CREATE TABLE` of `owner` is. -/
def ofLine? (owner t : Text) : Option ForeignKey := do
  let (key, []) ← ofTokens? owner (← tokens? t) | none
  return key

/-- The foreign key that an `ALTER TABLE` adds, and nothing else. -/
def ofAddition? (t : Text) : Option ForeignKey := do
  let .name owner :: ts ← [Token.keyword "alter", .keyword "table"].isPrefixOf? (← tokens? t) | none
  let ts ← [Token.keyword "add"].isPrefixOf? ts
  let (key, [.mark ';']) ← ofTokens? owner ts | none
  return key

/-! ### The tokens of a constraint -/

def groupTokens (names : List Text) : List Token :=
  .mark '(' :: (commas (names.map fun c => [.name c]) ++ [.mark ')'])

def clauseTokens (event : String) : Option ReferentialAction → List Token
  | some action => .keyword "on" :: .keyword event :: actionTokens action
  | none => []

def tokens (key : ForeignKey) : List Token :=
  .keyword "constraint" :: .name key.name :: .keyword "foreign" :: .keyword "key" ::
    (groupTokens key.columns ++ .keyword "references" :: .name key.referencedTable ::
      (groupTokens key.referencedColumns ++ clauseTokens "delete" key.onDelete ++
        clauseTokens "update" key.onUpdate))

theorem isPrefixOf?_of_head {t : Token} {start ts : List Token} (h : ts.head? ≠ some t) :
    (t :: start).isPrefixOf? ts = none := by
  cases ts with
  | nil => rfl
  | cons first ts =>
    refine if_neg fun hfirst => h ?_
    rw [List.head?_cons, beq_iff_eq.mp hfirst]

theorem action?_tokens (action : ReferentialAction) (rest : List Token) :
    action? (actionTokens action ++ rest) = some (action, rest) := by
  cases action <;> rfl

/-- Where tokens do not go on with the clause for an event, there is none. -/
theorem actionOn?_none {event : String} {ts : List Token}
    (h : [Token.keyword "on", .keyword event].isPrefixOf? ts = none) :
    actionOn? event ts = some (none, ts) := by
  rw [actionOn?, h]

theorem actionOn?_tokens {event : String} (action : Option ReferentialAction) {rest : List Token}
    (h : [Token.keyword "on", .keyword event].isPrefixOf? rest = none) :
    actionOn? event (clauseTokens event action ++ rest) = some (action, rest) := by
  cases action with
  | none => exact actionOn?_none h
  | some action =>
    have hevent := isPrefixOf?_append [.keyword "on", .keyword event] (actionTokens action ++ rest)
    simp only [List.cons_append, List.nil_append] at hevent
    simp only [actionOn?, clauseTokens, List.cons_append, hevent, action?_tokens, Option.map_some]

theorem group?_tokens (names : List Text) (rest : List Token) :
    group? Token.name? (groupTokens names ++ rest) = some (names, rest) := by
  have hgroup := group?_commas Token.name (fun _ => (rfl : Token.name? _ = _)) (fun _ => rfl)
    names rest
  simpa [groupTokens] using hgroup

/-- The tokens of a constraint are those of the key, where no clause for an event follows. -/
theorem ofTokens?_tokens (key : ForeignKey) (owner : Text) {rest : List Token}
    (hrest : rest.head? ≠ some (.keyword "on")) :
    ofTokens? owner (key.tokens ++ rest) = some ({ key with table := owner }, rest) := by
  have hafter {event : String} : [Token.keyword "on", .keyword event].isPrefixOf? rest = none :=
    isPrefixOf?_of_head hrest
  have hupdate : actionOn? "update" (clauseTokens "update" key.onUpdate ++ rest) =
      some (key.onUpdate, rest) :=
    actionOn?_tokens key.onUpdate hafter
  have hdelete : actionOn? "delete"
      (clauseTokens "delete" key.onDelete ++ (clauseTokens "update" key.onUpdate ++ rest)) =
        some (key.onDelete, clauseTokens "update" key.onUpdate ++ rest) := by
    refine actionOn?_tokens key.onDelete ?_
    cases key.onUpdate with
    | none => exact hafter
    | some action => rfl
  have hconstraint := isPrefixOf?_append [.keyword "constraint"] (.name key.name ::
    .keyword "foreign" :: .keyword "key" :: (groupTokens key.columns ++
      .keyword "references" :: .name key.referencedTable :: (groupTokens key.referencedColumns ++
        (clauseTokens "delete" key.onDelete ++ (clauseTokens "update" key.onUpdate ++ rest)))))
  have hforeign := isPrefixOf?_append [.keyword "foreign", .keyword "key"]
    (groupTokens key.columns ++ .keyword "references" :: .name key.referencedTable ::
      (groupTokens key.referencedColumns ++ (clauseTokens "delete" key.onDelete ++
        (clauseTokens "update" key.onUpdate ++ rest))))
  have hreferences := isPrefixOf?_append [.keyword "references"] (.name key.referencedTable ::
    (groupTokens key.referencedColumns ++ (clauseTokens "delete" key.onDelete ++
      (clauseTokens "update" key.onUpdate ++ rest))))
  simp only [List.cons_append, List.nil_append] at hconstraint hforeign hreferences
  simp only [ofTokens?, tokens, List.cons_append, List.append_assoc, hconstraint, hforeign,
    group?_tokens, hreferences, hdelete, hupdate, Option.bind_eq_bind, Option.bind_some,
    Option.pure_def]

/-! ### The text of a constraint -/

theorem tokens?_names (names : List Text) (rest : Text) :
    tokens? ('(' :: (quoteNames names ++ ')' :: rest)) =
      (tokens? rest).map (groupTokens names ++ ·) := by
  have hnames := tokens?_join quoteName (fun c => [.name c]) (fun c _ => tokens?_quoteName c)
    (rfl : Token.isBlank ' ' = true) names (rfl : Token.isBorder (')' :: rest) = true)
  rw [tokens?_mark rfl, quoteNames, show (", " : Text) = [',', ' '] from rfl, hnames,
    tokens?_mark rfl]
  simp [groupTokens, Function.comp_def]

theorem tokens?_action (action : ReferentialAction) {rest : Text}
    (h : Token.isBorder rest = true) :
    tokens? (action.keywords ++ rest) = (tokens? rest).map (actionTokens action ++ ·) := by
  have hone (word : Text) (hne : word ≠ []) (hall : word.all Char.isAlpha = true) :
      tokens? (word ++ rest) = (tokens? rest).map ([.word (asciiLower word)] ++ ·) :=
    tokens?_word hne hall h
  have htwo (first second : Text) (hfirst : first ≠ []) (hsecond : second ≠ [])
      (hall : first.all Char.isAlpha = true) (hrest : second.all Char.isAlpha = true) :
      tokens? (first ++ ' ' :: (second ++ rest)) =
        (tokens? rest).map ([.word (asciiLower first), .word (asciiLower second)] ++ ·) := by
    rw [tokens?_keyword first ' ' hfirst hall rfl, hone second hsecond hrest, Option.map_map]
    rfl
  cases action with
  | restrict => exact hone "RESTRICT" (by decide) rfl
  | cascade => exact hone "CASCADE" (by decide) rfl
  | setNull => exact htwo "SET" "NULL" (by decide) (by decide) rfl rfl
  | setDefault => exact htwo "SET" "DEFAULT" (by decide) (by decide) rfl rfl
  | noAction => exact htwo "NO" "ACTION" (by decide) (by decide) rfl rfl

/-- What is written for the action on an event. -/
def clauseText (event : Text) : Option ReferentialAction → Text
  | some action => " ON " ++ event ++ " " ++ action.keywords
  | none => []

theorem isBorder_clauseText (event : Text) (action : Option ReferentialAction) {rest : Text}
    (h : Token.isBorder rest = true) : Token.isBorder (clauseText event action ++ rest) = true := by
  cases action with
  | none => exact h
  | some action => rfl

theorem tokens?_clauseText (event : Text) (letters : String) (hne : event ≠ [])
    (hall : event.all Char.isAlpha = true) (hletters : asciiLower event = letters.toList)
    (action : Option ReferentialAction) {rest : Text} (h : Token.isBorder rest = true) :
    tokens? (clauseText event action ++ rest) =
      (tokens? rest).map (clauseTokens letters action ++ ·) := by
  cases action with
  | none => simp [clauseText, clauseTokens]
  | some action =>
    have htext : clauseText event (some action) ++ rest =
        ' ' :: (("ON" : Text) ++ ' ' :: (event ++ ' ' :: (action.keywords ++ rest))) := by
      have hon : (" ON " : Text) = ' ' :: (("ON" : Text) ++ [' ']) := rfl
      have hblank : (" " : Text) = [' '] := rfl
      unfold clauseText
      rw [hon, hblank]
      simp only [List.append_assoc, List.cons_append, List.nil_append]
    rw [htext, tokens?_blank rfl, tokens?_keyword "ON" ' ' (by decide) rfl rfl,
      tokens?_keyword event ' ' hne hall rfl, tokens?_action action h, hletters, Option.map_map,
      Option.map_map]
    rfl

theorem renderForeignKey_clauses (key : ForeignKey) (rest : Text) :
    renderForeignKey key ++ rest = "CONSTRAINT" ++ ' ' :: (quoteName key.name ++
      ' ' :: (("FOREIGN" : Text) ++ ' ' :: (("KEY" : Text) ++ ' ' :: '(' ::
        (quoteNames key.columns ++ ')' :: ' ' :: (("REFERENCES" : Text) ++ ' ' ::
          (quoteName key.referencedTable ++ ' ' :: '(' :: (quoteNames key.referencedColumns ++
            ')' :: (clauseText "DELETE" key.onDelete ++
              (clauseText "UPDATE" key.onUpdate ++ rest))))))))) := by
  have hhead : ("CONSTRAINT " : Text) = "CONSTRAINT" ++ [' '] := rfl
  have hforeign : (" FOREIGN KEY (" : Text) =
      ' ' :: (("FOREIGN" : Text) ++ ' ' :: (("KEY" : Text) ++ [' ', '('])) := rfl
  have hreferences : (") REFERENCES " : Text) =
      ')' :: ' ' :: (("REFERENCES" : Text) ++ [' ']) := rfl
  have hopen : (" (" : Text) = [' ', '('] := rfl
  have hclose : (")" : Text) = [')'] := rfl
  have htext : renderForeignKey key = "CONSTRAINT " ++ quoteName key.name ++ " FOREIGN KEY (" ++
      quoteNames key.columns ++ ") REFERENCES " ++ quoteName key.referencedTable ++ " (" ++
      quoteNames key.referencedColumns ++ ")" ++ clauseText "DELETE" key.onDelete ++
      clauseText "UPDATE" key.onUpdate := by
    unfold renderForeignKey
    cases key.onDelete <;> cases key.onUpdate <;> rfl
  rw [htext, hhead, hforeign, hreferences, hopen, hclose]
  simp only [List.append_assoc, List.cons_append, List.nil_append]

theorem tokens?_renderForeignKey (key : ForeignKey) {rest : Text}
    (h : Token.isBorder rest = true) :
    tokens? (renderForeignKey key ++ rest) = (tokens? rest).map (key.tokens ++ ·) := by
  have hupdate := tokens?_clauseText "UPDATE" "update" (by decide) rfl rfl
    key.onUpdate h
  have hdelete := tokens?_clauseText "DELETE" "delete" (by decide) rfl rfl
    key.onDelete (isBorder_clauseText "UPDATE" key.onUpdate h)
  rw [renderForeignKey_clauses, tokens?_keyword "CONSTRAINT" ' ' (by decide) rfl rfl,
    tokens?_quoteName key.name rfl, tokens?_blank rfl,
    tokens?_keyword "FOREIGN" ' ' (by decide) rfl rfl,
    tokens?_keyword "KEY" ' ' (by decide) rfl rfl, tokens?_names, tokens?_blank rfl,
    tokens?_keyword "REFERENCES" ' ' (by decide) rfl rfl, tokens?_quoteName key.referencedTable rfl,
    tokens?_blank rfl, tokens?_names, hdelete, hupdate]
  simp [tokens, Token.keyword, asciiLower, Function.comp_def]

/-- A line for a foreign key is read back as it, a key of the table that is created. -/
theorem ofLine?_render (key : ForeignKey) (owner : Text) :
    ofLine? owner (renderForeignKey key) = some { key with table := owner } := by
  have htokens : tokens? (renderForeignKey key ++ []) = (tokens? []).map (key.tokens ++ ·) :=
    tokens?_renderForeignKey key rfl
  have hread : ofTokens? owner (key.tokens ++ []) = some ({ key with table := owner }, []) :=
    ofTokens?_tokens key owner (by simp)
  rw [List.append_nil] at hread
  rw [List.append_nil, tokens?_nil, Option.map_some, List.append_nil] at htokens
  simp only [ofLine?, htokens, hread, Option.bind_eq_bind, Option.bind_some, Option.pure_def]

/-- An `ALTER TABLE` for a foreign key is read back as it. -/
theorem ofAddition?_text (key : ForeignKey) :
    ofAddition? (Part.foreignKey key).text = some key := by
  have htext : (Part.foreignKey key).text = ("ALTER" : Text) ++ ' ' :: (("TABLE" : Text) ++ ' ' ::
      (quoteName key.table ++ ' ' :: (("ADD" : Text) ++ ' ' ::
        (renderForeignKey key ++ [';', '\n', '\n'])))) := by
    have hprinted : (Part.foreignKey key).text = renderAddForeignKey key ++ "\n\n" := rfl
    have hhead : ("ALTER TABLE " : Text) = "ALTER" ++ ' ' :: (("TABLE" : Text) ++ [' ']) := rfl
    have hadd : (" ADD " : Text) = ' ' :: (("ADD" : Text) ++ [' ']) := rfl
    have hend : (";" : Text) ++ "\n\n" = [';', '\n', '\n'] := rfl
    rw [hprinted]
    unfold renderAddForeignKey
    rw [hhead, hadd, List.append_assoc _ (";" : Text), hend]
    simp only [List.append_assoc, List.cons_append, List.nil_append]
  have htokens : tokens? (Part.foreignKey key).text =
      some (.keyword "alter" :: .keyword "table" :: .name key.table :: .keyword "add" ::
        (key.tokens ++ [.mark ';'])) := by
    rw [htext, tokens?_keyword "ALTER" ' ' (by decide) rfl rfl,
      tokens?_keyword "TABLE" ' ' (by decide) rfl rfl, tokens?_quoteName key.table rfl,
      tokens?_blank rfl, tokens?_keyword "ADD" ' ' (by decide) rfl rfl,
      tokens?_renderForeignKey key rfl, tokens?_mark rfl, tokens?_blank rfl, tokens?_blank rfl,
      tokens?_nil]
    rfl
  have hhead := isPrefixOf?_append [.keyword "alter", .keyword "table"]
    (.name key.table :: .keyword "add" :: (key.tokens ++ [.mark ';']))
  have hadd := isPrefixOf?_append [.keyword "add"] (key.tokens ++ [.mark ';'])
  have hread : ofTokens? key.table (key.tokens ++ [.mark ';']) = some (key, [.mark ';']) :=
    ofTokens?_tokens key key.table (by simp [Token.keyword])
  simp only [List.cons_append, List.nil_append] at hhead hadd
  simp only [ofAddition?, htokens, hhead, hadd, hread, Option.bind_eq_bind, Option.bind_some,
    Option.pure_def]

/-! ### Lines that are no foreign keys -/

variable {owner : Text}

theorem ofTokens?_of_head {ts : List Token} (h : ts.head? ≠ some (.keyword "constraint")) :
    ofTokens? owner ts = none := by
  simp only [ofTokens?, isPrefixOf?_of_head h, Option.bind_eq_bind, Option.bind_none]

theorem ofLine?_of_tokens {t rest : Text} {token : Token} (hne : token ≠ .keyword "constraint")
    (h : tokens? t = (tokens? rest).map (token :: ·)) : ofLine? owner t = none := by
  rw [ofLine?, h]
  cases tokens? rest with
  | none => rfl
  | some ts =>
    have hread : ofTokens? owner (token :: ts) = none := ofTokens?_of_head (by simpa using hne)
    simp only [Option.map_some, Option.bind_eq_bind, Option.bind_some, hread, Option.bind_none]

/-- The line of a column begins with its name. -/
theorem ofLine?_column (item : ColumnItem) : ofLine? owner item.render = none := by
  have hblank : (" " : Text) = [' '] := rfl
  unfold ColumnItem.render
  rw [hblank]
  simp only [List.append_assoc, List.cons_append, List.nil_append]
  exact ofLine?_of_tokens (by simp [Token.keyword]) (tokens?_quoteName item.name rfl)

theorem ofLine?_primaryKey (columns : List Text) :
    ofLine? owner (CreateItem.primaryKey columns).render = none :=
  ofLine?_of_tokens (by decide)
    (tokens?_keyword "PRIMARY" ' ' (by decide) rfl rfl ("KEY (" ++ quoteNames columns ++ ")"))

/-- The line of a unique key is a constraint of another kind. -/
theorem ofLine?_unique (name : Text) (columns : List Text) :
    ofLine? owner (CreateItem.unique name columns).render = none := by
  have htext : (CreateItem.unique name columns).render = ("CONSTRAINT" : Text) ++ ' ' ::
      (quoteName name ++ ' ' :: (("UNIQUE" : Text) ++ ' ' ::
        '(' :: (quoteNames columns ++ ')' :: []))) := by
    have hhead : ("CONSTRAINT " : Text) = "CONSTRAINT" ++ [' '] := rfl
    have hunique : (" UNIQUE (" : Text) = ' ' :: (("UNIQUE" : Text) ++ [' ', '(']) := rfl
    have hclose : (")" : Text) = [')'] := rfl
    unfold CreateItem.render
    dsimp only
    rw [hhead, hunique, hclose]
    simp only [List.append_assoc, List.cons_append, List.nil_append]
  have htokens : tokens? (CreateItem.unique name columns).render =
      some (.keyword "constraint" :: .name name :: .keyword "unique" :: groupTokens columns) := by
    rw [htext, tokens?_keyword "CONSTRAINT" ' ' (by decide) rfl rfl, tokens?_quoteName name rfl,
      tokens?_blank rfl, tokens?_keyword "UNIQUE" ' ' (by decide) rfl rfl, tokens?_names,
      tokens?_nil, Option.map_some, List.append_nil]
    rfl
  rw [ofLine?, htokens]
  rfl

end SqlDump.ForeignKey

namespace SqlDump.Postgres

open Text

/-! ### The statement that creates a table -/

/-- A text creates a table with the given foreign keys. It has lines of which none is a foreign key,
for columns, the primary key and unique keys, then a line for each of the foreign keys, and then the
items of the table that are passed through. -/
def Creates (sql : Text) (t : Table) (keys : List ForeignKey) : Prop :=
  ∃ before lines : List Text,
    sql = "CREATE TABLE " ++ quoteName t.name ++ " (\n    " ++
      join ",\n    " (before ++ lines ++ (t.checks ++ t.verbatim).map requote) ++ "\n);\n\n" ∧
    (∀ line ∈ before, ForeignKey.ofLine? t.name line = none) ∧
    lines.map (ForeignKey.ofLine? t.name) = keys.map fun key => some { key with table := t.name }

theorem creates_text (t : Table) (flags : List Bool) :
    Creates (Part.create (.ofTable t flags)).text t (flaggedKeys t flags) := by
  refine ⟨(t.columns.map (ColumnItem.ofColumn t)).map ColumnItem.render ++
    (separateKey? t).toList.map (fun names => (CreateItem.primaryKey names).render) ++
    t.uniqueKeys.map (fun key => (CreateItem.unique (uniqueName t.name key) key.columns).render),
    (flaggedKeys t flags).map renderForeignKey, ?_, ?_, ?_⟩
  · have htext : (Part.create (.ofTable t flags)).text =
        (CreateTable.ofTable t flags).render ++ "\n\n" := rfl
    have hend : ("\n);" : Text) ++ "\n\n" = "\n);\n\n" := rfl
    have hname : (CreateTable.ofTable t flags).name = t.name := rfl
    rw [htext]
    unfold CreateTable.render
    rw [List.append_assoc _ ("\n);" : Text), hend, render_items, hname, flaggedKeys_eq,
      List.map_append, ← List.append_assoc _ (t.checks.map requote)]
    rfl
  · intro line hline
    rcases List.mem_append.mp hline with hline | hunique
    · rcases List.mem_append.mp hline with hcolumn | hprimary
      · obtain ⟨item, -, rfl⟩ := List.mem_map.mp hcolumn
        exact ForeignKey.ofLine?_column item
      · obtain ⟨columns, -, rfl⟩ := List.mem_map.mp hprimary
        exact ForeignKey.ofLine?_primaryKey columns
    · obtain ⟨key, -, rfl⟩ := List.mem_map.mp hunique
      exact ForeignKey.ofLine?_unique _ _
  · rw [List.map_map]
    exact List.map_congr_left fun key _ => ForeignKey.ofLine?_render key t.name

end SqlDump.Postgres
