import SqlDump.Proofs.Text.Names
import SqlDump.Schema.Create

/-!
# Definitions of tables

A `CREATE TABLE` statement written from its parts: the name in backticks, a list of items in
parentheses and the options. The statement is read as the items one after another.

Main statements: `Table.parse?_createText`, the statement defines what its items define;
`TableItem.parseAll_join`, the items of a list are its texts.
-/

namespace SqlDump

open Text

/-- What can be one item of a list: its quotes and parentheses are closed, and no comma stands
outside them. -/
def IsItem (t : Text) : Prop := Shields (fun c => c == ',' || c == ')') t

instance (t : Text) : Decidable (IsItem t) := inferInstanceAs (Decidable (Shields _ t))

namespace IsItem

variable {t : Text}

theorem comma (h : IsItem t) : Shields (· == ',') t :=
  h.mono fun c hc => by rw [hc, Bool.true_or]

theorem parenthesis (h : IsItem t) : Shields (· == ')') t :=
  h.mono fun c hc => by rw [hc, Bool.or_true]

theorem blank (h : isBlank t = true) : IsItem t :=
  Shields.of_blank
    (fun _ => Unicode.of_isBlank (p := fun c => (c == ',' || c == ')') = false) (by decide)) h

/-- A list of items does not close the group that it stands in. -/
theorem join {ts : List Text} (h : ∀ t ∈ ts, IsItem t) : Shields (· == ')') (join [','] ts) :=
  Shields.join ⟨rfl, rfl⟩ fun t ht => (h t ht).parenthesis

/-- Behind semicolons the quotes and parentheses are closed only if they were before. -/
theorem closed_of_semicolons {v : Text} (hv : v.all (· == ';') = true) {n : Nesting}
    (hn : n.quoting.IsSound) (h : n.after v = {}) : n = {} := by
  induction v generalizing n with
  | nil => exact h
  | cons c v ih =>
    obtain ⟨hc, hv⟩ := Bool.and_eq_true_iff.mp hv
    obtain rfl := beq_iff_eq.mp hc
    have hstep : n.step ';' = {} := ih hv (hn.step ';') h
    obtain ⟨quoting, depth⟩ := n
    cases quoting with
    | outside => exact hstep
    | inside quote escaped =>
      have hquote : ';' ≠ quote := by
        rintro rfl
        cases hn
      have hinside : Quoting.step (.inside quote escaped) ';' = .inside quote false := by
        cases escaped with
        | true => rfl
        | false => simp [Quoting.step, hquote]
      have hquoting := congrArg Nesting.quoting hstep
      rw [Nesting.step, hinside] at hquoting
      cases hquoting

theorem isSound_after {n : Nesting} (hn : n.quoting.IsSound) (t : Text) :
    (n.after t).quoting.IsSound := by
  induction t generalizing n with
  | nil => exact hn
  | cons c t ih => exact ih (n := n.step c) (hn.step c)

/-- An item stays one without the semicolons at its end. -/
theorem trimEndWhile_semicolon (h : IsItem t) : IsItem (trimEndWhile (· == ';') t) := by
  obtain ⟨v, hv, ht⟩ := exists_trimEndWhile (· == ';') t
  have hhidden := h.hidden
  have hclosed := h.closed
  rw [ht, hides_append] at hhidden
  rw [ht, Nesting.after_append] at hclosed
  exact ⟨(Bool.and_eq_true_iff.mp hhidden).1,
    closed_of_semicolons hv (isSound_after (n := {}) trivial _) hclosed⟩

end IsItem

namespace TableItem

theorem parse_trim (table t : Text) : parse table (trim t) = parse table t := by
  rw [parse, trim_trim, parse]

/-- The items that texts are, blank texts left out. -/
def parseAll (table : Text) (texts : List Text) : List TableItem :=
  (texts.filter fun t => !(trim t).isEmpty).map (parse table)

theorem parseAll_append (table : Text) (texts more : List Text) :
    parseAll table (texts ++ more) = parseAll table texts ++ parseAll table more := by
  rw [parseAll, List.filter_append, List.map_append, parseAll, parseAll]

/-- A blank text is no item that is understood. -/
theorem trim_ne_nil {table text : Text} (h : parse table text ≠ .verbatim []) : trim text ≠ [] := by
  intro hnil
  rw [← parse_trim, hnil] at h
  exact h rfl

theorem parseAll_eq_map {table : Text} {texts : List Text}
    (h : ∀ t ∈ texts, parse table t ≠ .verbatim []) :
    parseAll table texts = texts.map (parse table) := by
  rw [parseAll, List.filter_eq_self.mpr]
  intro t ht
  have hne := trim_ne_nil (h t ht)
  simpa using hne

/-- The items of a list are its texts. -/
theorem parseAll_join (table : Text) {texts : List Text} (h : ∀ t ∈ texts, IsItem t) :
    (items (join [','] texts)).map (parse table) = parseAll table texts := by
  have hparse : parse table ∘ trim = parse table := funext fun t => parse_trim table t
  rw [items_join fun t ht => (h t ht).comma, List.filter_map, List.map_map, hparse]
  rfl

end TableItem

namespace Table

/-- The statement that defines a table of that name, `body` being the list of its items and
`options` what stands behind it. -/
def createText (name body options : Text) : Text :=
  "CREATE TABLE " ++ (Identifier.quoted '\x60' name ++ ' ' :: '(' :: (body ++ ')' :: options))

theorem createText_append (name body options rest : Text) :
    createText name body options ++ rest = createText name body (options ++ rest) := by
  unfold createText
  generalize ("CREATE TABLE " : Text) = keyword
  simp only [List.append_assoc, List.cons_append]

/-- The table that items and options define, and the notes on them. -/
def ofItems (name : Text) (tableItems : List TableItem) (options : Text) :
    Table × List Diagnostic :=
  let found := TableOption.parse options
  ({ tableItems.foldl addItem { name } with options := found.1 },
    tableItems.filterMap (itemNote? name) ++ found.1.filterMap (optionNote? name) ++
      (leftoverNote? name found.2).toList)

/-- The statement defines what its items define. -/
theorem parse?_createText (name options : Text) {body : Text}
    (hbody : Shields (· == ')') body) :
    parse? (createText name body options) =
      some (ofItems name ((items body).map (TableItem.parse name)) options) := by
  have hstart : Statement.bodyOf (createText name body options) = createText name body options :=
    Statement.bodyOf_eq_self (c := 'C') (by decide) (by decide) (by decide)
  have hhead : Statement.createHead? (createText name body options) =
      some (Identifier.quoted '\x60' name ++ ' ' :: '(' :: (body ++ ')' :: options)) := rfl
  have hname : Identifier.readQualified
      (Identifier.quoted '\x60' name ++ ' ' :: '(' :: (body ++ ')' :: options)) =
        (some name, ' ' :: '(' :: (body ++ ')' :: options)) := by
    refine Identifier.readQualified_quoted name (by simp) fun tail h => ?_
    have hopen : trimStart (' ' :: '(' :: (body ++ ')' :: options)) =
        '(' :: (body ++ ')' :: options) := rfl
    rw [hopen] at h
    cases h
  have hopen : trimStart (' ' :: '(' :: (body ++ ')' :: options)) =
      '(' :: (body ++ ')' :: options) := rfl
  have hgroup := group?_shields hbody options
  unfold parse?
  rw [hstart, hhead]
  simp only [Option.bind_eq_bind, Option.bind_some, hname, hopen, hgroup, ofItems]
  generalize TableOption.parse options = found
  rfl

/-- What a statement defines is what the items of its body define. -/
theorem exists_ofItems {statement : Text} {p : Table × List Diagnostic}
    (h : parse? statement = some p) : ∃ name body options,
      p = ofItems name ((items body).map (TableItem.parse name)) options := by
  unfold parse? at h
  obtain ⟨rest, -, h⟩ := Option.bind_eq_some_iff.mp h
  split at h
  · next name rest hname =>
    dsimp only at h
    split at h
    · cases h
    · obtain ⟨⟨body, after⟩, -, h⟩ := Option.bind_eq_some_iff.mp h
      exact ⟨name, body, after, (Option.some.inj h).symm⟩
  · cases h

/-- The statement with a list of items defines what these define. -/
theorem parse?_items (name options : Text) {texts : List Text} (h : ∀ t ∈ texts, IsItem t) :
    parse? (createText name (join [','] texts) options) =
      some (ofItems name (TableItem.parseAll name texts) options) := by
  rw [parse?_createText name options (IsItem.join h), TableItem.parseAll_join name h]

end Table

end SqlDump
