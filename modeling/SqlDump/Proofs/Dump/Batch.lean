import SqlDump.Document
import SqlDump.Proofs.Text.Names
import SqlDump.Proofs.Value.Bare

/-!
# Rows as a dump writes them

One `INSERT` for many rows of a table: names in backticks, quoted texts with their escapes, other
tokens as they are. The lexer ends the statement at its semicolon, and the rows are read back.

Main statements: `Batch.lexed`, the lexer is outside every span before the semicolon;
`Batch.parse_text`, the statement is the rows for the table.
-/

namespace SqlDump

open Text

/-- Rows for a table, as one statement gives them. -/
structure Batch where
  table : Text
  columns : Option (List Text)
  rows : List Row
  deriving DecidableEq, Repr

namespace Batch

def valueText : Value → Text
  | .null => "NULL"
  | .text s => '\x27' :: (escape s ++ ['\x27'])
  | .bare token => token

/-- The names of columns in parentheses, where they are given. -/
def columnText : Option (List Text) → Text
  | some columns => '(' :: (nameText columns ++ ')' :: [' '])
  | none => []

def rowsText (rows : List Row) : Text := join "," (rows.map (RowScan.rowText valueText))

/-- The statement without its semicolon. -/
def body (b : Batch) : Text :=
  "INSERT INTO " ++ (Identifier.quoted '\x60' b.table ++ ' ' :: (columnText b.columns ++
    ("VALUES" ++ ' ' :: rowsText b.rows)))

def text (b : Batch) : Text := b.body ++ [';']

/-- The rows as a reader of statements gives them. -/
def insert (b : Batch) : Insert where
  table := b.table
  columns := b.columns
  rows := b.rows
  trailing := none
  encoding := .utf8

/-- What can be written as one statement: there are rows and each has values, of which every token
may stand as it is. -/
structure IsWritable (b : Batch) : Prop where
  rows : b.rows ≠ []
  row : ∀ row ∈ b.rows, row ≠ []
  bare : ∀ row ∈ b.rows, ∀ token, .bare token ∈ row → IsBare token

/-- A value that can be written. -/
def IsWritableValue (v : Value) : Prop := ∀ token, v = .bare token → IsBare token

theorem IsWritable.value {b : Batch} (h : b.IsWritable) {row : Row} (hrow : row ∈ b.rows) {v : Value}
    (hv : v ∈ row) : IsWritableValue v := by
  rintro token rfl
  exact h.bare row hrow token hv

end Batch

namespace Scan

/-- Behind the text the lexer is outside every span. -/
def Lexes (t : Text) : Prop := ∃ s, (plain true).read t = some s ∧ s.Settled []

theorem Settled.read_cons {s : Scan} (h : s.Settled []) {c : Char} (hd : c ≠ '-') (hs : c ≠ '*')
    (t : Text) : s.read (c :: t) = (plain true).read (c :: t) := by
  have hc : s.Settled [c] := by
    obtain rfl | ⟨rfl, _⟩ | ⟨rfl, _⟩ := h
    · exact .inl rfl
    · exact .inr (.inl ⟨rfl, by simpa using hd⟩)
    · exact .inr (.inr ⟨rfl, by simpa using hs⟩)
  rw [← List.singleton_append, read_append, read_append, hc.read]

theorem Lexes.read_append {t : Text} (h : Lexes t) {c : Char} (hd : c ≠ '-') (hs : c ≠ '*')
    (u : Text) : (plain true).read (t ++ c :: u) = (plain true).read (c :: u) := by
  obtain ⟨s, hs', hsettled⟩ := h
  rw [read_append_of hs', hsettled.read_cons hd hs]

theorem lexes_of_read {t : Text} (h : (plain true).read t = some (.plain true)) : Lexes t :=
  ⟨_, h, .inl rfl⟩

/-- Texts with commas and blanks between them are followed one by one. -/
theorem lexes_join {sep : Text} (hsep : (',' :: sep).any isSpecial = false) {t : Text}
    {ts : List Text} (h : ∀ u ∈ t :: ts, Lexes u) : Lexes (join (',' :: sep) (t :: ts)) := by
  induction ts generalizing t with
  | nil => simpa [join, List.intercalate] using h t List.mem_cons_self
  | cons u ts ih =>
    obtain ⟨s, hs, hsettled⟩ := ih fun w hw => h w (List.mem_cons_of_mem t hw)
    have hjoin : join (',' :: sep) (t :: u :: ts) =
        t ++ ',' :: (sep ++ join (',' :: sep) (u :: ts)) := by
      simp [join, List.intercalate]
    refine ⟨s, ?_, hsettled⟩
    rw [hjoin, (h t List.mem_cons_self).read_append (by decide) (by decide), ← List.cons_append,
      read_append_of (read_plain_text hsep), hs]

end Scan

namespace Batch

theorem lexes_valueText {v : Value} (h : IsWritableValue v) : Scan.Lexes (valueText v) := by
  cases v with
  | null => exact Scan.lexes_of_read rfl
  | text s => exact Scan.lexes_of_read ((spelling_escape s).lexed (.inl rfl))
  | bare token => exact (h token rfl).lexed

theorem reads_valueText {v : Value} (h : IsWritableValue v) : OpenRow.Reads (valueText v) v := by
  cases v with
  | null =>
    intro r values hr rows position
    obtain ⟨start, nested, before, value, quote⟩ := r
    obtain ⟨rfl, rfl, rfl, rfl⟩ := hr
    exact ⟨_, _, rfl, .inl rfl, rfl, rfl, rfl, rfl⟩
  | text s => exact (spelling_escape s).reads (.inl rfl)
  | bare token => exact (h token rfl).reads

theorem lexes_rowText {row : Row} (hne : row ≠ []) (h : ∀ v ∈ row, IsWritableValue v) :
    (Scan.plain true).read (RowScan.rowText valueText row) = some (.plain true) := by
  obtain ⟨v, row, rfl⟩ := List.exists_cons_of_ne_nil hne
  have hvalues : Scan.Lexes (join [','] ((v :: row).map valueText)) := by
    refine Scan.lexes_join rfl fun u hu => ?_
    obtain ⟨w, hw, rfl⟩ := List.mem_map.mp (List.map_cons ▸ hu)
    exact lexes_valueText (h w hw)
  have hopen : (Scan.plain true).read ['('] = some (.plain true) := rfl
  unfold RowScan.rowText
  rw [Scan.read_cons_of hopen]
  exact hvalues.read_append (by decide) (by decide) []

theorem lexes_rowsText {rows : List Row} (hne : rows ≠ []) (hrow : ∀ row ∈ rows, row ≠ [])
    (h : ∀ row ∈ rows, ∀ v ∈ row, IsWritableValue v) : Scan.Lexes (rowsText rows) := by
  obtain ⟨row, rows, rfl⟩ := List.exists_cons_of_ne_nil hne
  refine Scan.lexes_join rfl fun u hu => ?_
  obtain ⟨w, hw, rfl⟩ := List.mem_map.mp (List.map_cons ▸ hu)
  exact Scan.lexes_of_read (lexes_rowText (hrow w hw) (h w hw))

theorem read_columnText (columns : Option (List Text)) :
    (Scan.plain true).read (columnText columns) = some (.plain true) := by
  have hopen : (Scan.plain true).read ['('] = some (.plain true) := rfl
  have hclose : (Scan.plain true).read [')', ' '] = some (.plain true) := rfl
  cases columns with
  | none => rfl
  | some columns =>
    unfold columnText
    rw [Scan.read_cons_of hopen]
    cases columns with
    | nil => exact hclose
    | cons name names =>
      have hnames : Scan.Lexes (join [',', ' '] ((name :: names).map (Identifier.quoted '\x60'))) := by
        refine Scan.lexes_join rfl fun u hu => ?_
        obtain ⟨n, _, rfl⟩ := List.mem_map.mp (List.map_cons ▸ hu)
        exact Scan.lexes_of_read (Scan.read_name n)
      exact (hnames.read_append (by decide) (by decide) [' ']).trans hclose

/-- Before the semicolon the lexer is outside every span. -/
theorem lexed {b : Batch} (h : b.IsWritable) : ∃ s, Scan.start.read b.body = some s ∧
    s.Settled [] := by
  obtain ⟨s, hs, hsettled⟩ := lexes_rowsText h.rows h.row fun row hrow v hv => h.value hrow hv
  have hhead : Scan.start.read "INSERT INTO " = some (.plain true) := rfl
  have hblank : (Scan.plain true).read [' '] = some (.plain true) := rfl
  have hvalues : (Scan.plain true).read "VALUES" = some (.plain true) := rfl
  refine ⟨s, ?_, hsettled⟩
  -- Outside every span behind each part, so the parts are followed one after another.
  unfold body
  rw [Scan.read_append_of hhead, Scan.read_append_of (Scan.read_name _), Scan.read_cons_of hblank,
    Scan.read_append_of (read_columnText _), Scan.read_append_of hvalues, Scan.read_cons_of hblank,
    hs]

/-- The lexer ends the statement at its semicolon. -/
theorem cut_text {b : Batch} (h : b.IsWritable) {lead : Octets}
    (hlead : Scan.start.feed lead = some .start) (rest : Octets) :
    Scan.start.cut [] (lead ++ (Octets.ofText b.text ++ rest)) =
      ⟨lead ++ Octets.ofText b.text, true, rest⟩ := by
  obtain ⟨s, hs, hsettled⟩ := lexed h
  have hfeed : Scan.start.feed (lead ++ Octets.ofText b.body) = some s := by
    rw [Scan.feed_append, hlead, Option.bind_some, ← hs, Scan.read]
  have hend : s.step Scan.semicolon = none := by
    obtain rfl | ⟨rfl, _⟩ | ⟨rfl, _⟩ := hsettled <;> rfl
  have htext : lead ++ (Octets.ofText b.text ++ rest) =
      (lead ++ Octets.ofText b.body) ++ Scan.semicolon :: rest := by
    rw [text, Octets.ofText_append, List.append_assoc, List.append_assoc]
    rfl
  rw [htext, Scan.cut_of_feed hfeed]
  simp only [Scan.cut, hend, List.append_nil, List.reverse_cons, List.reverse_reverse]
  rw [text, Octets.ofText_append, List.append_assoc]
  rfl

/-- The rows are read up to the semicolon. -/
theorem parsedRows_text {b : Batch} (h : b.IsWritable) :
    ∃ consumed, ParsedRows.ofText (' ' :: (rowsText b.rows ++ [';'])) =
      ⟨b.rows, consumed, [';'], none⟩ := by
  obtain ⟨row, rows, hrows⟩ := List.exists_cons_of_ne_nil h.rows
  have hne := h.row
  have hreads : ∀ r ∈ b.rows, ∀ v ∈ r, OpenRow.Reads (valueText v) v :=
    fun r hr v hv => reads_valueText (h.value hr hv)
  rw [hrows] at hne hreads ⊢
  obtain ⟨behind, hrun⟩ := RowScan.run_rows hne hreads [] (0 + ' '.utf8Size)
  have hblank : ({} : RowScan).step ' ' = some ⟨[], none, 0 + ' '.utf8Size⟩ := rfl
  have hstop : ∀ done, (⟨done, none, behind⟩ : RowScan).run [';'] =
      (⟨done, none, behind⟩, [';']) := fun _ => rfl
  refine ⟨behind, ?_⟩
  unfold ParsedRows.ofText rowsText
  simp only [RowScan.run, hblank]
  rw [RowScan.run_append _ _ _ (by rw [hrun]), hrun, hstop]
  simp

/-- What stands behind the name of the table, without the blank between. -/
def tail (b : Batch) : Text :=
  columnText b.columns ++ ("VALUES" ++ ' ' :: (rowsText b.rows ++ [';']))

theorem text_eq (b : Batch) :
    b.text = "INSERT INTO " ++ (Identifier.quoted '\x60' b.table ++ ' ' :: b.tail) := by
  unfold text body tail
  simp only [List.append_assoc, List.cons_append]

theorem trimStart_tail (b : Batch) : trimStart (' ' :: b.tail) = b.tail := by
  unfold tail
  cases b.columns <;> rfl

theorem tail_of_none {b : Batch} (h : b.columns = none) :
    startsWith "(" b.tail = false ∧ b.tail = "VALUES" ++ ' ' :: (rowsText b.rows ++ [';']) := by
  unfold tail
  rw [h]
  exact ⟨rfl, rfl⟩

theorem tail_of_some {b : Batch} {columns : List Text} (h : b.columns = some columns) :
    startsWith "(" b.tail = true ∧ group? b.tail =
      some (nameText columns, ' ' :: ("VALUES" ++ ' ' :: (rowsText b.rows ++ [';']))) := by
  have hgroup := group?_names columns (' ' :: ("VALUES" ++ ' ' :: (rowsText b.rows ++ [';'])))
  unfold tail
  rw [h]
  simp only [columnText, List.cons_append, List.append_assoc, List.nil_append]
  exact ⟨rfl, hgroup⟩

theorem bodyOf_text (b : Batch) : Statement.bodyOf b.text = b.text :=
  Statement.bodyOf_eq_self (c := 'I') (by decide) (by decide) (by decide)

theorem insertHead?_text (b : Batch) : Statement.insertHead? b.text =
    some (Identifier.quoted '\x60' b.table ++ ' ' :: b.tail) := by
  rw [text_eq]
  rfl

theorem readQualified_tail (b : Batch) :
    Identifier.readQualified (Identifier.quoted '\x60' b.table ++ ' ' :: b.tail) =
      (some b.table, ' ' :: b.tail) := by
  refine Identifier.readQualified_quoted _ (by simp) ?_
  rw [trimStart_tail]
  unfold tail
  cases b.columns <;> simp [columnText]

theorem insertParse_text {b : Batch} (h : b.IsWritable) :
    Insert.parse? b.text = some (b.insert, none) := by
  obtain ⟨consumed, hrows⟩ := parsedRows_text h
  have hvalues : ∀ t, Insert.valuesKeyword? ("VALUES" ++ ' ' :: t) = some (' ' :: t) :=
    fun _ => rfl
  have hclause : Insert.clause? [';'] = none := rfl
  have hblank : trimStart (' ' :: ("VALUES" ++ ' ' :: (rowsText b.rows ++ [';']))) =
      "VALUES" ++ ' ' :: (rowsText b.rows ++ [';']) := rfl
  unfold Insert.parse?
  rw [bodyOf_text, insertHead?_text]
  simp only [Option.bind_eq_bind, Option.bind_some, readQualified_tail, trimStart_tail]
  cases hc : b.columns with
  | none =>
    obtain ⟨hopen, htail⟩ := tail_of_none hc
    rw [if_neg (Bool.eq_false_iff.mp hopen), htail, hvalues]
    simp only [Option.bind_some, hrows, hclause, insert, hc]
    rfl
  | some columns =>
    obtain ⟨hopen, hgroup⟩ := tail_of_some hc
    rw [if_pos hopen, hgroup]
    simp only [Option.map_some, Option.bind_some, nameList_nameText, hblank, hvalues, hrows, hclause,
      insert, hc]
    rfl

theorem classify_text (b : Batch) : Statement.classify b.text = (.insert, b.table) := by
  have hplain : (b.text.isEmpty || startsWith "/*!" b.text) = false := by
    rw [text_eq]
    rfl
  have hcreate : Statement.createHead? b.text = none := by
    rw [text_eq]
    rfl
  have hhead : Statement.tableHead? b.text =
      some (.insert, Identifier.quoted '\x60' b.table ++ ' ' :: b.tail) := by
    simp only [Statement.tableHead?, List.findSome?, Statement.head?, hcreate, insertHead?_text,
      Option.map_none, Option.map_some]
  have hname : Identifier.tableName? (Identifier.quoted '\x60' b.table ++ ' ' :: b.tail) =
      some b.table :=
    congrArg Prod.fst (readQualified_tail b)
  unfold Statement.classify
  rw [bodyOf_text]
  simp only [hplain, Bool.false_eq_true, if_false, hhead, hname, Option.getD_some]

/-- The statement is the rows for the table, with nothing to note. -/
theorem parse_text {b : Batch} (h : b.IsWritable) :
    Statement.parse b.text true = (.insert b.insert, []) := by
  unfold Statement.parse
  rw [classify_text]
  simp only [Bool.not_true, Bool.false_eq_true, if_false, insertParse_text h, Option.map_none,
    Option.toList_none]

end Batch

end SqlDump
