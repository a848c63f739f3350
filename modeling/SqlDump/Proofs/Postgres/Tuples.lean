import SqlDump.Proofs.Postgres.Statement

/-!
# Tuples of expressions

An `INSERT ... VALUES` whose values are any expressions, taken apart by the quotes and parentheses
of PostgreSQL: a comma that stands in neither ends a value, and a parenthesis that closes nothing
ends a tuple. The values are given as they are written. The reader is strict. Outside quotes it
takes no comment, no semicolon, no dollar and no backslash, and no string whose prefix gives a
backslash in it a meaning.

Main statements: `Tuples.read?_rows`, tuples of expressions are read back value by value;
`InsertRows.read?_text`, so is an `INSERT` of them.
-/

namespace SqlDump.Postgres

open Text

/-! ### Expressions -/

/-- What the next character of an expression stands in. -/
inductive Within where
  /-- So many open parentheses. -/
  | parentheses (depth : Nat)
  /-- A string or a name in quotes, in so many open parentheses. -/
  | quotes (quote : Char) (depth : Nat)
  deriving DecidableEq, Repr

namespace Within

/-- Whether a quote behind the character opens a string or name with escapes, `E'...'` or
`U&'...'`. -/
def escapes (c : Char) : Bool := c == 'E' || c == 'e' || c == '&'

/-- Whether a character outside quotes ends the statement or hides what follows it; `before` is the
character before it. -/
def breaks (before : Option Char) (c : Char) : Bool :=
  c == ';' || c == '$' || c == '\\' || (before == some '-' && c == '-') ||
    (before == some '/' && c == '*')

/-- What the character behind `c` stands in; nothing where an expression does not go on with `c`. -/
def step? (w : Within) (before : Option Char) (c : Char) : Option Within :=
  match w with
  | .quotes quote depth => some (if c = quote then .parentheses depth else w)
  | .parentheses depth =>
    if c = '\x27' ∨ c = '\x22' then
      if before.any escapes then none else some (.quotes c depth)
    else if c = '(' then some (.parentheses (depth + 1))
    else if c = ')' then if depth = 0 then none else some (.parentheses (depth - 1))
    else if c = ',' then if depth = 0 then none else some w
    else if breaks before c then none
    else some w

/-- Whether the rest of a text leaves no quote and no parenthesis open; `done` is what stands before
it, in reverse. -/
def closes (w : Within) (done : Text) : Text → Bool
  | [] => w == .parentheses 0
  | c :: rest => (w.step? done.head? c).any fun w => w.closes (c :: done) rest

theorem closes_cons {w u : Within} {done : Text} {c : Char} (h : w.step? done.head? c = some u)
    (rest : Text) : w.closes done (c :: rest) = u.closes (c :: done) rest := by
  rw [closes, h, Option.any_some]

end Within

/-- A text that is one expression as it stands between commas. -/
structure IsExpression (t : Text) : Prop where
  begins : t.head?.any (!Token.isBlank ·) = true
  closes : (Within.parentheses 0).closes [] t = true

instance (t : Text) : Decidable (IsExpression t) :=
  decidable_of_iff (t.head?.any (!Token.isBlank ·) = true ∧
    (Within.parentheses 0).closes [] t = true) ⟨fun h => ⟨h.1, h.2⟩, fun h => ⟨h.begins, h.closes⟩⟩

namespace Within

variable {quote : Char} {done : Text} {depth : Nat}

theorem step?_quote (hq : quote = '\x27' ∨ quote = '\x22')
    (hdone : done.head?.any escapes = false) :
    (parentheses depth).step? done.head? quote = some (.quotes quote depth) := by
  rw [step?, if_pos hq, hdone]
  rfl

/-- Inside quotes a quote is written twice: it closes them, and opens them again. -/
theorem closes_double (hq : quote = '\x27' ∨ quote = '\x22') (s rest : Text) :
    (quotes quote depth).closes done (double quote s ++ quote :: rest) =
      (parentheses depth).closes (quote :: ((double quote s).reverse ++ done)) rest := by
  have hclose (done rest : Text) : (quotes quote depth).closes done (quote :: rest) =
      (parentheses depth).closes (quote :: done) rest :=
    closes_cons (by rw [step?, if_pos rfl]) rest
  have hquote : escapes quote = false := by
    obtain rfl | rfl := hq <;> rfl
  induction s generalizing done with
  | nil => exact hclose done rest
  | cons c s ih =>
    by_cases hc : c = quote
    · subst hc
      have hstep : (parentheses depth).step? (c :: done).head? c = some (.quotes c depth) :=
        step?_quote hq hquote
      have hopen := closes_cons hstep
      rw [double_cons_self, List.cons_append, List.cons_append, hclose, hopen, ih]
      simp
    · have hstep : (quotes quote depth).step? done.head? c = some (.quotes quote depth) := by
        rw [step?, if_neg hc]
      rw [double_cons_of_ne hc, List.cons_append, closes_cons hstep, ih]
      simp

end Within

/-- A string literal is an expression. -/
theorem isExpression_quoteString (s : Text) : IsExpression (quoteString s) where
  begins := rfl
  closes := by
    have hopen : (Within.parentheses 0).step? ([] : Text).head? '\x27' =
        some (.quotes '\x27' 0) := rfl
    rw [quoteString, List.cons_append, Within.closes_cons hopen, Within.closes_double (.inl rfl)]
    rfl

/-- Digits are an expression. -/
theorem isExpression_digits {t : Text} (hne : t ≠ []) (hdigits : ∀ c ∈ t, c.isDigit = true) :
    IsExpression t := by
  have hplain {c : Char} (hc : c.isDigit = true) : Token.isBlank c = false ∧ ∀ before,
      (Within.parentheses 0).step? before c = some (.parentheses 0) := by
    have hne {d : Char} (hd : d.isDigit = false) : c ≠ d := by
      rintro rfl
      rw [hc] at hd
      cases hd
    have hblank : Token.isBlank c = false := by
      simp [Token.isBlank, hne]
    refine ⟨hblank, fun before => ?_⟩
    have hbreaks : Within.breaks before c = false := by
      simp [Within.breaks, hne]
    simp [Within.step?, hbreaks, hne]
  have hcloses (done : Text) : (Within.parentheses 0).closes done t = true := by
    clear hne
    induction t generalizing done with
    | nil => rfl
    | cons c t ih =>
      rw [Within.closes_cons ((hplain (hdigits c List.mem_cons_self)).2 _)]
      exact ih (fun d hd => hdigits d (List.mem_cons_of_mem c hd)) _
  refine ⟨?_, hcloses []⟩
  obtain ⟨c, rest, rfl⟩ := List.exists_cons_of_ne_nil hne
  simp [(hplain (hdigits c List.mem_cons_self)).1]

/-! ### Tuples -/

namespace Tuples

/-- Where a reader of tuples stands. -/
inductive Place where
  /-- Before a tuple. -/
  | outside
  /-- In a value of a tuple, or before it. -/
  | inside (within : Within)
  /-- Behind a tuple. -/
  | behind
  /-- Behind the semicolon. -/
  | ended
  deriving DecidableEq, Repr

/-- A reader of tuples, what it has read in reverse. -/
structure Reader where
  tuples : List (List Text) := []
  /-- The values of the open tuple. -/
  cells : List Text := []
  /-- The open value. -/
  cell : Text := []
  place : Place := .outside
  deriving DecidableEq, Repr

namespace Reader

/-- The end of a value, which must not be empty. -/
def endCell? (r : Reader) : Option Reader :=
  if r.cell.isEmpty then none else some { r with cells := r.cell.reverse :: r.cells, cell := [] }

/-- The end of a tuple. -/
def endTuple (r : Reader) : Reader := { tuples := r.cells.reverse :: r.tuples, place := .behind }

/-- One character; nothing where tuples do not go on with it. -/
def step (r : Reader) (c : Char) : Option Reader :=
  match r.place with
  | .outside =>
    if Token.isBlank c then some r
    else if c = '(' then some { r with place := .inside (.parentheses 0) }
    else none
  | .inside w =>
    if w = .parentheses 0 ∧ c = ',' then r.endCell?
    else if w = .parentheses 0 ∧ c = ')' then
      if r.cell.isEmpty && r.cells.isEmpty then some r.endTuple else r.endCell?.map endTuple
    else if r.cell.isEmpty && Token.isBlank c then some r
    else (w.step? r.cell.head? c).map fun w => { r with cell := c :: r.cell, place := .inside w }
  | .behind =>
    if c = ',' then some { r with place := .outside }
    else if c = ';' then some { r with place := .ended }
    else none
  | .ended => none

def run (r : Reader) (t : Text) : Option Reader := t.foldlM step r

end Reader

/-- The tuples that a text is, up to a semicolon and with nothing behind it. -/
def read? (t : Text) : Option (List (List Text)) :=
  ((({} : Reader).run t).filter (·.place = .ended)).map (·.tuples.reverse)

/-- A tuple of values as they are written. -/
def rowText (cells : List Text) : Text := "(" ++ join ", " cells ++ ")"

namespace Reader

variable {r : Reader}

theorem run_cons (r : Reader) (c : Char) (t : Text) :
    r.run (c :: t) = (r.step c).bind fun r => r.run t := rfl

theorem run_append (r : Reader) (t u : Text) : r.run (t ++ u) = (r.run t).bind fun r => r.run u :=
  List.foldlM_append

/-- The characters of an expression all go into the value. -/
theorem run_closes {w : Within} {t : Text} (hplace : r.place = .inside w)
    (ht : w.closes r.cell t = true)
    (hbegins : r.cell = [] → t.head?.any Token.isBlank = false) :
    r.run t = some { r with cell := t.reverse ++ r.cell, place := .inside (.parentheses 0) } := by
  induction t generalizing r w with
  | nil =>
    have hw : w = .parentheses 0 := beq_iff_eq.mp ht
    rw [← hw, ← hplace]
    rfl
  | cons c t ih =>
    rw [Within.closes] at ht
    cases hstep : w.step? r.cell.head? c with
    | none =>
      rw [hstep] at ht
      cases ht
    | some u =>
      rw [hstep, Option.any_some] at ht
      -- Outside quotes and parentheses an expression goes on neither with a comma nor with one that
      -- closes.
      have hmark (mark : Char) (hm : mark = ',' ∨ mark = ')') :
          ¬(w = .parentheses 0 ∧ c = mark) := by
        rintro ⟨rfl, rfl⟩
        obtain rfl | rfl := hm <;> cases hstep
      have hblank : (r.cell.isEmpty && Token.isBlank c) = false := by
        cases hcell : r.cell with
        | nil => exact hbegins hcell
        | cons d cell => rfl
      have hnext : r.step c = some { r with cell := c :: r.cell, place := .inside u } := by
        unfold step
        rw [hplace]
        dsimp only
        rw [if_neg (hmark ',' (.inl rfl)), if_neg (hmark ')' (.inr rfl)), hblank, hstep]
        rfl
      rw [run_cons, hnext, Option.bind_some, ih rfl ht (fun h => by cases h)]
      simp

/-- A value and what ends it. -/
theorem run_cell {cell : Text} (h : IsExpression cell) (hplace : r.place = .inside (.parentheses 0))
    (hcell : r.cell = []) (rest : Text) :
    r.run (cell ++ ',' :: rest) = ({ r with cells := cell :: r.cells } : Reader).run rest ∧
      r.run (cell ++ ')' :: rest) =
        ({ r with cells := cell :: r.cells } : Reader).endTuple.run rest := by
  have hne : cell.reverse.isEmpty = false := by
    rw [List.isEmpty_reverse, List.isEmpty_eq_false_iff]
    rintro rfl
    cases h.begins
  have hbegins : cell.head?.any Token.isBlank = false := by
    have hfirst := h.begins
    cases cell with
    | nil => rfl
    | cons c cell => simpa using hfirst
  have hread := run_closes hplace (hcell ▸ h.closes) fun _ => hbegins
  rw [hcell, List.append_nil] at hread
  have hend :
      ({ r with cell := cell.reverse, place := .inside (.parentheses 0) } : Reader).endCell? =
        some { r with cells := cell :: r.cells } := by
    rw [endCell?, hne, List.reverse_reverse, ← hcell, ← hplace]
    rfl
  constructor
  · have hcomma :
        ({ r with cell := cell.reverse, place := .inside (.parentheses 0) } : Reader).step ',' =
          some { r with cells := cell :: r.cells } := by
      unfold step
      simp only [and_self, if_true, hend]
    rw [run_append, hread, Option.bind_some, run_cons, hcomma, Option.bind_some]
  · have hclose :
        ({ r with cell := cell.reverse, place := .inside (.parentheses 0) } : Reader).step ')' =
          some ({ r with cells := cell :: r.cells } : Reader).endTuple := by
      unfold step
      simp only [hne, Bool.false_and, Bool.false_eq_true, if_false, and_false, and_true, if_true,
        hend, Option.map_some, (by decide : ¬(')' = ','))]
    rw [run_append, hread, Option.bind_some, run_cons, hclose, Option.bind_some]

/-- The values of a tuple behind its first parenthesis. -/
theorem run_cells {cells : List Text} (hne : cells ≠ []) (h : ∀ cell ∈ cells, IsExpression cell)
    (hplace : r.place = .inside (.parentheses 0)) (hcell : r.cell = []) (rest : Text) :
    r.run (join ", " cells ++ ')' :: rest) =
      ({ r with cells := cells.reverse ++ r.cells } : Reader).endTuple.run rest := by
  induction cells generalizing r with
  | nil => exact absurd rfl hne
  | cons cell cells ih =>
    have hfirst := h cell List.mem_cons_self
    cases cells with
    | nil =>
      have hone : join ", " [cell] = cell := by simp [join, List.intercalate]
      rw [hone, (run_cell hfirst hplace hcell rest).2]
      rfl
    | cons next cells =>
      have hmore : join ", " (cell :: next :: cells) ++ ')' :: rest =
          cell ++ ',' :: (' ' :: (join ", " (next :: cells) ++ ')' :: rest)) := by
        simp [join, List.intercalate]
      have hblank : ({ r with cells := cell :: r.cells } : Reader).step ' ' =
          some { r with cells := cell :: r.cells } := by
        simp [step, hplace, hcell, Token.isBlank]
      have hrest := @ih { r with cells := cell :: r.cells } (List.cons_ne_nil _ _)
        (fun c hc => h c (List.mem_cons_of_mem cell hc)) hplace hcell
      rw [hmore, (run_cell hfirst hplace hcell _).1, run_cons, hblank, Option.bind_some, hrest]
      simp

/-- A tuple. -/
theorem run_rowText {cells : List Text} (h : ∀ cell ∈ cells, IsExpression cell)
    (tuples : List (List Text)) (rest : Text) :
    ({ tuples } : Reader).run (rowText cells ++ rest) =
      ({ tuples := cells :: tuples, place := .behind } : Reader).run rest := by
  have htext : rowText cells ++ rest = '(' :: (join ", " cells ++ ')' :: rest) := by
    simp [rowText]
  have hopen : ({ tuples } : Reader).step '(' =
      some { tuples, place := .inside (.parentheses 0) } := rfl
  rw [htext, run_cons, hopen, Option.bind_some]
  cases cells with
  | nil => rfl
  | cons cell cells =>
    rw [run_cells (List.cons_ne_nil _ _) h rfl rfl]
    simp [endTuple]

/-- Tuples up to the semicolon. -/
theorem run_rows {rows : List (List Text)} (hne : rows ≠ [])
    (h : ∀ cells ∈ rows, ∀ cell ∈ cells, IsExpression cell) (tuples : List (List Text)) :
    ({ tuples } : Reader).run (join ",\n" (rows.map rowText) ++ ";") =
      some { tuples := rows.reverse ++ tuples, place := .ended } := by
  induction rows generalizing tuples with
  | nil => exact absurd rfl hne
  | cons cells rows ih =>
    have hfirst := h cells List.mem_cons_self
    cases rows with
    | nil =>
      have hone : join ",\n" ([cells].map rowText) = rowText cells := by
        simp [join, List.intercalate]
      rw [hone, run_rowText hfirst]
      rfl
    | cons next rows =>
      have hmore : join ",\n" ((cells :: next :: rows).map rowText) ++ ";" =
          rowText cells ++ ',' :: '\n' :: (join ",\n" ((next :: rows).map rowText) ++ ";") := by
        simp [join, List.intercalate]
      have hgap (t : Text) : ({ tuples := cells :: tuples, place := .behind } : Reader).run
          (',' :: '\n' :: t) = ({ tuples := cells :: tuples } : Reader).run t := rfl
      rw [hmore, run_rowText hfirst, hgap,
        ih (List.cons_ne_nil _ _) fun c hc => h c (List.mem_cons_of_mem cells hc)]
      simp

end Reader

/-- Tuples of expressions are read back. -/
theorem read?_rows {rows : List (List Text)} (hne : rows ≠ [])
    (h : ∀ cells ∈ rows, ∀ cell ∈ cells, IsExpression cell) :
    read? ('\n' :: (join ",\n" (rows.map rowText) ++ ";")) = some rows := by
  have hrun : ({} : Reader).run ('\n' :: (join ",\n" (rows.map rowText) ++ ";")) =
      some { tuples := rows.reverse ++ [], place := .ended } := Reader.run_rows hne h []
  rw [read?, hrun, Option.filter_some, if_pos (by simp), Option.map_some, List.append_nil,
    List.reverse_reverse]

end Tuples

/-! ### Statements -/

/-- Names in quotes with commas between them, up to a closing parenthesis. -/
def names? (t : Text) : Option (List Text × Text) :=
  match _h : readName? t with
  | some (name, ',' :: ' ' :: rest) =>
    (names? rest).map fun (names, rest) => (name :: names, rest)
  | some (name, ')' :: rest) => some ([name], rest)
  | _ => none
termination_by t.length
decreasing_by
  have := readName?_lt _h
  simp only [List.length_cons] at this
  omega

theorem names?_last {t name rest : Text} (h : readName? t = some (name, ')' :: rest)) :
    names? t = some ([name], rest) := by
  rw [names?]
  split
  · next he =>
    rw [h] at he
    cases he
  · next he =>
    rw [h] at he
    cases he
    rfl
  · next hn =>
    exact absurd h (hn _ _)

theorem names?_next {t name rest : Text} (h : readName? t = some (name, ',' :: ' ' :: rest)) :
    names? t = (names? rest).map fun (names, rest) => (name :: names, rest) := by
  rw [names?]
  split
  · next he =>
    rw [h] at he
    cases he
    rfl
  · next he =>
    rw [h] at he
    cases he
  · next hn _ =>
    exact absurd h (hn _ _)

theorem names?_quoteNames {names : List Text} (hne : names ≠ []) (rest : Text) :
    names? (quoteNames names ++ ')' :: rest) = some (names, rest) := by
  induction names with
  | nil => exact absurd rfl hne
  | cons name names ih =>
    cases names with
    | nil =>
      have hone : quoteNames [name] = quoteName name := by
        simp [quoteNames, join, List.intercalate]
      rw [hone]
      exact names?_last (readName?_quoteName name rfl)
    | cons next names =>
      have hmore : quoteNames (name :: next :: names) ++ ')' :: rest =
          quoteName name ++ ',' :: ' ' :: (quoteNames (next :: names) ++ ')' :: rest) := by
        simp [quoteNames, join, List.intercalate]
      rw [hmore, names?_next (readName?_quoteName name rfl), ih (List.cons_ne_nil _ _)]
      rfl

/-- An `INSERT` of tuples of expressions, into all columns of its table or those it names. -/
structure InsertRows where
  table : Text
  columns : Option (List Text)
  rows : List (List Text)
  deriving DecidableEq, Repr

namespace InsertRows

def text (i : InsertRows) : Text :=
  "INSERT INTO " ++ quoteName i.table ++ InsertStatement.columnText i.columns ++ " VALUES\n" ++
    join ",\n" (i.rows.map Tuples.rowText) ++ ";"

/-- The names of columns, if a parenthesis opens there. -/
def columns? (t : Text) : Option (Option (List Text) × Text) :=
  match after? " (" t with
  | none => some (none, t)
  | some (')' :: rest) => some (some [], rest)
  | some rest => (names? rest).map fun (names, rest) => (some names, rest)

/-- The one statement that a text is. -/
def read? (t : Text) : Option InsertRows := do
  let t ← after? "INSERT INTO " t
  let (table, t) ← readName? t
  let (columns, t) ← columns? t
  let t ← after? " VALUES" t
  let rows ← Tuples.read? t
  return { table, columns, rows }

theorem columns?_columnText (columns : Option (List Text)) (rest : Text) :
    columns? (InsertStatement.columnText columns ++ (" VALUES" ++ rest)) =
      some (columns, " VALUES" ++ rest) := by
  cases columns with
  | none => rfl
  | some names =>
    cases names with
    | nil => rfl
    | cons name names =>
      have htext : InsertStatement.columnText (some (name :: names)) ++ (" VALUES" ++ rest) =
          " (" ++ (quoteNames (name :: names) ++ ')' :: (" VALUES" ++ rest)) := by
        simp [InsertStatement.columnText]
      obtain ⟨more, hquote⟩ : ∃ more, quoteNames (name :: names) = '\x22' :: more := by
        cases names <;> exact ⟨_, rfl⟩
      have hnames := names?_quoteNames (List.cons_ne_nil name names) (" VALUES" ++ rest)
      rw [htext, columns?, after?_append]
      rw [hquote, List.cons_append] at hnames ⊢
      change (names? ('\x22' :: (more ++ ')' :: (" VALUES" ++ rest)))).map _ = _
      rw [hnames]
      rfl

/-- A statement with at least one tuple is read back from its text. -/
theorem read?_text {i : InsertRows} (hne : i.rows ≠ [])
    (h : ∀ cells ∈ i.rows, ∀ cell ∈ cells, IsExpression cell) : read? i.text = some i := by
  have hborder (rest : Text) : Token.isBorder (InsertStatement.columnText i.columns ++
      (" VALUES" ++ rest)) = true := by
    cases i.columns <;> rfl
  have hvalues : (" VALUES\n" : Text) = " VALUES" ++ ['\n'] := rfl
  have htext : i.text = "INSERT INTO " ++ (quoteName i.table ++
      (InsertStatement.columnText i.columns ++
        (" VALUES" ++ ('\n' :: (join ",\n" (i.rows.map Tuples.rowText) ++ ";"))))) := by
    unfold text
    rw [hvalues]
    simp only [List.append_assoc, List.cons_append, List.nil_append]
  rw [htext]
  simp only [read?, after?_append, readName?_quoteName i.table (hborder _), columns?_columnText,
    Tuples.read?_rows hne h, Option.bind_eq_bind, Option.bind_some, Option.pure_def]

end InsertRows

end SqlDump.Postgres
