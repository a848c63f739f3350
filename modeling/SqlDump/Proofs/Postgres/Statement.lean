import SqlDump.Proofs.Postgres.Token

/-!
# INSERT statements of PostgreSQL

The grammar of an `INSERT ... VALUES` whose values are `NULL` and strings, over its tokens, and the
layout in which a script writes one.

Main statements: `InsertStatement.read?_text`, a statement in that layout is read back.
-/

namespace SqlDump.Postgres

open Text

inductive Literal where
  | null
  | string (content : Text)
  deriving DecidableEq, Repr

namespace Literal

def text : Literal → Text
  | null => "NULL"
  | string s => quoteString s

def token : Literal → Token
  | null => .word "null"
  | string s => .string s

def ofToken? : Token → Option Literal
  | .word letters => if letters = "null" then some null else none
  | .string s => some (string s)
  | _ => none

theorem ofToken?_token (l : Literal) : ofToken? l.token = some l := by
  cases l <;> rfl

theorem tokens?_text (l : Literal) {rest : Text} (h : Token.isBorder rest = true) :
    tokens? (l.text ++ rest) = (tokens? rest).map ([l.token] ++ ·) := by
  cases l with
  | null => exact tokens?_word (by decide) (by decide) h
  | string s => exact tokens?_quoteString s h

end Literal

/-- A keyword, given in lower case. -/
def Token.keyword (letters : String) : Token := .word letters.toList

def Token.name? : Token → Option Text
  | .name content => some content
  | _ => none

section Groups

variable {α : Type} (item? : Token → Option α)

/-- Items of one token each with commas between them, up to a closing bracket. -/
def items? : List Token → Option (List α × List Token)
  | t :: .mark ',' :: ts =>
    (item? t).bind fun x => (items? ts).map fun (xs, rest) => (x :: xs, rest)
  | t :: .mark ')' :: ts => (item? t).map fun x => ([x], ts)
  | _ => none

/-- Items in brackets, where there may be none. -/
def group? : List Token → Option (List α × List Token)
  | .mark '(' :: .mark ')' :: ts => some ([], ts)
  | .mark '(' :: ts => items? item? ts
  | _ => none

theorem items?_lt {ts rest : List Token} {xs : List α} (h : items? item? ts = some (xs, rest)) :
    rest.length < ts.length := by
  fun_induction items? item? ts generalizing xs with
  | case1 t ts ih =>
    obtain ⟨x, _, hx⟩ := Option.bind_eq_some_iff.mp h
    obtain ⟨⟨ys, more⟩, hys, hm⟩ := Option.map_eq_some_iff.mp hx
    cases hm
    have := ih hys
    simp only [List.length_cons]
    omega
  | case2 t ts =>
    obtain ⟨x, _, hx⟩ := Option.map_eq_some_iff.mp h
    cases hx
    simp only [List.length_cons]
    omega
  | case3 => cases h

theorem group?_lt {ts rest : List Token} {xs : List α} (h : group? item? ts = some (xs, rest)) :
    rest.length < ts.length := by
  unfold group? at h
  split at h
  · cases h
    simp only [List.length_cons]
    omega
  · have := items?_lt item? h
    simp only [List.length_cons]
    omega
  · cases h

variable {item?} (token : α → Token)

theorem items?_commas (hitem : ∀ x, item? (token x) = some x) {xs : List α} (hx : xs ≠ [])
    (rest : List Token) :
    items? item? (commas (xs.map fun x => [token x]) ++ .mark ')' :: rest) = some (xs, rest) := by
  induction xs with
  | nil => exact absurd rfl hx
  | cons x xs ih =>
    cases xs with
    | nil => simp [commas_singleton, items?, hitem]
    | cons y ys =>
      have hys := ih (List.cons_ne_nil y ys)
      rw [List.map_cons] at hys
      simp [commas_cons, items?, hitem, hys]

theorem group?_of_ne {t : Token} (h : t ≠ .mark ')') (ts : List Token) :
    group? item? (.mark '(' :: t :: ts) = items? item? (t :: ts) := by
  unfold group?
  split
  · rename_i he
    cases he
    exact absurd rfl h
  · rename_i he
    cases he
    rfl
  · rename_i hn
    exact absurd rfl (hn _)

/-- Items in brackets are read back where no mark is an item. -/
theorem group?_commas (hitem : ∀ x, item? (token x) = some x) (hmark : ∀ c, item? (.mark c) = none)
    (xs : List α) (rest : List Token) :
    group? item? (.mark '(' :: (commas (xs.map fun x => [token x]) ++ .mark ')' :: rest)) =
      some (xs, rest) := by
  cases xs with
  | nil => rfl
  | cons x xs =>
    have hne : token x ≠ .mark ')' := by
      intro he
      have := hitem x
      rw [he, hmark] at this
      cases this
    obtain ⟨ts, hts⟩ : ∃ ts, commas ((x :: xs).map fun x => [token x]) = token x :: ts := by
      cases xs <;> exact ⟨_, rfl⟩
    have hread := items?_commas token hitem (List.cons_ne_nil x xs) rest
    rw [hts] at hread ⊢
    rwa [List.cons_append, group?_of_ne hne]

end Groups

/-- A tuple of values. -/
abbrev Tuple := List Literal

namespace Tuple

def text (row : Tuple) : Text := "(" ++ join ", " (row.map Literal.text) ++ ")"

def tokens (row : Tuple) : List Token :=
  .mark '(' :: (commas (row.map fun l => [l.token]) ++ [.mark ')'])

theorem tokens?_text (row : Tuple) (rest : Text) :
    tokens? (row.text ++ rest) = (tokens? rest).map (row.tokens ++ ·) := by
  have hvalues := tokens?_join Literal.text (fun l => [l.token])
    (fun l _ => l.tokens?_text) (rfl : Token.isBlank ' ' = true) row
    (rfl : Token.isBorder (')' :: rest) = true)
  have hopen : tokens? (row.text ++ rest) =
      (tokens? (join ", " (row.map Literal.text) ++ ')' :: rest)).map (.mark '(' :: ·) := by
    simpa [text] using tokens?_mark (c := '(') rfl _
  rw [hopen, show (", " : Text) = [',', ' '] from rfl, hvalues, tokens?_mark rfl]
  simp [tokens, Function.comp_def]

end Tuple

/-- Tuples with commas between them. -/
def tuples? (ts : List Token) : Option (List Tuple × List Token) :=
  match _h : group? Literal.ofToken? ts with
  | none => none
  | some (row, .mark ',' :: rest) => (tuples? rest).map fun (rows, rest) => (row :: rows, rest)
  | some (row, rest) => some ([row], rest)
termination_by ts.length
decreasing_by
  have := group?_lt _ _h
  simp only [List.length_cons] at this
  omega

theorem group?_tuple (row : Tuple) (rest : List Token) :
    group? Literal.ofToken? (row.tokens ++ rest) = some (row, rest) := by
  have hgroup := group?_commas Literal.token Literal.ofToken?_token (fun _ => rfl) row rest
  simpa [Tuple.tokens] using hgroup

theorem tuples?_last {ts rest : List Token} {row : Tuple}
    (h : group? Literal.ofToken? ts = some (row, rest)) (hr : ∀ more, rest ≠ .mark ',' :: more) :
    tuples? ts = some ([row], rest) := by
  unfold tuples?
  split
  · rename_i he
    rw [h] at he
    cases he
  · rename_i more he
    rw [h] at he
    cases he
    exact absurd rfl (hr more)
  · rename_i he
    rw [h] at he
    cases he
    rfl

theorem tuples?_next {ts rest : List Token} {row : Tuple}
    (h : group? Literal.ofToken? ts = some (row, .mark ',' :: rest)) :
    tuples? ts = (tuples? rest).map fun (rows, rest) => (row :: rows, rest) := by
  rw [tuples?]
  split
  · rename_i he
    rw [h] at he
    cases he
  · rename_i he
    rw [h] at he
    cases he
    rfl
  · rename_i hn he
    rw [h] at he
    cases he
    exact absurd rfl (hn _)

theorem tuples?_commas {rows : List Tuple} (h : rows ≠ []) {rest : List Token}
    (hr : ∀ more, rest ≠ .mark ',' :: more) :
    tuples? (commas (rows.map Tuple.tokens) ++ rest) = some (rows, rest) := by
  induction rows with
  | nil => exact absurd rfl h
  | cons row rows ih =>
    cases rows with
    | nil =>
      have hrow := tuples?_last (group?_tuple row rest) hr
      simpa [commas_singleton] using hrow
    | cons next rows =>
      have hnext := ih (List.cons_ne_nil next rows)
      have hrow := tuples?_next (group?_tuple row
        (.mark ',' :: (commas ((next :: rows).map Tuple.tokens) ++ rest)))
      rw [hnext] at hrow
      simpa [commas_cons] using hrow

/-- An `INSERT` of tuples, into all columns of its table or those it names. -/
structure InsertStatement where
  table : Text
  columns : Option (List Text)
  rows : List Tuple
  deriving DecidableEq, Repr

namespace InsertStatement

/-- The names of columns in brackets, where they are given. -/
def columnText : Option (List Text) → Text
  | some columns => " (" ++ quoteNames columns ++ ")"
  | none => []

def text (i : InsertStatement) : Text :=
  "INSERT INTO " ++ quoteName i.table ++ columnText i.columns ++ " VALUES\n" ++
    join ",\n" (i.rows.map Tuple.text) ++ ";"

def columnTokens : Option (List Text) → List Token
  | some columns => .mark '(' :: (commas (columns.map fun c => [.name c]) ++ [.mark ')'])
  | none => []

def tokens (i : InsertStatement) : List Token :=
  .keyword "insert" :: .keyword "into" :: .name i.table :: (columnTokens i.columns ++
    .keyword "values" :: (commas (i.rows.map Tuple.tokens) ++ [.mark ';']))

/-- The names of columns in brackets, if a bracket opens there. -/
def columns? (ts : List Token) : Option (Option (List Text) × List Token) :=
  if ts.head? = some (.mark '(') then
    (group? Token.name? ts).map fun (names, ts) => (some names, ts)
  else
    some (none, ts)

/-- The statement that the tokens are, up to its semicolon and with nothing behind. -/
def ofTokens? (ts : List Token) : Option InsertStatement := do
  let .name table :: ts ← [Token.keyword "insert", .keyword "into"].isPrefixOf? ts | none
  let (columns, ts) ← columns? ts
  let ts ← [Token.keyword "values"].isPrefixOf? ts
  let (rows, [.mark ';']) ← tuples? ts | none
  return { table, columns, rows }

/-- The one statement that a text is. -/
def read? (t : Text) : Option InsertStatement := (tokens? t).bind ofTokens?

theorem isPrefixOf?_append (start ts : List Token) : start.isPrefixOf? (start ++ ts) = some ts := by
  induction start with
  | nil => rfl
  | cons t start ih => exact (if_pos (beq_self_eq_true t)).trans ih

theorem columns?_tokens (columns : Option (List Text)) {rest : List Token}
    (h : rest.head? ≠ some (.mark '(')) :
    columns? (columnTokens columns ++ rest) = some (columns, rest) := by
  cases columns with
  | none => exact if_neg h
  | some columns =>
    have hcolumns := group?_commas Token.name (fun _ => (rfl : Token.name? _ = _)) (fun _ => rfl)
      columns rest
    simp [columns?, columnTokens, hcolumns]

theorem ofTokens?_tokens {i : InsertStatement} (h : i.rows ≠ []) :
    ofTokens? i.tokens = some i := by
  have hrows : tuples? (commas (i.rows.map Tuple.tokens) ++ [.mark ';']) =
      some (i.rows, [.mark ';']) :=
    tuples?_commas h (by simp)
  have hvalues := isPrefixOf?_append [.keyword "values"]
    (commas (i.rows.map Tuple.tokens) ++ [.mark ';'])
  have hcolumns : columns? (columnTokens i.columns ++ .keyword "values" ::
      (commas (i.rows.map Tuple.tokens) ++ [.mark ';'])) =
      some (i.columns, .keyword "values" :: (commas (i.rows.map Tuple.tokens) ++ [.mark ';'])) :=
    columns?_tokens i.columns (by simp [Token.keyword])
  have hhead := isPrefixOf?_append [.keyword "insert", .keyword "into"] (.name i.table ::
    (columnTokens i.columns ++ .keyword "values" ::
      (commas (i.rows.map Tuple.tokens) ++ [.mark ';'])))
  simp only [List.cons_append, List.nil_append] at hhead hvalues
  simp [ofTokens?, tokens, hhead, hcolumns, hvalues, hrows]

theorem tokens?_columnText (columns : Option (List Text)) (rest : Text) :
    tokens? (columnText columns ++ rest) = (tokens? rest).map (columnTokens columns ++ ·) := by
  cases columns with
  | none => simp [columnText, columnTokens]
  | some columns =>
    have hnames := tokens?_join quoteName (fun c => [.name c]) (fun c _ => tokens?_quoteName c)
      (rfl : Token.isBlank ' ' = true) columns (rfl : Token.isBorder (')' :: rest) = true)
    have hopen := tokens?_blank (c := ' ') rfl
      ('(' :: (join [',', ' '] (columns.map quoteName) ++ ')' :: rest))
    rw [tokens?_mark (c := '(') rfl, hnames, tokens?_mark (c := ')') rfl, Option.map_map,
      Option.map_map] at hopen
    simpa [columnText, quoteNames, columnTokens, Function.comp_def] using hopen

theorem tokens?_text (i : InsertStatement) : tokens? i.text = some i.tokens := by
  have hrows := tokens?_join Tuple.text Tuple.tokens (fun row rest _ => row.tokens?_text rest)
    (rfl : Token.isBlank '\n' = true) i.rows (rfl : Token.isBorder [';'] = true)
  have hborder : ∀ rest, Token.isBorder (columnText i.columns ++ ' ' :: rest) = true := by
    intro rest
    cases i.columns <;> rfl
  have htext : i.text = "INSERT" ++ ' ' :: (("INTO" : Text) ++ ' ' :: (quoteName i.table ++
      (columnText i.columns ++ ' ' :: (("VALUES" : Text) ++ '\n' ::
        (join [',', '\n'] (i.rows.map Tuple.text) ++ [';']))))) := by
    have hhead : ("INSERT INTO " : Text) = "INSERT" ++ ' ' :: (("INTO" : Text) ++ [' ']) := rfl
    have hvalues : (" VALUES\n" : Text) = ' ' :: (("VALUES" : Text) ++ ['\n']) := rfl
    have hsep : (",\n" : Text) = [',', '\n'] := rfl
    have hend : (";" : Text) = [';'] := rfl
    unfold text
    rw [hhead, hvalues, hsep, hend]
    simp only [List.append_assoc, List.cons_append, List.nil_append]
  rw [htext, tokens?_keyword "INSERT" ' ' (by decide) (by decide) rfl,
    tokens?_keyword "INTO" ' ' (by decide) (by decide) rfl,
    tokens?_quoteName _ (hborder _), tokens?_columnText, tokens?_blank (c := ' ') rfl,
    tokens?_keyword "VALUES" '\n' (by decide) (by decide) rfl, hrows,
    tokens?_mark (c := ';') rfl, tokens?_nil]
  simp [tokens, Token.keyword, asciiLower]

/-- A statement with at least one tuple is read back from its text. -/
theorem read?_text {i : InsertStatement} (h : i.rows ≠ []) : read? i.text = some i := by
  rw [read?, tokens?_text]
  exact ofTokens?_tokens h

end InsertStatement

end SqlDump.Postgres
