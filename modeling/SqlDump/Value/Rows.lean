import SqlDump.Value.Basic

/-!
# Lists of rows

The reader of `(v, v, ...), (v, ...)`. It is a machine that takes one character at a time and stops
before the first that can begin no row; what it has read up to a fault is kept.

Main statements: `RowScan.run_append`, reading a text in two parts is reading the whole;
`RowScan.run_stopped`, a machine that stopped does not go on.
-/

namespace SqlDump

/-- Why a list of rows is incomplete. -/
inductive RowFaultKind where
  | unterminatedQuote
  | unterminatedRow
  deriving DecidableEq, Repr

/-- The message for a fault, without its place. -/
def RowFaultKind.message : RowFaultKind → Text
  | .unterminatedQuote => "unterminated quoted literal"
  | .unterminatedRow => "unterminated row"

/-- A fault at the end of input, placed where the open quote or row began. -/
structure RowFault where
  kind : RowFaultKind
  offset : Nat
  deriving DecidableEq, Repr

/-- The message for a fault and its place. -/
def RowFault.message (f : RowFault) : Text :=
  f.kind.message ++ " at byte " ++ Text.ofNat f.offset

/-- The value being read, its characters in reverse. -/
structure ValueBuffer where
  /-- All characters. -/
  raw : Text := []
  /-- Those inside quotes, the escapes undone. -/
  content : Text := []
  /-- Whether a quote was met. -/
  quoted : Bool := false
  /-- Whether a character other than a blank was met outside quotes. -/
  residue : Bool := false
  deriving DecidableEq, Repr

namespace ValueBuffer

/-- Whether nothing but blanks was met. -/
def isBlank (v : ValueBuffer) : Bool := !v.quoted && Text.isBlank v.raw

/-- The value that was read. -/
def finish (v : ValueBuffer) : Value :=
  let token := Text.trim v.raw.reverse
  if v.quoted && !v.residue then .text v.content.reverse
  else if Text.sameAscii token "null" then .null
  else .bare token

/-- The character that a backslash and `c` stand for. -/
def unescape (c : Char) : Char :=
  match c with
  | 'n' => '\n'
  | 'r' => '\r'
  | 't' => '\t'
  | c => c

/-- The buffer after a character that belongs to the token alone. -/
def push (v : ValueBuffer) (c : Char) : ValueBuffer := { v with raw := c :: v.raw }

/-- The buffer after a character `c` of the token that stands for `d` inside quotes. -/
def pushContent (v : ValueBuffer) (c d : Char) : ValueBuffer :=
  { v with raw := c :: v.raw, content := d :: v.content }

end ValueBuffer

/-- Where the reader of a row stands with respect to quotes. -/
inductive QuoteState where
  | outside
  /-- Inside quotes that opened at `start`, `escaped` behind a backslash. -/
  | inside (quote : Char) (start : Nat) (escaped : Bool)
  /-- Behind a quote that closes what opened at `start`, unless it is written twice. -/
  | closing (quote : Char) (start : Nat)
  deriving DecidableEq, Repr

/-- The row being read. -/
structure OpenRow where
  /-- Where its parenthesis opened. -/
  start : Nat
  /-- The parentheses open inside it. -/
  nested : Nat := 0
  /-- The values read, in reverse. -/
  values : List Value := []
  value : ValueBuffer := {}
  quote : QuoteState := .outside
  deriving DecidableEq, Repr

namespace OpenRow

/-- The values of a row that ends here. A row of blanks has none. -/
def close (r : OpenRow) : Row :=
  if r.values.isEmpty && r.value.isBlank then []
  else (r.value.finish :: r.values).reverse

/-- A character outside quotes, at `position`: the row after it, or its values if it ends here. -/
def stepOutside (r : OpenRow) (position : Nat) (c : Char) : OpenRow ⊕ Row :=
  match c with
  | '\x27' | '\x22' =>
    .inl { r with
      value := { r.value.push c with quoted := true }, quote := .inside c position false }
  | '(' =>
    .inl { r with
      nested := r.nested + 1, value := { r.value.push c with residue := true }, quote := .outside }
  | ')' =>
    if r.nested = 0 then .inr r.close
    else .inl { r with nested := r.nested - 1, value := r.value.push c, quote := .outside }
  | c =>
    if c = ',' ∧ r.nested = 0 then
      .inl { r with values := r.value.finish :: r.values, value := {}, quote := .outside }
    else
      .inl { r with
        value := { r.value.push c with residue := r.value.residue || !Unicode.isBlank c }
        quote := .outside }

/-- A character inside a row, at `position`. -/
def step (r : OpenRow) (position : Nat) (c : Char) : OpenRow ⊕ Row :=
  match r.quote with
  | .outside => r.stepOutside position c
  | .inside quote start true =>
    .inl { r with
      value := r.value.pushContent c (ValueBuffer.unescape c), quote := .inside quote start false }
  | .inside quote start false =>
    if c = '\\' then .inl { r with value := r.value.push c, quote := .inside quote start true }
    else if c = quote then .inl { r with value := r.value.push c, quote := .closing quote start }
    else .inl { r with value := r.value.pushContent c c }
  | .closing quote start =>
    if c = quote then
      .inl { r with value := r.value.pushContent c c, quote := .inside quote start false }
    else
      r.stepOutside position c

/-- The fault of a row that never ends. -/
def fault (r : OpenRow) : RowFault :=
  match r.quote with
  | .inside _ start _ => ⟨.unterminatedQuote, start⟩
  | _ => ⟨.unterminatedRow, r.start⟩

end OpenRow

/-- The reader of a list of rows. -/
structure RowScan where
  /-- The rows read, in reverse. -/
  rows : List Row := []
  /-- The row being read, if one is open. -/
  row : Option OpenRow := none
  /-- The position of the next character, in UTF-8 octets. -/
  position : Nat := 0
  deriving DecidableEq, Repr

namespace RowScan

/-- One character; nothing if no row can begin with it. -/
def step (s : RowScan) (c : Char) : Option RowScan :=
  let position := s.position + c.utf8Size
  match s.row with
  | none =>
    if c = '(' then some { s with row := some { start := s.position }, position }
    else if c = ',' ∨ Unicode.isBlank c then some { s with position }
    else none
  | some r =>
    match r.step s.position c with
    | .inl r => some { s with row := some r, position }
    | .inr values => some { rows := values :: s.rows, row := none, position }

/-- Reads as far as possible; the second part is the text not read. -/
def run (s : RowScan) : Text → RowScan × Text
  | [] => (s, [])
  | c :: rest =>
    match s.step c with
    | none => (s, c :: rest)
    | some s => run s rest

/-- Reading a text in two parts is reading the whole. -/
theorem run_append (s : RowScan) (t u : Text) (h : (s.run t).2 = []) :
    s.run (t ++ u) = (s.run t).1.run u := by
  induction t generalizing s with
  | nil => simp [run]
  | cons c t ih =>
    cases hs : s.step c with
    | none => simp [run, hs] at h
    | some s' =>
      simp only [run, hs] at h
      simp [run, hs, ih s' h]

/-- A machine that stopped before a character does not go on for what follows. -/
theorem run_stopped (s : RowScan) (t u : Text) (h : (s.run t).2 ≠ []) :
    s.run (t ++ u) = ((s.run t).1, (s.run t).2 ++ u) := by
  induction t generalizing s with
  | nil => simp [run] at h
  | cons c t ih =>
    cases hs : s.step c with
    | none => simp [run, hs]
    | some s' =>
      simp only [run, hs] at h
      simp [run, hs, ih s' h]

end RowScan

/-- The rows read from the start of a text. -/
structure ParsedRows where
  rows : List Row
  /-- The UTF-8 octets read. -/
  consumed : Nat
  /-- The text behind the rows. -/
  rest : Text
  fault : Option RowFault
  deriving DecidableEq, Repr

/-- The rows at the start of a text, as far as they go. -/
def ParsedRows.ofText (t : Text) : ParsedRows :=
  let (s, rest) := RowScan.run {} t
  { rows := s.rows.reverse
    consumed := s.position
    rest := rest
    fault := s.row.map OpenRow.fault }

/-- The value of a single token, read as the only value of a row where that is possible. -/
def Value.ofToken (token : Text) : Value :=
  let token := Text.trim token
  let parsed := ParsedRows.ofText ('(' :: token ++ [')'])
  match parsed.rows, parsed.fault with
  | [[v]], none => v
  | _, _ => .bare token

end SqlDump
