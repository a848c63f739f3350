import SqlDump.Identifier

/-!
# Quotes and parentheses

What a character is inside of: quotes of three kinds, in which a backslash escapes except between
backticks, and parentheses. A text is split only at characters that stand in neither.

Main statements: `Nesting.after_append`, scanning goes on where it stopped; `splitTopFrom_done`, the
pieces found before do not matter for those to come.
-/

namespace SqlDump.Text

/-- Whether a character is inside quotes. -/
inductive Quoting where
  | outside
  /-- Inside quotes, `escaped` behind a backslash. -/
  | inside (quote : Char) (escaped : Bool)
  deriving DecidableEq, Repr

/-- The quotes that hide other characters. -/
def isQuoteMark (c : Char) : Bool := c == '\x27' || c == '\x22' || c == '\x60'

/-- The quotes around the character that follows `c`. -/
def Quoting.step : Quoting → Char → Quoting
  | .outside, c => if isQuoteMark c then .inside c false else .outside
  | .inside quote true, _ => .inside quote false
  | .inside quote false, c =>
    if c = '\\' ∧ quote ≠ '\x60' then .inside quote true
    else if c = quote then .outside
    else .inside quote false

namespace Quoting

variable {quote c : Char}

theorem step_escape (hquote : quote ≠ '\x60') :
    (inside quote false).step '\\' = inside quote true := by
  simp [step, hquote]

theorem step_close (hquote : quote ≠ '\\') : (inside quote false).step quote = outside := by
  have hescape : ¬(quote = '\\' ∧ quote ≠ '\x60') := fun h => hquote h.1
  rw [step, if_neg hescape, if_pos rfl]

theorem step_plain (hquote : c ≠ quote) (hslash : c = '\\' → quote = '\x60') :
    (inside quote false).step c = inside quote false := by
  have hescape : ¬(c = '\\' ∧ quote ≠ '\x60') := fun h => h.2 (hslash h.1)
  rw [step, if_neg hescape, if_neg hquote]

theorem step_content (hslash : c ≠ '\\') (hquote : c ≠ quote) :
    (inside quote false).step c = inside quote false :=
  step_plain hquote fun h => absurd h hslash

end Quoting

/-- The quotes and the number of parentheses around a character. -/
structure Nesting where
  quoting : Quoting := .outside
  depth : Nat := 0
  deriving DecidableEq, Repr

namespace Nesting

/-- Whether a character stands in neither quotes nor parentheses. -/
def isTop (n : Nesting) : Bool := n.quoting == .outside && n.depth == 0

/-- What is around the character that follows `c`. A parenthesis that closes nothing counts for
nothing. -/
def step (n : Nesting) (c : Char) : Nesting where
  quoting := n.quoting.step c
  depth :=
    if n.quoting = .outside then
      if c = '(' then n.depth + 1 else if c = ')' then n.depth - 1 else n.depth
    else
      n.depth

/-- What is around the end of a text. -/
def after (n : Nesting) (t : Text) : Nesting := t.foldl step n

theorem after_append (n : Nesting) (t u : Text) : n.after (t ++ u) = (n.after t).after u := by
  simp [after]

end Nesting

/-- What follows the first opening parenthesis outside quotes. -/
def openGroup? (q : Quoting) : Text → Option Text
  | [] => none
  | c :: rest => if c = '(' ∧ q = .outside then some rest else openGroup? (q.step c) rest

/-- The text up to the parenthesis that closes the group it begins in, and what follows; `inner`
holds the beginning of the group in reverse. -/
def closeGroup? (n : Nesting) (inner : Text) : Text → Option (Text × Text)
  | [] => none
  | c :: rest =>
    if c = ')' ∧ n.isTop then some (inner.reverse, rest)
    else closeGroup? (n.step c) (c :: inner) rest

/-- The content of the first group in parentheses, and what follows it. -/
def group? (t : Text) : Option (Text × Text) := (openGroup? .outside t).bind (closeGroup? {} [])

/-- The pieces of the rest of a text: `done` holds those found in reverse, `piece` the open one in
reverse. -/
def splitTopFrom (sep : Char → Bool) (n : Nesting) (done : List Text) (piece : Text) :
    Text → List Text
  | [] => (piece.reverse :: done).reverse
  | c :: rest =>
    if n.isTop && sep c then splitTopFrom sep (n.step c) (piece.reverse :: done) [] rest
    else splitTopFrom sep (n.step c) done (c :: piece) rest

/-- The pieces between the separators that stand outside quotes and parentheses. -/
def splitTop (sep : Char → Bool) (t : Text) : List Text := splitTopFrom sep {} [] [] t

/-- The items between the commas of a list, without the blanks around them. Empty items do not
count. -/
def items (t : Text) : List Text := ((splitTop (· == ',') t).map trim).filter (!·.isEmpty)

/-- The tokens between blanks, quoted texts and groups in parentheses kept whole. -/
def tokens (t : Text) : List Text := (splitTop Unicode.isBlank t).filter (!·.isEmpty)

/-- The names that begin the items of a list. What stands behind a name, such as a length or an
order, is dropped. -/
def nameList (t : Text) : List Text :=
  (items t).filterMap fun item => (Identifier.read item).map (·.1)

theorem splitTopFrom_done (sep : Char → Bool) (n : Nesting) (done : List Text) (piece t : Text) :
    splitTopFrom sep n done piece t = done.reverse ++ splitTopFrom sep n [] piece t := by
  induction t generalizing n done piece with
  | nil => simp [splitTopFrom]
  | cons c t ih =>
    simp only [splitTopFrom]
    split
    · rw [ih _ (piece.reverse :: done), ih _ [piece.reverse]]
      simp
    · rw [ih]

end SqlDump.Text
