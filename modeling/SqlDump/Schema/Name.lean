import SqlDump.Text.Keyword

/-!
# Names in definitions

The names that a table definition gives to keys and tables. They differ from the names of
statements in two points: a bare name is made of word characters and dollar signs, and a quoted
name that is never closed still counts up to its last doubled quote.

Main statement: `quotedNameFrom?_double`, a quoted name is read back.
-/

namespace SqlDump.Definition

open Text

/-- Whether `c` can stand in a bare name. -/
def isNameChar (c : Char) : Bool := isWordChar c || c == '$'

/-- The rest of a quoted name and what follows it. `name` holds its beginning in reverse, and
`fallback` the answer if the name is never closed. -/
def quotedNameFrom? (quote : Char) (name : Text) (fallback : Option (Text × Text)) :
    Text → Option (Text × Text)
  | [] => fallback
  | [c] =>
    if c ≠ quote then fallback
    else if name.isEmpty then none
    else some (name.reverse, [])
  | c :: d :: rest =>
    if c ≠ quote then quotedNameFrom? quote (c :: name) fallback (d :: rest)
    else if d = quote then
      let closed := if name.isEmpty then none else some (name.reverse, d :: rest)
      quotedNameFrom? quote (quote :: name) (closed <|> fallback) rest
    else if name.isEmpty then none
    else some (name.reverse, d :: rest)

/-- A name and what follows it. -/
def name? (t : Text) : Option (Text × Text) :=
  match t with
  | [] => none
  | c :: rest =>
    if c = '\x60' ∨ c = '\x22' then quotedNameFrom? c [] none rest
    else if isNameChar c then some (t.takeWhile isNameChar, t.dropWhile isNameChar)
    else none

/-- The last of one or two names with a dot between, and what follows. -/
def qualifiedName? (t : Text) : Option (Text × Text) := do
  let (name, rest) ← name? t
  match trimStart rest with
  | '.' :: more => name? (trimStart more)
  | _ => some (name, rest)

/-- What a reader finds behind `CONSTRAINT`, and the name given there. Both may be left out; a word
that the reader needs for itself is no name. -/
def afterConstraint? {α : Type} (reader : Text → Option α) (t : Text) : Option (Option Text × α) :=
  match keyword? "constraint" t with
  | none => (reader t).map (none, ·)
  | some rest =>
    let named := do
      let (name, rest) ← (blanks? rest).bind name?
      let found ← (blanks? rest).bind reader
      return (some name, found)
    named <|> ((blanks? rest).bind reader).map (none, ·)

theorem quotedNameFrom?_double (quote : Char) (start name rest : Text)
    (fallback : Option (Text × Text)) (hn : start ++ name ≠ []) (h : ∀ tail, rest ≠ quote :: tail) :
    quotedNameFrom? quote start fallback (double quote name ++ quote :: rest) =
      some (start.reverse ++ name, rest) := by
  induction name generalizing start fallback with
  | nil =>
    have hs : start ≠ [] := by simpa using hn
    cases rest with
    | nil => simp [double, replaceChar, quotedNameFrom?, hs]
    | cons d rest =>
      have hd : d ≠ quote := fun hd => h rest (hd ▸ rfl)
      simp [double, replaceChar, quotedNameFrom?, hd, hs]
  | cons c name ih =>
    simp only [double, replaceChar] at ih
    by_cases hc : c = quote
    · subst hc
      simp [double, replaceChar, quotedNameFrom?, ih]
    · cases ht : (name.flatMap fun d => if d = quote then [quote, quote] else [d]) ++
          quote :: rest with
      | nil => simp at ht
      | cons d tail =>
        have hi := ih (c :: start) fallback (by simp)
        rw [ht] at hi
        simp [double, replaceChar, quotedNameFrom?, hc, ht, hi]

end SqlDump.Definition
