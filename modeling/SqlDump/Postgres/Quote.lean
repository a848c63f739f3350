import SqlDump.Text.Nesting

/-!
# Quoting

Names and strings as PostgreSQL reads them: a name in double quotes and a string in single quotes,
each with its quote written twice inside; a backslash is a character like any other.
-/

namespace SqlDump.Postgres

open Text

/-- A name in quotes. -/
def quoteName (name : Text) : Text := Identifier.quoted '\x22' name

/-- Names in quotes, with commas between. -/
def quoteNames (names : List Text) : Text := join ", " (names.map quoteName)

/-- A string literal. -/
def quoteString (s : Text) : Text := '\x27' :: double '\x27' s ++ ['\x27']

/-- What a character becomes where names in backticks are turned into names in double quotes; `q`
is what it stands in. -/
def requoteChar (q : Quoting) (c : Char) : Text :=
  match q with
  | .outside => if c = '\x60' then ['\x22'] else [c]
  | .inside quote _ =>
    if quote = '\x60' then
      if c = '\x60' then ['\x22'] else if c = '\x22' then ['\x22', '\x22'] else [c]
    else
      [c]

/-- The rest of a text with its names in double quotes, `done` holding the beginning in reverse. -/
def requoteFrom (q : Quoting) (done : Text) : Text → Text
  | [] => done.reverse
  | c :: rest => requoteFrom (q.step c) ((requoteChar q c).reverse ++ done) rest

/-- The text with names in backticks turned into names in double quotes. Strings stay as they
are. -/
def requote (t : Text) : Text := requoteFrom .outside [] t

theorem requoteFrom_done (q : Quoting) (done t : Text) :
    requoteFrom q done t = done.reverse ++ requoteFrom q [] t := by
  induction t generalizing q done with
  | nil => simp [requoteFrom]
  | cons c t ih =>
    simp only [requoteFrom]
    rw [ih, ih _ ((requoteChar q c).reverse ++ [])]
    simp

end SqlDump.Postgres
