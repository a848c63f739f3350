import SqlDump.Text.Basic

/-!
# Identifiers

Names as MySQL writes them: in backticks or double quotes, where the quote is written twice inside,
or bare up to a blank or delimiter. A qualified name is a chain of names with dots between.

Main statements: `Identifier.readQuoted_double`, a quoted name is read back; `Identifier.read_lt`,
reading a name takes a character.
-/

namespace SqlDump.Identifier

/-- Whether `c` opens a quoted name. -/
def isQuote (c : Char) : Bool := c == '\x60' || c == '\x22'

/-- Whether a bare name ends before `c`. -/
def isDelimiter (c : Char) : Bool :=
  Unicode.isBlank c || c == '(' || c == ')' || c == ';' || c == ',' || c == '.' || c == '='

/-- The rest of a quoted name and what follows it, `name` holding its beginning in reverse. -/
def readQuoted (quote : Char) (name : Text) : Text → Option (Text × Text)
  | [] => none
  | [c] => if c = quote then some (name.reverse, []) else none
  | c :: d :: rest =>
    if c = quote then
      if d = quote then readQuoted quote (quote :: name) rest else some (name.reverse, d :: rest)
    else
      readQuoted quote (c :: name) (d :: rest)

/-- One name and what follows it. -/
def read (t : Text) : Option (Text × Text) :=
  match t with
  | [] => none
  | c :: rest =>
    if isQuote c then readQuoted c [] rest
    else if isDelimiter c then none
    else
      some (t.takeWhile fun d => !isDelimiter d, t.dropWhile fun d => !isDelimiter d)

theorem readQuoted_le {quote : Char} {name t found rest : Text}
    (h : readQuoted quote name t = some (found, rest)) : rest.length < t.length := by
  fun_induction readQuoted quote name t with
  | case1 => simp at h
  | case2 => simp_all
  | case3 => simp_all
  | case4 name rest ih =>
    have := ih h
    simp only [List.length_cons]
    omega
  | case5 name d tail hd =>
    simp only [Option.some.injEq, Prod.mk.injEq] at h
    simp [← h.2]
  | case6 name c d tail hc ih =>
    have := ih h
    simp only [List.length_cons] at this ⊢
    omega

/-- Reading a name takes a character. -/
theorem read_lt {t found rest : Text} (h : read t = some (found, rest)) :
    rest.length < t.length := by
  cases t with
  | nil => simp [read] at h
  | cons c t =>
    simp only [read] at h
    split at h
    · exact Nat.lt_succ_of_lt (readQuoted_le h)
    · rename_i hq
      split at h
      · simp at h
      · rename_i hc
        simp only [Option.some.injEq, Prod.mk.injEq] at h
        rw [← h.2, List.dropWhile_cons_of_pos (by simp [hc]), List.length_cons]
        exact Nat.lt_succ_of_le (List.dropWhile_suffix _).length_le

/-- The last name of a chain of names, and what follows it. Where a name is missing there is none,
and what follows is the text from the missing name on. -/
def readQualified (t : Text) : Option Text × Text :=
  match _h : read t with
  | none => (none, t)
  | some (name, rest) =>
    match _hd : Text.trimStart rest with
    | '.' :: more => readQualified (Text.trimStart more)
    | _ => (some name, rest)
termination_by t.length
decreasing_by
  have hr := read_lt _h
  have hd := (List.dropWhile_suffix Unicode.isBlank (l := rest)).length_le
  have hm := (List.dropWhile_suffix Unicode.isBlank (l := more)).length_le
  rw [Text.trimStart] at _hd
  rw [_hd, List.length_cons] at hd
  rw [Text.trimStart]
  omega

/-- The name of a table, of which only the last part counts. -/
def tableName? (t : Text) : Option Text := (readQualified (Text.trimStart t)).1

/-- The name without its quotes, or the whole text where it is no name. -/
def unquote (t : Text) : Text :=
  match read t with
  | some (name, _) => name
  | none => t

/-- The name in quotes, the quote written twice inside. -/
def quoted (quote : Char) (name : Text) : Text := quote :: Text.double quote name ++ [quote]

theorem readQuoted_double (quote : Char) (start name rest : Text)
    (h : ∀ tail, rest ≠ quote :: tail) :
    readQuoted quote start (Text.double quote name ++ quote :: rest) =
      some (start.reverse ++ name, rest) := by
  induction name generalizing start with
  | nil =>
    cases rest with
    | nil => simp [Text.double, Text.replaceChar, readQuoted]
    | cons d rest =>
      have hd : d ≠ quote := fun hd => h rest (hd ▸ rfl)
      simp [Text.double, Text.replaceChar, readQuoted, hd]
  | cons c name ih =>
    simp only [Text.double, Text.replaceChar] at ih
    by_cases hc : c = quote
    · subst hc
      simp [Text.double, Text.replaceChar, readQuoted, ih]
    · cases hn : (name.flatMap fun d => if d = quote then [quote, quote] else [d]) ++
          quote :: rest with
      | nil => simp at hn
      | cons d tail =>
        have := ih (c :: start)
        rw [hn] at this
        simp [Text.double, Text.replaceChar, readQuoted, hc, hn, this]

end SqlDump.Identifier
