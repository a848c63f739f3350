import SqlDump.Postgres.Quote

/-!
# Statements passed through

What is written for statements that are not translated: names in double quotes, conditional
comments gone, and an unterminated statement made a comment.
-/

namespace SqlDump.Postgres

open Text

/-- What follows the end of a conditional comment, given from behind its `/*!`. -/
def afterConditional (t : Text) : Text := (afterFirst? "*/" (t.dropWhile Char.isDigit)).getD []

theorem length_afterConditional (t : Text) : (afterConditional t).length ≤ t.length := by
  have hd := (List.dropWhile_suffix Char.isDigit (l := t)).length_le
  simp only [afterConditional]
  cases h : afterFirst? "*/" (t.dropWhile Char.isDigit) with
  | none => simp
  | some tail =>
    have := length_afterFirst? h
    simp only [Option.getD_some]
    omega

/-- The rest of a text without its conditional comments, `done` holding the beginning in reverse.
Inside other comments quotes count as outside. -/
def stripFrom (q : Quoting) (done t : Text) : Text :=
  match q, t with
  | _, [] => done.reverse
  | .outside, '/' :: '*' :: '!' :: comment => stripFrom .outside done (afterConditional comment)
  | .outside, '/' :: '*' :: rest => stripFrom .outside ('*' :: '/' :: done) rest
  | q, c :: rest => stripFrom (q.step c) (c :: done) rest
termination_by t.length
decreasing_by
  · have := length_afterConditional comment
    simp only [List.length_cons]
    omega
  all_goals simp only [List.length_cons]
  all_goals omega

/-- The text without conditional comments, which hold what only MySQL is to run. -/
def stripConditional (t : Text) : Text := stripFrom .outside [] t

/-- Whether a character may follow the end of a statement. -/
def isTerminator (c : Char) : Bool := c == ';' || Unicode.isBlank c

/-- A statement as it is passed through; nothing if nothing is left of it. -/
def renderOther? (t : Text) : Option Text :=
  let body := trimEndWhile isTerminator (requote (trim (stripConditional t)))
  if body.isEmpty then none else some (body ++ ";")

/-- A comment as it is copied; nothing for a conditional one. -/
def renderComment? (t : Text) : Option Text :=
  let comment := trim t
  if comment.isEmpty || startsWith "/*!" comment then none else some comment

/-- An unterminated statement, as a comment. -/
def renderUnterminated (t : Text) : Text :=
  let kept := (lines t).flatMap fun line => '\n' :: '-' :: '-' :: ' ' :: line
  "-- unterminated statement kept as comment:" ++ kept

end SqlDump.Postgres
