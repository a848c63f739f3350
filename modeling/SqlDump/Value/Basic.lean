import SqlDump.Text.Basic

/-!
# Values

The values of a row as a dump writes them: `NULL`, a quoted text with its escapes undone, or any
other token as it stands.
-/

namespace SqlDump

/-- One value of a row. -/
inductive Value where
  /-- The keyword `NULL`, in any case. -/
  | null
  /-- A quoted literal, its escapes undone. -/
  | text (content : Text)
  /-- Any other token, without the blanks around it: a number, a hexadecimal literal, a call. -/
  | bare (token : Text)
  deriving DecidableEq, Repr

/-- The values of one parenthesised tuple, in order. -/
abbrev Row := List Value

namespace Value

def isNull (v : Value) : Bool := v == .null

/-- The characters of a value that is not null. -/
def content? : Value → Option Text
  | .null => none
  | .text s => some s
  | .bare s => some s

end Value

end SqlDump
