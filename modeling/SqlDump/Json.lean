import SqlDump.Text.Basic

/-!
# JSON

JSON documents whose members keep their order, and their printed form: one item a line, two blanks
for each level, and nothing between the brackets of what is empty.
-/

namespace SqlDump

/-- A JSON document. Its numbers are natural. -/
inductive Json where
  | null
  | bool (b : Bool)
  | number (n : Nat)
  | string (t : Text)
  | array (items : List Json)
  | object (members : List (Text × Json))
  deriving Repr

namespace Json

instance : Coe Text Json := ⟨string⟩

/-- Whether a character cannot stand for itself in a quoted text. -/
def isEscaped (c : Char) : Bool := c == '\x22' || c == '\\' || decide (c.toNat < 0x20)

/-- A character as it is written in a quoted text. -/
def escapeChar (c : Char) : Text :=
  if !isEscaped c then [c]
  else
    match c.toNat with
    | 0x08 => ['\\', 'b']
    | 0x09 => ['\\', 't']
    | 0x0A => ['\\', 'n']
    | 0x0C => ['\\', 'f']
    | 0x0D => ['\\', 'r']
    | n =>
      if n < 0x20 then ['\\', 'u', '0', '0', Nat.digitChar (n / 16), Nat.digitChar (n % 16)] else ['\\', c]

/-- A text as it is written between quotes. -/
def escape (t : Text) : Text := t.flatMap escapeChar

def quoted (t : Text) : Text := '\x22' :: escape t ++ ['\x22']

/-- A line feed and the blanks at the start of a line. -/
def newLine (level : Nat) : Text := '\n' :: List.replicate (2 * level) ' '

mutual

/-- The printed form of a document, for lines that begin at a level. -/
def render (level : Nat) : Json → Text
  | null => "null"
  | bool b => if b then "true" else "false"
  | number n => Text.ofNat n
  | string t => quoted t
  | array [] => ['[', ']']
  | array (j :: js) =>
    '[' :: newLine (level + 1) ++ render (level + 1) j ++ renderItems (level + 1) js ++
      newLine level ++ [']']
  | object [] => ['\x7b', '\x7d']
  | object ((name, j) :: members) =>
    '\x7b' :: newLine (level + 1) ++ quoted name ++ [':', ' '] ++ render (level + 1) j ++
      renderMembers (level + 1) members ++ newLine level ++ ['\x7d']

/-- The printed form of the items behind the first. -/
def renderItems (level : Nat) : List Json → Text
  | [] => []
  | j :: js => ',' :: newLine level ++ render level j ++ renderItems level js

/-- The printed form of the members behind the first. -/
def renderMembers (level : Nat) : List (Text × Json) → Text
  | [] => []
  | (name, j) :: members =>
    ',' :: newLine level ++ quoted name ++ [':', ' '] ++ render level j ++
      renderMembers level members

end

/-- The printed form of a document. -/
def text (j : Json) : Text := render 0 j

/-- A member, if it has a value. -/
def member? (name : Text) (value : Option Json) : List (Text × Json) :=
  match value with
  | some j => [(name, j)]
  | none => []

end Json

end SqlDump
