import SqlDump.Yaml.Token

/-!
# YAML nodes

What a YAML document holds, and the values that scalars stand for.
-/

namespace SqlDump.Yaml

open Text

/-- What is written in front of a node. -/
structure Properties where
  anchor : Option Nat := none
  tag : Option Octets := none
  deriving DecidableEq, Repr

/-- A node of a document. -/
inductive Node where
  | reference (anchor : Nat)
  | scalar (properties : Properties) (style : Style) (text : Text)
  | sequence (properties : Properties) (items : List Node)
  | mapping (properties : Properties) (entries : List (Node × Node))
  deriving Repr

/-- The tag of a type of values. -/
def coreTag (name : String) : Octets := Handles.core ++ .ofText name

namespace Node

/-- The node where nothing is written. -/
def empty : Node := scalar {} .plain []

/-- What is written in front of a node. -/
def properties : Node → Properties
  | reference _ => {}
  | scalar p _ _ | sequence p _ | mapping p _ => p

/-- A node if it has the anchor of a number, and one found before it if not. -/
def named (anchor : Nat) (found : Option Node) (n : Node) : Option Node :=
  if n.properties.anchor = some anchor then some n else found

mutual

/-- The last node with an anchor in a node, or one found before it. A node comes before what is in
it. -/
def last? (anchor : Nat) (found : Option Node) : Node → Option Node
  | reference _ => found
  | scalar p style t => named anchor found (scalar p style t)
  | sequence p items => lastOfItems? anchor (named anchor found (sequence p items)) items
  | mapping p entries => lastOfEntries? anchor (named anchor found (mapping p entries)) entries

/-- The last node with an anchor in the items of a sequence, or one found before them. -/
def lastOfItems? (anchor : Nat) (found : Option Node) : List Node → Option Node
  | [] => found
  | item :: items => lastOfItems? anchor (last? anchor found item) items

/-- The last node with an anchor in the entries of a mapping, or one found before them. -/
def lastOfEntries? (anchor : Nat) (found : Option Node) : List (Node × Node) → Option Node
  | [] => found
  | entry :: entries => lastOfEntries? anchor (lastOfOne? anchor found entry) entries

/-- The last node with an anchor in an entry, or one found before it. -/
def lastOfOne? (anchor : Nat) (found : Option Node) : Node × Node → Option Node
  | (name, value) => last? anchor (last? anchor found name) value

end

/-- The node of a document that a node stands for: of an alias the one with its anchor. -/
def follow (root : Node) : Node → Node
  | reference anchor => (root.last? anchor none).getD empty
  | n => n

/-- Whether nothing is written but, perhaps, properties. -/
def isEmpty : Node → Bool
  | scalar _ .plain [] => true
  | _ => false

/-- The text of a scalar. -/
def text? : Node → Option Text
  | scalar _ _ t => some t
  | _ => none

/-- Whether a text stands for no value. -/
def isNullText (t : Text) : Bool := (["~", "null", "Null", "NULL"] : List Text).contains t

/-- Whether a node stands for no value, if it may. A tag of another type keeps it from this; the
tag of no value admits no other text. -/
def isNull? : Node → Option Bool
  | scalar ⟨_, none⟩ .plain t => some (t.isEmpty || isNullText t)
  | scalar ⟨_, some tag⟩ .plain t =>
    if tag = coreTag "null" then (if isNullText t then some true else none) else some false
  | _ => some false

/-- Whether a node is the one value of its kind: nothing, or a plain text that stands for it. -/
def isUnit : Node → Bool
  | scalar _ .plain t => t.isEmpty || isNullText t
  | _ => false

/-- The text of a scalar that may stand for a value of the type with a name: a plain one, or a
literal one with the tag of that type. -/
def typed? (type : String) : Node → Option Text
  | scalar _ .plain t => some t
  | scalar ⟨_, some tag⟩ .literal t => if tag = coreTag type then some t else none
  | _ => none

/-- The boolean that a node stands for. -/
def bool? (n : Node) : Option Bool :=
  match (n.typed? "bool").map String.ofList with
  | some "true" | some "True" | some "TRUE" => some true
  | some "false" | some "False" | some "FALSE" => some false
  | _ => none

/-- The natural number that a text stands for. A numeral with a zero in front is a text. -/
def natural? (t : Text) : Option Nat :=
  match unsigned t with
  | '0' :: 'x' :: rest => numeral? 16 rest
  | '0' :: 'o' :: rest => numeral? 8 rest
  | '0' :: 'b' :: rest => numeral? 2 rest
  | '0' :: _ :: _ => none
  | digits => numeral? 10 digits

/-- The natural number of 64 bits that a node stands for. -/
def nat? (n : Node) : Option Nat :=
  ((n.typed? "int").bind natural?).filter fun m => decide (m ≤ wordMax)

/-- The name that the tag of a node gives, if the tag is one of the document's own. -/
def variant? (n : Node) : Option Text :=
  n.properties.tag.bind fun tag =>
    match tag with
    | 0x21 :: name => Octets.toText? name
    | _ => none

end Node

end SqlDump.Yaml
