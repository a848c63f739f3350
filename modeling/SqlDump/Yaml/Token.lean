import SqlDump.Yaml.Tag

/-!
# YAML tokens

The indicators and scalars that a stream consists of. Where a block collection begins and ends is a
token too, though nothing is written there. Anchors are numbers here: a name stands for the number
that it was given last.
-/

namespace SqlDump.Yaml

/-- How a scalar is written. -/
inductive Style where
  | plain
  | quoted
  | literal
  | folded
  deriving DecidableEq, Repr

/-- A token of a stream. -/
inductive Token where
  /-- A `%YAML` directive. -/
  | version (major minor : Nat)
  /-- A `%TAG` directive, with a handle and its prefix. -/
  | handle (name : Text) (start : Octets)
  | documentStart
  | documentEnd
  | blockSequence
  | blockMapping
  | blockEnd
  | flowSequence
  | flowSequenceEnd
  | flowMapping
  | flowMappingEnd
  | flowEntry
  | blockEntry
  | key
  | value
  | reference (anchor : Nat)
  | anchor (number : Nat)
  | tag (tag : Tag)
  | scalar (style : Style) (text : Text)
  deriving DecidableEq, Repr

/-- The names of anchors, each with the number that it stands for. -/
abbrev Anchors := List (Text × Nat)

namespace Anchors

/-- The number that a name is given: how many other names there are, itself included if it is
one. -/
def number (as : Anchors) : Nat := as.length

/-- The names with one that stands for the next number. -/
def declare (as : Anchors) (name : Text) : Anchors :=
  (name, as.number) :: as.filter (·.1 != name)

/-- The number that a name stands for. -/
def find? (as : Anchors) (name : Text) : Option Nat := as.lookup name

end Anchors

end SqlDump.Yaml
