import SqlDump.Options
import SqlDump.Text.Utf8
import SqlDump.Yaml.Document

/-!
# Settings

The settings file of a run. Every setting may be left out, and a setting of another name counts
for nothing.
-/

namespace SqlDump

open Yaml

/-- The settings of a file. -/
structure Settings where
  mode : Option Mode := none
  pinned : List Text := []
  dropTables : Option Bool := none
  keepComments : Option Bool := none
  diagnosticsLimit : Option Nat := none
  deriving DecidableEq, Repr

namespace Settings

/-- The names of the settings. -/
inductive Key where
  | mode
  | pin
  | dropTables
  | keepComments
  | diagnosticsLimit
  deriving DecidableEq, Repr

/-- The setting of a name. -/
def Key.ofText? (t : Text) : Option Key :=
  match String.ofList t with
  | "mode" => some .mode
  | "pin" => some .pin
  | "drop_tables" => some .dropTables
  | "keep_comments" => some .keepComments
  | "diagnostics_limit" => some .diagnosticsLimit
  | _ => none

/-- A value that may be null; nothing if it is neither null nor such a value. -/
def nullable? {α : Type} (value? : Node → Option α) (n : Node) : Option (Option α) :=
  n.isNull?.bind fun isNull => if isNull then some none else (value? n).map some

/-- The mode of a name. -/
def modeOf? (name : Text) : Option Mode :=
  ([.full, .schema, .rows] : List Mode).find? (·.name == name)

/-- The mode that a text names, or that a tag names in front of no value. -/
def mode? (n : Node) : Option Mode :=
  match n.variant? with
  | some name => if n.isUnit then modeOf? name else none
  | none => n.text?.bind modeOf?

/-- The texts of a sequence of scalars. -/
def names? (root : Node) : Node → Option (List Text)
  | .sequence _ items => items.mapM fun item => (root.follow item).text?
  | n => if n.isEmpty then some [] else none

/-- The settings with one of them given by a node of a document. -/
def set? (s : Settings) (root : Node) (key : Key) (n : Node) : Option Settings :=
  let n := root.follow n
  match key with
  | .mode => (nullable? mode? n).map fun v => { s with mode := v }
  | .pin => (names? root n).map fun v => { s with pinned := v }
  | .dropTables => (nullable? Node.bool? n).map fun v => { s with dropTables := v }
  | .keepComments => (nullable? Node.bool? n).map fun v => { s with keepComments := v }
  | .diagnosticsLimit => (nullable? Node.nat? n).map fun v => { s with diagnosticsLimit := v }

/-- The settings with those of entries of a document, none of which may be among `seen` or come
twice. -/
def ofEntries? (root : Node) (seen : List Key) (s : Settings) :
    List (Node × Node) → Option Settings
  | [] => some s
  | (name, value) :: entries =>
    match (root.follow name).text? with
    | none => none
    | some name =>
      match Key.ofText? name with
      | none => ofEntries? root seen s entries
      | some key =>
        if seen.contains key then none
        else (s.set? root key value).bind fun s => ofEntries? root (key :: seen) s entries

/-- The settings of a document. -/
def ofNode? (root : Node) : Option Settings :=
  match root with
  | .mapping _ entries => ofEntries? root [] {} entries
  | _ => if root.isEmpty then some {} else none

/-- The settings of a file. -/
def parse? (t : Text) : Option Settings := (document? t).bind ofNode?

end Settings

end SqlDump
