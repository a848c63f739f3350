import SqlDump.Files.Folder
import SqlDump.Files.Path

/-!
# Trees of files

The files and folders around a working folder. A place is the list of names that leads to it, one
outside begins with a slash or with the name of the folder above.

Main statement: `Tree.find?_put`, a file is found where it was put.
-/

namespace SqlDump

open Text

/-- The names from the working folder to a file or folder. -/
abbrev Place := List Text

namespace Place

/-- The place of the root of the system. -/
def root : Place := [['/']]

/-- Whether a place is the working folder or one above. -/
def isAbove (place : Place) : Bool := place.all (· == Path.above)

/-- The place of the folder that holds what is at a place. -/
def parent (place : Place) : Place :=
  if place.isAbove then place ++ [Path.above]
  else if place = root then root
  else place.dropLast

/-- Whether a place is in the working folder. -/
def isWithin (place : Place) : Bool := !(place.head? == some ['/'] || place.head? == some Path.above)

/-- The path to a place. -/
def text (place : Place) : Text :=
  match place with
  | ['/'] :: names => '/' :: join "/" names
  | names => join "/" names

end Place

/-- Files and folders by their places. -/
structure Tree where
  entries : List (Place × Entry) := []
  deriving DecidableEq, Repr

namespace Tree

/-- What is at a place. -/
def find? (t : Tree) (place : Place) : Option Entry :=
  if place.isAbove || place == Place.root then some .folder else t.entries.lookup place

/-- The tree with a file or folder at a place. -/
def put (t : Tree) (place : Place) (entry : Entry) : Tree := ⟨putEntry place entry t.entries⟩

/-- The place that names lead to from a place. What is there may be missing, but not the folders on
the way. -/
def walk (t : Tree) (place : Place) : List Text → Except FileError Place
  | [] => .ok place
  | name :: names =>
    match t.find? place with
    | none => .error .notFound
    | some (.file _) => .error .notFolder
    | some .folder =>
      if name = Path.here then t.walk place names
      else if name = Path.above then t.walk place.parent names
      else if maxNameSize < Text.size name then .error .nameTooLong
      else t.walk (place ++ [name]) names

/-- The place that a path begins at. -/
def startOf (p : Path) : Place := if p.absolute then Place.root else []

/-- The place that a path leads to. -/
def locate (t : Tree) (p : Path) : Except FileError Place := t.walk (startOf p) p.names

/-- What a path leads to. -/
def entry (t : Tree) (p : Path) : Except FileError Entry := do
  match t.find? (← t.locate p) with
  | none => .error .notFound
  | some .folder => .ok .folder
  | some (.file content) => if p.slashed then .error .notFolder else .ok (.file content)

/-- Whether a path leads to something. -/
def contains (t : Tree) (p : Path) : Bool := (t.entry p).toBool

/-- The content of a file. -/
def read (t : Tree) (p : Path) : Except FileError Octets := do
  match ← t.entry p with
  | .file content => .ok content
  | .folder => .error .isFolder

/-- The place of the file that a path leads to, which need not be there yet. -/
def filePlace (t : Tree) (p : Path) : Except FileError Place := do
  let place ← t.locate p
  if p.slashed then .error .isFolder
  else
    match t.find? place with
    | some .folder => .error .isFolder
    | _ => .ok place

/-- The tree with a file of the given content. -/
def write (t : Tree) (p : Path) (content : Octets) : Except FileError Tree :=
  (t.filePlace p).map fun place => t.put place (.file content)

/-- The tree with all folders on the way that names lead from a place, and the last of these
places. -/
def ensure (t : Tree) (place : Place) : List Text → Except FileError (Tree × Place)
  | [] => .ok (t, place)
  | name :: names =>
    if name = Path.above then t.ensure place.parent names
    else if maxNameSize < Text.size name then .error .nameTooLong
    else
      let place := place ++ [name]
      match t.find? place with
      | some .folder => t.ensure place names
      | some (.file _) => .error (if names.isEmpty then .exists else .notFolder)
      | none => (t.put place .folder).ensure place names

/-- The tree with the folder that a path leads to and all folders on the way. -/
def ensureFolder (t : Tree) (p : Path) : Except FileError (Tree × Place) :=
  t.ensure (startOf p) p.steps

/-- What is in the folder at a place. -/
def folder (t : Tree) (place : Place) : Folder where
  entries := t.entries.filterMap fun (p, e) =>
    match p.getLast? with
    | some name => if p.dropLast = place then some (name, e) else none
    | none => none

/-- The tree with the entries of a folder put at a place. -/
def putFolder (t : Tree) (place : Place) (f : Folder) : Tree :=
  f.entries.foldl (fun t (name, e) => t.put (place ++ [name]) e) t

/-- The tree of files given by paths, with the folders they need. Files that cannot be there are
left out. -/
def ofFiles (files : List (Text × Octets)) : Tree :=
  files.foldl (fun t (name, content) =>
    let path := Path.ofText name
    match t.ensureFolder path.parent with
    | .ok (t, _) => ((t.write path content).toOption).getD t
    | .error _ => t) {}

/-- A file is found where it was put. -/
theorem find?_put (t : Tree) {place : Place} (h : place.isAbove = false) (hr : place ≠ Place.root)
    (e : Entry) : (t.put place e).find? place = some e := by
  simp [find?, put, h, hr, lookup_putEntry]

end Tree

end SqlDump
