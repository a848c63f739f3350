import SqlDump.Text.Utf8

/-!
# Folders

A folder holds files and other folders under their names. Writing is by position, so that two
writers on one file overwrite each other as they would on a disk.

Main statement: `overwrite_end`, writing at the end appends.
-/

namespace SqlDump

/-- Why a file could not be read or written. -/
inductive FileError where
  | notFound
  | exists
  | notFolder
  | isFolder
  | nameTooLong
  /-- The content of a file that has to be text is none. -/
  | notText
  deriving DecidableEq, Repr

/-- The message of the system for an error. -/
def FileError.message : FileError → Text
  | .notFound => "No such file or directory (os error 2)"
  | .exists => "File exists (os error 17)"
  | .notFolder => "Not a directory (os error 20)"
  | .isFolder => "Is a directory (os error 21)"
  | .nameTooLong => "File name too long (os error 36)"
  | .notText => "stream did not contain valid UTF-8"

/-- What a name in a folder stands for. -/
inductive Entry where
  | file (content : Octets)
  | folder
  deriving DecidableEq, Repr

/-- The longest name of a file, in octets. -/
def maxNameSize : Nat := 255

/-- The content with octets written from a position on. What lies before the position and was never
written is zero. -/
def overwrite (content : Octets) (position : Nat) (bs : Octets) : Octets :=
  if bs.isEmpty then content
  else
    content.take position ++ List.replicate (position - content.length) 0 ++ bs ++
      content.drop (position + bs.length)

theorem overwrite_end (content bs : Octets) :
    overwrite content content.length bs = content ++ bs := by
  simp only [overwrite]
  split
  · next h => simp [List.isEmpty_iff.mp h]
  · simp

/-- The entries with the one of a key replaced, or added at the end. -/
def putEntry {α : Type} [BEq α] (key : α) (entry : Entry) : List (α × Entry) → List (α × Entry)
  | [] => [(key, entry)]
  | (k, e) :: rest => if key == k then (key, entry) :: rest else (k, e) :: putEntry key entry rest

theorem lookup_putEntry {α : Type} [BEq α] [LawfulBEq α] (key : α) (entry : Entry)
    (entries : List (α × Entry)) : (putEntry key entry entries).lookup key = some entry := by
  induction entries with
  | nil => simp [putEntry]
  | cons head rest ih =>
    obtain ⟨k, e⟩ := head
    cases h : key == k with
    | true => simp [putEntry, h]
    | false => simp [putEntry, h, List.lookup_cons, ih]

/-- The files and folders in one folder. -/
structure Folder where
  entries : List (Text × Entry) := []
  deriving DecidableEq, Repr

namespace Folder

/-- What a name stands for. -/
def find? (f : Folder) (name : Text) : Option Entry := f.entries.lookup name

/-- The folder with a file of the given content. -/
def write (f : Folder) (name : Text) (content : Octets) : Folder :=
  ⟨putEntry name (.file content) f.entries⟩

/-- The content of a file. -/
def read? (f : Folder) (name : Text) : Option Octets :=
  match f.find? name with
  | some (.file content) => some content
  | _ => none

/-- The folder with an empty file of that name, which takes the place of an earlier one. -/
def create (f : Folder) (name : Text) : Except FileError Folder :=
  if maxNameSize < Text.size name then .error .nameTooLong
  else if f.find? name = some .folder then .error .isFolder
  else .ok (f.write name [])

/-- The folder with octets written into a file from a position on. -/
def overwrite (f : Folder) (name : Text) (position : Nat) (bs : Octets) : Folder :=
  f.write name (SqlDump.overwrite ((f.read? name).getD []) position bs)

theorem read?_write (f : Folder) (name : Text) (content : Octets) :
    (f.write name content).read? name = some content := by
  simp [read?, find?, write, lookup_putEntry]

end Folder

end SqlDump
