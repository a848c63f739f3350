import SqlDump.Text.Basic

/-!
# Paths

A path names a file or folder by the folders on the way to it. What follows the last dot of a name
tells whether a file is compressed.
-/

namespace SqlDump

open Text

/-- A path in its parts. -/
structure Path where
  /-- Whether it begins at the root of the system and not in the working folder. -/
  absolute : Bool
  /-- The names on the way, the one of the folder itself and its parent's included. -/
  names : List Text
  /-- Whether it ends in a slash, as only the path of a folder does. -/
  slashed : Bool
  deriving DecidableEq, Repr

namespace Path

/-- The name that stands for the folder it is used in. -/
def here : Text := "."

/-- The name that stands for the folder above the one it is used in. -/
def above : Text := ".."

/-- The parts of a path as written. Slashes in a row count as one. -/
def ofText (t : Text) : Path where
  absolute := startsWith "/" t
  names := (split '/' t).filter (!·.isEmpty)
  slashed := t.getLast? == some '/'

/-- The names that lead somewhere. -/
def steps (p : Path) : List Text := p.names.filter (· != here)

/-- The name of what the path leads to, if it ends in one. -/
def name? (p : Path) : Option Text := p.steps.getLast?.filter (· != above)

/-- The path to the folder that holds what the path leads to. -/
def parent (p : Path) : Path := { p with names := p.steps.dropLast, slashed := false }

end Path

/-- How a file is compressed. -/
inductive Compression where
  | none
  | gzip
  | bzip2
  | xz
  | zstd
  deriving DecidableEq, Repr

namespace Compression

def name : Compression → Text
  | none => "none"
  | gzip => "gzip"
  | bzip2 => "bzip2"
  | xz => "xz"
  | zstd => "zstd"

/-- What follows the last dot of a name. A dot at the start only hides a file. -/
def extension? (name : Text) : Option Text :=
  let reversed := name.reverse
  match reversed.dropWhile (· != '.') with
  | '.' :: _ :: _ => some (reversed.takeWhile (· != '.')).reverse
  | _ => Option.none

/-- The compression that the name of a file tells. -/
def ofName (name : Text) : Compression :=
  match (extension? name).map fun e => String.ofList (lower e) with
  | some "gz" | some "gzip" => gzip
  | some "bz2" | some "bzip2" => bzip2
  | some "xz" | some "lzma" => xz
  | some "zst" | some "zstd" => zstd
  | _ => none

/-- The compression that the path of a file tells. -/
def ofPath (p : Path) : Compression :=
  match p.name? with
  | some name => ofName name
  | Option.none => none

end Compression

end SqlDump
