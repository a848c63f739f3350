import SqlDump.Csv.Record
import SqlDump.Files.Folder

/-!
# CSV files

The rows of each table go to a file of its own, which is created when the first of them is written.
A table is known by its lower-case name, the file is named after its first spelling.

Main statement: `Store.open?_of_writer`, a table that has a file gets no other.
-/

namespace SqlDump.Csv

open Text

/-- The name of a table, made fit for the name of a file. -/
def fileStem (table : Text) : Text :=
  let stem := table.map fun c =>
    if Unicode.isAlphabetic c || Unicode.isNumber c || c == '_' || c == '-' || c == '.' || c == '$'
    then c else '_'
  let stem := trimEndWhile (· == '.') (stem.dropWhile (· == '.'))
  if stem.isEmpty then ['_'] else stem

/-- The name of the file for a table. -/
def fileName (table : Text) : Text := fileStem table ++ ".csv"

/-- A CSV file that is being written. -/
structure Writer where
  file : Text
  /-- The octets written so far, which is the position of the next. -/
  written : Nat := 0
  /-- The octets still to be written. -/
  pending : Octets := []
  rows : Nat := 0
  deriving DecidableEq, Repr

/-- The folder of CSV files, and the open files by table. -/
structure Store where
  /-- The folder, once it exists. -/
  folder : Option Folder := none
  writers : List (Text × Writer) := []
  deriving DecidableEq, Repr

namespace Store

/-- The store with its folder made where it is missing. -/
def ensureFolder (s : Store) : Store := { s with folder := some (s.folder.getD {}) }

/-- The writer for a table. -/
def writer? (s : Store) (table : Text) : Option Writer := s.writers.lookup (lower table)

/-- The store with the writer of a key changed. -/
def update (s : Store) (key : Text) (f : Writer → Writer) : Store :=
  { s with writers := s.writers.map fun (k, w) => (k, if k = key then f w else w) }

/-- The store with a writer for a table. -/
def open? (s : Store) (table : Text) : Except FileError Store :=
  match s.writer? table with
  | some _ => .ok s
  | none =>
    match s.folder with
    | none => .error .notFound
    | some folder =>
      (folder.create (fileName table)).map fun folder =>
        { folder := some folder
          writers := s.writers ++ [(lower table, { file := fileName table })] }

/-- The store with records put behind those of a table. -/
def append (s : Store) (table : Text) (records : List (List Octets)) : Store :=
  s.update (lower table) fun w =>
    { w with
      pending := w.pending ++ records.flatMap encodeRecord
      rows := w.rows + records.length }

/-- Writes records for a table. -/
def write (s : Store) (table : Text) (records : List (List Octets)) : Except FileError Store :=
  (s.open? table).map fun s => s.append table records

/-- Writes out what the writer of a key still has to write. -/
def flushKey (s : Store) (key : Text) : Store :=
  match s.writers.lookup key, s.folder with
  | some w, some folder =>
    { s with folder := some (folder.overwrite w.file w.written w.pending) }.update key fun w =>
      { w with written := w.written + w.pending.length, pending := [] }
  | _, _ => s

/-- Writes out what a table still has to write. -/
def flush (s : Store) (table : Text) : Store := s.flushKey (lower table)

/-- Writes out what any table still has to write. -/
def flushAll (s : Store) : Store := s.writers.foldl (fun s (key, _) => s.flushKey key) s

/-- The files with the number of their rows, in the order of their names. -/
def files (s : Store) : List (Text × Nat) :=
  (s.writers.map fun (_, w) => (w.file, w.rows)).mergeSort fun a b =>
    decide (a.1 < b.1) || (a.1 == b.1 && decide (a.2 ≤ b.2))

/-- The number of tables with a file. -/
def size (s : Store) : Nat := s.writers.length

/-- The number of rows written. -/
def rows (s : Store) : Nat := s.writers.foldl (fun n (_, w) => n + w.rows) 0

/-- Writes the rows of a statement. A statement without rows makes no file. -/
def insert (s : Store) (i : Insert) (families : List TypeFamily) : Except FileError Store :=
  if i.rows.isEmpty then .ok s
  else
    (s.write i.table (i.rows.map (record families i.encoding))).map fun s => s.flush i.table

/-- A table that has a file gets no other. -/
theorem open?_of_writer {s : Store} {table : Text} (h : (s.writer? table).isSome) :
    s.open? table = .ok s := by
  obtain ⟨w, hw⟩ := Option.isSome_iff_exists.mp h
  simp [open?, hw]

end Store

end SqlDump.Csv
