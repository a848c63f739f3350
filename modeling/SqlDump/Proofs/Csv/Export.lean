import Mathlib.Data.List.Forall2
import Mathlib.Data.List.Induction
import Mathlib.Data.List.Nodup
import Mathlib.Data.List.Perm.Subperm
import SqlDump.Csv.Store
import SqlDump.Proofs.Csv.Reading
import SqlDump.Proofs.Postgres.Insertion
import SqlDump.Proofs.Text.Items

/-!
# CSV files

Statements are written one after another into the files of their tables, in any interleaving of
tables and spellings of their names. A table with rows has one file, named after the spelling that
came first, and the file is read back as the rows of the table in order. That takes names that stay
apart as names of files: two tables of one file name overwrite each other.

Main statements: `Exported.insertAll`, what the statements leave in the folder and in the writers;
`Store.insertAll_writes`, the records that are written are those of the statements with rows;
`Store.insertAll_reads`, every file is read back as the rows of its table;
`Store.insertAll_size_iff`, there are as many files as tables exactly where no two names of files
meet.
-/

namespace SqlDump

open Text

section Folder

theorem lookup_putEntry_of_ne {α : Type} [BEq α] [LawfulBEq α] {key k : α} (h : k ≠ key)
    (entry : Entry) (entries : List (α × Entry)) :
    (putEntry key entry entries).lookup k = entries.lookup k := by
  have hk : (k == key) = false := beq_eq_false_iff_ne.mpr h
  induction entries with
  | nil =>
    rw [putEntry, List.lookup_cons, hk]
  | cons head rest ih =>
    obtain ⟨found, e⟩ := head
    rw [putEntry]
    split
    · next hkey =>
      rw [← eq_of_beq hkey, List.lookup_cons, List.lookup_cons, hk]
    · rw [List.lookup_cons, List.lookup_cons, ih]

theorem putEntry_of_lookup {α : Type} [BEq α] [LawfulBEq α] {key : α} {entry : Entry}
    {entries : List (α × Entry)} (h : entries.lookup key = some entry) :
    putEntry key entry entries = entries := by
  induction entries with
  | nil => cases h
  | cons head rest ih =>
    obtain ⟨found, e⟩ := head
    rw [List.lookup_cons] at h
    rw [putEntry]
    split
    · next hkey =>
      rw [hkey, Option.some.injEq] at h
      rw [eq_of_beq hkey, h]
    · next hkey =>
      rw [Bool.not_eq_true] at hkey
      rw [hkey] at h
      rw [ih h]

namespace Folder

variable {f : Folder} {name other : Text} {content : Octets}

/-- The names of the files and folders in a folder. -/
def names (f : Folder) : List Text := f.entries.map (·.1)

theorem mem_names : name ∈ f.names ↔ (f.find? name).isSome = true := by
  unfold names find?
  induction f.entries with
  | nil => simp
  | cons head rest ih =>
    obtain ⟨found, e⟩ := head
    rw [List.map_cons, List.mem_cons, List.lookup_cons, ih]
    by_cases h : name = found
    · simp [h]
    · simp [h, beq_eq_false_iff_ne.mpr h]

theorem names_write (f : Folder) (name : Text) (content : Octets) :
    (f.write name content).names = if name ∈ f.names then f.names else f.names ++ [name] := by
  unfold names write
  dsimp only
  induction f.entries with
  | nil => rfl
  | cons head rest ih =>
    obtain ⟨found, e⟩ := head
    rw [putEntry]
    by_cases h : name = found
    · simp [h]
    · have hbeq : (name == found) = false := beq_eq_false_iff_ne.mpr h
      rw [hbeq]
      simp only [Bool.false_eq_true, if_false, List.map_cons, ih, List.mem_cons, h, false_or]
      split <;> rfl

theorem nodup_names_write (h : f.names.Nodup) (name : Text) (content : Octets) :
    (f.write name content).names.Nodup := by
  rw [names_write]
  split
  · exact h
  · next hname =>
    refine List.nodup_append.mpr ⟨h, List.nodup_singleton _, ?_⟩
    rintro other hother b hb rfl
    exact hname (List.mem_singleton.mp hb ▸ hother)

theorem find?_write_of_ne (h : other ≠ name) (f : Folder) (content : Octets) :
    (f.write name content).find? other = f.find? other :=
  lookup_putEntry_of_ne h _ _

theorem read?_write_of_ne (h : other ≠ name) (f : Folder) (content : Octets) :
    (f.write name content).read? other = f.read? other := by
  rw [read?, read?, find?_write_of_ne h]

theorem find?_of_read? (h : f.read? name = some content) : f.find? name = some (.file content) := by
  unfold read? at h
  split at h
  · next found => rw [← Option.some.inj h, found]
  · cases h

/-- Writing nothing into a file changes nothing. -/
theorem overwrite_nil (h : f.read? name = some content) (position : Nat) :
    f.overwrite name position [] = f := by
  have hsame : SqlDump.overwrite content position [] = content := rfl
  rw [overwrite, h, Option.getD_some, hsame, write, putEntry_of_lookup (find?_of_read? h)]

theorem create_eq_ok {g : Folder} (h : f.create name = .ok g) : g = f.write name [] := by
  unfold create at h
  split at h
  · cases h
  split at h
  · cases h
  · exact (Except.ok.inj h).symm

end Folder

end Folder

namespace Csv

/-- The rows of a statement, and the families of their columns. -/
abbrev Export := Insert × List TypeFamily

/-- What a field says of a value in a column of the given family. -/
inductive Shows (family : TypeFamily) (encoding : Encoding) : Value → Octets → Prop
  | null : Shows family encoding .null []
  | zeroDate {s : Text} (temporal : family = .temporal) (zero : Postgres.ZeroDate s) :
      Shows family encoding (.text s) []
  | octets {s : Text} (binary : family = .binary) :
      Shows family encoding (.text s) (encoding.octets s)
  | text {s : Text} (text : family ≠ .binary)
      (nonzero : family = .temporal → ¬Postgres.ZeroDate s) :
      Shows family encoding (.text s) (.ofText s)
  | bare {token : Text} : Shows family encoding (.bare token) (.ofText token)

theorem shows_field (v : Value) (family : TypeFamily) (encoding : Encoding) :
    Shows family encoding v (field v family encoding) := by
  cases v with
  | null => exact .null
  | bare token => exact .bare
  | text s =>
    unfold field
    dsimp only
    split
    · next h => exact .zeroDate h.1 ((Postgres.isZeroDate_iff s).mp h.2)
    · next h =>
      split
      · next hb => exact .octets hb
      · next hb => exact .text hb fun ht hz => h ⟨ht, (Postgres.isZeroDate_iff s).mpr hz⟩

/-- A row with the families of its columns and the encoding it was read in. -/
structure PlacedRow where
  families : List TypeFamily
  encoding : Encoding
  row : Row

/-- A field for every value of a row, in order. A row without values shows as one empty field. -/
structure PlacedRow.Shows (r : PlacedRow) (fields : List Octets) : Prop where
  length : r.row ≠ [] → fields.length = r.row.length
  field : ∀ (k : Nat) (v : Value) (f : Octets), r.row[k]? = some v → fields[k]? = some f →
    Csv.Shows (r.families.getD k .other) r.encoding v f
  none : r.row = [] → fields = [[]]

/-- The record that is written for a row. -/
def PlacedRow.record (r : PlacedRow) : List Octets := Csv.record r.families r.encoding r.row

theorem PlacedRow.shows_record (r : PlacedRow) : r.Shows (shown r.record) := by
  by_cases h : r.row = []
  · have hrecord : shown r.record = [[]] := by
      rw [PlacedRow.record, Csv.record, h]
      rfl
    rw [hrecord]
    refine ⟨fun hne => absurd h hne, fun k v f hv _ => ?_, fun _ => rfl⟩
    rw [h] at hv
    cases hv
  · have hrecord : shown r.record = Csv.record r.families r.encoding r.row := by
      have hne : r.record.isEmpty = false := by
        rw [PlacedRow.record, Csv.record, List.isEmpty_eq_false_iff, ne_eq, List.mapIdx_eq_nil_iff]
        exact h
      rw [shown, hne]
      rfl
    rw [hrecord]
    refine ⟨fun _ => List.length_mapIdx, fun k v f hv hf => ?_, fun hnil => absurd hnil h⟩
    simp only [Csv.record, List.getElem?_mapIdx, hv, Option.map_some, Option.some.injEq] at hf
    subst hf
    exact shows_field v _ _

/-- The rows for a table, known by its lower-case name, in the order of the statements. -/
def rowsFor (key : Text) (exports : List Export) : List PlacedRow :=
  (exports.filter fun e => lower e.1.table = key).flatMap fun e =>
    e.1.rows.map fun row => ⟨e.2, e.1.encoding, row⟩

/-- The octets of a table's file. -/
def contentFor (key : Text) (exports : List Export) : Octets :=
  ((rowsFor key exports).map PlacedRow.record).flatMap encodeRecord

/-- The spelling of a table's name in the first statement that has rows for it. -/
def IsFirstSpelling (exports : List Export) (name : Text) : Prop :=
  ∃ before e after, exports = before ++ e :: after ∧ e.1.table = name ∧ e.1.rows ≠ [] ∧
    ∀ b ∈ before, b.1.rows ≠ [] → lower b.1.table ≠ lower name

/-- The names with one more, unless it is there in any spelling. -/
def addSpelling (names : List Text) (table : Text) : List Text :=
  if lower table ∈ names.map lower then names else names ++ [table]

/-- The names of the tables with rows, each in its first spelling. -/
def spellings (exports : List Export) : List Text :=
  exports.foldl (fun names e => if e.1.rows.isEmpty then names else addSpelling names e.1.table) []

section Spellings

variable {exports : List Export} {e : Export} {name key : Text} {names : List Text}

theorem rowsFor_append (key : Text) (exports more : List Export) :
    rowsFor key (exports ++ more) = rowsFor key exports ++ rowsFor key more := by
  rw [rowsFor, List.filter_append, List.flatMap_append]
  rfl

theorem rowsFor_singleton (key : Text) (e : Export) :
    rowsFor key [e] =
      if lower e.1.table = key then e.1.rows.map fun row => ⟨e.2, e.1.encoding, row⟩ else [] := by
  unfold rowsFor
  by_cases h : lower e.1.table = key <;> simp [h]

theorem spellings_append (exports : List Export) (e : Export) :
    spellings (exports ++ [e]) =
      if e.1.rows.isEmpty then spellings exports
      else addSpelling (spellings exports) e.1.table := by
  rw [spellings, List.foldl_append]
  rfl

theorem nodup_addSpelling (h : (names.map lower).Nodup) (table : Text) :
    ((addSpelling names table).map lower).Nodup := by
  unfold addSpelling
  split
  · exact h
  · next hnew =>
    rw [List.map_append]
    refine List.nodup_append.mpr ⟨h, List.nodup_singleton _, ?_⟩
    rintro a ha b hb rfl
    exact hnew (List.mem_singleton.mp hb ▸ ha)

theorem mem_map_lower_addSpelling (names : List Text) (table : Text) :
    lower table ∈ (addSpelling names table).map lower := by
  unfold addSpelling
  split
  · next h => exact h
  · simp

theorem nodup_spellings (exports : List Export) : ((spellings exports).map lower).Nodup := by
  induction exports using List.reverseRecOn with
  | nil => exact List.nodup_nil
  | append_singleton exports e ih =>
    rw [spellings_append]
    split
    · exact ih
    · exact nodup_addSpelling ih _

/-- A table is among the names exactly if it has rows. -/
theorem mem_map_lower_spellings :
    key ∈ (spellings exports).map lower ↔ ∃ e ∈ exports, e.1.rows ≠ [] ∧ lower e.1.table = key := by
  induction exports using List.reverseRecOn with
  | nil => simp [spellings]
  | append_singleton exports e ih =>
    have hold : (∃ b ∈ exports ++ [e], b.1.rows ≠ [] ∧ lower b.1.table = key) ↔
        key ∈ (spellings exports).map lower ∨ (e.1.rows ≠ [] ∧ lower e.1.table = key) := by
      rw [ih]
      simp only [List.mem_append, List.mem_singleton, or_and_right, exists_or, exists_eq_left]
    rw [hold, spellings_append]
    split
    · next h => simp [List.isEmpty_iff.mp h]
    · next h =>
      have hrows : e.1.rows ≠ [] := by simpa using h
      unfold addSpelling
      split
      · next hthere =>
        refine ⟨.inl, fun h => h.elim id ?_⟩
        rintro ⟨-, rfl⟩
        exact hthere
      · simp [hrows, eq_comm]

/-- A table without rows has no octets. -/
theorem rowsFor_eq_nil (h : key ∉ (spellings exports).map lower) : rowsFor key exports = [] := by
  rw [rowsFor, List.flatMap_eq_nil_iff]
  intro e he
  obtain ⟨he, hkey⟩ := List.mem_filter.mp he
  by_cases hrows : e.1.rows = []
  · rw [hrows, List.map_nil]
  · exact absurd (mem_map_lower_spellings.mpr ⟨e, he, hrows, of_decide_eq_true hkey⟩) h

theorem mem_spellings : name ∈ spellings exports ↔ IsFirstSpelling exports name := by
  induction exports using List.reverseRecOn with
  | nil =>
    refine ⟨fun h => absurd h List.not_mem_nil, ?_⟩
    rintro ⟨before, e, after, h, -⟩
    cases before <;> cases h
  | append_singleton exports e ih =>
    have hlast : IsFirstSpelling (exports ++ [e]) name ↔ IsFirstSpelling exports name ∨
        (e.1.table = name ∧ e.1.rows ≠ [] ∧ lower name ∉ (spellings exports).map lower) := by
      rw [mem_map_lower_spellings]
      constructor
      · rintro ⟨before, b, after, h, hname, hrows, hfirst⟩
        rcases List.eq_nil_or_concat after with rfl | ⟨after, last, rfl⟩
        · obtain ⟨rfl, hb⟩ := List.append_inj' h rfl
          cases hb
          refine .inr ⟨hname, hrows, ?_⟩
          rintro ⟨b, hb, hbrows, hbkey⟩
          exact hfirst b hb hbrows hbkey
        · rw [List.concat_eq_append, ← List.cons_append, ← List.append_assoc] at h
          obtain ⟨rfl, -⟩ := List.append_inj' h rfl
          exact .inl ⟨before, b, after, rfl, hname, hrows, hfirst⟩
      · rintro (⟨before, b, after, rfl, h⟩ | ⟨hname, hrows, hfirst⟩)
        · exact ⟨before, b, after ++ [e], by simp, h⟩
        · exact ⟨exports, e, [], rfl, hname, hrows, fun b hb hbrows hkey =>
            hfirst ⟨b, hb, hbrows, hkey⟩⟩
    rw [hlast, ← ih, spellings_append]
    split
    · next h => simp [List.isEmpty_iff.mp h]
    · next h =>
      have hrows : e.1.rows ≠ [] := by simpa using h
      unfold addSpelling
      split
      · next hthere =>
        refine ⟨.inl, fun h => h.elim id ?_⟩
        rintro ⟨rfl, -, hnew⟩
        exact absurd hthere hnew
      · next hnew =>
        rw [List.mem_append, List.mem_singleton]
        refine or_congr_right ⟨?_, fun h => h.1.symm⟩
        rintro rfl
        exact ⟨rfl, hrows, hnew⟩

end Spellings

theorem contentFor_append (key : Text) (exports more : List Export) :
    contentFor key (exports ++ more) = contentFor key exports ++ contentFor key more := by
  rw [contentFor, rowsFor_append, List.map_append, List.flatMap_append]
  rfl

/-- The records that are written for a statement. -/
def recordsOf (e : Export) : List (List Octets) := e.1.rows.map (record e.2 e.1.encoding)

theorem contentFor_singleton (key : Text) (e : Export) :
    contentFor key [e] =
      if lower e.1.table = key then (recordsOf e).flatMap encodeRecord else [] := by
  rw [contentFor, rowsFor_singleton]
  split
  · rw [List.map_map]
    rfl
  · rfl

/-- The writer of a table behind the statements, which has written everything out. -/
def writerFor (exports : List Export) (name : Text) : Writer where
  file := fileName name
  written := (contentFor (lower name) exports).length
  rows := (rowsFor (lower name) exports).length

/-- A writer with records that it still has to write. -/
def Writer.appended (w : Writer) (records : List (List Octets)) : Writer :=
  { w with
    pending := w.pending ++ records.flatMap encodeRecord
    rows := w.rows + records.length }

/-- A writer that has written everything out. -/
def Writer.flushed (w : Writer) : Writer :=
  { w with written := w.written + w.pending.length, pending := [] }

/-- The writer goes on behind the records of a statement for its table. -/
theorem flushed_appended_writerFor {e : Export} {name : Text}
    (h : lower name = lower e.1.table) (exports : List Export) :
    ((writerFor exports name).appended (recordsOf e)).flushed =
      writerFor (exports ++ [e]) name := by
  simp only [writerFor, Writer.appended, Writer.flushed, contentFor_append, contentFor_singleton,
    rowsFor_append, rowsFor_singleton, if_pos h.symm, List.length_append, List.length_map,
    recordsOf,
    List.nil_append]

theorem writerFor_append_of_ne {e : Export} {name : Text} (h : lower name ≠ lower e.1.table)
    (exports : List Export) : writerFor (exports ++ [e]) name = writerFor exports name := by
  simp only [writerFor, contentFor_append, contentFor_singleton, rowsFor_append, rowsFor_singleton,
    if_neg (Ne.symm h), List.append_nil]

/-- A folder with a file for each of the names. Where no two of them have one file, each file holds
the rows of its table. Everything else is as it was before. -/
structure Stored (before : Folder) (names : List Text) (exports : List Export) (f : Folder) :
    Prop where
  file : ∀ name ∈ names, (f.read? (fileName name)).isSome = true
  content : (names.map fileName).Nodup → ∀ name ∈ names,
    f.read? (fileName name) = some (contentFor (lower name) exports)
  other : ∀ n, n ∉ names.map fileName → f.find? n = before.find? n
  nodup : before.names.Nodup → f.names.Nodup

/-- A store behind the statements: a writer for each table, and their files in the folder. -/
structure Exported (before : Folder) (names : List Text) (exports : List Export) (s : Store) :
    Prop where
  writers : s.writers = names.map fun name => (lower name, writerFor exports name)
  nodup : (names.map lower).Nodup
  folder : ∃ f, s.folder = some f ∧ Stored before names exports f

section Stored

variable {before f : Folder} {names : List Text} {exports : List Export} {e : Export}
  {name table : Text}

/-- An empty file for a table without rows. -/
theorem Stored.create (h : Stored before names exports f)
    (hnew : rowsFor (lower table) exports = []) :
    Stored before (names ++ [table]) exports (f.write (fileName table) []) := by
  refine ⟨fun name hname => ?_, fun hnodup name hname => ?_, fun n hn => ?_, fun hbefore => ?_⟩
  · by_cases hfile : fileName name = fileName table
    · rw [hfile, Folder.read?_write]
      rfl
    · rw [Folder.read?_write_of_ne hfile]
      rcases List.mem_append.mp hname with hname | hname
      · exact h.file name hname
      · exact absurd (congrArg fileName (List.mem_singleton.mp hname)) hfile
  · rw [List.map_append, List.nodup_append] at hnodup
    rcases List.mem_append.mp hname with hname | hname
    · have hfile : fileName name ≠ fileName table :=
        hnodup.2.2 _ (List.mem_map_of_mem hname) _ (by simp)
      rw [Folder.read?_write_of_ne hfile]
      exact h.content hnodup.1 name hname
    · rw [List.mem_singleton.mp hname, Folder.read?_write, contentFor, hnew]
      rfl
  · rw [List.map_append, List.mem_append, not_or] at hn
    have hfile : n ≠ fileName table := by simpa using hn.2
    rw [Folder.find?_write_of_ne hfile]
    exact h.other n hn.1
  · exact Folder.nodup_names_write (h.nodup hbefore) _ _

/-- The records of a statement behind the rows that its table has. -/
theorem Stored.overwrite (h : Stored before names exports f) (hname : name ∈ names)
    (hkey : lower name = lower e.1.table) (hlower : (names.map lower).Nodup) :
    Stored before names (exports ++ [e]) (f.overwrite (fileName name)
      (contentFor (lower name) exports).length ((recordsOf e).flatMap encodeRecord)) := by
  unfold Folder.overwrite
  refine ⟨fun other hother => ?_, fun hnodup other hother => ?_, fun n hn => ?_, fun hbefore => ?_⟩
  · by_cases hfile : fileName other = fileName name
    · rw [hfile, Folder.read?_write]
      rfl
    · rw [Folder.read?_write_of_ne hfile]
      exact h.file other hother
  · rw [contentFor_append, contentFor_singleton]
    by_cases hsame : other = name
    · subst hsame
      rw [Folder.read?_write, h.content hnodup other hother, Option.getD_some, overwrite_end,
        if_pos hkey.symm]
    · have hfile : fileName other ≠ fileName name := fun he =>
        hsame (List.inj_on_of_nodup_map hnodup hother hname he)
      have hne : lower e.1.table ≠ lower other := fun he =>
        hsame (List.inj_on_of_nodup_map hlower hother hname (he.symm.trans hkey.symm))
      rw [Folder.read?_write_of_ne hfile, if_neg hne, List.append_nil]
      exact h.content hnodup other hother
  · have hfile : n ≠ fileName name := by
      rintro rfl
      exact hn (List.mem_map_of_mem hname)
    rw [Folder.find?_write_of_ne hfile]
    exact h.other n hn
  · exact Folder.nodup_names_write (h.nodup hbefore) _ _

end Stored

theorem lookup_map_lower {names : List Text} {key : Text} (g : Text → Writer)
    (h : key ∈ names.map lower) : ∃ name ∈ names, lower name = key ∧
      (names.map fun name => (lower name, g name)).lookup key = some (g name) := by
  induction names with
  | nil => cases h
  | cons name names ih =>
    rw [List.map_cons, List.lookup_cons]
    by_cases hkey : key = lower name
    · exact ⟨name, List.mem_cons_self, hkey.symm, by simp [hkey]⟩
    · obtain ⟨found, hfound, hlower, hlookup⟩ := ih (List.mem_of_ne_of_mem hkey h)
      refine ⟨found, List.mem_cons_of_mem name hfound, hlower, ?_⟩
      rw [beq_eq_false_iff_ne.mpr hkey]
      exact hlookup

theorem lookup_map_lower_eq_none {names : List Text} {key : Text} (g : Text → Writer)
    (h : key ∉ names.map lower) :
    (names.map fun name => (lower name, g name)).lookup key = none := by
  rw [List.lookup_eq_none_iff]
  intro p hp
  obtain ⟨name, hname, rfl⟩ := List.mem_map.mp hp
  have hne : key ≠ lower name := fun he => h (List.mem_map.mpr ⟨name, hname, he.symm⟩)
  simpa using hne

namespace Store

variable {s : Store} {table : Text}

theorem writers_update {names : List Text} {g : Text → Writer}
    (h : s.writers = names.map fun name => (lower name, g name)) (key : Text)
    (f : Writer → Writer) :
    (s.update key f).writers =
      names.map fun name => (lower name, if lower name = key then f (g name) else g name) := by
  rw [update, h, List.map_map]
  rfl

theorem append_eq (s : Store) (table : Text) (records : List (List Octets)) :
    s.append table records = s.update (lower table) fun w => w.appended records :=
  rfl

/-- What a table still has to write goes to where its writer stands. -/
theorem flush_eq {w : Writer} {f : Folder} (hw : s.writer? table = some w)
    (hf : s.folder = some f) :
    s.flush table =
      ({ s with folder := some (f.overwrite w.file w.written w.pending) } : Store).update
        (lower table) Writer.flushed := by
  have hlookup : s.writers.lookup (lower table) = some w := hw
  rw [flush, flushKey, hlookup, hf]
  rfl

end Store

namespace Exported

variable {before : Folder} {names : List Text} {exports : List Export} {e : Export} {s s' : Store}
  {table : Text}

theorem start (f : Option Folder) :
    Exported (f.getD {}) [] [] (Store.ensureFolder { folder := f }) where
  writers := rfl
  nodup := List.nodup_nil
  folder := ⟨f.getD {}, rfl, by simp, by simp, fun _ _ => rfl, id⟩

/-- Only the rows of the statements matter. -/
theorem congr (h : Exported before names exports s) {more : List Export}
    (same : ∀ key, rowsFor key more = rowsFor key exports) : Exported before names more s := by
  have hcontent : ∀ key, contentFor key more = contentFor key exports := fun key => by
    rw [contentFor, contentFor, same]
  have hwriter : ∀ name, writerFor more name = writerFor exports name := fun name => by
    rw [writerFor, writerFor, same, hcontent]
  obtain ⟨f, hf, hfile, hstored, hother, hnodup⟩ := h.folder
  refine ⟨?_, h.nodup, f, hf, hfile, ?_, hother, hnodup⟩
  · simp only [hwriter]
    exact h.writers
  · simp only [hcontent]
    exact hstored

/-- A table without a file gets an empty one. -/
theorem open? (h : Exported before names exports s) (ho : s.open? table = .ok s')
    (hnew : lower table ∉ names.map lower → rowsFor (lower table) exports = []) :
    Exported before (addSpelling names table) exports s' := by
  by_cases hthere : lower table ∈ names.map lower
  · obtain ⟨name, -, -, hlookup⟩ := lookup_map_lower (writerFor exports) hthere
    have hwriter : (s.writer? table).isSome = true := by
      rw [Store.writer?, h.writers, hlookup]
      rfl
    rw [Store.open?_of_writer hwriter] at ho
    rw [addSpelling, if_pos hthere, ← Except.ok.inj ho]
    exact h
  obtain ⟨f, hf, hstored⟩ := h.folder
  have hwriter : s.writer? table = none := by
    rw [Store.writer?, h.writers, lookup_map_lower_eq_none _ hthere]
  rw [Store.open?, hwriter, hf] at ho
  dsimp only at ho
  cases hcreate : f.create (fileName table) with
  | error error =>
    rw [hcreate] at ho
    cases ho
  | ok g =>
    rw [hcreate] at ho
    obtain rfl := Except.ok.inj ho
    obtain rfl := Folder.create_eq_ok hcreate
    have hempty : contentFor (lower table) exports = [] := by
      rw [contentFor, hnew hthere]
      rfl
    have hnodup := nodup_addSpelling h.nodup table
    rw [addSpelling, if_neg hthere] at hnodup ⊢
    refine ⟨?_, hnodup, _, rfl, hstored.create (hnew hthere)⟩
    rw [List.map_append, List.map_singleton, h.writers, writerFor, hempty, hnew hthere]
    rfl

/-- The records of a statement are put behind those that its table has. -/
theorem append_flush (h : Exported before names exports s)
    (hthere : lower e.1.table ∈ names.map lower) :
    Exported before names (exports ++ [e])
      ((s.append e.1.table (recordsOf e)).flush e.1.table) := by
  obtain ⟨f, hf, hstored⟩ := h.folder
  have hwriters :=
    Store.writers_update h.writers (lower e.1.table) fun w => w.appended (recordsOf e)
  rw [← Store.append_eq] at hwriters
  obtain ⟨name, hname, hkey, hlookup⟩ := lookup_map_lower (fun name =>
    if lower name = lower e.1.table then (writerFor exports name).appended (recordsOf e)
    else writerFor exports name) hthere
  have hwriter : (s.append e.1.table (recordsOf e)).writer? e.1.table =
      some ((writerFor exports name).appended (recordsOf e)) := by
    rw [Store.writer?, hwriters, hlookup, if_pos hkey]
  rw [Store.flush_eq hwriter hf]
  refine ⟨?_, h.nodup, _, rfl, hstored.overwrite hname hkey h.nodup⟩
  refine (Store.writers_update (s := { s.append _ _ with folder := _ }) hwriters _ _).trans ?_
  refine List.map_congr_left fun other _ => ?_
  by_cases hother : lower other = lower e.1.table
  · simp only [if_pos hother, flushed_appended_writerFor hother]
  · simp only [if_neg hother, writerFor_append_of_ne hother]

/-- One statement. -/
theorem insert (h : Exported before (spellings exports) exports s)
    (hi : s.insert e.1 e.2 = .ok s') :
    Exported before (spellings (exports ++ [e])) (exports ++ [e]) s' := by
  rw [Store.insert] at hi
  rw [spellings_append]
  by_cases hrows : e.1.rows.isEmpty = true
  · rw [if_pos hrows] at hi ⊢
    obtain rfl := Except.ok.inj hi
    refine h.congr fun key => ?_
    rw [rowsFor_append, rowsFor_singleton, List.isEmpty_iff.mp hrows]
    simp
  · rw [if_neg hrows] at hi ⊢
    rw [Store.write] at hi
    cases ho : s.open? e.1.table with
    | error error =>
      rw [ho] at hi
      cases hi
    | ok opened =>
      rw [ho] at hi
      obtain rfl := Except.ok.inj hi
      exact (h.open? ho rowsFor_eq_nil).append_flush (mem_map_lower_addSpelling _ _)

end Exported

namespace Store

/-- Writes the rows of statements one after another. -/
def insertAll (s : Store) (exports : List Export) : Except FileError Store :=
  exports.foldlM (fun s e => s.insert e.1 e.2) s

/-- Writes records for tables one after another. -/
def writeAll (s : Store) (batches : List (Text × List (List Octets))) : Except FileError Store :=
  batches.foldlM (fun s b => (s.write b.1 b.2).map (·.flush b.1)) s

end Store

/-- All statements. -/
theorem Exported.insertAll {before : Folder} {done exports : List Export} {s s' : Store}
    (h : Exported before (spellings done) done s) (hall : s.insertAll exports = .ok s') :
    Exported before (spellings (done ++ exports)) (done ++ exports) s' := by
  induction exports generalizing done s with
  | nil =>
    obtain rfl := Except.ok.inj hall
    rwa [List.append_nil]
  | cons e exports ih =>
    rw [Store.insertAll, List.foldlM_cons] at hall
    cases hi : s.insert e.1 e.2 with
    | error error =>
      rw [hi] at hall
      cases hall
    | ok next =>
      rw [hi] at hall
      have hrest := ih (h.insert hi) hall
      rwa [List.append_assoc] at hrest

theorem Exported.of_insertAll {folder : Option Folder} {exports : List Export} {s : Store}
    (hall : (Store.ensureFolder { folder }).insertAll exports = .ok s) :
    Exported (folder.getD {}) (spellings exports) exports s := by
  have hstart : Exported (folder.getD {}) (spellings []) [] (Store.ensureFolder { folder }) :=
    .start folder
  have h := hstart.insertAll hall
  rwa [List.nil_append] at h

section FileNames

/-- A CSV file lies in the folder itself. -/
theorem slash_not_mem_fileName (table : Text) : '/' ∉ fileName table := by
  have hslash : (Unicode.isAlphabetic '/' || Unicode.isNumber '/' || '/' == '_' || '/' == '-' ||
      '/' == '.' || '/' == '$') = false := by
    decide
  have hstem : '/' ∉ fileStem table := by
    unfold fileStem
    dsimp only
    split
    · decide
    · intro h
      have hmem := (List.dropWhile_suffix _).subset (mem_of_mem_trimEndWhile h)
      obtain ⟨c, -, hc⟩ := List.mem_map.mp hmem
      split at hc
      · next hkept =>
        rw [hc, hslash] at hkept
        cases hkept
      · exact absurd hc (by decide)
  rw [fileName, List.mem_append, not_or]
  exact ⟨hstem, by decide⟩

theorem fileName_inj {a b : Text} : fileName a = fileName b ↔ fileStem a = fileStem b := by
  rw [fileName, fileName]
  exact List.append_left_inj _

/-- Different tables have different names of files. -/
def Apart (names : List Text) : Prop :=
  ∀ a ∈ names, ∀ b ∈ names, lower a ≠ lower b → fileStem a ≠ fileStem b

instance : DecidablePred Apart := fun names =>
  inferInstanceAs
    (Decidable (∀ a ∈ names, ∀ b ∈ names, lower a ≠ lower b → fileStem a ≠ fileStem b))

theorem apart_iff {names : List Text} (h : (names.map lower).Nodup) :
    Apart names ↔ (names.map fileName).Nodup := by
  constructor
  · intro hapart
    refine List.Nodup.map_on (fun a ha b hb hfile => ?_) (List.Nodup.of_map _ h)
    by_contra hne
    have hlower : lower a ≠ lower b := fun he => hne (List.inj_on_of_nodup_map h ha hb he)
    exact hapart a ha b hb hlower (fileName_inj.mp hfile)
  · intro hnodup a ha b hb hlower hstem
    have hsame := List.inj_on_of_nodup_map hnodup ha hb (fileName_inj.mpr hstem)
    exact hlower (congrArg lower hsame)

end FileNames

namespace Store

variable {s : Store} {before : Folder} {names : List Text} {exports : List Export}

/-- A table that has nothing to write writes nothing. -/
theorem flush_eq_self (h : Exported before names exports s) {name : Text} (hname : name ∈ names) :
    s.flush name = s := by
  obtain ⟨f, hf, hstored⟩ := h.folder
  obtain ⟨other, hother, hkey, hlookup⟩ :=
    lookup_map_lower (writerFor exports) (List.mem_map_of_mem hname)
  have hwriter : s.writer? name = some (writerFor exports other) := by
    rw [writer?, h.writers, hlookup]
  obtain ⟨content, hcontent⟩ := Option.isSome_iff_exists.mp (hstored.file other hother)
  have hwriters : (s.update (lower name) Writer.flushed).writers = s.writers := by
    refine (writers_update h.writers _ _).trans ?_
    rw [h.writers]
    refine List.map_congr_left fun other _ => ?_
    simp [Writer.flushed, writerFor]
  have hupdate : s.update (lower name) Writer.flushed =
      { s with writers := (s.update (lower name) Writer.flushed).writers } := rfl
  rw [flush_eq hwriter hf, writerFor, Folder.overwrite_nil hcontent, ← hf, hupdate, hwriters]

/-- Nothing is left to write at the end. -/
theorem flushAll_eq (h : Exported before names exports s) : s.flushAll = s := by
  have hkeys : ∀ p ∈ s.writers, s.flushKey p.1 = s := by
    rw [h.writers]
    intro p hp
    obtain ⟨name, hname, rfl⟩ := List.mem_map.mp hp
    exact flush_eq_self h hname
  unfold flushAll
  generalize s.writers = writers at hkeys
  induction writers with
  | nil => rfl
  | cons p writers ih =>
    obtain ⟨key, w⟩ := p
    have hkey : s.flushKey key = s := hkeys (key, w) List.mem_cons_self
    simp only [List.foldl_cons, hkey]
    exact ih fun q hq => hkeys q (List.mem_cons_of_mem _ hq)

theorem files_perm (h : Exported before names exports s) :
    s.files.Perm
      (names.map fun name => (fileName name, (rowsFor (lower name) exports).length)) := by
  rw [files, h.writers, List.map_map]
  exact List.mergeSort_perm _ _

/-- Where different tables have different names of files, each file is read back as the rows of its
table in order, and the rest of the folder is as it was. -/
theorem reads_of_exported (h : Exported before (spellings exports) exports s)
    (hapart : Apart (exports.map (·.1.table))) :
    ∃ after, s.folder = some after ∧ ((spellings exports).map fileName).Nodup ∧
      (∀ name ∈ spellings exports, ∃ content records,
        after.read? (fileName name) = some content ∧ read? content = some records ∧
        List.Forall₂ PlacedRow.Shows (rowsFor (lower name) exports) records) ∧
      ∀ n, n ∉ (spellings exports).map fileName → after.find? n = before.find? n := by
  have htables : Apart (spellings exports) := by
    intro a ha b hb
    obtain ⟨_, e, _, rfl, rfl, -⟩ := mem_spellings.mp ha
    obtain ⟨_, d, _, hd, rfl, -⟩ := mem_spellings.mp hb
    exact hapart _ (List.mem_map_of_mem (by simp)) _
      (List.mem_map_of_mem (f := fun e : Export => e.1.table) (hd ▸ by simp))
  have hnodup := (apart_iff (nodup_spellings exports)).mp htables
  obtain ⟨after, hafter, hstored⟩ := h.folder
  refine ⟨after, hafter, hnodup, fun name hname => ?_, hstored.other⟩
  refine ⟨_, _, hstored.content hnodup name hname, read?_encodeRecord _, ?_⟩
  rw [List.map_map, List.forall₂_map_right_iff, List.forall₂_same]
  exact fun r _ => r.shows_record

/-- Statements written one after another into CSV files, where different tables have different
names of files. Each table with rows has one file, named after its first spelling, in the folder
itself. The file is read back as the rows of the table in order, and counted as so many rows. The
rest of the folder is as it was. -/
theorem insertAll_reads {folder : Option Folder}
    (hall : (ensureFolder { folder }).insertAll exports = .ok s)
    (hapart : Apart (exports.map (·.1.table))) :
    ∃ (after : Folder) (names : List Text), s.flushAll.folder = some after ∧
      (∀ name, name ∈ names ↔ IsFirstSpelling exports name) ∧
      (names.map fileName).Nodup ∧
      (∀ name ∈ names, '/' ∉ fileName name ∧
        ∃ content records, after.read? (fileName name) = some content ∧
          read? content = some records ∧
          List.Forall₂ PlacedRow.Shows (rowsFor (lower name) exports) records) ∧
      (∀ n, n ∉ names.map fileName → after.find? n = (folder.getD {}).find? n) ∧
      s.flushAll.files.Perm
        (names.map fun name => (fileName name, (rowsFor (lower name) exports).length)) := by
  have h := Exported.of_insertAll hall
  obtain ⟨after, hafter, hnodup, hreads, hother⟩ := reads_of_exported h hapart
  rw [flushAll_eq h]
  exact ⟨after, spellings exports, hafter, fun _ => mem_spellings, hnodup,
    fun name hname => ⟨slash_not_mem_fileName name, hreads name hname⟩, hother, files_perm h⟩

/-- Two spellings of one table around another table, with a comma and a quote, a null, a zero date
and an ending of a line among the values. -/
def interleaved : List Export :=
  [(⟨"Users", none, [[.text "a,\"b", .null], [.text "0000-00-00", .bare "1"]], none, .utf8⟩,
      [.temporal, .integer]),
    (⟨"log/x", none, [[.text ""]], none, .utf8⟩, [.text]),
    (⟨"users", none, [[.text "2020-01-01\r\n", .bare "2"]], none, .utf8⟩, [.temporal, .integer])]

theorem insertAll_reads_interleaved :
    ∃ (s : Store) (after : Folder) (content : Octets) (records : List (List Octets)),
      (ensureFolder {}).insertAll interleaved = .ok s ∧ s.flushAll.folder = some after ∧
      after.read? "Users.csv" = some content ∧ read? content = some records ∧
      List.Forall₂ PlacedRow.Shows (rowsFor "users" interleaved) records ∧
      (("Users.csv" : Text), 3) ∈ s.flushAll.files := by
  have hok : ((ensureFolder {}).insertAll interleaved).toOption.isSome = true := by decide +kernel
  cases hall : (ensureFolder {}).insertAll interleaved with
  | error error =>
    rw [hall] at hok
    cases hok
  | ok s =>
    obtain ⟨after, names, hafter, hnames, -, hreads, -, hfiles⟩ :=
      insertAll_reads hall (by decide +kernel)
    have hfirst : ("Users" : Text) ∈ names := (hnames _).mpr (mem_spellings.mp (by decide +kernel))
    obtain ⟨-, content, records, hcontent, hread, hshows⟩ := hreads _ hfirst
    have hfile : fileName "Users" = "Users.csv" := by decide +kernel
    have hlower : lower "Users" = "users" := by decide +kernel
    have hcount : (rowsFor "users" interleaved).length = 3 := by decide +kernel
    rw [hfile] at hcontent
    rw [hlower] at hshows
    refine ⟨s, after, content, records, rfl, hafter, hcontent, hread, hshows, ?_⟩
    refine hfiles.mem_iff.mpr (List.mem_map.mpr ⟨_, hfirst, ?_⟩)
    rw [hfile, hlower, hcount]

/-- In a new folder there are as many files as tables with rows exactly where these have different
names of files. Then no two writers share a file, and each file holds the records of its table,
none of them lost. -/
theorem insertAll_size_iff (hall : (ensureFolder {}).insertAll exports = .ok s) :
    ∃ (after : Folder) (names : List Text), s.flushAll.folder = some after ∧
      (∀ name, name ∈ names ↔ IsFirstSpelling exports name) ∧
      (after.names.length = s.flushAll.files.length ↔ Apart names) ∧
      (Apart names →
        (∀ p ∈ s.writers, ∀ q ∈ s.writers, p.1 ≠ q.1 → p.2.file ≠ q.2.file) ∧
        ∀ name ∈ names, after.read? (fileName name) = some (contentFor (lower name) exports)) := by
  have h := Exported.of_insertAll hall
  obtain ⟨after, hafter, hstored⟩ := h.folder
  have hnames : after.names.Nodup := hstored.nodup List.nodup_nil
  have hmem : ∀ n, n ∈ after.names ↔ n ∈ (spellings exports).map fileName := by
    intro n
    rw [Folder.mem_names]
    by_cases hn : n ∈ (spellings exports).map fileName
    · obtain ⟨name, hname, rfl⟩ := List.mem_map.mp hn
      obtain ⟨content, hcontent⟩ := Option.isSome_iff_exists.mp (hstored.file name hname)
      simp [hn, Folder.find?_of_read? hcontent]
    · simp only [hn, hstored.other n hn, iff_false]
      simp [Folder.find?]
  have hapart := apart_iff (nodup_spellings exports)
  rw [flushAll_eq h]
  refine ⟨after, spellings exports, hafter, fun _ => mem_spellings, ?_, fun ht => ⟨?_, ?_⟩⟩
  · have hlen : (spellings exports).length = ((spellings exports).map fileName).length := by
      rw [List.length_map]
    rw [(files_perm h).length_eq, List.length_map, hapart, hlen]
    constructor
    · intro hlength
      have hsub : after.names.Subperm ((spellings exports).map fileName) :=
        List.subperm_of_subset hnames fun n hn => (hmem n).mp hn
      exact (hsub.perm_of_length_le (Nat.le_of_eq hlength.symm)).nodup_iff.mp hnames
    · intro hnodup
      exact ((List.perm_ext_iff_of_nodup hnames hnodup).mpr hmem).length_eq
  · rw [h.writers]
    intro p hp q hq hne hfile
    obtain ⟨a, ha, rfl⟩ := List.mem_map.mp hp
    obtain ⟨b, hb, rfl⟩ := List.mem_map.mp hq
    exact ht a ha b hb hne (fileName_inj.mp hfile)
  · exact hstored.content (hapart.mp ht)

theorem insertAll_size_interleaved :
    ∃ (s : Store) (after : Folder), (ensureFolder {}).insertAll interleaved = .ok s ∧
      s.flushAll.folder = some after ∧ after.names.length = s.flushAll.files.length := by
  have hok : ((ensureFolder {}).insertAll interleaved).toOption.isSome = true := by decide +kernel
  cases hall : (ensureFolder {}).insertAll interleaved with
  | error error =>
    rw [hall] at hok
    cases hok
  | ok s =>
    obtain ⟨after, names, hafter, hnames, hcount, -⟩ := insertAll_size_iff hall
    refine ⟨s, after, rfl, hafter, hcount.mpr fun a ha b hb => ?_⟩
    have hapart : Apart (spellings interleaved) := by decide +kernel
    exact hapart a (mem_spellings.mpr ((hnames a).mp ha)) b (mem_spellings.mpr ((hnames b).mp hb))

/-- A blank and a line below are the same in the name of a file, so that the rows of one of two
tables are lost while both are counted. -/
theorem insertAll_shared_file :
    lower "a b" ≠ lower "a_b" ∧
      ((ensureFolder {}).insertAll
        [(⟨"a b", none, [[.bare "1"]], none, .utf8⟩, []),
          (⟨"a_b", none, [[.bare "2"]], none, .utf8⟩, [])]).toOption.map (fun s =>
            (s.flushAll.writers.map fun w => (w.2.file, w.2.rows), s.flushAll.folder)) =
        some ([(fileName "a_b", 1), (fileName "a_b", 1)],
          some (Folder.write {} (fileName "a_b") (.ofText "2\n"))) := by
  decide +kernel

end Store

end Csv

end SqlDump
