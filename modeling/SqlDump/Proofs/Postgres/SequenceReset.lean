import SqlDump.Postgres.Script
import SqlDump.Proofs.Postgres.Columns
import SqlDump.Proofs.Postgres.Token

/-!
# Resets of sequences

The statement that moves the sequence of a serial column behind its rows names the table twice and
the column twice. `pg_get_serial_sequence` takes two texts: the first is read once more, as a name,
and the second is the name itself. The other two names say where the greatest number is looked for.

Of the types in a created table a serial one has a sequence. Only an AUTO_INCREMENT column is given
such a type; a type of the dump without a counterpart stands as it was, so `SERIAL` does.

Main statements: `SequenceReset.read?_renderSequence`, the statement is about the table and the
column that it was made for, whatever their names are; `isSerialType_ofColumn`, which columns are
created as serial.
-/

namespace SqlDump.Postgres

open Text

/-! ### The statement read back -/

/-- The name that a text is, in double quotes. -/
def wholeName? (t : Text) : Option Text :=
  match readName? t with
  | some (name, []) => some name
  | _ => none

/-- The column whose sequence a statement moves behind the rows. -/
structure SequenceReset where
  table : Text
  column : Text
  deriving DecidableEq, Repr

namespace SequenceReset

/-- What a statement of this kind moves. The sequence and the rows have to be of the same column. -/
def read? (t : Text) : Option SequenceReset := do
  let t ← after? "SELECT setval(pg_get_serial_sequence(" t
  let (quoted, t) ← readString? t
  let table ← wholeName? quoted
  let t ← after? ", " t
  let (column, t) ← readString? t
  let t ← after? "), COALESCE((SELECT MAX(" t
  let (counted, t) ← readName? t
  let t ← after? ") FROM " t
  let (source, t) ← readName? t
  if source = table ∧ counted = column ∧ t = "), 0) + 1, false);" then some { table, column }
  else none

end SequenceReset

theorem wholeName?_quoteName (name : Text) : wholeName? (quoteName name) = some name := by
  have hread : readName? (quoteName name ++ []) = some (name, []) := readName?_quoteName name rfl
  rw [List.append_nil] at hread
  rw [wholeName?, hread]

/-- The statement for a column of a table is about this column of this table. -/
theorem SequenceReset.read?_renderSequence (table column : Text) :
    read? (renderSequence table column) = some { table, column } := by
  unfold renderSequence
  simp only [List.append_assoc, read?, after?_append, Option.bind_eq_bind, Option.bind_some]
  rw [readString?_quoteString (quoteName table) rfl, Option.bind_some, wholeName?_quoteName,
    Option.bind_some, after?_append, Option.bind_some, readString?_quoteString column rfl,
    Option.bind_some, after?_append, Option.bind_some, readName?_quoteName column rfl,
    Option.bind_some, after?_append, Option.bind_some, readName?_quoteName table rfl,
    Option.bind_some]
  exact if_pos ⟨rfl, rfl, rfl⟩

/-! ### Serial columns -/

/-- Whether a type of the target is one with a sequence, in any case. -/
def isSerialType (type : Text) : Bool := sameAscii type "SERIAL" || sameAscii type "BIGSERIAL"

end SqlDump.Postgres

namespace SqlDump.ColumnType

open Postgres (isSerialType)

/-- A type that a rule gives: one of the target without a sequence. -/
structure Ruled (mapped : MappedType) : Prop where
  matched : mapped.unmatched = false
  plain : isSerialType mapped.sql = false

theorem ruled_withArguments {name : Text} (arguments : Option Text) (family : TypeFamily)
    (h : ∀ rest, isSerialType (name ++ rest) = false) :
    Ruled (withArguments name arguments family) := by
  cases arguments with
  | none =>
    refine ⟨rfl, ?_⟩
    simpa [withArguments] using h []
  | some a =>
    refine ⟨rfl, ?_⟩
    simpa [withArguments] using h ('(' :: a ++ [')'])

theorem ruled_of_mapKnown? {type : ColumnType} {mapped : MappedType}
    (h : mapKnown? type = some mapped) : Ruled mapped := by
  unfold mapKnown? at h
  dsimp only at h
  split at h
  all_goals
    cases h
    try exact ⟨rfl, rfl⟩
  all_goals
    try exact ruled_withArguments _ _ fun _ => rfl
  -- What is left: the two types that depend on their argument.
  all_goals split <;> exact ⟨rfl, rfl⟩

/-- A type of the dump becomes serial only where it is passed through. -/
theorem plain_map {token : Text} (h : (ColumnType.map token).unmatched = false) :
    isSerialType (ColumnType.map token).sql = false := by
  unfold ColumnType.map at *
  cases hknown : mapKnown? (parse token) with
  | none =>
    rw [hknown] at h
    cases h
  | some mapped => exact (ruled_of_mapKnown? hknown).plain

/-- There is a rule for the types of columns that can be AUTO_INCREMENT. -/
theorem matched_of_serial? {token type : Text} (h : serial? token = some type) :
    (ColumnType.map token).unmatched = false := by
  have hfamily : (ColumnType.map token).family ≠ .other := by
    rw [(family_of_serial? h).2]
    split <;> decide
  unfold ColumnType.map at *
  cases hknown : mapKnown? (parse token) with
  | none =>
    rw [hknown] at hfamily
    exact absurd rfl hfamily
  | some mapped => exact (ruled_of_mapKnown? hknown).matched

end SqlDump.ColumnType

namespace SqlDump.Postgres

open Text

/-- The columns of a created table that are serial, other than by a type of the dump that is passed
through; `t` is the table that the statement creates. -/
def serialItems (t : Table) (statement : CreateTable) : List ColumnItem :=
  ((t.columns.zip statement.columns).filter fun (c, item) =>
    isSerialType item.type && !(ColumnType.map c.type).unmatched).map Prod.snd

/-- A column is created as serial, other than by passing its type through, where it is
AUTO_INCREMENT and has a type that can. -/
theorem isSerialType_ofColumn (t : Table) (c : Column) :
    (isSerialType (ColumnItem.ofColumn t c).type && !(ColumnType.map c.type).unmatched) =
      (serialType? c).isSome := by
  unfold ColumnItem.ofColumn
  dsimp only
  cases hserial : serialType? c with
  | none =>
    dsimp only
    cases hmatched : (ColumnType.map c.type).unmatched with
    | false => rw [ColumnType.plain_map hmatched]; rfl
    | true => rw [Bool.not_true, Bool.and_false]; rfl
  | some type =>
    dsimp only
    unfold serialType? at hserial
    split at hserial
    · rw [ColumnType.matched_of_serial? hserial]
      rcases (ColumnType.family_of_serial? hserial).1 with rfl | rfl <;> rfl
    · cases hserial

/-- The columns whose sequences are moved are those that are created as serial. -/
theorem serialItems_ofTable (t : Table) (flags : List Bool) :
    serialItems t (.ofTable t flags) =
      (Script.serialColumns t).map (ColumnItem.ofColumn t) := by
  have hzip : t.columns.zip (t.columns.map (ColumnItem.ofColumn t)) =
      t.columns.map fun c => (c, ColumnItem.ofColumn t c) :=
    List.map_prod_left_eq_zip.symm
  rw [serialItems, columns_ofTable, hzip, List.filter_map, List.map_map]
  unfold Script.serialColumns
  simp only [Function.comp_def, isSerialType_ofColumn]

end SqlDump.Postgres
