import SqlDump.Diagnostic
import SqlDump.Insert
import SqlDump.Schema.Create
import SqlDump.Segment.Basic

/-!
# Documents

The statements of a dump, read as far as they are understood, with the notes on what was not.

Main statement: `Statement.parse_unterminated`, an unterminated statement is kept as it stands.
-/

namespace SqlDump

/-- A statement that is not read further. -/
structure OtherStatement where
  kind : StatementKind
  /-- The table it is about, empty where it is about none. -/
  table : Text
  text : Text
  /-- False for an unterminated statement, which the end of input cut short. -/
  terminated : Bool
  deriving DecidableEq, Repr

/-- A statement of a dump. -/
inductive Statement where
  | create (table : Table)
  | insert (insert : Insert)
  | other (statement : OtherStatement)
  deriving DecidableEq, Repr

namespace Statement

def kind : Statement → StatementKind
  | .create _ => .createTable
  | .insert _ => .insert
  | .other s => s.kind

/-- The note for an unterminated statement. -/
def unterminatedNote : Diagnostic where
  kind := .unterminatedStatement
  message := "input ended inside a statement; tail kept as-is"

/-- The note for a malformed list of rows. The place is in the statement. -/
def faultNote (i : Insert) (f : RowFault) : Diagnostic where
  kind := .malformedLiteral
  message :=
    f.kind.message ++ "; " ++ Text.ofNat i.rows.length ++ " rows kept, remainder skipped"
  offset := some f.offset
  table := some i.table

/-- The statement that a text is, and the notes on it. -/
def parse (t : Text) (terminated : Bool) : Statement × List Diagnostic :=
  let (kind, table) := classify t
  let other := Statement.other { kind, table, text := t, terminated }
  if !terminated then (other, [unterminatedNote])
  else
    match kind with
    | .createTable =>
      match Table.parse? t with
      | some (table, notes) => (.create table, notes)
      | none => (other, [])
    | .insert =>
      match Insert.parse? t with
      | some (i, fault) => (.insert i, (fault.map (faultNote i)).toList)
      | none => (other, [])
    | _ => (other, [])

/-- The statement with the encoding of its text recorded where that matters. -/
def withEncoding (e : Encoding) : Statement → Statement
  | .insert i => .insert { i with encoding := e }
  | s => s

theorem parse_unterminated (t : Text) :
    parse t false =
      (.other ⟨(classify t).1, (classify t).2, t, false⟩, [unterminatedNote]) := by
  simp [parse]

end Statement

/-- A statement and its place in the input. -/
structure PlacedStatement where
  /-- The position among the statements, from zero. -/
  index : Nat
  /-- The position of the first octet in the input. -/
  offset : Nat
  statement : Statement
  /-- The notes on the statement, placed in the input. -/
  notes : List Diagnostic
  deriving DecidableEq, Repr

namespace PlacedStatement

/-- A note on a statement, its place counted from the start of the input. -/
def placeNote (index offset : Nat) (note : Diagnostic) : Diagnostic :=
  { note with offset := note.offset.map (offset + ·) }.stamp index offset

/-- The statement that a text is, at its place. -/
def ofText (index offset : Nat) (t : Text) (terminated : Bool) (encoding : Encoding) :
    PlacedStatement :=
  let (statement, notes) := Statement.parse t terminated
  { index
    offset
    statement := statement.withEncoding encoding
    notes := notes.map (placeNote index offset) }

/-- The statement that a segment of the input is. -/
def ofSegment (s : Segment) : PlacedStatement :=
  let (text, encoding) := s.decode
  ofText s.index s.offset text s.terminated encoding

end PlacedStatement

/-- A dump held as a whole. -/
structure Document where
  statements : List PlacedStatement
  /-- The note on the first statement that was not UTF-8. -/
  encodingNote : Option Diagnostic
  deriving DecidableEq, Repr

namespace Document

/-- The note for a segment that is not UTF-8. -/
def encodingNote? (s : Segment) : Option Diagnostic :=
  if s.decode.2 = .latin1 then
    some {
      kind := .encodingFallback
      message := "input is not valid UTF-8; decoded as Latin-1"
      statement := some s.index
      offset := some s.offset }
  else
    none

/-- The document that the octets of a dump are. -/
def ofOctets (bs : Octets) : Document :=
  let segments := Segment.all bs
  { statements := segments.map .ofSegment
    encodingNote := segments.findSome? encodingNote? }

/-- All notes on the statements, in the order of the document. -/
def diagnostics (d : Document) : Diagnostics :=
  Diagnostics.pushAll { limit := Diagnostics.defaultLimit }
    (d.encodingNote.toList ++ d.statements.flatMap (·.notes))

end Document

end SqlDump
