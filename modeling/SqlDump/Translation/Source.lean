import SqlDump.Document

/-!
# Sources of statements

A run reads its dump twice. A dump held as a whole shows every statement to both passes, one that
is read from a file only the statements a pass has use for.
-/

namespace SqlDump

/-- A pass over the statements of a dump. -/
inductive Pass where
  /-- Tables and what else belongs to the schema. -/
  | schema
  /-- Rows and what is passed through among them. -/
  | data
  deriving DecidableEq, Repr

namespace Pass

/-- Whether statements of a kind are of use to a pass. -/
def needs : Pass → StatementKind → Bool
  | schema, kind => kind != .insert
  | data, kind => kind != .createTable && kind != .alterTable

/-- Whether a segment is of use to a pass. An unterminated one always is. -/
def needsSegment (p : Pass) (s : Segment) : Bool :=
  !s.terminated || p.needs (Statement.classify s.decode.1).1

/-- The statements among segments that are of use to a pass. -/
def statements (p : Pass) (segments : List Segment) : List PlacedStatement :=
  (segments.filter p.needsSegment).map .ofSegment

end Pass

/-- What a run reads. -/
structure Source where
  /-- The statements for the schema pass. -/
  schema : List PlacedStatement
  /-- The statements for the data pass. -/
  data : List PlacedStatement
  /-- The number of all statements. -/
  count : Nat
  /-- The note on the first statement that was not UTF-8. -/
  encodingNote : Option Diagnostic
  deriving DecidableEq, Repr

namespace Source

/-- A dump held as a whole. -/
def ofDocument (d : Document) : Source where
  schema := d.statements
  data := d.statements
  count := d.statements.length
  encodingNote := d.encodingNote

/-- A file, which is read anew for the data pass and may have changed by then. -/
def ofReadings (first second : Octets) : Source :=
  let segments := Segment.all first
  { schema := Pass.schema.statements segments
    data := Pass.data.statements (Segment.all second)
    count := segments.length
    encodingNote := segments.findSome? Document.encodingNote? }

/-- A file that stays as it is. -/
def ofOctets (bs : Octets) : Source := ofReadings bs bs

end Source

end SqlDump
