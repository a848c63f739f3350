import SqlDump.Diagnostic
import SqlDump.Json
import SqlDump.Options

/-!
# The schema of reports

What a report may look like, as a JSON Schema.
-/

namespace SqlDump.ReportSchema

open Json

/-- The members of a schema, in order. -/
abbrev Members := List (Text × Json)

/-- A schema that says what it describes. -/
def described (description : Text) (members : Members) : Members :=
  ("description", string description) :: members

/-- The type of a schema, and nothing else. -/
def typed (type : Text) : Members := [("type", string type)]

/-- The schema for what may be left out. -/
def nullable (type : Text) : Members := [("type", array [string type, string "null"])]

/-- What is required of a count, by the name of its width. -/
def bounds (format : Text) : Members := [("format", string format), ("minimum", number 0)]

/-- The schema for a count. -/
def count (format : Text) : Members := typed "integer" ++ bounds format

/-- The schema defined under a name. -/
def reference (name : Text) : Members := [("$ref", string ("#/$defs/" ++ name))]

/-- The schema for a list. -/
def list (items : Members) : Members := typed "array" ++ [(("items" : Text), object items)]

/-- The schema for an object: the schemas of its members, and which of them are required. -/
def record (properties : List (Text × Members)) (required : List Text) : Members :=
  typed "object" ++ [
    (("properties" : Text), object (properties.map fun (name, members) => (name, object members))),
    ("required", array (required.map string))]

/-- The schema for one of several names, each with what it stands for. -/
def oneOf (names : List (Text × Text)) : Members :=
  [("oneOf", array (names.map fun (name, description) =>
    object (described description (typed "string" ++ [(("const" : Text), string name)]))))]

def statsSchema : Members :=
  described "Counters for one run" (record [
    ("deferred_fks", count "uint"),
    ("files", described "CSV files written (rows mode)" (count "uint")),
    ("inserts", described "INSERT statements translated or exported" (count "uint64")),
    ("passthrough", described "Statements copied through with quoting fixes only" (count "uint64")),
    ("rows", count "uint64"),
    ("skipped", described "Session, lock, drop and comment statements left out" (count "uint64")),
    ("statements", described "Statements read from the input" (count "uint64")),
    ("tables", count "uint")]
    ["statements", "tables", "inserts", "rows", "passthrough", "skipped", "deferred_fks", "files"])

def deferredKeySchema : Members :=
  described "A foreign key added after all tables exist" (record [
    ("constraint", typed "string"),
    ("references", typed "string"),
    ("resolved", described "False when the referenced table is not in the dump" (typed "boolean")),
    ("table", typed "string")]
    ["table", "constraint", "references", "resolved"])

def diagnosticSchema : Members :=
  described "A single recorded condition" (record [
    ("kind", reference "DiagnosticKind"),
    ("message", typed "string"),
    ("offset", described "Byte offset of the statement (or the literal, when known)"
      (nullable "integer" ++ bounds "uint64")),
    ("statement", described "Zero-based index of the statement in the input"
      (nullable "integer" ++ bounds "uint")),
    ("table", nullable "string")]
    ["kind", "message"])

/-- What a kind of diagnostic stands for. -/
def kindDescription : DiagnosticKind → Text
  | .malformedLiteral => "Unterminated quote or parenthesis inside a value list"
  | .unclassifiedStatement => "Statement with an unknown leading keyword, passed through"
  | .unresolvedForeignKey => "Foreign key referencing a table absent from the dump"
  | .cyclicDependency => "Cycle broken while ordering tables"
  | .rowArityMismatch => "Row width differs from the known column count"
  | .unsupportedTypeToken => "Column type with no mapping rule, passed through unchanged"
  | .unsupportedClause => "Clause or option with no target equivalent"
  | .lossyConversion => "Translation that narrows or drops information"
  | .unterminatedStatement => "Input ended inside a statement"
  | .encodingFallback => "Input was not valid UTF-8 and was read as Latin-1"
  | .duplicateTable => "Table defined more than once; the later definition wins"
  | .unknownPinnedTable => "Pinned table name that never appears in the dump"

def kindSchema : Members :=
  described "Kinds of non-fatal conditions"
    (oneOf (DiagnosticKind.all.map fun kind => (kind.name, kindDescription kind)))

def diagnosticsSchema : Members :=
  described "Serializable form of a diagnostics collection" (record [
    ("counts", described "Count per kind, keyed by the snake_case kind name"
      (typed "object" ++ [(("additionalProperties" : Text), object (count "uint"))])),
    ("diagnostics", list (reference "Diagnostic")),
    ("suppressed", count "uint"),
    ("total", count "uint")]
    ["total", "suppressed", "counts", "diagnostics"])

/-- What a mode stands for. -/
def modeDescription : Mode → Text
  | .full => "Schema, data and deferred constraints in one SQL script (default)"
  | .schema => "Schema only, every foreign key added after the tables"
  | .rows => "One CSV file per table, no SQL"

def modeSchema : Members :=
  described "What a run produces"
    (oneOf (([.full, .schema, .rows] : List Mode).map fun mode =>
      (mode.name, modeDescription mode)))

def planSchema : Members :=
  described "Table order and deferred constraints, by name" (record [
    ("deferred", list (reference "DeferredConstraint")),
    ("order", list (typed "string"))]
    ["order", "deferred"])

/-- The schema of the report of a run. -/
def report : Json :=
  object ([
    (("$schema" : Text), string "https://json-schema.org/draft/2020-12/schema"),
    ("title", string "RunReport")] ++
    described "The \x60--report\x60 / \x60--json\x60 document" (record [
      ("diagnostics", reference "DiagnosticReport"),
      ("input", nullable "string"),
      ("mode", reference "Mode"),
      ("plan", reference "PlanSummary"),
      ("stats", reference "ConvertStats")]
      ["mode", "stats", "plan", "diagnostics"]) ++ [
    (("$defs" : Text), object [
      ("ConvertStats", object statsSchema),
      ("DeferredConstraint", object deferredKeySchema),
      ("Diagnostic", object diagnosticSchema),
      ("DiagnosticKind", object kindSchema),
      ("DiagnosticReport", object diagnosticsSchema),
      ("Mode", object modeSchema),
      ("PlanSummary", object planSchema)])])

end SqlDump.ReportSchema
