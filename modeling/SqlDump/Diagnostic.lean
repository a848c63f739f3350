import SqlDump.Text.Basic

/-!
# Diagnostics

What a run has to tell without failing: values passed through, constraints deferred, rows kept in
spite of their width. A collection keeps the first entries up to a limit and counts all of them.

Main statements: `Diagnostics.total_push`, every recorded entry counts, and
`Diagnostics.push_entries`, the entries kept are the first ones.
-/

namespace SqlDump

/-- What a diagnostic is about. -/
inductive DiagnosticKind where
  /-- A quote or parenthesis left open in a list of rows. -/
  | malformedLiteral
  /-- A statement of no known kind. -/
  | unclassifiedStatement
  /-- A foreign key to a table that the dump does not have. -/
  | unresolvedForeignKey
  /-- A cycle that was broken to order the tables. -/
  | cyclicDependency
  /-- A row that is wider or narrower than its columns. -/
  | rowArityMismatch
  /-- A column type or table item without a counterpart. -/
  | unsupportedTypeToken
  /-- A clause or option without a counterpart. -/
  | unsupportedClause
  /-- Something lost on the way. -/
  | lossyConversion
  /-- Input that ended inside a statement. -/
  | unterminatedStatement
  /-- Input that was not UTF-8. -/
  | encodingFallback
  /-- A table defined again. -/
  | duplicateTable
  /-- A pinned table that the dump does not have. -/
  | unknownPinnedTable
  deriving DecidableEq, Repr

namespace DiagnosticKind

/-- All kinds, in the order of summaries. -/
def all : List DiagnosticKind :=
  [.malformedLiteral, .unclassifiedStatement, .unresolvedForeignKey, .cyclicDependency,
    .rowArityMismatch, .unsupportedTypeToken, .unsupportedClause, .lossyConversion,
    .unterminatedStatement, .encodingFallback, .duplicateTable, .unknownPinnedTable]

/-- The name of a kind in reports. -/
def name : DiagnosticKind → Text
  | .malformedLiteral => "malformed_literal"
  | .unclassifiedStatement => "unclassified_statement"
  | .unresolvedForeignKey => "unresolved_foreign_key"
  | .cyclicDependency => "cyclic_dependency"
  | .rowArityMismatch => "row_arity_mismatch"
  | .unsupportedTypeToken => "unsupported_type_token"
  | .unsupportedClause => "unsupported_clause"
  | .lossyConversion => "lossy_conversion"
  | .unterminatedStatement => "unterminated_statement"
  | .encodingFallback => "encoding_fallback"
  | .duplicateTable => "duplicate_table"
  | .unknownPinnedTable => "unknown_pinned_table"

theorem mem_all (k : DiagnosticKind) : k ∈ all := by cases k <;> decide

end DiagnosticKind

/-- One thing to tell, and what it concerns as far as that is known. -/
structure Diagnostic where
  kind : DiagnosticKind
  message : Text
  /-- The position of the statement in the input, from zero. -/
  statement : Option Nat := none
  /-- The position in the input, in octets. -/
  offset : Option Nat := none
  table : Option Text := none
  deriving DecidableEq, Repr

namespace Diagnostic

/-- The diagnostic placed at a statement, where it has no place yet. -/
def stamp (d : Diagnostic) (statement offset : Nat) : Diagnostic :=
  { d with statement := d.statement <|> some statement, offset := d.offset <|> some offset }

/-- The line for a diagnostic in a summary. Statements are counted from one there. -/
def line (d : Diagnostic) : Text :=
  "[" ++ d.kind.name ++ "]" ++
    (match d.table with
      | some table => " " ++ table ++ ":"
      | none => []) ++
    " " ++ d.message ++
    (match d.statement, d.offset with
      | some s, some o => " (statement #" ++ Text.ofNat (s + 1) ++ ", byte " ++ Text.ofNat o ++ ")"
      | some s, none => " (statement #" ++ Text.ofNat (s + 1) ++ ")"
      | none, _ => [])

end Diagnostic

/-- Diagnostics in the order of their recording. -/
structure Diagnostics where
  /-- How many are kept. -/
  limit : Nat
  /-- Those kept. -/
  entries : Array Diagnostic := #[]
  /-- How many were recorded and not kept. -/
  suppressed : Nat := 0
  /-- How many were recorded of each kind, kinds without any left out. -/
  counts : List (DiagnosticKind × Nat) := []
  deriving Repr

/-- How many diagnostics a run keeps unless it is told otherwise. -/
def Diagnostics.defaultLimit : Nat := 10000

namespace Diagnostics

/-- The number recorded of one kind. -/
def count (ds : Diagnostics) (kind : DiagnosticKind) : Nat := (ds.counts.lookup kind).getD 0

/-- The counts with one more of a kind. -/
def increment (kind : DiagnosticKind) :
    List (DiagnosticKind × Nat) → List (DiagnosticKind × Nat)
  | [] => [(kind, 1)]
  | (k, n) :: rest => if k = kind then (k, n + 1) :: rest else (k, n) :: increment kind rest

/-- The number recorded, those not kept included. -/
def total (ds : Diagnostics) : Nat := ds.entries.size + ds.suppressed

def isEmpty (ds : Diagnostics) : Bool := ds.total == 0

/-- Records a diagnostic. -/
def push (ds : Diagnostics) (d : Diagnostic) : Diagnostics :=
  let counts := increment d.kind ds.counts
  if ds.entries.size < ds.limit then { ds with entries := ds.entries.push d, counts }
  else { ds with suppressed := ds.suppressed + 1, counts }

/-- Records a diagnostic unless one of its kind was recorded before. -/
def pushOnce (ds : Diagnostics) (d : Diagnostic) : Diagnostics :=
  if (ds.counts.lookup d.kind).isSome then ds else ds.push d

/-- Records diagnostics one after another. -/
def pushAll (ds : Diagnostics) (notes : List Diagnostic) : Diagnostics := notes.foldl push ds

/-- Records diagnostics that concern one statement. -/
def pushAt (ds : Diagnostics) (notes : List Diagnostic) (statement offset : Nat) : Diagnostics :=
  ds.pushAll (notes.map (·.stamp statement offset))

/-- The counts of the kinds that occurred, in the order of `DiagnosticKind.all`. -/
def tally (ds : Diagnostics) : List (DiagnosticKind × Nat) :=
  DiagnosticKind.all.filterMap fun kind => (ds.counts.lookup kind).map (kind, ·)

theorem total_push (ds : Diagnostics) (d : Diagnostic) : (ds.push d).total = ds.total + 1 := by
  simp only [push, total]
  split
  · simp
    omega
  · simp
    omega

theorem push_entries (ds : Diagnostics) (d : Diagnostic) :
    (ds.push d).entries.toList =
      if ds.entries.size < ds.limit then ds.entries.toList ++ [d] else ds.entries.toList := by
  simp only [push]
  split <;> simp

end Diagnostics

end SqlDump
