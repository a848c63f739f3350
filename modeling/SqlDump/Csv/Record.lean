import SqlDump.Insert
import SqlDump.Postgres.Literal

/-!
# Comma-separated records

Records of fields between commas, each on a line of its own. A field is put in quotes where it has
to be: when it holds a comma, a quote, a line feed or a carriage return, or when it is empty and
alone.
-/

namespace SqlDump.Csv

/-- The octets with a meaning in records. -/
def comma : UInt8 := 0x2C
def quote : UInt8 := 0x22
def lineFeed : UInt8 := 0x0A
def carriageReturn : UInt8 := 0x0D

/-- Whether an octet can only stand in quotes. -/
def isSpecial (b : UInt8) : Bool :=
  b == comma || b == quote || b == lineFeed || b == carriageReturn

/-- A field in quotes, quotes inside written twice. -/
def quoteField (field : Octets) : Octets :=
  quote :: field.flatMap (fun b => if b = quote then [quote, quote] else [b]) ++ [quote]

/-- A field as it is written. -/
def encodeField (field : Octets) : Octets :=
  if field.any isSpecial then quoteField field else field

/-- A record with its line feed. -/
def encodeRecord (fields : List Octets) : Octets :=
  let line := [comma].intercalate (fields.map encodeField)
  (if line.isEmpty then [quote, quote] else line) ++ [lineFeed]

/-- The field for a value of a column. Nulls and zero dates are empty, and a text in a binary column
gets the octets it was read from. -/
def field (v : Value) (family : TypeFamily) (encoding : Encoding) : Octets :=
  match v with
  | .null => []
  | .text s =>
    if family = .temporal ∧ Postgres.isZeroDate s then []
    else if family = .binary then encoding.octets s
    else .ofText s
  | .bare token => .ofText token

/-- Whether a value becomes an empty field for being a zero date. -/
def isEmptiedDate (v : Value) (family : TypeFamily) : Bool :=
  match v with
  | .text s => family == .temporal && Postgres.isZeroDate s
  | _ => false

/-- The record for a row, for columns of the given families. -/
def record (families : List TypeFamily) (encoding : Encoding) (row : Row) : List Octets :=
  row.mapIdx fun i v => field v (families.getD i .other) encoding

/-- For each value of a row, whether it becomes empty for being a zero date. -/
def emptiedInRow (families : List TypeFamily) (row : Row) : List Bool :=
  row.mapIdx fun i v => isEmptiedDate v (families.getD i .other)

/-- The number of values that become empty for being a zero date. -/
def emptiedDates (i : Insert) (families : List TypeFamily) : Nat :=
  (i.rows.flatMap (emptiedInRow families)).countP id

end SqlDump.Csv
