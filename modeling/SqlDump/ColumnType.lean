import SqlDump.Text.Nesting
import SqlDump.Text.Numeral
import SqlDump.Value.Rows

/-!
# Column types

The PostgreSQL type for each MySQL type, and the family that decides how values of a column are
written.

Main statement: `ColumnType.enumWidth_ge`, the column for an enumeration is wide enough for every
member.
-/

namespace SqlDump

/-- What kind of values a column holds. -/
inductive TypeFamily where
  | integer
  | boolean
  | numeric
  | text
  | temporal
  | binary
  | json
  | bit
  | uuid
  | other
  deriving DecidableEq, Repr

/-- A column type of the target. -/
structure MappedType where
  sql : Text
  family : TypeFamily
  /-- What the type loses, if anything. -/
  lossy : Option Text := none
  /-- Whether the type has no counterpart and stands as it was. -/
  unmatched : Bool := false
  deriving DecidableEq, Repr

/-- A type in its parts: the name in lower case, and the arguments as written. -/
structure ColumnType where
  base : Text
  arguments : Option Text
  deriving DecidableEq, Repr

namespace ColumnType

open Text

/-- The words beside a type name that do not change the type. -/
def isSignWord (word : Text) : Bool :=
  word == ("unsigned" : Text) || word == ("signed" : Text) || word == ("zerofill" : Text)

/-- The words of a name without those about signs. -/
def nameWords (t : Text) : List Text := (words t).filter (!isSignWord ·)

/-- The parts of a type as written. An argument list that is not closed belongs to the name. -/
def parse (token : Text) : ColumnType :=
  let tail := token.dropWhile (· != '(')
  match group? tail with
  | some (arguments, after) =>
    { base := join " " (nameWords (lower (token.takeWhile (· != '('))) ++ nameWords (lower after))
      arguments := some arguments }
  | none => { base := join " " (nameWords (lower token)), arguments := none }

/-- The width below which no enumeration goes. -/
def enumMinimum : Nat := 50

/-- The longest content of the values, in characters. -/
def longest (values : List Value) : Nat :=
  (values.filterMap Value.content?).foldl (fun n s => max n s.length) 0

/-- The width of the column for an enumeration of the given members. -/
def enumWidth (members : Text) : Nat :=
  match (ParsedRows.ofText ('(' :: members ++ [')'])).rows with
  | [] => enumMinimum
  | row :: _ => max (longest row) enumMinimum

/-- The number of 32 bits that a text of decimal digits gives, a plus sign before them allowed. -/
def number? (t : Text) : Option Nat :=
  (numeral? 10 (unsigned t)).filter fun n => decide (n ≤ 4294967295)

/-- A type with arguments in parentheses where there are any. -/
def withArguments (name : Text) (arguments : Option Text) (family : TypeFamily) : MappedType :=
  match arguments with
  | some a => { sql := name ++ "(" ++ a ++ ")", family }
  | none => { sql := name, family }

/-- The arguments without the blanks around the commas between them. -/
def compact (arguments : Text) : Text := join "," ((split ',' arguments).map trim)

/-- The type for a name in lower case and its arguments, if there is a rule for it. -/
def mapKnown? (type : ColumnType) : Option MappedType :=
  let arguments := type.arguments
  let trimmed := arguments.map trim
  match String.ofList type.base with
  | "tinyint" =>
    some (if arguments = some ['1'] then { sql := "BOOLEAN", family := .boolean }
      else { sql := "SMALLINT", family := .integer })
  | "bool" | "boolean" => some { sql := "BOOLEAN", family := .boolean }
  | "smallint" | "int2" => some { sql := "SMALLINT", family := .integer }
  | "mediumint" | "int" | "integer" | "int4" => some { sql := "INTEGER", family := .integer }
  | "bigint" | "int8" => some { sql := "BIGINT", family := .integer }
  | "decimal" | "numeric" | "dec" | "fixed" =>
    some (withArguments "NUMERIC" (arguments.map compact) .numeric)
  | "float" =>
    some (if (trimmed.bind number?).any (24 < ·) then
        { sql := "DOUBLE PRECISION", family := .numeric }
      else { sql := "REAL", family := .numeric })
  | "double" | "double precision" | "real" =>
    some { sql := "DOUBLE PRECISION", family := .numeric }
  | "char" | "nchar" => some (withArguments "CHAR" trimmed .text)
  | "varchar" | "nvarchar" | "character varying" => some (withArguments "VARCHAR" trimmed .text)
  | "tinytext" | "text" | "mediumtext" | "longtext" => some { sql := "TEXT", family := .text }
  | "enum" =>
    some {
      sql := "VARCHAR(" ++ ofNat (enumWidth (arguments.getD [])) ++ ")"
      family := .text
      lossy := some "ENUM member list not enforced" }
  | "set" =>
    some { sql := "TEXT", family := .text, lossy := some "SET member list not enforced" }
  | "date" => some { sql := "DATE", family := .temporal }
  | "datetime" | "timestamp" => some (withArguments "TIMESTAMP" trimmed .temporal)
  | "time" => some (withArguments "TIME" trimmed .temporal)
  | "year" => some { sql := "SMALLINT", family := .integer }
  | "binary" | "varbinary" | "tinyblob" | "blob" | "mediumblob" | "longblob" =>
    some { sql := "BYTEA", family := .binary }
  | "json" => some { sql := "JSONB", family := .json }
  | "bit" => some (withArguments "BIT" (some (trimmed.getD "1")) .bit)
  | "uuid" => some { sql := "UUID", family := .uuid }
  | _ => none

/-- The type of the target for a type as written. -/
def map (token : Text) : MappedType :=
  match mapKnown? (parse token) with
  | some mapped => mapped
  | none => { sql := trim token, family := .other, unmatched := true }

/-- The serial type of an AUTO_INCREMENT column. Only integers have one. -/
def serial? (token : Text) : Option Text :=
  match String.ofList (parse token).base with
  | "bigint" | "int8" => some "BIGSERIAL"
  | "tinyint" | "smallint" | "mediumint" | "int" | "integer" | "int2" | "int4" => some "SERIAL"
  | _ => none

theorem le_foldl_max (ss : List Text) (n : Nat) :
    n ≤ ss.foldl (fun n s => max n s.length) n ∧
      ∀ s ∈ ss, s.length ≤ ss.foldl (fun n s => max n s.length) n := by
  induction ss generalizing n with
  | nil => simp
  | cons s ss ih =>
    obtain ⟨hn, hs⟩ := ih (max n s.length)
    simp only [List.foldl_cons, List.mem_cons, forall_eq_or_imp]
    exact ⟨by omega, by omega, hs⟩

/-- The column for an enumeration is wide enough for every member. -/
theorem enumWidth_ge {members : Text} {row : Row} {rows : List Row}
    (h : (ParsedRows.ofText ('(' :: members ++ [')'])).rows = row :: rows) {v : Value} (hv : v ∈ row)
    {s : Text} (hs : v.content? = some s) : s.length ≤ enumWidth members := by
  have hm := (le_foldl_max (row.filterMap Value.content?) 0).2 s
    (List.mem_filterMap.mpr ⟨v, hv, hs⟩)
  simp only [enumWidth, h, longest]
  omega

end ColumnType

end SqlDump
