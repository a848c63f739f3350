import SqlDump.Text.Utf8

/-!
# Where a statement ends

The lexer of a dump, one octet at a time. It knows quoted spans with backslash escapes, names in
backticks, line comments and block comments, and finds the semicolon outside all
of them that ends a statement. A comment that begins a statement is a statement of its own, unless
it is conditional (`/*!`); then it runs to its semicolon.

Main statements: `Scan.cut_append`, a cut loses no octet; `Scan.cut_rest_lt`, it takes at least
one.
-/

namespace SqlDump

/-- What the lexer is in the middle of. `leading` says of a comment, or of what may become one,
that nothing but blanks stands before it in the statement. -/
inductive Scan where
  /-- Outside every span; `begun` once a character other than a blank was met. -/
  | plain (begun : Bool)
  /-- Behind a dash or slash that may open a comment. -/
  | opener (first : UInt8) (leading : Bool)
  /-- Behind two dashes, which open a comment if a blank or the end of input follows. -/
  | dashes (leading : Bool)
  /-- Inside a string, `escaped` behind a backslash. -/
  | quoted (quote : UInt8) (escaped : Bool)
  /-- Inside a name in backticks. -/
  | backtick
  /-- Inside a line comment. -/
  | lineComment (leading : Bool)
  /-- Inside a block comment, `fresh` before its first octet and `star` behind an asterisk. -/
  | blockComment (leading fresh star : Bool)
  deriving DecidableEq, Repr

namespace Scan

/-- The lexer before the first octet of a statement. -/
def start : Scan := .plain false

/-- The octets the lexer tells apart. -/
def quoteMark : UInt8 := 0x27
def doubleQuote : UInt8 := 0x22
def backtickMark : UInt8 := 0x60
def backslash : UInt8 := 0x5C
def semicolon : UInt8 := 0x3B
def dash : UInt8 := 0x2D
def slash : UInt8 := 0x2F
def asterisk : UInt8 := 0x2A
def exclamation : UInt8 := 0x21
def lineFeed : UInt8 := 0x0A

/-- One octet outside every span; nothing if it ends the statement. -/
def stepPlain (begun : Bool) (b : UInt8) : Option Scan :=
  if b = quoteMark ∨ b = doubleQuote then some (.quoted b false)
  else if b = backtickMark then some .backtick
  else if b = semicolon then none
  else if b = dash ∨ b = slash then some (.opener b !begun)
  else some (.plain (begun || !Octets.isBlank b))

/-- The lexer at the end of a comment: the statement ends here if the comment began it. -/
def closeComment (leading : Bool) : Option Scan :=
  if leading then none else some (.plain true)

/-- One octet; nothing if it ends the statement. -/
def step : Scan → UInt8 → Option Scan
  | .plain begun, b => stepPlain begun b
  | .opener first leading, b =>
    if first = dash ∧ b = dash then some (.dashes leading)
    else if first = slash ∧ b = asterisk then some (.blockComment leading true false)
    else stepPlain true b
  | .dashes leading, b =>
    if b = 0x20 ∨ b = 0x09 ∨ b = 0x0D then some (.lineComment leading)
    else if b = lineFeed then closeComment leading
    else stepPlain true b
  | .quoted quote escaped, b =>
    if escaped then some (.quoted quote false)
    else if b = backslash then some (.quoted quote true)
    else if b = quote then some (.plain true)
    else some (.quoted quote false)
  | .backtick, b => if b = backtickMark then some (.plain true) else some .backtick
  | .lineComment leading, b =>
    if b = lineFeed then closeComment leading else some (.lineComment leading)
  | .blockComment leading fresh star, b =>
    let leading := leading && !(fresh && b == exclamation)
    if star ∧ b = slash then closeComment leading
    else some (.blockComment leading false (b == asterisk))

/-- Whether input may end here without cutting a statement short. -/
def isComplete : Scan → Bool
  | .lineComment leading => leading
  | .dashes leading => leading
  | _ => false

/-- An initial part of the input and what follows it. -/
structure Cut where
  piece : Octets
  /-- False when the input ended inside the statement. -/
  terminated : Bool
  rest : Octets
  deriving DecidableEq, Repr

/-- The input up to the end of the statement, `taken` holding in reverse what the lexer met
before. -/
def cut (s : Scan) (taken : Octets) : Octets → Cut
  | [] => ⟨taken.reverse, s.isComplete, []⟩
  | b :: bs =>
    match s.step b with
    | none => ⟨(b :: taken).reverse, true, bs⟩
    | some s => cut s (b :: taken) bs

theorem cut_append (s : Scan) (taken bs : Octets) :
    (s.cut taken bs).piece ++ (s.cut taken bs).rest = taken.reverse ++ bs := by
  induction bs generalizing s taken with
  | nil => simp [cut]
  | cons b bs ih =>
    cases h : s.step b with
    | none => simp [cut, h]
    | some t => simp [cut, h, ih]

theorem cut_rest_le (s : Scan) (taken bs : Octets) :
    (s.cut taken bs).rest.length ≤ bs.length := by
  induction bs generalizing s taken with
  | nil => simp [cut]
  | cons b bs ih =>
    cases h : s.step b with
    | none => simp [cut, h]
    | some t =>
      simp only [cut, h, List.length_cons]
      exact Nat.le_succ_of_le (ih t (b :: taken))

/-- A cut takes an octet. -/
theorem cut_rest_lt (s : Scan) (taken : Octets) (b : UInt8) (bs : Octets) :
    (s.cut taken (b :: bs)).rest.length < (b :: bs).length := by
  cases h : s.step b with
  | none => simp [cut, h]
  | some t =>
    simp only [cut, h, List.length_cons]
    exact Nat.lt_succ_of_le (cut_rest_le t (b :: taken) bs)

end Scan

end SqlDump
