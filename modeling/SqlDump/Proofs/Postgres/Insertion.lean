import Mathlib.Data.List.Forall2
import SqlDump.Postgres.Script
import SqlDump.Proofs.Postgres.Statement

/-!
# What a printed INSERT says

Nulls and quoted texts of any content are printed and read back: one statement for the table and
columns, with a tuple for every row and a literal for every value. Zero dates and octets are the
exceptions to the text being the same.

Main statements: `renderInsert?_reads`, the printed statement says what the rows say;
`isZeroDate_iff`, which texts are zero dates; `Octets.ofHexDigits?_toHex`, hexadecimal digits give
back their octets.
-/

namespace SqlDump

namespace Octets

/-- The octets of hexadecimal digits in pairs, all of them digits. -/
def ofHexDigits? : Text → Option Octets
  | [] => some []
  | [_] => none
  | a :: b :: rest =>
    if Postgres.isHexDigit a && Postgres.isHexDigit b then
      (ofHexDigits? rest).map
        (UInt8.ofNat (Limbs.digitValue a * 16 + Limbs.digitValue b) :: ·)
    else none

theorem isHexDigit_hexDigit (n : Nat) : Postgres.isHexDigit (hexDigit n) = true := by
  have h : ∀ m < 16, Postgres.isHexDigit (Nat.digitChar m) = true := by decide
  exact h _ (Nat.mod_lt _ (by decide))

theorem digitValue_hexDigit (n : Nat) : Limbs.digitValue (hexDigit n) = n % 16 := by
  have h : ∀ m < 16, Limbs.digitValue (Nat.digitChar m) = m := by decide
  exact h _ (Nat.mod_lt _ (by decide))

theorem ofHexDigits?_toHex (bs : Octets) : ofHexDigits? (toHex bs) = some bs := by
  induction bs with
  | nil => rfl
  | cons b bs ih =>
    have hcons : toHex (b :: bs) = hexDigit (b.toNat / 16) :: hexDigit b.toNat :: toHex bs :=
      rfl
    have hb : b.toNat / 16 % 16 * 16 + b.toNat % 16 = b.toNat := by
      have := b.toNat_lt
      omega
    rw [hcons, ofHexDigits?, isHexDigit_hexDigit, isHexDigit_hexDigit, digitValue_hexDigit,
      digitValue_hexDigit, hb, ih]
    simp

/-- No hexadecimal digit is a quote. -/
theorem double_toHex (bs : Octets) : Text.double '\x27' (toHex bs) = toHex bs := by
  have hdigit : ∀ n, hexDigit n ≠ '\x27' := by
    intro n he
    have h := isHexDigit_hexDigit n
    rw [he] at h
    cases h
  induction bs with
  | nil => rfl
  | cons b bs ih =>
    have hcons : toHex (b :: bs) = hexDigit (b.toNat / 16) :: hexDigit b.toNat :: toHex bs :=
      rfl
    rw [hcons, Text.double_cons_of_ne (hdigit _), Text.double_cons_of_ne (hdigit _), ih]

end Octets

namespace Postgres

open Text

/-- What may follow the zero date: nothing, or midnight with any number of zeros behind the
seconds. -/
inductive ZeroTime : Text → Prop
  | none : ZeroTime []
  | seconds {c : Char} (separator : c = ' ' ∨ c = 'T') : ZeroTime (c :: "00:00:00")
  | fraction {c : Char} (separator : c = ' ' ∨ c = 'T') (n : Nat) :
      ZeroTime (c :: ("00:00:00" ++ '.' :: List.replicate (n + 1) '0'))

/-- The zero date, with or without a time and with blanks around it. -/
def ZeroDate (s : Text) : Prop := ∃ time, trim s = "0000-00-00" ++ time ∧ ZeroTime time

theorem zeroDate_of_isZeroDate {s : Text} (h : isZeroDate s = true) : ZeroDate s := by
  unfold isZeroDate at h
  split at h
  · cases h
  · rename_i hd
    exact ⟨[], eq_append_of_after? hd, .none⟩
  · rename_i c rest hd
    obtain ⟨hc, hrest⟩ := (Bool.and_eq_true _ _).mp h
    have hsep : c = ' ' ∨ c = 'T' := by simpa using hc
    refine ⟨c :: rest, eq_append_of_after? hd, ?_⟩
    split at hrest
    · cases hrest
    · rename_i hr
      rw [eq_append_of_after? hr, List.append_nil]
      exact .seconds hsep
    · rename_i d zeros hr
      simp only [Bool.and_eq_true, beq_iff_eq] at hrest
      obtain ⟨⟨rfl, hne⟩, hz⟩ := hrest
      obtain ⟨z, zs, rfl⟩ : ∃ z zs, zeros = z :: zs := by
        cases zeros with
        | nil => cases hne
        | cons z zs => exact ⟨z, zs, rfl⟩
      have hzeros : z :: zs = List.replicate (zs.length + 1) '0' :=
        List.eq_replicate_iff.mpr ⟨List.length_cons, by simpa using hz⟩
      rw [eq_append_of_after? hr, hzeros]
      exact .fraction hsep zs.length

theorem isZeroDate_of_zeroDate {s : Text} (h : ZeroDate s) : isZeroDate s = true := by
  obtain ⟨time, heq, htime⟩ := h
  unfold isZeroDate
  rw [heq, after?_append]
  cases htime with
  | none => rfl
  | seconds hc =>
    have hseconds : after? "00:00:00" ("00:00:00" : Text) = some [] :=
      after?_eq_some_iff.mpr (List.append_nil _).symm
    dsimp only
    rw [hseconds]
    simpa using hc
  | fraction hc n =>
    dsimp only
    rw [after?_append]
    simpa using hc

theorem isZeroDate_iff (s : Text) : isZeroDate s = true ↔ ZeroDate s :=
  ⟨zeroDate_of_isZeroDate, isZeroDate_of_zeroDate⟩

instance : DecidablePred ZeroDate := fun s => decidable_of_iff _ (isZeroDate_iff s)

/-- The octets of a `bytea` literal in hexadecimal form. -/
def byteaOctets? : Text → Option Octets
  | '\\' :: 'x' :: digits => Octets.ofHexDigits? digits
  | _ => none

/-- What a literal in a column of the given family says of the value that was read from a dump. -/
inductive Denotes (family : TypeFamily) (encoding : Encoding) : Value → Literal → Prop
  | null : Denotes family encoding .null .null
  | zeroDate {s : Text} (temporal : family = .temporal) (zero : ZeroDate s) :
      Denotes family encoding (.text s) .null
  | octets {s t : Text} (binary : family = .binary)
      (same : byteaOctets? t = some (encoding.octets s)) :
      Denotes family encoding (.text s) (.string t)
  | text {s : Text} (text : family ≠ .binary) (nonzero : family = .temporal → ¬ZeroDate s) :
      Denotes family encoding (.text s) (.string s)

/-- A literal for every value of a row, in order. -/
structure Tuple.Denotes (families : List TypeFamily) (encoding : Encoding) (row : Row)
    (tuple : Tuple) : Prop where
  length : tuple.length = row.length
  value : ∀ (k : Nat) (v : Value) (l : Literal), row[k]? = some v → tuple[k]? = some l →
    Postgres.Denotes (families.getD k .other) encoding v l

/-- The zero dates in a row that stand in columns for dates and times, each with the number of its
column. -/
def zeroDates (families : List TypeFamily) (row : Row) : List (Value × Nat) :=
  row.zipIdx.filter fun
    | (.text s, k) => families.getD k .other = .temporal ∧ ZeroDate s
    | _ => false

/-- The literal that is printed for a null or a quoted text. -/
def literalOf (v : Value) (family : TypeFamily) (encoding : Encoding) : Literal :=
  match v with
  | .text s =>
    if family = .temporal ∧ ZeroDate s then .null
    else if family = .binary then .string ('\\' :: 'x' :: Octets.toHex (encoding.octets s))
    else .string s
  | _ => .null

def NullOrText (v : Value) : Prop := v = .null ∨ ∃ s, v = .text s

theorem text_literalOf {v : Value} (h : NullOrText v) (family : TypeFamily) (encoding : Encoding) :
    renderValue v family encoding = (literalOf v family encoding).text := by
  obtain rfl | ⟨s, rfl⟩ := h
  · rfl
  by_cases hb : family = .binary
  · subst hb
    have hdouble : double '\x27' ('\\' :: 'x' :: Octets.toHex (encoding.octets s)) =
        '\\' :: 'x' :: Octets.toHex (encoding.octets s) := by
      rw [double_cons_of_ne (by decide), double_cons_of_ne (by decide), Octets.double_toHex]
    simp [renderValue, quotedContent?, renderText, quoteOctets, literalOf, Literal.text, quoteString,
      hdouble]
  by_cases ht : family = .temporal
  · subst ht
    by_cases hz : ZeroDate s
    · have hzero := (isZeroDate_iff s).mpr hz
      simp only [renderValue, quotedContent?, renderText, literalOf, hzero, hz, and_self, if_true]
      rfl
    · have hzero : isZeroDate s = false := Bool.eq_false_iff.mpr fun h => hz ((isZeroDate_iff s).mp h)
      simp only [renderValue, quotedContent?, renderText, literalOf, hzero, hz, and_false, if_false]
      rfl
  · rw [renderValue_text s family encoding hb ht]
    simp [literalOf, hb, ht, Literal.text]

theorem denotes_literalOf {v : Value} (h : NullOrText v) (family : TypeFamily)
    (encoding : Encoding) : Denotes family encoding v (literalOf v family encoding) := by
  obtain rfl | ⟨s, rfl⟩ := h
  · exact .null
  by_cases hz : family = .temporal ∧ ZeroDate s
  · simp only [literalOf, if_pos hz]
    exact .zeroDate hz.1 hz.2
  by_cases hb : family = .binary
  · simp only [literalOf, if_neg hz, if_pos hb]
    exact .octets hb (Octets.ofHexDigits?_toHex _)
  · simp only [literalOf, if_neg hz, if_neg hb]
    exact .text hb fun ht hd => hz ⟨ht, hd⟩

def tupleOf (families : List TypeFamily) (encoding : Encoding) (row : Row) : Tuple :=
  row.mapIdx fun k v => literalOf v (families.getD k .other) encoding

theorem text_tupleOf {row : Row} (h : ∀ v ∈ row, NullOrText v) (families : List TypeFamily)
    (encoding : Encoding) :
    renderRow families encoding row = (tupleOf families encoding row).text := by
  have hvalues : (row.mapIdx fun k v => renderValue v (families.getD k .other) encoding) =
      (tupleOf families encoding row).map Literal.text := by
    refine List.ext_getElem (by simp [tupleOf]) fun k hk _ => ?_
    have hv : k < row.length := by simpa using hk
    simpa [tupleOf] using text_literalOf (h row[k] (List.getElem_mem hv)) _ encoding
  rw [renderRow, hvalues, Tuple.text]

theorem denotes_tupleOf {row : Row} (h : ∀ v ∈ row, NullOrText v) (families : List TypeFamily)
    (encoding : Encoding) : (tupleOf families encoding row).Denotes families encoding row where
  length := List.length_mapIdx
  value k v l hv hl := by
    simp only [tupleOf, List.getElem?_mapIdx, hv, Option.map_some, Option.some.injEq] at hl
    subst hl
    exact denotes_literalOf (h v (List.mem_of_getElem? hv)) _ _

theorem countP_nulledInRow {row : Row} (h : ∀ v ∈ row, NullOrText v) (families : List TypeFamily) :
    (nulledInRow families row).countP id = (zeroDates families row).length := by
  rw [nulledInRow, List.mapIdx_eq_zipIdx_map, List.countP_map, zeroDates,
    ← List.countP_eq_length_filter]
  refine List.countP_congr fun ⟨v, k⟩ hm => ?_
  have hv : v ∈ row := List.fst_mem_of_mem_zipIdx hm
  obtain rfl | ⟨s, rfl⟩ := h v hv
  · simp [isNulledDate, quotedContent?]
  · simp [isNulledDate, quotedContent?, isZeroDate_iff]

/-- The text printed for nulls and quoted texts is one statement for the same table and columns,
with the same rows, and the zero dates in it are counted. -/
theorem renderInsert?_reads {i : Insert} (hrows : i.rows ≠ [])
    (hvalues : ∀ row ∈ i.rows, ∀ v ∈ row, NullOrText v) (families : List TypeFamily) :
    ∃ sql rows, renderInsert? i families = some sql ∧
      InsertStatement.read? sql = some ⟨i.table, i.columns, rows⟩ ∧
      List.Forall₂ (Tuple.Denotes families i.encoding) i.rows rows ∧
      nulledDates i families = (i.rows.flatMap (zeroDates families)).length := by
  have htuples : i.rows.map (renderRow families i.encoding) =
      (i.rows.map (tupleOf families i.encoding)).map Tuple.text := by
    rw [List.map_map]
    exact List.map_congr_left fun row hrow => text_tupleOf (hvalues row hrow) families i.encoding
  refine ⟨InsertStatement.text ⟨i.table, i.columns, i.rows.map (tupleOf families i.encoding)⟩, _,
    ?_, InsertStatement.read?_text (by simpa using hrows), ?_, ?_⟩
  · unfold renderInsert? InsertStatement.text
    rw [if_neg (by simpa using hrows), htuples]
    rfl
  · rw [List.forall₂_map_right_iff, List.forall₂_same]
    intro row hrow
    exact denotes_tupleOf (hvalues row hrow) families i.encoding
  · rw [nulledDates, List.countP_flatMap, List.length_flatMap]
    exact congrArg List.sum (List.map_congr_left fun row hrow =>
      countP_nulledInRow (hvalues row hrow) families)

/-- A quote, a bracket and a semicolon in a text, and a zero date. -/
theorem renderInsert?_reads_quote :
    ∃ sql rows, renderInsert? ⟨"a\"b", some ["x", "y"], [[.text "it's);", .text "0000-00-00"]],
        none, .utf8⟩ [.text, .temporal] = some sql ∧
      InsertStatement.read? sql = some ⟨"a\"b", some ["x", "y"], rows⟩ ∧
      List.Forall₂ (Tuple.Denotes [.text, .temporal] .utf8)
        [[.text "it's);", .text "0000-00-00"]] rows ∧
      nulledDates ⟨"a\"b", some ["x", "y"], [[.text "it's);", .text "0000-00-00"]], none, .utf8⟩
        [.text, .temporal] =
        ([[.text "it's);", .text "0000-00-00"]].flatMap (zeroDates [.text, .temporal])).length := by
  refine renderInsert?_reads (List.cons_ne_nil _ _) ?_ _
  intro row hrow v hv
  obtain rfl := List.mem_singleton.mp hrow
  rcases List.mem_cons.mp hv with rfl | hv
  · exact .inr ⟨_, rfl⟩
  · exact .inr ⟨_, List.mem_singleton.mp hv⟩

end Postgres

end SqlDump
