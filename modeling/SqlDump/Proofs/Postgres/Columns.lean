import SqlDump.Postgres.CreateTable
import SqlDump.Proofs.Postgres.Passing

/-!
# Types and families of columns

The type that a column is created with and the family that its values are written for are told one
by one from its type in the dump. They go together but for one column: of the AUTO_INCREMENT
columns, all of which become serial, one of type tinyint(1) still has boolean values.

Main statements: `ColumnItem.agrees_ofColumn`, the type and the family of any other column go
together; `family_of_renderValue`, only a boolean column has a number written as `TRUE` or `FALSE`.
-/

namespace SqlDump

open Text

namespace ColumnType

theorem family_withArguments (name : Text) (arguments : Option Text) (family : TypeFamily) :
    (withArguments name arguments family).family = family := by
  cases arguments <;> rfl

/-- Of the types that there is a rule for, a boolean one is `BOOLEAN`. -/
theorem sql_of_mapKnown? {type : ColumnType} {mapped : MappedType}
    (h : mapKnown? type = some mapped) (hfamily : mapped.family = .boolean) :
    mapped.sql = "BOOLEAN" := by
  unfold mapKnown? at h
  dsimp only at h
  split at h
  all_goals
    cases h
    try rw [family_withArguments] at hfamily
    try cases hfamily
  -- What is left: the type that is boolean for one argument only, the two names for
  -- them, and the type whose precision depends on its argument.
  · split at hfamily
    · next hone => rw [if_pos hone]
    · cases hfamily
  · rfl
  · rfl
  · split at hfamily <;> cases hfamily

/-- A boolean column is of type `BOOLEAN`. -/
theorem sql_of_boolean {token : Text} (h : (ColumnType.map token).family = .boolean) :
    (ColumnType.map token).sql = "BOOLEAN" := by
  unfold ColumnType.map at *
  cases hknown : mapKnown? (parse token) with
  | none =>
    rw [hknown] at h
    cases h
  | some mapped =>
    rw [hknown] at h
    exact sql_of_mapKnown? hknown h

/-- The type tinyint(1), which is boolean and can be serial. -/
def serialTruth : ColumnType where
  base := "tinyint"
  arguments := some ['1']

/-- A serial column holds integers, unless it is of type tinyint(1). -/
theorem family_of_serial? {token type : Text} (h : serial? token = some type) :
    (type = "SERIAL" ∨ type = "BIGSERIAL") ∧ (ColumnType.map token).family =
      if parse token = serialTruth then .boolean else .integer := by
  have hapart (name : String) (hbase : String.ofList (parse token).base = name)
      (hne : name ≠ "tinyint") : parse token ≠ serialTruth := by
    intro htruth
    rw [htruth] at hbase
    exact hne hbase.symm
  unfold serial? at h
  split at h <;> cases h
  case h_3 hbase =>
    refine ⟨.inl rfl, ?_⟩
    have htoken : parse token = serialTruth ↔ (parse token).arguments = some ['1'] := by
      constructor
      · intro htruth
        rw [htruth]
        rfl
      · intro hone
        have hbase : (parse token).base = "tinyint" := by
          rw [← hbase, String.toList_ofList]
        calc parse token = ⟨(parse token).base, (parse token).arguments⟩ := rfl
          _ = serialTruth := by rw [hbase, hone]; rfl
    simp only [ColumnType.map, mapKnown?, hbase, htoken]
    split <;> rfl
  all_goals
    next hbase =>
    rw [if_neg (hapart _ hbase (by decide))]
    refine ⟨by decide, ?_⟩
    simp only [ColumnType.map, mapKnown?, hbase]

end ColumnType

/-- A family goes with a type of the target: both are those of a type of the dump, or integers go
with a serial type. -/
def TypeFamily.Agrees (family : TypeFamily) (sql : Text) : Prop :=
  (∃ token, family = (ColumnType.map token).family ∧ sql = (ColumnType.map token).sql) ∨
    family = .integer ∧ (sql = "SERIAL" ∨ sql = "BIGSERIAL")

/-- The boolean family goes with no type but `BOOLEAN`. -/
theorem TypeFamily.Agrees.sql_eq {sql : Text} (h : TypeFamily.boolean.Agrees sql) :
    sql = "BOOLEAN" := by
  rcases h with ⟨token, hfamily, rfl⟩ | ⟨hfamily, -⟩
  · exact ColumnType.sql_of_boolean hfamily.symm
  · cases hfamily

namespace Postgres

/-- A created table has the columns of the table. -/
theorem columns_ofTable (t : Table) (flags : List Bool) :
    (CreateTable.ofTable t flags).columns = t.columns.map (ColumnItem.ofColumn t) := by
  have primary : (CreateTable.mk t.name (primaryKeyItem? t).toList).columns = [] := by
    unfold primaryKeyItem?
    split
    · split <;> rfl
    · rfl
  simp only [CreateTable.columns] at primary
  simp only [CreateTable.columns, CreateTable.ofTable, List.filterMap_append, primary,
    List.filterMap_map]
  simp

theorem name_ofColumn (t : Table) (c : Column) : (ColumnItem.ofColumn t c).name = c.name := by
  unfold ColumnItem.ofColumn
  dsimp only
  split <;> rfl

/-- Whether a column is AUTO_INCREMENT and of type tinyint(1). -/
def numbersTruths (c : Column) : Bool :=
  c.autoIncrement && ColumnType.parse c.type == ColumnType.serialTruth

/-- The type that a column is created with goes with the family of its values. -/
theorem agrees_ofColumn (t : Table) {c : Column} (h : numbersTruths c = false) :
    (ColumnType.map c.type).family.Agrees (ColumnItem.ofColumn t c).type := by
  unfold ColumnItem.ofColumn
  dsimp only
  cases hserial : serialType? c with
  | none => exact .inl ⟨c.type, rfl, rfl⟩
  | some type =>
    unfold serialType? at hserial
    split at hserial
    · next hnumbers =>
      obtain ⟨htype, hfamily⟩ := ColumnType.family_of_serial? hserial
      have hother : ColumnType.parse c.type ≠ ColumnType.serialTruth := by
        simpa [numbersTruths, hnumbers] using h
      rw [if_neg hother] at hfamily
      exact .inr ⟨hfamily, htype⟩
    · cases hserial

/-! ### Boolean values -/

/-- Whether a text is `TRUE` or `FALSE`. -/
def isTruth (t : Text) : Bool := t == ("TRUE" : Text) || t == ("FALSE" : Text)

/-- What is written without double quotes is what stood there. -/
theorem requoteFrom_eq_self {q : Quoting} {t : Text} (h : '\x22' ∉ requoteFrom q [] t) :
    requoteFrom q [] t = t := by
  induction t generalizing q with
  | nil => rfl
  | cons c t ih =>
    rw [requoteFrom_cons, List.mem_append, not_or] at h
    obtain ⟨hchar, hrest⟩ := h
    have hkept : requoteChar q c = [c] := by
      unfold requoteChar at *
      split at hchar
      · split at hchar
        · exact absurd (List.mem_singleton_self _) hchar
        · next hc => rw [if_neg hc]
      · split at hchar
        · next hquote =>
          split at hchar
          · exact absurd (List.mem_singleton_self _) hchar
          · next hc =>
            split at hchar
            · exact absurd List.mem_cons_self hchar
            · next hd => rw [if_pos hquote, if_neg hc, if_neg hd]
        · next hquote => rw [if_neg hquote]
    rw [requoteFrom_cons, hkept, ih hrest]
    rfl

theorem isTruth_of_requote {t : Text} (h : isTruth (requote t) = true) : isTruth t = true := by
  have hquotes : '\x22' ∉ requote t := by
    rcases Bool.or_eq_true_iff.mp h with h | h <;> rw [eq_of_beq h] <;> decide
  rwa [requote, requoteFrom_eq_self hquotes] at h

theorem isDigit_ofNat {n : Nat} {c : Char} (h : c ∈ ofNat n) : c.isDigit = true :=
  Nat.isDigit_of_mem_toDigits (by decide) (by decide) h

theorem isDigit_numeral {limbs : List Nat} {c : Char} (h : c ∈ Limbs.numeral limbs) :
    c.isDigit = true := by
  cases limbs with
  | nil => cases h
  | cons top limbs =>
    rcases List.mem_append.mp h with h | h
    · exact isDigit_ofNat h
    · obtain ⟨limb, -, h⟩ := List.mem_flatMap.mp h
      rcases List.mem_append.mp h with h | h
      · obtain rfl := List.eq_of_mem_replicate h
        decide
      · exact isDigit_ofNat h

/-- A number is neither `TRUE` nor `FALSE`. -/
theorem isTruth_decimalOfHex (digits : Text) : isTruth (Limbs.decimalOfHex digits) = false := by
  unfold Limbs.decimalOfHex
  generalize (Limbs.ofHex digits).reverse = limbs
  cases htruth : isTruth (Limbs.numeral limbs) with
  | false => rfl
  | true =>
    have hall : ∀ c ∈ Limbs.numeral limbs, c.isDigit = true := fun c => isDigit_numeral
    rcases Bool.or_eq_true_iff.mp htruth with h | h <;> rw [eq_of_beq h] at hall
    · exact absurd (hall 'T' List.mem_cons_self) (by decide)
    · exact absurd (hall 'F' List.mem_cons_self) (by decide)

/-- What is in quotes is neither `TRUE` nor `FALSE`. -/
theorem isTruth_quoted (t : Text) : isTruth ('\x27' :: t) = false := rfl

theorem isTruth_renderText (s : Text) (family : TypeFamily) (e : Encoding) :
    isTruth (renderText s family e) = false := by
  unfold renderText
  split
  · split
    · rfl
    · exact isTruth_quoted _
  · exact isTruth_quoted _
  · exact isTruth_quoted _

theorem isTruth_renderHex? {token digits : Text} {family : TypeFamily}
    (h : isTruth token = false) : isTruth ((renderHex? digits family).getD token) = false := by
  unfold renderHex?
  split
  · exact isTruth_quoted _
  · exact isTruth_quoted _
  · exact isTruth_quoted _
  · exact isTruth_decimalOfHex digits
  · exact isTruth_decimalOfHex digits
  · exact h

/-- A bare token that is neither `TRUE` nor `FALSE` is written so only in a boolean column. -/
theorem family_of_renderBare {token : Text} {family : TypeFamily} (h : isTruth token = false)
    (hwritten : isTruth (renderBare token family) = true) : family = .boolean := by
  by_contra hfamily
  unfold renderBare at hwritten
  rw [if_neg hfamily] at hwritten
  dsimp only at hwritten
  split at hwritten
  · rw [isTruth_renderHex? h] at hwritten
    cases hwritten
  · split at hwritten
    · cases hwritten
    · rw [isTruth_of_requote hwritten] at h
      cases h

/-- So is a value. -/
theorem family_of_renderValue {token : Text} {family : TypeFamily} {e : Encoding}
    (h : isTruth token = false) (hwritten : isTruth (renderValue (.bare token) family e) = true) :
    family = .boolean := by
  simp only [renderValue, quotedContent?] at hwritten
  cases hintroduced : introduced? token with
  | some s =>
    rw [hintroduced] at hwritten
    dsimp only at hwritten
    rw [isTruth_renderText] at hwritten
    cases hwritten
  | none =>
    rw [hintroduced] at hwritten
    exact family_of_renderBare h hwritten

end Postgres

end SqlDump
