import SqlDump.Csv.Record

/-!
# Reading records

Records as any reader of comma-separated values finds them: commas between the fields of a record,
a line feed behind it, and quotes around a field that holds one of these, a quote in it being
written twice. The reader here is strict. It takes neither a quote nor a carriage return in a field
without quotes, on which others differ, so that they agree wherever it reads at all.

Main statement: `read?_encodeRecord`, the records that were written are read back field by field.
-/

namespace SqlDump.Csv

/-- Where a reader stands in a record. -/
inductive Place where
  /-- Before the first octet of a field. -/
  | fresh
  /-- In a field without quotes. -/
  | bare
  /-- Inside the quotes of a field. -/
  | quoted
  /-- Behind a quote that closes the field, unless it is written twice. -/
  | closing
  deriving DecidableEq, Repr

/-- A reader of records, what it has read in reverse. -/
structure Reader where
  records : List (List Octets) := []
  /-- The fields of the open record. -/
  fields : List Octets := []
  /-- The octets of the open field. -/
  field : Octets := []
  place : Place := .fresh
  deriving DecidableEq, Repr

namespace Reader

/-- The fields of the open record, with the open field as its last. -/
def openRecord (r : Reader) : List Octets := (r.field.reverse :: r.fields).reverse

/-- An octet at the end of a field: a comma or the end of the record. -/
def stepEnd (r : Reader) (b : UInt8) : Option Reader :=
  if b = comma then
    some { r with fields := r.field.reverse :: r.fields, field := [], place := .fresh }
  else if b = lineFeed then some { records := r.openRecord :: r.records }
  else none

/-- One octet; nothing where no record goes on with it. -/
def step (r : Reader) (b : UInt8) : Option Reader :=
  match r.place with
  | .fresh =>
    if b = quote then some { r with place := .quoted }
    else if isSpecial b then r.stepEnd b
    else some { r with field := b :: r.field, place := .bare }
  | .bare =>
    if isSpecial b then r.stepEnd b else some { r with field := b :: r.field }
  | .quoted =>
    if b = quote then some { r with place := .closing } else some { r with field := b :: r.field }
  | .closing =>
    if b = quote then some { r with field := b :: r.field, place := .quoted } else r.stepEnd b

def run (r : Reader) : Octets → Option Reader
  | [] => some r
  | b :: rest => (r.step b).bind fun r => r.run rest

/-- The records at the end of the octets, of which the last may have no line feed. -/
def finish (r : Reader) : Option (List (List Octets)) :=
  match r.place with
  | .quoted => none
  | .fresh =>
    if r.fields.isEmpty then some r.records.reverse else some (r.openRecord :: r.records).reverse
  | _ => some (r.openRecord :: r.records).reverse

end Reader

/-- The records in octets; nothing where these are no records. -/
def read? (content : Octets) : Option (List (List Octets)) :=
  (({} : Reader).run content).bind Reader.finish

/-- The fields that are read for a record. A record without fields cannot be told from one with an
empty field. -/
def shown (fields : List Octets) : List Octets := if fields.isEmpty then [[]] else fields

namespace Reader

variable {r : Reader}

theorem run_append (r : Reader) (bs cs : Octets) :
    r.run (bs ++ cs) = (r.run bs).bind fun r => r.run cs := by
  induction bs generalizing r with
  | nil => rfl
  | cons b bs ih =>
    rw [List.cons_append, run, run]
    cases r.step b with
    | none => rfl
    | some r => exact ih r

theorem run_singleton (r : Reader) (b : UInt8) : r.run [b] = r.step b := by
  rw [run]
  cases r.step b <;> rfl

/-- Octets without a meaning go into the field. -/
theorem run_plain {f : Octets} (hf : ∀ b ∈ f, isSpecial b = false)
    (hr : r.place = .fresh ∨ r.place = .bare) :
    r.run f = some { r with
      field := f.reverse ++ r.field, place := if f.isEmpty then r.place else .bare } := by
  induction f generalizing r with
  | nil => rfl
  | cons b f ih =>
    have hb := hf b List.mem_cons_self
    have hquote : b ≠ quote := by
      rintro rfl
      cases hb
    have hstep : r.step b = some { r with field := b :: r.field, place := .bare } := by
      unfold step
      obtain hp | hp := hr
      · simp only [hp, if_neg hquote, hb, Bool.false_eq_true, if_false]
      · simp only [hp, hb, Bool.false_eq_true, if_false]
    rw [run, hstep, Option.bind_some, ih (fun c hc => hf c (List.mem_cons_of_mem b hc)) (.inr rfl)]
    simp

/-- Inside quotes everything goes into the field, a quote written twice being one. -/
theorem run_quoted (f : Octets) (hr : r.place = .quoted) :
    r.run (f.flatMap fun b => if b = quote then [quote, quote] else [b]) =
      some { r with field := f.reverse ++ r.field } := by
  induction f generalizing r with
  | nil => rfl
  | cons b f ih =>
    have hpush : r.run (if b = quote then [quote, quote] else [b]) =
        some { r with field := b :: r.field } := by
      by_cases hb : b = quote
      · subst hb
        have hclose : r.step quote = some { r with place := .closing } := by simp [step, hr]
        rw [if_pos rfl, run, hclose, Option.bind_some, run_singleton]
        simp [step, hr]
      · rw [if_neg hb, run_singleton]
        simp [step, hr, hb]
    rw [List.flatMap_cons, run_append, hpush, Option.bind_some,
      @ih { r with field := b :: r.field } hr]
    simp

/-- The octets of a field are read, and the field may end behind them. -/
theorem run_encodeField (f : Octets) (hplace : r.place = .fresh) (hfield : r.field = []) :
    ∃ place, place ≠ .quoted ∧
      r.run (encodeField f) = some { r with field := f.reverse, place := place } := by
  unfold encodeField
  split
  · have hopen : r.step quote = some { r with place := .quoted } := by simp [step, hplace]
    refine ⟨.closing, by decide, ?_⟩
    rw [quoteField, List.cons_append, run, hopen, Option.bind_some, run_append,
      run_quoted f rfl, Option.bind_some, run_singleton]
    simp [step, hfield]
  · next hf =>
    have hplain : ∀ b ∈ f, isSpecial b = false := by simpa using hf
    refine ⟨if f.isEmpty then .fresh else .bare, by split <;> decide, ?_⟩
    rw [run_plain hplain (.inl hplace), hplace, hfield, List.append_nil]

theorem step_comma (hr : r.place ≠ .quoted) :
    r.step comma =
      some { r with fields := r.field.reverse :: r.fields, field := [], place := .fresh } := by
  unfold step
  cases hp : r.place with
  | quoted => exact absurd hp hr
  | _ => rfl

theorem step_lineFeed (hr : r.place ≠ .quoted) :
    r.step lineFeed = some { records := r.openRecord :: r.records } := by
  unfold step
  cases hp : r.place with
  | quoted => exact absurd hp hr
  | _ => rfl

/-- Fields with commas between them are read, and the record may end behind them. -/
theorem run_fields (f : Octets) (fs : List Octets) (hplace : r.place = .fresh)
    (hfield : r.field = []) :
    ∃ r', r.run ([comma].intercalate ((f :: fs).map encodeField)) = some r' ∧
      r'.place ≠ .quoted ∧ r'.records = r.records ∧
      r'.openRecord = r.fields.reverse ++ f :: fs := by
  induction fs generalizing f r with
  | nil =>
    obtain ⟨place, hne, hrun⟩ := run_encodeField f hplace hfield
    have hone : [comma].intercalate ([f].map encodeField) = encodeField f := by
      simp [List.intercalate]
    rw [hone, hrun]
    exact ⟨_, rfl, hne, rfl, by simp [openRecord]⟩
  | cons g fs ih =>
    obtain ⟨place, hne, hrun⟩ := run_encodeField f hplace hfield
    have hmore : [comma].intercalate ((f :: g :: fs).map encodeField) =
        encodeField f ++ comma :: [comma].intercalate ((g :: fs).map encodeField) := by
      simp [List.intercalate]
    rw [hmore, run_append, hrun, Option.bind_some, run, step_comma hne, Option.bind_some]
    obtain ⟨r', hrest, hplace', hrecords, hopen⟩ :=
      @ih { r with fields := f.reverse.reverse :: r.fields, field := [], place := .fresh } g rfl rfl
    refine ⟨r', hrest, hplace', hrecords, ?_⟩
    rw [hopen, List.reverse_reverse, List.reverse_cons, List.append_assoc]
    rfl

/-- A record is read as its fields. -/
theorem run_encodeRecord (records : List (List Octets)) (fields : List Octets) :
    ({ records } : Reader).run (encodeRecord fields) =
      some { records := shown fields :: records } := by
  have hlone : ({ records } : Reader).run ([quote, quote] ++ [lineFeed]) =
      some { records := [[]] :: records } := rfl
  cases fields with
  | nil => exact hlone
  | cons f fs =>
    unfold encodeRecord
    dsimp only
    split
    · next hempty =>
      -- Only one empty field leaves the line empty.
      have hfields : f :: fs = [[]] := by
        cases fs with
        | cons g fs => simp [List.intercalate] at hempty
        | nil =>
          have hf : encodeField f = [] := by simpa [List.intercalate] using hempty
          unfold encodeField quoteField at hf
          split at hf
          · cases hf
          · rw [hf]
      rw [hlone, hfields]
      rfl
    · obtain ⟨r, hrun, hplace, hrecords, hopen⟩ :=
        @run_fields { records } f fs rfl rfl
      rw [run_append, hrun, Option.bind_some, run_singleton, step_lineFeed hplace, hopen, hrecords]
      rfl

theorem run_encodeRecords (done records : List (List Octets)) :
    ({ records := done } : Reader).run (records.flatMap encodeRecord) =
      some { records := (records.map shown).reverse ++ done } := by
  induction records generalizing done with
  | nil => rfl
  | cons fields records ih =>
    rw [List.flatMap_cons, run_append, run_encodeRecord, Option.bind_some, ih]
    simp

end Reader

/-- What was written is read back. -/
theorem read?_encodeRecord (records : List (List Octets)) :
    read? (records.flatMap encodeRecord) = some (records.map shown) := by
  rw [read?, Reader.run_encodeRecords, Option.bind_some, List.append_nil]
  exact congrArg some (List.reverse_reverse _)

end SqlDump.Csv
