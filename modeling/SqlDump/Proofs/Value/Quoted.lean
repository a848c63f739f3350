import SqlDump.Postgres.Literal
import SqlDump.Proofs.Text.Items
import SqlDump.Proofs.Value.Faults
import SqlDump.Proofs.Value.Literal
import SqlDump.Proofs.Value.Lockstep

/-!
# Quoted values

A quoted text as a value of a row, with blanks around it and with a charset introducer before it or
not. Alone, its content is the value; behind a name the whole is a token as it stands, in which the
content is found again.

Main statements: `QuotedValue.Valid.reads`, the value that is read wherever a value may begin;
`QuotedValue.Valid.quotedContent?`, the content of that value; `ParsedRows.cell?_of_writtenAt`, a
value that is written in a row is found at its place.
-/

namespace SqlDump

open Text

/-- A quoted text as a value of a row. -/
structure QuotedValue where
  /-- What stands between the quotes. -/
  written : Text
  /-- The text that it spells. -/
  content : Text
  /-- The name in a charset introducer and the blanks behind it, before the quotes. -/
  introducer : Option (Text × Text) := none
  /-- The blanks around the value. -/
  before : Text := []
  behind : Text := []

namespace QuotedValue

/-- The charset introducer before the quotes. -/
def introducerText (q : QuotedValue) : Text :=
  match q.introducer with
  | none => []
  | some (name, gap) => '_' :: (name ++ gap)

/-- The literal without what stands around it. -/
def literal (q : QuotedValue) : Text := '\x27' :: (q.written ++ ['\x27'])

/-- The value as it stands in a row. -/
def text (q : QuotedValue) : Text :=
  q.before ++ q.introducerText ++ ('\x27' :: (q.written ++ '\x27' :: q.behind))

/-- The value that is read. -/
def value (q : QuotedValue) : Value :=
  match q.introducer with
  | none => .text q.content
  | some _ => .bare (q.introducerText ++ q.literal)

/-- What stands between the quotes spells the content, blanks are blanks, and a charset introducer
has a name of letters and digits of ASCII. -/
structure Valid (q : QuotedValue) : Prop where
  spells : Spelling '\x27' q.written q.content
  before : isBlank q.before = true
  behind : isBlank q.behind = true
  introducer : ∀ i ∈ q.introducer, i.1 ≠ [] ∧ i.1.all Char.isAlphanum = true ∧ isBlank i.2 = true

end QuotedValue

/-! ### Letters and digits -/

namespace Text

variable {c : Char}

theorem ascii_of_isAlphanum (h : c.isAlphanum = true) : c.toNat < 0x80 := by
  have hbelow {d : Char} (hle : c.val ≤ d.val) (hd : d.toNat < 0x80) : c.toNat < 0x80 :=
    Nat.lt_of_le_of_lt (UInt32.le_iff_toNat_le.mp hle) hd
  rcases Bool.or_eq_true_iff.mp h with hletter | hdigit
  · rcases Bool.or_eq_true_iff.mp hletter with hupper | hlower
    · obtain ⟨-, hle⟩ : 'A'.val ≤ c.val ∧ c.val ≤ 'Z'.val := of_decide_eq_true hupper
      exact hbelow hle (by decide)
    · exact hbelow (of_decide_eq_true (Bool.and_eq_true_iff.mp hlower).2) (by decide)
  · exact hbelow (of_decide_eq_true (Bool.and_eq_true_iff.mp hdigit).2) (by decide)

/-- Lower-case letters are letters. -/
theorem isAlphanum_foldCase (h : c.isAlphanum = true) : (foldCase c).isAlphanum = true := by
  have hall : ∀ n < 0x80, (Char.ofNat n).isAlphanum = true →
      (foldCase (Char.ofNat n)).isAlphanum = true := by
    decide +kernel
  have hc := hall c.toNat (ascii_of_isAlphanum h)
  rw [Char.ofNat_toNat] at hc
  exact hc h

/-- No blank is a letter, nor is it read as one. -/
theorem isAlphanum_foldCase_of_isBlank (h : Unicode.isBlank c = true) :
    (foldCase c).isAlphanum = false :=
  Unicode.of_isBlank (p := fun c => (foldCase c).isAlphanum = false) (by decide +kernel) h

end Text

namespace Postgres

theorem exists_written {quoted : Text} (hlength : ¬quoted.length < 2)
    (hopened : startsWith "'" quoted = true) (hclosed : ¬beforeClosingQuote? quoted = none) :
    ∃ written, quoted = '\x27' :: (written ++ ['\x27']) := by
  obtain ⟨before, hbefore⟩ := Option.ne_none_iff_exists'.mp hclosed
  unfold beforeClosingQuote? at hbefore
  split at hbefore
  · next rest hreverse =>
    have hquoted : quoted = rest.reverse ++ ['\x27'] := by
      rw [← List.reverse_reverse quoted, hreverse, List.reverse_cons]
    cases hrest : rest.reverse with
    | nil =>
      rw [hquoted, hrest] at hlength
      exact absurd (by decide) hlength
    | cons c written =>
      rw [hquoted, hrest, List.cons_append] at hopened ⊢
      obtain ⟨tail, htail⟩ := Option.isSome_iff_exists.mp hopened
      obtain ⟨rfl, -⟩ := List.cons.inj (eq_append_of_after? htail)
      exact ⟨written, rfl⟩
  · cases hbefore

/-- Behind a charset introducer, which is a name of letters and digits and perhaps blanks, there is
a text in quotes. -/
theorem introduced?_eq_some_iff {token s : Text} : introduced? token = some s ↔
    ∃ name gap written, token = '_' :: (name ++ (gap ++ '\x27' :: (written ++ ['\x27']))) ∧
      name ≠ [] ∧ (∀ c ∈ name, (foldCase c).isAlphanum = true) ∧ isBlank gap = true ∧
      Value.ofToken ('\x27' :: (written ++ ['\x27'])) = .text s := by
  constructor
  · intro h
    unfold introduced? at h
    split at h
    · next rest =>
      dsimp only at h
      generalize hquoted : trimStart (rest.dropWhile fun c => (foldCase c).isAlphanum) = quoted at h
      split at h
      · cases h
      next hcond =>
      simp only [Bool.or_eq_true, not_or, decide_eq_true_eq, Bool.not_eq_true', Bool.not_eq_false,
        List.isEmpty_iff, Option.isNone_iff_eq_none] at hcond
      obtain ⟨⟨⟨hne, hlength⟩, hopened⟩, hclosed⟩ := hcond
      obtain ⟨written, rfl⟩ := exists_written hlength hopened hclosed
      refine ⟨rest.takeWhile fun c => (foldCase c).isAlphanum,
        (rest.dropWhile fun c => (foldCase c).isAlphanum).takeWhile Unicode.isBlank, written, ?_,
        hne, fun c hc => List.mem_takeWhile_imp (p := fun c => (foldCase c).isAlphanum) hc,
        List.all_eq_true.mpr fun _ hc => List.mem_takeWhile_imp hc, ?_⟩
      · rw [← hquoted, trimStart, List.takeWhile_append_dropWhile,
          List.takeWhile_append_dropWhile]
      · split at h
        · next hcontent =>
          cases h
          exact hcontent
        · cases h
    · cases h
  · rintro ⟨name, gap, written, rfl, hne, hword, hgap, hcontent⟩
    generalize hliteral : '\x27' :: (written ++ ['\x27']) = literal at *
    have hstop : (gap ++ literal).takeWhile (fun c => (foldCase c).isAlphanum) = [] ∧
        (gap ++ literal).dropWhile (fun c => (foldCase c).isAlphanum) = gap ++ literal := by
      cases gap with
      | nil =>
        rw [← hliteral]
        exact ⟨rfl, rfl⟩
      | cons c gap =>
        have hc := isAlphanum_foldCase_of_isBlank (List.all_eq_true.mp hgap c List.mem_cons_self)
        exact ⟨List.takeWhile_cons_of_neg (by simp [hc]), List.dropWhile_cons_of_neg (by simp [hc])⟩
    have htrim : trimStart (gap ++ literal) = literal := by
      rw [trimStart, List.dropWhile_append_of_pos (List.all_eq_true.mp hgap), ← hliteral]
      rfl
    have hclosed : beforeClosingQuote? literal = some ('\x27' :: written) := by
      simp [beforeClosingQuote?, ← hliteral]
    have hopened : startsWith "'" literal = true := by
      rw [← hliteral]
      rfl
    have hlength : ¬literal.length < 2 := by simp [← hliteral]
    unfold introduced?
    simp only [List.takeWhile_append_of_pos hword, List.dropWhile_append_of_pos hword, hstop.1,
      hstop.2, htrim, List.append_nil, hclosed, hopened, hcontent]
    simp [hne, hlength]

end Postgres

namespace QuotedValue

variable {q : QuotedValue} {c : Char}

/-- A character that goes into a value as it is. -/
def IsPlain (c : Char) : Prop := ¬IsValueQuote c ∧ c ≠ '(' ∧ c ≠ ')' ∧ c ≠ ','

theorem isPlain_of {p : Char → Bool} (hp : ("'\x22()," : Text).any p = false) (h : p c = true) :
    IsPlain c := by
  have hne : ∀ d ∈ ("'\x22()," : Text), c ≠ d := by
    rintro d hd rfl
    exact List.any_eq_false.mp hp c hd h
  refine ⟨?_, hne _ ?_, hne _ ?_, hne _ ?_⟩
  · rintro (rfl | rfl)
    · exact hne _ (by decide) rfl
    · exact hne _ (by decide) rfl
  all_goals decide

theorem isPlain_of_isBlank {t : Text} (h : isBlank t = true) : ∀ c ∈ t, IsPlain c :=
  fun c hc => isPlain_of (p := Unicode.isBlank) (by decide) (List.all_eq_true.mp h c hc)

/-- What stands before the quotes goes into the value. -/
theorem Valid.isPlain (h : q.Valid) : ∀ c ∈ q.before ++ q.introducerText, IsPlain c := by
  intro c hc
  rcases List.mem_append.mp hc with hc | hc
  · exact isPlain_of_isBlank h.before c hc
  unfold introducerText at hc
  cases hq : q.introducer with
  | none =>
    rw [hq] at hc
    exact absurd hc List.not_mem_nil
  | some introducer =>
    obtain ⟨name, gap⟩ := introducer
    obtain ⟨-, hname, hgap⟩ := h.introducer (name, gap) hq
    simp only [hq, List.mem_cons, List.mem_append] at hc
    rcases hc with rfl | hc | hc
    · exact isPlain_of (p := (· == '_')) (by decide) rfl
    · exact isPlain_of (p := Char.isAlphanum) (by decide) (List.all_eq_true.mp hname c hc)
    · exact isPlain_of_isBlank hgap c hc

/-! ### The value that is read -/

/-- The value of a buffer that holds the text. -/
theorem Valid.finish (h : q.Valid) :
    ValueBuffer.finish ⟨q.text.reverse, q.content.reverse, true, !isBlank q.introducerText⟩ =
      q.value := by
  unfold ValueBuffer.finish value
  cases hq : q.introducer with
  | none =>
    have hblank : isBlank q.introducerText = true := by simp [introducerText, hq, isBlank]
    simp [hblank]
  | some introducer =>
    obtain ⟨name, gap⟩ := introducer
    have hintroducer : q.introducerText = '_' :: (name ++ gap) := by rw [introducerText, hq]
    have hblank : isBlank q.introducerText = false := by
      rw [hintroducer]
      rfl
    have htrim : trim q.text = q.introducerText ++ q.literal := by
      have hsolid := trim_solid (c := '_') (d := '\x27') h.before h.behind (by decide) (by decide)
        (name ++ gap ++ '\x27' :: q.written)
      simpa [text, literal, hintroducer] using hsolid
    have hnull : sameAscii (q.introducerText ++ q.literal) "null" = false := by
      rw [hintroducer]
      rfl
    simp only [List.reverse_reverse, hblank, htrim, hnull, Bool.not_false, Bool.not_true,
      Bool.and_false, Bool.false_eq_true, if_false]

/-- The reader of rows finds the value. -/
theorem Valid.reads (h : q.Valid) : OpenRow.Reads q.text q.value := by
  intro o values ho
  refine (OpenRow.reaches_plain h.isPlain (.inl ho.quote)).append fun o₁ h₁ => ?_
  have hquote : o₁.quote = .outside := by
    rw [h₁, ho.quote]
    simp
  refine .cons fun start => ⟨{ o₁ with
    value := { o₁.value with raw := '\x27' :: o₁.value.raw, quoted := true }
    quote := .inside '\x27' start false }, ?_, ?_⟩
  · rw [OpenRow.step, hquote]
    rfl
  refine (h.spells.reaches_quoted (.inl rfl) o₁ _ start).append fun o₂ h₂ => ?_
  refine .cons fun _ => ⟨{ o₂ with
    value := o₂.value.push '\x27', quote := .closing '\x27' start }, ?_, ?_⟩
  · simp [h₂, OpenRow.step]
  refine (OpenRow.reaches_plain (isPlain_of_isBlank h.behind)
    (.inr ⟨'\x27', start, .inl rfl, rfl⟩)).mono fun last hlast => ?_
  have hbefore := h.before
  have hbehind := h.behind
  have hvalue : last.value =
      ⟨q.text.reverse, q.content.reverse, true, !isBlank q.introducerText⟩ := by
    simp only [isBlank] at hbefore hbehind ⊢
    simp [hlast, h₂, h₁, ho.value, text, ValueBuffer.push, isBlank, hbefore, hbehind]
  refine ⟨?_, ?_, ?_, ?_, ?_⟩
  · rw [hlast]
    dsimp only
    split
    · exact .inr ⟨'\x27', start, .inl rfl, rfl⟩
    · exact .inl rfl
  · rw [hlast, h₂, h₁]
    exact ho.nested
  · rw [hlast, h₂, h₁]
    exact ho.values
  · rw [hvalue, h.finish]
  · rw [hvalue]
    rfl

/-- A literal that stands alone is its content. -/
theorem Valid.ofToken_literal (h : q.Valid) : Value.ofToken q.literal = .text q.content := by
  have htrim : trim q.literal = q.literal :=
    @trim_solid [] [] _ _ rfl rfl (by decide) (by decide) q.written
  exact (h.spells.reads (.inl rfl)).ofToken htrim

/-- The content behind a charset introducer is found. -/
theorem Valid.introduced? (h : q.Valid) {name gap : Text} (hq : q.introducer = some (name, gap)) :
    Postgres.introduced? (q.introducerText ++ q.literal) = some q.content := by
  obtain ⟨hne, hname, hgap⟩ := h.introducer (name, gap) hq
  have htoken : q.introducerText ++ q.literal = '_' :: (name ++ (gap ++ q.literal)) := by
    simp [introducerText, hq]
  have hword : ∀ c ∈ name, (foldCase c).isAlphanum = true :=
    fun c hc => isAlphanum_foldCase (List.all_eq_true.mp hname c hc)
  rw [htoken]
  exact Postgres.introduced?_eq_some_iff.mpr
    ⟨name, gap, q.written, rfl, hne, hword, hgap, h.ofToken_literal⟩

/-- With a charset introducer before the quotes or not, the content of the value is theirs. -/
theorem Valid.quotedContent? (h : q.Valid) : Postgres.quotedContent? q.value = some q.content := by
  unfold value
  cases hq : q.introducer with
  | none => rfl
  | some introducer => exact h.introduced? hq

/-- So the value is written like the text alone. -/
theorem Valid.renderValue (h : q.Valid) (family : TypeFamily) (e : Encoding) :
    Postgres.renderValue q.value family e = Postgres.renderText q.content family e := by
  unfold Postgres.renderValue
  simp only [h.quotedContent?]

end QuotedValue

/-! ### The place of a value -/

namespace OpenRow

variable {r : OpenRow} {values : List Value}

/-- Values that are read stay in the row that is open, and in the row once it ends. -/
theorem values_stepOutside (h : values <:+ r.values) (position : Nat) (c : Char) :
    (∀ u, r.stepOutside position c = .inl u → values <:+ u.values) ∧
      ∀ row, r.stepOutside position c = .inr row → values.reverse <+: row := by
  have hclose : values.reverse <+: r.close := by
    unfold close
    split
    · next hblank =>
      -- A row of blanks has no values, so that none were known.
      have hempty : r.values = [] := List.isEmpty_iff.mp (Bool.and_eq_true_iff.mp hblank).1
      rw [hempty] at h
      obtain rfl := List.suffix_nil.mp h
      exact List.nil_prefix
    · exact List.reverse_prefix.mpr (h.trans (List.suffix_cons ..))
  unfold stepOutside
  split
  · simpa using h
  · simpa using h
  · simpa using h
  · split
    · simpa using hclose
    · simpa using h
  · split
    · simpa using h.trans (List.suffix_cons ..)
    · simpa using h

theorem values_step (h : values <:+ r.values) (position : Nat) (c : Char) :
    (∀ u, r.step position c = .inl u → values <:+ u.values) ∧
      ∀ row, r.step position c = .inr row → values.reverse <+: row := by
  unfold step
  split
  · exact values_stepOutside h position c
  · simpa using h
  · split
    · simpa using h
    · split
      · simpa using h
      · simpa using h
  · split
    · simpa using h
    · exact values_stepOutside h position c

end OpenRow

namespace RowScan

variable {rows : List Row} {values : List Value} {s u : RowScan} {c : Char}

/-- Behind some rows, the first values of the next are known, in reverse: those of the row that is
open, or of the row that was. -/
def Begins (rows : List Row) (values : List Value) (s : RowScan) : Prop :=
  (s.rows = rows ∧ ∃ r, s.row = some r ∧ values <:+ r.values) ∨
    ∃ more row, s.rows = more ++ row :: rows ∧ values.reverse <+: row

theorem begins_step (h : Begins rows values s) (hstep : s.step c = some u) :
    Begins rows values u := by
  obtain ⟨hrows, r, hr, hvalues⟩ | ⟨more, row, hrows, hvalues⟩ := h
  · obtain ⟨hopen, hclosed⟩ := OpenRow.values_step hvalues s.position c
    unfold step at hstep
    rw [hr] at hstep
    dsimp only at hstep
    split at hstep
    · next r' hr' =>
      cases hstep
      exact .inl ⟨hrows, r', rfl, hopen r' hr'⟩
    · next row hrow =>
      cases hstep
      exact .inr ⟨[], row, by rw [hrows, List.nil_append], hclosed row hrow⟩
  · obtain ⟨later, hlater⟩ := rows_step hstep
    exact .inr ⟨later ++ more, row, by rw [hlater, hrows, List.append_assoc], hvalues⟩

/-- Values that are read stay. -/
theorem begins_run (h : Begins rows values s) (t : Text) : Begins rows values (s.run t).1 := by
  induction t generalizing s with
  | nil => exact h
  | cons c t ih =>
    rw [run]
    cases hstep : s.step c with
    | none => exact h
    | some u => exact ih (begins_step h hstep)

/-- The last of the values that are known, once the row has ended. -/
theorem Begins.cell? {v : Value} (h : Begins rows (v :: values) s)
    (hended : rows.length < s.rows.length) :
    SqlDump.cell? s.rows.reverse (rows.length, values.length) = some v := by
  obtain ⟨hrows, -⟩ | ⟨more, row, hrows, behind, rfl⟩ := h
  · rw [hrows] at hended
    exact absurd hended (Nat.lt_irrefl _)
  · rw [hrows]
    simp [SqlDump.cell?]

end RowScan

namespace ParsedRows

/-- At a place in the rows of a text there stands a value, as the given text: there a value may
begin, a comma or the end of the row stands behind it, and the row is read. -/
def WrittenAt (t : Text) (place : Nat × Nat) (value : Text) : Prop :=
  ∃ before mark behind s r values, t = before ++ (value ++ mark :: behind) ∧
    (mark = ',' ∨ mark = ')') ∧ RowScan.Behind before s ∧ s.row = some r ∧ r.Fresh values ∧
      place = (s.rows.length, values.length) ∧ place.1 < (ofText t).rows.length

/-- A value that is written in a row is found at its place. -/
theorem cell?_of_writtenAt {t value : Text} {place : Nat × Nat} {v : Value}
    (ht : WrittenAt t place value) (hv : OpenRow.Reads value v) :
    cell? (ofText t).rows place = some v := by
  obtain ⟨before, mark, behind, s, r, values, rfl, hmark, hs, hr, hfresh, rfl, hended⟩ := ht
  obtain ⟨r', position, hrun, hholds⟩ := hv r values hfresh s.rows s.position
  have hbegins : RowScan.Begins s.rows (v :: values)
      ((⟨s.rows, some r', position⟩ : RowScan).run (mark :: behind)).1 := by
    obtain rfl | rfl := hmark
    · obtain ⟨r'', next, hcomma, hnext⟩ := hholds.comma s.rows position
      have hvalues : v :: values <:+ r''.values := ⟨[], hnext.values.symm⟩
      have hrest := RowScan.run_append _ [','] behind (by rw [hcomma])
      rw [List.singleton_append, hcomma] at hrest
      rw [hrest]
      exact RowScan.begins_run (.inl ⟨rfl, r'', rfl, hvalues⟩) behind
    · have hstep : (⟨s.rows, some r', position⟩ : RowScan).step ')' =
          some ⟨(v :: values).reverse :: s.rows, none, position + ')'.utf8Size⟩ := by
        simp only [RowScan.step, hholds.close]
      rw [RowScan.run, hstep]
      exact RowScan.begins_run (.inr ⟨[], _, rfl, List.prefix_refl _⟩) behind
  have hall : (ofText (before ++ (value ++ mark :: behind))).rows =
      ((⟨s.rows, some r', position⟩ : RowScan).run (mark :: behind)).1.rows.reverse := by
    have hsplit : s.run value = (⟨s.rows, some r', position⟩, []) := by
      rw [← hrun, ← hr]
    unfold ofText
    rw [RowScan.run_append _ _ _ (by rw [hs]), hs, RowScan.run_append _ _ _ (by rw [hsplit]),
      hsplit]
  rw [hall] at hended ⊢
  rw [List.length_reverse] at hended
  exact hbegins.cell? hended

end ParsedRows

end SqlDump
