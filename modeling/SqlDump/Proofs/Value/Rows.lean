import SqlDump.Value.Rows

/-!
# Reading rows

The machine that reads rows, followed through an open row: what a text does to the row, however the
rows before it and the position of the text. Rows of values are read back where each value is.

Main statements: `OpenRow.Reaches.append`, a row is read part by part; `RowScan.run_rows`, rows with
commas between them are read where the texts of their values are.
-/

namespace SqlDump

/-- The quotes of values. -/
def IsValueQuote (c : Char) : Prop := c = '\x27' ∨ c = '\x22'

/-- Outside quotes, or behind a quote that closed. -/
def QuoteState.IsIdle (q : QuoteState) : Prop :=
  q = .outside ∨ ∃ quote start, IsValueQuote quote ∧ q = .closing quote start

namespace OpenRow

/-- A text that does not end the open row, and what holds of the row behind it. -/
def Reaches (r : OpenRow) (t : Text) (post : OpenRow → Prop) : Prop :=
  ∀ rows position, ∃ r' position',
    (⟨rows, some r, position⟩ : RowScan).run t = (⟨rows, some r', position'⟩, []) ∧ post r'

namespace Reaches

variable {r : OpenRow} {t u : Text} {c : Char} {mid post : OpenRow → Prop}

theorem nil (h : post r) : Reaches r [] post := by
  intro rows position
  exact ⟨r, position, rfl, h⟩

theorem cons (h : ∀ position, ∃ r', r.step position c = .inl r' ∧ Reaches r' t post) :
    Reaches r (c :: t) post := by
  intro rows position
  obtain ⟨r', hstep, hrest⟩ := h position
  obtain ⟨r'', last, hrun, hpost⟩ := hrest rows (position + c.utf8Size)
  refine ⟨r'', last, ?_, hpost⟩
  simp only [RowScan.run, RowScan.step, hstep]
  exact hrun

theorem append (h : Reaches r t mid) (k : ∀ r', mid r' → Reaches r' u post) :
    Reaches r (t ++ u) post := by
  intro rows position
  obtain ⟨r', behind, hrun, hmid⟩ := h rows position
  obtain ⟨r'', last, hrest, hpost⟩ := k r' hmid rows behind
  refine ⟨r'', last, ?_, hpost⟩
  rw [RowScan.run_append _ _ _ (by rw [hrun]), hrun]
  exact hrest

theorem mono (h : Reaches r t mid) (k : ∀ r', mid r' → post r') : Reaches r t post := by
  intro rows position
  obtain ⟨r', behind, hrun, hmid⟩ := h rows position
  exact ⟨r', behind, hrun, k r' hmid⟩

end Reaches

theorem step_of_idle {r : OpenRow} (h : r.quote.IsIdle) {c : Char} (hc : ¬IsValueQuote c)
    (position : Nat) : r.step position c = r.stepOutside position c := by
  unfold step
  obtain ho | ⟨quote, start, hquote, ho⟩ := h
  · rw [ho]
  · rw [ho]
    refine if_neg ?_
    rintro rfl
    exact hc hquote

theorem stepOutside_quote {c : Char} (hc : IsValueQuote c) (r : OpenRow) (position : Nat) :
    r.stepOutside position c = .inl { r with
      value := { r.value.push c with quoted := true }, quote := .inside c position false } := by
  obtain rfl | rfl := hc <;> rfl

/-- A character that neither opens nor ends anything goes into the value. -/
theorem stepOutside_other {r : OpenRow} {c : Char} (hc : ¬IsValueQuote c) (ho : c ≠ '(')
    (hp : c ≠ ')') (hm : ¬(c = ',' ∧ r.nested = 0)) (position : Nat) :
    r.stepOutside position c = .inl { r with
      value := { r.value.push c with residue := r.value.residue || !Unicode.isBlank c }
      quote := .outside } := by
  simp only [IsValueQuote, not_or] at hc
  unfold stepOutside
  split
  · exact absurd rfl hc.1
  · exact absurd rfl hc.2
  · exact absurd rfl ho
  · exact absurd rfl hp
  · exact if_neg hm

/-- A text without quotes, parentheses and commas goes into the value. -/
theorem reaches_plain {t : Text}
    (ht : ∀ c ∈ t, ¬IsValueQuote c ∧ c ≠ '(' ∧ c ≠ ')' ∧ c ≠ ',') {r : OpenRow}
    (hr : r.quote.IsIdle) :
    Reaches r t (· = { r with
      value := { r.value with
        raw := t.reverse ++ r.value.raw, residue := r.value.residue || !Text.isBlank t }
      quote := if t.isEmpty then r.quote else .outside }) := by
  induction t generalizing r with
  | nil => exact .nil (by simp [Text.isBlank])
  | cons c t ih =>
    obtain ⟨hc, ho, hp, hm⟩ := ht c List.mem_cons_self
    refine .cons fun position => ⟨{ r with
      value := { r.value.push c with residue := r.value.residue || !Unicode.isBlank c }
      quote := .outside }, ?_, ?_⟩
    · rw [step_of_idle hr hc, stepOutside_other hc ho hp fun h => hm h.1]
    · refine (ih (fun d hd => ht d (List.mem_cons_of_mem c hd)) (.inl rfl)).mono fun r' hr' => ?_
      rw [hr']
      simp [ValueBuffer.push, Text.isBlank, Bool.or_assoc]

/-- Before a value, with the values before it in reverse. -/
structure Fresh (r : OpenRow) (values : List Value) : Prop where
  quote : r.quote = .outside
  nested : r.nested = 0
  values : r.values = values
  value : r.value = {}

/-- Behind a value `v`, with the values before it in reverse. -/
structure Holds (r : OpenRow) (values : List Value) (v : Value) : Prop where
  idle : r.quote.IsIdle
  nested : r.nested = 0
  values : r.values = values
  value : r.value.finish = v
  solid : r.value.isBlank = false

theorem Holds.comma {r : OpenRow} {values : List Value} {v : Value} (h : Holds r values v) :
    Reaches r [','] (Fresh · (v :: values)) := by
  refine .cons fun position => ?_
  have hstep := step_of_idle h.idle (c := ',') (by simp [IsValueQuote]) position
  simp only [stepOutside, h.nested, if_true] at hstep
  exact ⟨_, hstep, .nil ⟨rfl, rfl, by rw [← h.value, ← h.values], rfl⟩⟩

theorem Holds.close {r : OpenRow} {values : List Value} {v : Value} (h : Holds r values v)
    (position : Nat) : r.step position ')' = .inr (v :: values).reverse := by
  rw [step_of_idle h.idle (by simp [IsValueQuote])]
  simp [stepOutside, h.nested, OpenRow.close, h.solid, h.value, h.values]

/-- A text that is read as the value `v` wherever a value may begin. -/
def Reads (t : Text) (v : Value) : Prop :=
  ∀ r values, Fresh r values → Reaches r t (Holds · values v)

/-- Values with commas between them are read where each of their texts is. -/
theorem reaches_join {α : Type} {text : α → Text} {value : α → Value} {a : α} {as : List α}
    (h : ∀ b ∈ a :: as, Reads (text b) (value b)) {r : OpenRow} {values : List Value}
    (hr : Fresh r values) :
    Reaches r (Text.join "," ((a :: as).map text)) fun r' =>
      ∃ before last, Holds r' before last ∧
        (last :: before).reverse = values.reverse ++ (a :: as).map value := by
  induction as generalizing a r values with
  | nil =>
    have ha := h a List.mem_cons_self r values hr
    simp only [List.map_cons, List.map_nil, Text.join, List.intercalate, List.intersperse,
      List.flatten_cons, List.flatten_nil, List.append_nil]
    exact ha.mono fun r' hr' => ⟨values, value a, hr', List.reverse_cons⟩
  | cons b as ih =>
    have ha := h a List.mem_cons_self r values hr
    have hjoin : Text.join "," ((a :: b :: as).map text) =
        text a ++ ([','] ++ Text.join "," ((b :: as).map text)) := by
      simp [Text.join, List.intercalate]
    rw [hjoin]
    refine ha.append fun r' hr' => hr'.comma.append fun r'' hr'' => ?_
    have hrest := ih (fun x hx => h x (List.mem_cons_of_mem a hx)) hr''
    exact hrest.mono fun s hs => by simpa using hs

end OpenRow

namespace RowScan

variable {text : Value → Text}

theorem rows_step {s u : RowScan} {c : Char} (h : s.step c = some u) :
    ∃ more, u.rows = more ++ s.rows := by
  unfold step at h
  cases hr : s.row with
  | none =>
    simp only [hr] at h
    refine ⟨[], ?_⟩
    split at h
    · cases h
      rfl
    split at h
    · cases h
      rfl
    · cases h
  | some r =>
    simp only [hr] at h
    cases hstep : r.step s.position c with
    | inl r' =>
      simp only [hstep] at h
      cases h
      exact ⟨[], rfl⟩
    | inr values =>
      simp only [hstep] at h
      cases h
      exact ⟨[values], rfl⟩

/-- Rows that are read stay. -/
theorem rows_run (s : RowScan) (t : Text) : ∃ more, (s.run t).1.rows = more ++ s.rows := by
  induction t generalizing s with
  | nil => exact ⟨[], rfl⟩
  | cons c t ih =>
    rw [run]
    cases h : s.step c with
    | none => exact ⟨[], rfl⟩
    | some u =>
      obtain ⟨next, hnext⟩ := rows_step h
      obtain ⟨more, hmore⟩ := ih u
      exact ⟨more ++ next, by rw [hmore, hnext, List.append_assoc]⟩

/-- The text of a row. -/
def rowText (text : Value → Text) (row : Row) : Text :=
  '(' :: (Text.join "," (row.map text) ++ [')'])

/-- An open row is read up to its end where the texts of its values are. -/
theorem run_values {α : Type} {text : α → Text} {value : α → Value} {a : α} {as : List α}
    (h : ∀ b ∈ a :: as, OpenRow.Reads (text b) (value b)) {r : OpenRow} (hr : r.Fresh [])
    (rows : List Row) (position : Nat) :
    ∃ position', (⟨rows, some r, position⟩ : RowScan).run
      (Text.join "," ((a :: as).map text) ++ [')']) =
        (⟨(a :: as).map value :: rows, none, position'⟩, []) := by
  obtain ⟨r', behind, hrun, before, last, hlast, hvalues⟩ :=
    OpenRow.reaches_join h hr rows position
  refine ⟨behind + ')'.utf8Size, ?_⟩
  have hclose := hlast.close behind
  rw [hvalues, List.reverse_nil, List.nil_append] at hclose
  rw [run_append _ _ _ (by rw [hrun]), hrun]
  simp only [run, step, hclose]

/-- A row that ends where its first value might begin has none. -/
theorem run_close {r : OpenRow} (hr : r.Fresh []) (rows : List Row) (position : Nat) :
    (⟨rows, some r, position⟩ : RowScan).run [')'] =
      (⟨[] :: rows, none, position + ')'.utf8Size⟩, []) := by
  have hclose : r.step position ')' = .inr [] := by
    simp [OpenRow.step, OpenRow.stepOutside, OpenRow.close, hr.quote, hr.nested, hr.values,
      hr.value, ValueBuffer.isBlank, Text.isBlank]
  simp only [run, step, hclose]

/-- So is one that may have no values. -/
theorem run_list {α : Type} {text : α → Text} {value : α → Value} {as : List α}
    (h : ∀ b ∈ as, OpenRow.Reads (text b) (value b)) {r : OpenRow} (hr : r.Fresh [])
    (rows : List Row) (position : Nat) :
    ∃ position', (⟨rows, some r, position⟩ : RowScan).run
      (Text.join "," (as.map text) ++ [')']) = (⟨as.map value :: rows, none, position'⟩, []) := by
  cases as with
  | nil => exact ⟨_, run_close hr rows position⟩
  | cons a as => exact run_values h hr rows position

/-- A row is read where the texts of its values are. -/
theorem run_row {row : Row} (hne : row ≠ []) (h : ∀ v ∈ row, OpenRow.Reads (text v) v)
    (rows : List Row) (position : Nat) :
    ∃ position', (⟨rows, none, position⟩ : RowScan).run (rowText text row) =
      (⟨row :: rows, none, position'⟩, []) := by
  obtain ⟨v, row, rfl⟩ := List.exists_cons_of_ne_nil hne
  have hfresh : OpenRow.Fresh { start := position } [] := ⟨rfl, rfl, rfl, rfl⟩
  have hreads : ∀ w ∈ v :: row, OpenRow.Reads (text w) (id w) := h
  obtain ⟨behind, hrun⟩ := run_values hreads hfresh rows (position + '('.utf8Size)
  have hopen : (⟨rows, none, position⟩ : RowScan).step '(' =
      some ⟨rows, some { start := position }, position + '('.utf8Size⟩ := rfl
  rw [List.map_id] at hrun
  exact ⟨behind, by simp only [rowText, run, hopen, hrun]⟩

/-- Rows with commas between them are read where the texts of their values are. -/
theorem run_rows {row : Row} {rows : List Row} (hne : ∀ r ∈ row :: rows, r ≠ [])
    (h : ∀ r ∈ row :: rows, ∀ v ∈ r, OpenRow.Reads (text v) v) (done : List Row) (position : Nat) :
    ∃ position',
      (⟨done, none, position⟩ : RowScan).run (Text.join "," ((row :: rows).map (rowText text))) =
        (⟨(row :: rows).reverse ++ done, none, position'⟩, []) := by
  induction rows generalizing row done position with
  | nil =>
    have hrow := run_row (hne row List.mem_cons_self) (h row List.mem_cons_self) done position
    simpa [Text.join, List.intercalate] using hrow
  | cons next rows ih =>
    obtain ⟨behind, hrow⟩ :=
      run_row (hne row List.mem_cons_self) (h row List.mem_cons_self) done position
    obtain ⟨last, hrest⟩ := ih (fun r hr => hne r (List.mem_cons_of_mem row hr))
      (fun r hr => h r (List.mem_cons_of_mem row hr)) (row :: done) (behind + ','.utf8Size)
    have hjoin : Text.join "," ((row :: next :: rows).map (rowText text)) =
        rowText text row ++ (',' :: Text.join "," ((next :: rows).map (rowText text))) := by
      simp [Text.join, List.intercalate]
    have hcomma : (⟨row :: done, none, behind⟩ : RowScan).step ',' =
        some ⟨row :: done, none, behind + ','.utf8Size⟩ := rfl
    refine ⟨last, ?_⟩
    rw [hjoin, run_append _ _ _ (by rw [hrow]), hrow]
    simp only [run, hcomma, hrest]
    simp

end RowScan

/-- Values that are the only row of a text, none of them if the row is empty. -/
theorem ParsedRows.ofText_list {α : Type} {text : α → Text} {value : α → Value} {as : List α}
    (h : ∀ b ∈ as, OpenRow.Reads (text b) (value b)) :
    ∃ consumed, ofText ('(' :: (Text.join "," (as.map text) ++ [')'])) =
      ⟨[as.map value], consumed, [], none⟩ := by
  have hfresh : OpenRow.Fresh { start := 0 } [] := ⟨rfl, rfl, rfl, rfl⟩
  obtain ⟨position, hrun⟩ := RowScan.run_list h hfresh [] (0 + '('.utf8Size)
  have hopen : (⟨[], none, 0⟩ : RowScan).step '(' =
      some ⟨[], some { start := 0 }, 0 + '('.utf8Size⟩ := rfl
  refine ⟨position, ?_⟩
  unfold ofText
  simp only [RowScan.run, hopen, hrun]
  rfl

/-- A value that is the only one of a row. -/
theorem OpenRow.Reads.ofText {t : Text} {v : Value} (h : OpenRow.Reads t v) :
    ∃ consumed, ParsedRows.ofText ('(' :: (t ++ [')'])) = ⟨[[v]], consumed, [], none⟩ := by
  have hreads : ∀ w ∈ [v], OpenRow.Reads t (id w) := by
    intro w hw
    rwa [List.mem_singleton.mp hw]
  obtain ⟨consumed, hrows⟩ := ParsedRows.ofText_list hreads
  have htext : Text.join "," ([v].map fun _ => t) = t := by
    simp [Text.join]
  rw [htext] at hrows
  exact ⟨consumed, hrows⟩

/-- A value that stands alone is read where its text is. -/
theorem OpenRow.Reads.ofToken {t : Text} {v : Value} (h : OpenRow.Reads t v)
    (htrim : Text.trim t = t) : Value.ofToken t = v := by
  obtain ⟨consumed, hrows⟩ := h.ofText
  unfold Value.ofToken
  simp only [htrim, List.cons_append, hrows]

end SqlDump
