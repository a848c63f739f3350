import SqlDump.Proofs.Value.Quoted
import SqlDump.Proofs.Value.Recoded

/-!
# Values whose quotes hold all that is not ASCII

Where characters that are not of ASCII stand between quotes of the rows only, they stand between
quotes of the value that they belong to. So the charset introducer of a value is ASCII, and of the
value read as Latin-1 the quoted text is the same text read so.

Main statements: `ParsedRows.isEnclosed`, the quotes of a value hold all of it that is not ASCII;
`Postgres.introduced?_recode`, a text behind a charset introducer is found again;
`Postgres.renderValue_recode`, which values are written alike.
-/

namespace SqlDump

open Text

/-! ### Quotes as the reader of rows tells them -/

/-- The quote that is open, and whether a backslash stands before the next character. -/
abbrev OpenQuote := Option (Char × Bool)

namespace OpenQuote

def step (q : OpenQuote) (c : Char) : OpenQuote :=
  match q with
  | none => if c = '\x27' ∨ c = '\x22' then some (c, false) else none
  | some (quote, true) => some (quote, false)
  | some (quote, false) =>
    if c = '\\' then some (quote, true) else if c = quote then none else some (quote, false)

/-- Whether every character that is not of ASCII stands inside quotes. -/
def encloses : OpenQuote → Text → Bool
  | _, [] => true
  | q, c :: t => (decide (c.toNat < 0x80) || q.isSome) && (q.step c).encloses t

variable {q : OpenQuote} {t u : Text}

theorem step_none {c : Char} (hc : ¬IsValueQuote c) : step none c = none := if_neg hc

theorem encloses_append :
    q.encloses (t ++ u) = (q.encloses t && encloses (t.foldl step q) u) := by
  induction t generalizing q with
  | nil => rfl
  | cons c t ih => rw [List.cons_append, encloses, encloses, ih, Bool.and_assoc, List.foldl_cons]

theorem encloses_of_ascii (h : t.IsAscii) : q.encloses t = true := by
  induction t generalizing q with
  | nil => rfl
  | cons c t ih =>
    rw [encloses, ih fun d hd => h d (List.mem_cons_of_mem c hd),
      decide_eq_true (h c List.mem_cons_self)]
    rfl

/-- A text without quotes is outside of them. -/
theorem foldl_plain (h : ∀ c ∈ t, ¬IsValueQuote c) : t.foldl step none = none := by
  induction t with
  | nil => rfl
  | cons c t ih =>
    rw [List.foldl_cons, step_none (h c List.mem_cons_self)]
    exact ih fun d hd => h d (List.mem_cons_of_mem c hd)

theorem ascii_of_encloses (ht : ∀ c ∈ t, ¬IsValueQuote c) (h : encloses none t = true) :
    t.IsAscii := by
  induction t with
  | nil => exact fun _ hc => absurd hc List.not_mem_nil
  | cons c t ih =>
    rw [encloses, step_none (ht c List.mem_cons_self)] at h
    obtain ⟨hc, hrest⟩ := Bool.and_eq_true_iff.mp h
    intro d hd
    rcases List.mem_cons.mp hd with rfl | hd
    · simpa using hc
    · exact ih (fun e he => ht e (List.mem_cons_of_mem c he)) hrest d hd

end OpenQuote

theorem not_isValueQuote_of_isBlank {c : Char} (h : Unicode.isBlank c = true) :
    ¬IsValueQuote c := by
  intro hc
  rw [hc.isBlank] at h
  cases h

/-- The blanks around a text stand outside quotes. -/
theorem OpenQuote.encloses_trim {t : Text} (h : encloses none t = true) :
    encloses none (trim t) = true := by
  obtain ⟨lead, tail, hlead, -, ht⟩ := exists_trim t
  have hplain : lead.foldl step none = none :=
    foldl_plain fun c hc => not_isValueQuote_of_isBlank (List.all_eq_true.mp hlead c hc)
  rw [ht, encloses_append, hplain, encloses_append] at h
  exact (Bool.and_eq_true_iff.mp (Bool.and_eq_true_iff.mp h).2).1

/-- The quote that is open to the reader of rows. -/
def QuoteState.open? : QuoteState → OpenQuote
  | .inside quote _ escaped => some (quote, escaped)
  | _ => none

namespace OpenRow

variable {r r' : OpenRow} {c : Char} {position : Nat} {row : Row}

theorem stepOutside_inl (hstep : r.stepOutside position c = .inl r') :
    r'.quote.Same r'.quote ∧ r'.quote.open? = OpenQuote.step none c ∧
      (r'.values = r.values ∧ r'.value.raw = c :: r.value.raw ∨
        r'.quote.open? = none ∧ r'.values = r.value.finish :: r.values ∧ r'.value = {}) := by
  unfold stepOutside at hstep
  split at hstep
  · cases hstep
    exact ⟨.inside (.inl rfl) .., rfl, .inl ⟨rfl, rfl⟩⟩
  · cases hstep
    exact ⟨.inside (.inr rfl) .., rfl, .inl ⟨rfl, rfl⟩⟩
  · cases hstep
    exact ⟨.outside, rfl, .inl ⟨rfl, rfl⟩⟩
  · split at hstep
    · cases hstep
    · cases hstep
      exact ⟨.outside, rfl, .inl ⟨rfl, rfl⟩⟩
  · next hs hd _ _ =>
    have hnone : OpenQuote.step none c = none := OpenQuote.step_none fun hq => hq.elim hs hd
    split at hstep
    · cases hstep
      exact ⟨.outside, hnone.symm, .inr ⟨rfl, rfl, rfl⟩⟩
    · cases hstep
      exact ⟨.outside, hnone.symm, .inl ⟨rfl, rfl⟩⟩

/-- One character that does not end the row: it goes into the value, or a value ends with it. -/
theorem step_inl (h : r.quote.Same r.quote) (hstep : r.step position c = .inl r') :
    r'.quote.Same r'.quote ∧ r'.quote.open? = r.quote.open?.step c ∧
      (r'.values = r.values ∧ r'.value.raw = c :: r.value.raw ∨
        r.quote.open? = none ∧ r'.quote.open? = none ∧ r'.values = r.value.finish :: r.values ∧
          r'.value = {}) := by
  have hidle (hopen : r.quote.open? = none) (hout : r.stepOutside position c = .inl r') :
      r'.quote.Same r'.quote ∧ r'.quote.open? = r.quote.open?.step c ∧
        (r'.values = r.values ∧ r'.value.raw = c :: r.value.raw ∨
          r.quote.open? = none ∧ r'.quote.open? = none ∧
            r'.values = r.value.finish :: r.values ∧ r'.value = {}) := by
    obtain ⟨hsame, hquote, hvalue⟩ := stepOutside_inl hout
    rw [hopen]
    exact ⟨hsame, hquote, hvalue.imp_right fun hends => ⟨rfl, hends⟩⟩
  unfold step at hstep
  generalize hr : r.quote = k at h hstep
  cases h with
  | outside => exact hr ▸ hidle (by rw [hr]; rfl) hstep
  | @inside quote mark start _ escaped =>
    cases escaped with
    | true =>
      cases hstep
      exact ⟨.inside mark .., rfl, .inl ⟨rfl, rfl⟩⟩
    | false =>
      dsimp only at hstep
      split at hstep
      · next hb =>
        cases hstep
        exact ⟨.inside mark .., (if_pos hb).symm, .inl ⟨rfl, rfl⟩⟩
      split at hstep
      · next hb hq =>
        cases hstep
        exact ⟨.closing mark .., ((if_neg hb).trans (if_pos hq)).symm, .inl ⟨rfl, rfl⟩⟩
      · next hb hq =>
        cases hstep
        exact ⟨.inside mark .., ((if_neg hb).trans (if_neg hq)).symm, .inl ⟨rfl, rfl⟩⟩
  | @closing quote mark start _ =>
    dsimp only at hstep
    split at hstep
    · next hq =>
      cases hstep
      refine ⟨.inside mark .., ?_, .inl ⟨rfl, rfl⟩⟩
      subst hq
      exact (if_pos mark).symm
    · exact hr ▸ hidle (by rw [hr]; rfl) hstep

/-- A row ends outside of quotes, and not at a quote. -/
theorem step_inr (hstep : r.step position c = .inr row) :
    r.quote.open? = none ∧ c = ')' ∧ row = r.close := by
  have hout (hclose : r.stepOutside position c = .inr row) : c = ')' ∧ row = r.close := by
    unfold stepOutside at hclose
    split at hclose
    · cases hclose
    · cases hclose
    · cases hclose
    · split at hclose
      · cases hclose
        exact ⟨rfl, rfl⟩
      · cases hclose
    · split at hclose <;> cases hclose
  unfold step at hstep
  split at hstep
  · next hr => exact ⟨by rw [hr]; rfl, hout hstep⟩
  · cases hstep
  · split at hstep
    · cases hstep
    · split at hstep <;> cases hstep
  · next hr =>
    split at hstep
    · cases hstep
    · exact ⟨by rw [hr]; rfl, hout hstep⟩

end OpenRow

/-! ### The values that are read -/

namespace Value

/-- Of a value that stands as it is, all that is not of ASCII stands inside quotes. -/
def IsEnclosed (v : Value) : Prop := ∀ t, v = .bare t → OpenQuote.encloses none t = true

end Value

/-- The value that is read at last is enclosed. -/
theorem ValueBuffer.isEnclosed_finish {v : ValueBuffer}
    (h : OpenQuote.encloses none v.raw.reverse = true) : v.finish.IsEnclosed := by
  intro t ht
  unfold finish at ht
  dsimp only at ht
  split at ht
  · cases ht
  split at ht
  · cases ht
  · cases ht
    exact OpenQuote.encloses_trim h

/-- An open row whose values are enclosed, the last as far as it is read. -/
structure OpenRow.IsEnclosed (r : OpenRow) : Prop where
  sound : r.quote.Same r.quote
  quote : r.value.raw.reverse.foldl OpenQuote.step none = r.quote.open?
  raw : OpenQuote.encloses none r.value.raw.reverse = true
  values : ∀ v ∈ r.values, v.IsEnclosed

namespace OpenRow

variable {r r' : OpenRow} {c : Char} {position : Nat} {row : Row}

theorem isEnclosed_step (h : r.IsEnclosed) (hc : c.toNat < 0x80 ∨ r.quote.open?.isSome = true)
    (hstep : r.step position c = .inl r') : r'.IsEnclosed := by
  obtain ⟨hsound, hquote, ⟨hvalues, hraw⟩ | ⟨-, hout, hvalues, hvalue⟩⟩ := step_inl h.sound hstep
  · refine ⟨hsound, ?_, ?_, hvalues ▸ h.values⟩
    · rw [hraw, List.reverse_cons, List.foldl_append, h.quote, hquote]
      rfl
    · rw [hraw, List.reverse_cons, OpenQuote.encloses_append, h.raw, h.quote]
      simpa [OpenQuote.encloses] using hc
  · refine ⟨hsound, by rw [hvalue, hout]; rfl, by rw [hvalue]; rfl, ?_⟩
    rw [hvalues]
    exact List.forall_mem_cons.mpr ⟨ValueBuffer.isEnclosed_finish h.raw, h.values⟩

theorem isEnclosed_close (h : r.IsEnclosed) : ∀ v ∈ r.close, v.IsEnclosed := by
  unfold close
  split
  · exact fun _ hv => absurd hv List.not_mem_nil
  · intro v hv
    rcases List.mem_cons.mp (List.mem_reverse.mp hv) with rfl | hv
    · exact ValueBuffer.isEnclosed_finish h.raw
    · exact h.values v hv

end OpenRow

namespace RowScan

variable {s u : RowScan} {c : Char} {t : Text}

/-- The quote that is open. -/
def open? (s : RowScan) : OpenQuote := s.row.bind fun r => r.quote.open?

theorem isInside_eq (s : RowScan) : s.isInside = s.open?.isSome := by
  unfold isInside open?
  cases s.row with
  | none => rfl
  | some r =>
    cases hr : r.quote <;> simp [hr, QuoteState.open?]

/-- Rows whose values are enclosed. -/
structure IsEnclosed (s : RowScan) : Prop where
  rows : ∀ row ∈ s.rows, ∀ v ∈ row, v.IsEnclosed
  row : ∀ r ∈ s.row, r.IsEnclosed

/-- One character, as the quotes around it are told. -/
theorem isEnclosed_step (h : s.IsEnclosed) (hc : c.toNat < 0x80 ∨ s.isInside = true)
    (hstep : s.step c = some u) : u.IsEnclosed ∧ u.open? = s.open?.step c := by
  rw [isInside_eq] at hc
  unfold step at hstep
  cases hrow : s.row with
  | none =>
    have hopen : s.open? = none := by rw [open?, hrow]; rfl
    rw [hrow] at hstep
    dsimp only at hstep
    split at hstep
    · next hparen =>
      cases hstep
      refine ⟨⟨h.rows, ?_⟩, ?_⟩
      · rintro r ⟨⟩
        exact ⟨.outside, rfl, rfl, fun _ hv => absurd hv List.not_mem_nil⟩
      · rw [hopen, hparen]
        rfl
    split at hstep
    · next hskip =>
      have hplain : ¬IsValueQuote c := by
        rcases hskip with rfl | hblank
        · simp [IsValueQuote]
        · exact not_isValueQuote_of_isBlank hblank
      cases hstep
      refine ⟨⟨h.rows, ?_⟩, ?_⟩
      · rintro r ⟨⟩
      · rw [hopen, OpenQuote.step_none hplain]
        rfl
    · cases hstep
  | some r =>
    have hr := h.row r hrow
    have hopen : s.open? = r.quote.open? := by rw [open?, hrow]; rfl
    rw [hopen] at hc ⊢
    rw [hrow] at hstep
    dsimp only at hstep
    split at hstep
    · next r' hr' =>
      cases hstep
      refine ⟨⟨h.rows, ?_⟩, (OpenRow.step_inl hr.sound hr').2.1⟩
      rintro o ⟨⟩
      exact OpenRow.isEnclosed_step hr hc hr'
    · next row hclose =>
      obtain ⟨hnone, rfl, rfl⟩ := OpenRow.step_inr hclose
      cases hstep
      refine ⟨⟨List.forall_mem_cons.mpr ⟨OpenRow.isEnclosed_close hr, h.rows⟩, ?_⟩, ?_⟩
      · rintro r ⟨⟩
      · rw [hnone]
        rfl

theorem isEnclosed_run (h : s.IsEnclosed) (ht : s.encloses t = true) : (s.run t).1.IsEnclosed := by
  induction t generalizing s with
  | nil => exact h
  | cons c t ih =>
    obtain ⟨hc, hrest⟩ := Bool.and_eq_true_iff.mp ht
    rw [run]
    cases hstep : s.step c with
    | none => exact h
    | some u =>
      rw [hstep] at hrest
      exact ih (isEnclosed_step h (by simpa using hc) hstep).1 hrest

/-- What quotes enclose they enclose for the reader of rows. -/
theorem encloses_of_openQuote (h : s.IsEnclosed) (ht : s.open?.encloses t = true) :
    s.encloses t = true := by
  induction t generalizing s with
  | nil => rfl
  | cons c t ih =>
    obtain ⟨hc, hrest⟩ := Bool.and_eq_true_iff.mp ht
    rw [← isInside_eq] at hc
    refine Bool.and_eq_true_iff.mpr ⟨hc, ?_⟩
    cases hstep : s.step c with
    | none => rfl
    | some u =>
      obtain ⟨hu, hopen⟩ := isEnclosed_step h (by simpa using hc) hstep
      exact ih hu (hopen ▸ hrest)

theorem isEnclosed_start : IsEnclosed {} :=
  ⟨fun _ hrow => absurd hrow List.not_mem_nil, by rintro r ⟨⟩⟩

end RowScan

/-- The quotes of a value hold all of it that is not ASCII. -/
theorem ParsedRows.isEnclosed {t : Text} (ht : RowScan.encloses {} t = true) {p : Nat × Nat}
    {v : Value} (hv : cell? (ofText t).rows p = some v) : v.IsEnclosed := by
  obtain ⟨row, hrow, hcell⟩ := Option.bind_eq_some_iff.mp hv
  have hrun := RowScan.isEnclosed_run RowScan.isEnclosed_start ht
  exact hrun.rows row (List.mem_reverse.mp (List.mem_of_getElem? hrow)) v
    (List.mem_of_getElem? hcell)

/-! ### Read as Latin-1 -/

/-- A row that agrees with a row of one value has one value. -/
theorem Lockstep.recoded_single {n : Nat} {v : Value} {row : Row}
    (h : Lockstep.recoded.Values n [v].reverse row.reverse) : row = [v.recode] := by
  rw [List.reverse_singleton] at h
  cases hrow : row.reverse with
  | nil =>
    rw [hrow] at h
    cases h
  | cons w rest =>
    rw [hrow] at h
    cases h with
    | cons hvalue hrest =>
      cases hrest
      rw [← List.reverse_reverse row, hrow, show w = v.recode from hvalue, List.reverse_singleton]

/-- What is read alone as a text gives, read as Latin-1, that text read so. -/
theorem Value.ofToken_recode {t s : Text} (ht : trim t = t)
    (hrecode : trim t.recode = t.recode) (h : RowScan.encloses {} ('(' :: t ++ [')']) = true)
    (htext : ofToken t = .text s) : ofToken t.recode = .text s.recode := by
  have hwhole : Text.recode ('(' :: t ++ [')']) = '(' :: t.recode ++ [')'] := by
    rw [recode_append, List.cons_append, recode_cons (by decide)]
    rfl
  obtain ⟨⟨hrows, hrow⟩, -⟩ := @RowScan.recoded_run {} {} _ ⟨.nil, .none⟩ h
  rw [hwhole] at hrows hrow
  unfold ofToken ParsedRows.ofText at htext ⊢
  dsimp only at htext ⊢
  rw [ht] at htext
  rw [hrecode]
  generalize (RowScan.run {} ('(' :: t ++ [')'])).1 = scan at *
  generalize (RowScan.run {} ('(' :: t.recode ++ [')'])).1 = scan' at *
  split at htext
  · next v hsingle hfault =>
    have hsingle : scan.rows = [[v]] := by
      rw [← List.reverse_reverse scan.rows, hsingle, List.reverse_singleton]
    rw [hsingle] at hrows
    rw [Option.map_eq_none_iff] at hfault
    rw [hfault] at hrow
    generalize scan'.rows = rows' at hrows
    generalize scan'.row = row' at hrow
    cases hrows with
    | cons hvalues hnil =>
      cases hnil
      cases hrow
      rw [Lockstep.recoded_single hvalues, htext]
      rfl
  · cases htext

namespace Postgres

/-- The text behind a charset introducer, which is ASCII. -/
theorem introduced?_recode {token s : Text} (h : OpenQuote.encloses none token = true)
    (hs : introduced? token = some s) : introduced? token.recode = some s.recode := by
  obtain ⟨name, gap, written, rfl, hne, hname, hgap, hcontent⟩ := introduced?_eq_some_iff.mp hs
  generalize hliteral : '\x27' :: (written ++ ['\x27']) = literal at *
  have hplain : ∀ c ∈ '_' :: (name ++ gap), ¬IsValueQuote c := by
    intro c hc hq
    rcases List.mem_cons.mp hc with rfl | hc
    · simp [IsValueQuote] at hq
    rcases List.mem_append.mp hc with hc | hc
    · have hword := hname c hc
      obtain rfl | rfl := hq <;> cases hword
    · exact not_isValueQuote_of_isBlank (List.all_eq_true.mp hgap c hc) hq
  have hsplit : '_' :: (name ++ (gap ++ literal)) = '_' :: (name ++ gap) ++ literal := by simp
  rw [hsplit, OpenQuote.encloses_append, OpenQuote.foldl_plain hplain] at h
  obtain ⟨hhead, htail⟩ := Bool.and_eq_true_iff.mp h
  have hascii := OpenQuote.ascii_of_encloses hplain hhead
  have hinside : recode literal = '\x27' :: (recode written ++ ['\x27']) := by
    rw [← hliteral, recode_cons (by decide), recode_append]
    rfl
  have hvalue : Value.ofToken (recode literal) = .text s.recode := by
    have hread : RowScan.encloses {} ('(' :: literal ++ [')']) = true := by
      refine RowScan.encloses_of_openQuote RowScan.isEnclosed_start ?_
      have hrest : OpenQuote.encloses none (literal ++ [')']) = true := by
        rw [OpenQuote.encloses_append, htail]
        exact OpenQuote.encloses_of_ascii (by decide)
      exact hrest
    refine Value.ofToken_recode ?_ ?_ hread hcontent
    · rw [← hliteral]
      exact trim_of_solid (by decide) (by decide) written
    · rw [hinside]
      exact trim_of_solid (by decide) (by decide) (recode written)
  rw [hsplit, recode_append, recode_of_ascii hascii, hinside]
  refine introduced?_eq_some_iff.mpr ⟨name, gap, recode written, by simp, hne, hname, hgap, ?_⟩
  rw [← hinside, hvalue]

/-- So is the text of a quoted value. -/
theorem quotedContent?_recode {v : Value} {s : Text} (h : v.IsEnclosed)
    (hs : quotedContent? v = some s) : quotedContent? v.recode = some s.recode := by
  cases v with
  | null => cases hs
  | text t =>
    obtain rfl := Option.some.inj hs
    rfl
  | bare token => exact introduced?_recode (h token rfl) hs

end Postgres

/-- What is written in the same way in a column of the family, however the statement is read: a
value of ASCII, or a quoted text as octets, with a charset introducer before it or not. -/
def Value.IsKept (family : TypeFamily) (v : Value) : Prop :=
  v.IsAscii ∨ family = .binary ∧ (Postgres.quotedContent? v).isSome = true

/-- Such a value is written as the same literal. -/
theorem Postgres.renderValue_recode {v : Value} {family : TypeFamily} (h : v.IsEnclosed)
    (hkept : v.IsKept family) :
    renderValue v.recode family .latin1 = renderValue v family .utf8 := by
  unfold renderValue
  obtain hascii | ⟨rfl, hquoted⟩ := hkept
  · rw [Value.recode_of_isAscii hascii]
    cases hv : quotedContent? v with
    | none => cases v <;> rfl
    | some s =>
      have hself := quotedContent?_recode h hv
      rw [Value.recode_of_isAscii hascii, hv] at hself
      have hoctets := Encoding.octets_recode s
      rw [← Option.some.inj hself] at hoctets
      dsimp only
      unfold renderText
      rw [hoctets]
  · obtain ⟨s, hs⟩ := Option.isSome_iff_exists.mp hquoted
    rw [quotedContent?_recode h hs, hs]
    exact congrArg quoteOctets (Encoding.octets_recode s)

end SqlDump
