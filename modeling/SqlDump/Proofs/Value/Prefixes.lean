import SqlDump.Proofs.Value.Faults
import SqlDump.Proofs.Value.Literal

/-!
# Rows of a text and of its parts

Rows are read from the left, and what was read of a text stays read whatever follows. So a text that
is cut anywhere gives the first of its rows, a reader that stopped is not concerned with what comes
later, and a fault costs no row but the one that it is in.

Main statements: `ParsedRows.rows_prefix`, the rows of a part are the first of the whole;
`ParsedRows.append_of_rest`, nothing is read behind the text where a reader stopped;
`ParsedRows.exists_abandoned`, the row that a fault abandons, and the text before it;
`ParsedRows.ofText_parts`, all three.
-/

namespace SqlDump

open Text

/-- What may stand behind a quote where none closes it: the content of a quoted text, which may
break off behind a backslash. -/
def IsOpenContent (quote : Char) (t : Text) : Prop :=
  ∃ written text, Spelling quote written text ∧ (t = written ∨ t = written ++ ['\\'])

namespace IsOpenContent

variable {quote c : Char} {t : Text}

theorem nil (quote : Char) : IsOpenContent quote [] := ⟨[], [], .nil, .inl rfl⟩

theorem backslash (quote : Char) : IsOpenContent quote ['\\'] := ⟨[], [], .nil, .inr rfl⟩

/-- What is written for a character can be put before an open content. -/
theorem prepend (image : Text) {d : Char}
    (h : ∀ {written text}, Spelling quote written text →
      Spelling quote (image ++ written) (d :: text)) (ht : IsOpenContent quote t) :
    IsOpenContent quote (image ++ t) := by
  obtain ⟨written, text, hspells, rfl | rfl⟩ := ht
  · exact ⟨_, _, h hspells, .inl rfl⟩
  · exact ⟨_, _, h hspells, .inr (List.append_assoc ..).symm⟩

end IsOpenContent

/-- A quote that opens a quoted text. -/
theorem OpenRow.step_opens {r : OpenRow} {quote : Char} (hq : IsValueQuote quote)
    (hr : r.quote.Opens quote) (position : Nat) :
    r.step position quote = .inl { r with
      value := { r.value.push quote with quoted := true }
      quote := .inside quote position false } := by
  rw [← stepOutside_quote hq]
  unfold step
  obtain ho | ⟨other, start, ho, hne⟩ := hr
  · rw [ho]
  · rw [ho]
    exact if_neg (Ne.symm hne)

namespace RowScan

variable {s u : RowScan} {t more before behind : Text} {c quote : Char}

/-- A text is what was read of it and what was not. -/
theorem run_split (s : RowScan) (t : Text) :
    ∃ before, t = before ++ (s.run t).2 ∧ s.run before = ((s.run t).1, []) := by
  induction t generalizing s with
  | nil => exact ⟨[], rfl, rfl⟩
  | cons c t ih =>
    cases hs : s.step c with
    | none => exact ⟨[], by simp [run, hs], by simp [run, hs]⟩
    | some u =>
      obtain ⟨before, hsplit, hrun⟩ := ih u
      refine ⟨c :: before, ?_, ?_⟩
      · rw [run, hs]
        exact congrArg (c :: ·) hsplit
      · simp only [run, hs, hrun]

/-- A reader stops before a character that it cannot take. -/
theorem step_of_rest (h : (s.run t).2 = c :: more) : (s.run t).1.step c = none := by
  induction t generalizing s with
  | nil => cases h
  | cons d t ih =>
    rw [run] at h ⊢
    cases hs : s.step d with
    | none =>
      rw [hs] at h
      obtain ⟨rfl, -⟩ := List.cons.inj h
      exact hs
    | some u =>
      rw [hs] at h
      exact ih h

/-- What cannot be taken stands outside every row and can begin none. -/
theorem step_eq_none_iff :
    s.step c = none ↔ s.row = none ∧ c ≠ '(' ∧ c ≠ ',' ∧ Unicode.isBlank c = false := by
  unfold step
  cases s.row with
  | none =>
    by_cases ho : c = '('
    · simp [ho]
    by_cases hc : c = ',' ∨ Unicode.isBlank c = true
    · simp [ho, hc]
      rcases hc with rfl | hc <;> simp_all
    · simp [ho, hc]
      simpa using hc
  | some r =>
    dsimp only
    cases r.step s.position c <;> simp

theorem Behind.unique (h : Behind t s) (k : Behind t u) : s = u :=
  (Prod.mk.inj (h.symm.trans k)).1

/-- A text behind another is read from where the other left the reader. -/
theorem Behind.append_iff (h : Behind t s) : Behind (t ++ more) u ↔ s.run more = (u, []) := by
  unfold Behind at h ⊢
  rw [run_append _ _ _ (by rw [h]), h]

/-- No row is finished while one is open. -/
theorem OpensRow.rows_eq (h : OpensRow before behind) (hs : Behind before s)
    (hu : Behind (before ++ '(' :: behind) u) : u.rows = s.rows := by
  obtain ⟨b, hb, hbetween⟩ := h.between
  obtain rfl := hb.unique hs
  induction behind using List.reverseRecOn generalizing u with
  | nil =>
    obtain ⟨b, hb, hstep⟩ := behind_snoc.mp hu
    obtain rfl := hb.unique hs
    unfold step at hstep
    rw [hbetween] at hstep
    cases hstep
    rfl
  | append_singleton behind c ih =>
    have hshorter : OpensRow before behind :=
      ⟨h.between, fun more hmore => h.stays more (hmore.trans (List.prefix_append ..))⟩
    obtain ⟨_, r, hlast, hr⟩ := h.stays _ (List.prefix_refl _)
    obtain rfl := hlast.unique hu
    rw [← List.cons_append, ← List.append_assoc] at hu
    obtain ⟨v, hv, hstep⟩ := behind_snoc.mp hu
    obtain ⟨_, r', hopen, hr'⟩ := hshorter.stays _ (List.prefix_refl _)
    obtain rfl := hopen.unique hv
    rw [← ih hshorter hv]
    unfold step at hstep
    rw [hr'] at hstep
    dsimp only at hstep
    split at hstep
    · cases hstep
      rfl
    · cases hstep
      cases hr

/-- A quoted text that is open at the end of a text opened in the row that is open there. -/
theorem OpensRow.inside {front content : Text} (hrow : OpensRow before behind)
    (hquote : OpensQuote quote front content)
    (h : before ++ '(' :: behind = front ++ quote :: content) :
    ∃ inside, front = before ++ '(' :: inside ∧ behind = inside ++ quote :: content := by
  obtain ⟨s, hs, hbetween⟩ := hrow.between
  have hne : front ≠ before := by
    rintro rfl
    obtain ⟨u, r, hu, hr, -⟩ := hquote.outside
    obtain rfl := hu.unique hs
    rw [hbetween] at hr
    cases hr
  rcases List.append_eq_append_iff.mp h with ⟨a, rfl, ha⟩ | ⟨a, rfl, ha⟩
  · cases a with
    | nil => exact absurd (List.append_nil _) hne
    | cons x inside =>
      obtain ⟨rfl, hbehind⟩ := List.cons.inj ha
      exact ⟨inside, rfl, hbehind⟩
  · -- The row would have opened inside the quoted text.
    cases a with
    | nil => exact absurd (List.append_nil _).symm hne
    | cons x more =>
      obtain ⟨rfl, hcontent⟩ := List.cons.inj ha
      obtain ⟨u, r, hu, hr, -⟩ := hquote.stays more (hcontent ▸ List.prefix_append ..)
      obtain rfl := hu.unique hs
      rw [hbetween] at hr
      cases hr

/-- In a row the reader goes on as the row does. -/
theorem step_of_inl {r r' : OpenRow} (hs : s.row = some r)
    (h : r.step s.position c = .inl r') :
    s.step c = some { s with row := some r', position := s.position + c.utf8Size } := by
  unfold step
  rw [hs]
  dsimp only
  rw [h]

/-- The reader stays in the quoted text that `quote` opened at `start`, which is open at the end. -/
structure StaysWithin (quote : Char) (start : Nat) (s : RowScan) (t : Text) : Prop where
  within : ∀ more, more <+: t → ∃ r, (s.run more).1.row = some r ∧ r.quote.IsWithin quote start
  opened : ∃ r escaped, (s.run t).1.row = some r ∧ r.quote = .inside quote start escaped

namespace StaysWithin

variable {r : OpenRow} {start : Nat}

theorem tail (h : StaysWithin quote start s (c :: t)) (hstep : s.step c = some u) :
    StaysWithin quote start u t := by
  have hrun (more : Text) : s.run (c :: more) = u.run more := by rw [run, hstep]
  refine ⟨fun more hmore => ?_, ?_⟩
  · rw [← hrun]
    exact h.within (c :: more) (List.cons_prefix_cons.mpr ⟨rfl, hmore⟩)
  · rw [← hrun]
    exact h.opened

/-- A quote at which the reader stays in the quoted text is written twice. -/
theorem doubled (h : StaysWithin quote start s t) (hs : s.row = some r)
    (hr : r.quote = .closing quote start) : ∃ more, t = quote :: more := by
  cases t with
  | nil =>
    obtain ⟨r', escaped, hr', hinside⟩ := h.opened
    obtain rfl := Option.some.inj (hs.symm.trans hr')
    cases hr.symm.trans hinside
  | cons d more =>
    by_cases hd : d = quote
    · exact ⟨more, by rw [hd]⟩
    obtain ⟨u, hu, hwithin⟩ := h.within [d] (List.cons_prefix_cons.mpr ⟨rfl, List.nil_prefix⟩)
    have hstep : r.step s.position d = r.stepOutside s.position d := by
      unfold OpenRow.step
      rw [hr]
      exact if_neg hd
    cases hout : r.stepOutside s.position d with
    | inl r' =>
      rw [run, step_of_inl hs (hstep.trans hout)] at hu
      obtain rfl := Option.some.inj hu
      exact absurd (OpenRow.within_stepOutside hout hwithin).1 hd
    | inr values =>
      have hclosed : s.step d = some
          { rows := values :: s.rows, row := none, position := s.position + d.utf8Size } := by
        unfold step
        rw [hs]
        dsimp only
        rw [hstep, hout]
      rw [run, hclosed] at hu
      cases hu

/-- What the reader takes without leaving a quoted text is open content. -/
theorem isOpenContent (h : StaysWithin quote start s t) (hs : s.row = some r)
    (hr : r.quote = .inside quote start false) : IsOpenContent quote t := by
  induction hlen : t.length using Nat.strongRecOn generalizing s r t with
  | ind n ih =>
    cases t with
    | nil => exact .nil quote
    | cons c t =>
      simp only [List.length_cons] at hlen
      by_cases hb : c = '\\'
      · subst hb
        have hstep : r.step s.position '\\' = .inl { r with
            value := r.value.push '\\', quote := .inside quote start true } := by
          simp [OpenRow.step, hr]
        have htail := h.tail (step_of_inl hs hstep)
        cases t with
        | nil => exact .backslash quote
        | cons d t =>
          simp only [List.length_cons] at hlen
          have hrest := htail.tail (step_of_inl rfl rfl)
          exact (ih t.length (by omega) hrest rfl rfl rfl).prepend ['\\', d]
            fun hspells => .escaped hspells
      by_cases hc : c = quote
      · subst hc
        have hstep : r.step s.position c = .inl { r with
            value := r.value.push c, quote := .closing c start } := by
          simp [OpenRow.step, hr, hb]
        have htail := h.tail (step_of_inl hs hstep)
        obtain ⟨t, rfl⟩ := htail.doubled rfl rfl
        simp only [List.length_cons] at hlen
        have hagain (position : Nat) : OpenRow.step { r with
            value := r.value.push c, quote := .closing c start } position c =
              .inl { r with
                value := (r.value.push c).pushContent c c, quote := .inside c start false } := by
          simp [OpenRow.step]
        have hrest := htail.tail (step_of_inl rfl (hagain _))
        exact (ih t.length (by omega) hrest rfl rfl rfl).prepend [c, c]
          fun hspells => .doubled hspells
      · have hstep : r.step s.position c = .inl { r with value := r.value.pushContent c c } := by
          simp [OpenRow.step, hr, hb, hc]
        exact (ih t.length (by omega) (h.tail (step_of_inl hs hstep)) rfl hr rfl).prepend
          [c] fun hspells => .plain hb hc hspells

end StaysWithin

/-- Behind the quote that opened it, an open quoted text has open content. -/
theorem OpensQuote.isOpenContent {front content : Text} (h : OpensQuote quote front content)
    (hopen : ∃ s r escaped, Behind (front ++ quote :: content) s ∧ s.row = some r ∧
      r.quote = .inside quote (size front) escaped) : IsOpenContent quote content := by
  obtain ⟨s, r, hs, hr, hopens⟩ := h.outside
  have hstep := step_of_inl hr (OpenRow.step_opens h.mark hopens s.position)
  rw [(placed hs).position] at hstep
  obtain ⟨u, r', hu, hr', hinside⟩ : ∃ u r', s.step quote = some u ∧ u.row = some r' ∧
      r'.quote = .inside quote (size front) false := ⟨_, _, hstep, rfl, rfl⟩
  have hrun {more : Text} {v : RowScan} (hv : Behind (front ++ quote :: more) v) :
      (u.run more).1 = v := by
    have hfront := hs.append_iff.mp hv
    rw [run, hu] at hfront
    exact congrArg Prod.fst hfront
  have hstays : StaysWithin quote (size front) u content := by
    refine ⟨fun more hmore => ?_, ?_⟩
    · obtain ⟨v, o, hv, ho, hwithin⟩ := h.stays more hmore
      exact ⟨o, by rw [hrun hv]; exact ho, hwithin⟩
    · obtain ⟨v, o, escaped, hv, ho, hopened⟩ := hopen
      exact ⟨o, escaped, by rw [hrun hv]; exact ho, hopened⟩
  exact hstays.isOpenContent hr' hinside

end RowScan

namespace ParsedRows

variable {t u before behind : Text} {f : RowFault}

theorem ofText_of_behind {s : RowScan} (h : RowScan.Behind t s) :
    ofText t = ⟨s.rows.reverse, size t, [], s.row.map OpenRow.fault⟩ := by
  rw [← (RowScan.placed h).position, ofText, h]

/-- The rows of a part of a text are the first of its rows. -/
theorem rows_prefix (h : u <+: t) : (ofText u).rows <+: (ofText t).rows := by
  obtain ⟨more, rfl⟩ := h
  have hrows : ∃ later,
      (RowScan.run {} (u ++ more)).1.rows = later ++ (RowScan.run {} u).1.rows := by
    by_cases hrest : (RowScan.run {} u).2 = []
    · rw [RowScan.run_append _ _ _ hrest]
      exact RowScan.rows_run _ more
    · rw [RowScan.run_stopped _ _ _ hrest]
      exact ⟨[], rfl⟩
  obtain ⟨later, hlater⟩ := hrows
  refine ⟨later.reverse, ?_⟩
  simp only [ofText, hlater, List.reverse_append]

/-- Where a reader stopped, it is not concerned with what follows. -/
theorem append_of_rest (h : (ofText t).rest ≠ []) (more : Text) :
    ofText (t ++ more) = { ofText t with rest := (ofText t).rest ++ more } := by
  have hrest : (RowScan.run {} t).2 ≠ [] := h
  rw [ofText, RowScan.run_stopped _ _ _ hrest]
  rfl

/-- A reader that stopped before the end stopped before a character that stands outside every row
and can begin none. -/
theorem exists_stop (h : (ofText t).consumed < size t) : ∃ before c behind,
    t = before ++ c :: behind ∧ (ofText t).rest = c :: behind ∧
      ofText before = ⟨(ofText t).rows, (ofText t).consumed, [], none⟩ ∧
      (ofText t).consumed = size before ∧ (ofText t).fault = none ∧
      c ≠ '(' ∧ c ≠ ',' ∧ Unicode.isBlank c = false := by
  obtain ⟨before, hsplit, hrun⟩ := RowScan.run_split {} t
  have hposition : (ofText t).consumed = size before := (RowScan.placed hrun).position
  cases hrest : (RowScan.run {} t).2 with
  | nil =>
    rw [hrest, List.append_nil] at hsplit
    rw [hposition, ← hsplit] at h
    exact absurd h (Nat.lt_irrefl _)
  | cons c behind =>
    obtain ⟨hrow, hc⟩ := RowScan.step_eq_none_iff.mp (RowScan.step_of_rest hrest)
    rw [hrest] at hsplit
    have hfault : (ofText t).fault = none := by
      rw [ofText]
      dsimp only
      rw [hrow]
      rfl
    refine ⟨before, c, behind, hsplit, hrest, ?_, hposition, hfault, hc⟩
    rw [ofText_of_behind hrun, hrow, hposition]
    rfl

/-- What a fault of a text abandons: the row that opens between two parts of the text, and in the
row the quoted text that is open at the end. -/
structure Abandons (t : Text) (f : RowFault) (before behind : Text) : Prop where
  split : t = before ++ '(' :: behind
  row : RowScan.OpensRow before behind
  /-- Cut before the row, the text gives the same rows and has no fault. -/
  kept : ofText before = ⟨(ofText t).rows, size before, [], none⟩
  unterminatedRow : f.kind = .unterminatedRow → f.offset = size before
  unterminatedQuote : f.kind = .unterminatedQuote → ∃ inside quote content,
    behind = inside ++ quote :: content ∧ f.offset = size (before ++ '(' :: inside) ∧
      RowScan.OpensQuote quote (before ++ '(' :: inside) content ∧ IsOpenContent quote content

/-- A fault abandons the row that it is in and nothing else. -/
theorem exists_abandoned (h : (ofText t).fault = some f) :
    ∃ before behind, Abandons t f before behind := by
  obtain ⟨s, r, hs, hrow, rfl⟩ := exists_row h
  have hplaced := RowScan.placed hs
  obtain ⟨before, behind, rfl, hstart, hopens⟩ := hplaced.row r hrow
  obtain ⟨b, hb, hbetween⟩ := hopens.between
  refine ⟨before, behind, rfl, hopens, ?_, ?_, ?_⟩
  · rw [ofText_of_behind hb, ofText_of_behind hs, hopens.rows_eq hb hs, hbetween]
    rfl
  · intro hkind
    unfold OpenRow.fault at hkind ⊢
    split at hkind
    · cases hkind
    · exact hstart
  · intro hkind
    unfold OpenRow.fault at hkind ⊢
    split at hkind
    · next quote start escaped hquote =>
      obtain ⟨front, content, hsplit, rfl, hopened⟩ :=
        hplaced.quote r hrow quote start (.inl ⟨escaped, hquote⟩)
      obtain ⟨inside, rfl, hbehind⟩ := hopens.inside hopened hsplit
      rw [hsplit] at hs
      exact ⟨inside, quote, content, hbehind, rfl, hopened,
        hopened.isOpenContent ⟨s, r, escaped, hs, hrow, hquote⟩⟩
    · cases hkind

/-- Rows are read from the left. The rows of a part of a text are the first of its rows. A reader
that stops before the end stops before a character that stands outside every row and can begin
none, and reads the same whatever follows. A fault is placed at the row that it abandons or at the
quote in that row which opened what is open, and without that row the text gives the same rows and
has no fault. -/
theorem ofText_parts (t : Text) :
    (∀ u, u <+: t → (ofText u).rows <+: (ofText t).rows) ∧
    ((ofText t).consumed < size t → ∃ before c behind, t = before ++ c :: behind ∧
      (ofText t).consumed = size before ∧ (ofText before).fault = none ∧
      c ≠ '(' ∧ c ≠ ',' ∧ Unicode.isBlank c = false ∧ (ofText t).fault = none ∧
      ∀ more, ofText (t ++ more) = { ofText t with rest := (ofText t).rest ++ more }) ∧
    ∀ f, (ofText t).fault = some f → ∃ before behind, Abandons t f before behind := by
  refine ⟨fun u hu => rows_prefix hu, fun hstop => ?_, fun f hf => exists_abandoned hf⟩
  obtain ⟨before, c, behind, hsplit, hrest, hbefore, hconsumed, hfault, hopen, hcomma, hblank⟩ :=
    exists_stop hstop
  refine ⟨before, c, behind, hsplit, hconsumed, by rw [hbefore], hopen, hcomma, hblank, hfault,
    append_of_rest ?_⟩
  rw [hrest]
  exact List.cons_ne_nil _ _

/-- Two rows before a letter, at which the reader stops, and one row before a quote that is not
closed. -/
theorem ofText_parts_mixed :
    (ofText "(1),('a') x(3)").rows = [[.bare "1"], [.text "a"]] ∧
      (ofText "(1),('a')").rows <+: (ofText "(1),('a') x(3)").rows ∧
      (ofText "(1),('a') x(3)").consumed = 10 ∧
      (∃ (before : Text) (c : Char) (behind : Text),
        ("(1),('a') x(3)" : Text) = before ++ c :: behind ∧ size before = 10 ∧
        (ofText before).fault = none ∧ c ≠ '(' ∧ c ≠ ',') ∧
      (ofText "(1),(2,'b").rows = [[.bare "1"]] ∧
      (ofText "(1),(2,'b").fault = some ⟨.unterminatedQuote, 7⟩ ∧
      ∃ before behind, Abandons "(1),(2,'b" ⟨.unterminatedQuote, 7⟩ before behind := by
  obtain ⟨hrows, hstop, -⟩ := ofText_parts "(1),('a') x(3)"
  obtain ⟨-, -, hfault⟩ := ofText_parts "(1),(2,'b"
  have hconsumed : (ofText "(1),('a') x(3)").consumed = 10 := by decide +kernel
  have hopen : (ofText "(1),(2,'b").fault = some ⟨.unterminatedQuote, 7⟩ := by decide +kernel
  obtain ⟨before, c, behind, hsplit, hbefore, hnone, hparenthesis, hcomma, -⟩ :=
    hstop (by decide +kernel)
  exact ⟨by decide +kernel, hrows _ ⟨" x(3)", rfl⟩, hconsumed,
    ⟨before, c, behind, hsplit, hbefore.symm.trans hconsumed, hnone, hparenthesis, hcomma⟩,
    by decide +kernel, hopen, hfault _ hopen⟩

end ParsedRows

end SqlDump
