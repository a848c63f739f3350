import SqlDump.Proofs.Segment.Quoting
import SqlDump.Proofs.Text.Items

/-!
# Statements passed through are one statement

A statement is passed through in three passes: conditional comments are taken out, names get double
quotes, and what stands behind the last character is replaced by one semicolon. Each pass keeps its
own account of quotes, and none of comments. Where they agree with the lexer, what is written is one
statement again, and its semicolon ends it.

Main statements: `passes_of_agrees`, a computed test tells where they agree; `Passes.ends`, the last
semicolon ends what is written; `renderOther?_segments`, what is written is one statement, whatever
comes behind it.
-/

namespace SqlDump

open Text

namespace Postgres

/-! ### What the lexer and the passes agree on -/

/-- Whether the last character that is neither a blank nor a semicolon stands in a comment to the
end of the line: `u` is the lexer behind the character `c`, and `hanging` says so of those
before. -/
def hangs (hanging : Bool) (u : Scan) (c : Char) : Bool :=
  if isTerminator c then hanging else u.isLineComment

/-- A statement without conditional comments, from where the lexer is `s` to the semicolon that ends
it, which the passes read as the lexer does. Blanks before the statement are taken off, those of
Unicode too. -/
inductive Passes : Scan → Bool → Text → Prop
  | stop {s : Scan} (h : s.read [';'] = none) : Passes s false [';']
  | blank {c : Char} {hanging : Bool} {rest : Text} (hc : Unicode.isBlank c = true)
      (h : Passes (.plain false) hanging rest) : Passes (.plain false) hanging (c :: rest)
  | char {s u : Scan} {c : Char} {hanging : Bool} {rest : Text}
      (hstart : s = .plain false → Unicode.isBlank c = false) (hc : s.takes c = true)
      (hu : s.read [c] = some u) (h : Passes u (hangs hanging u c) rest) :
      Passes s hanging (c :: rest)

/-- What is left of a text without the blanks before the statement. -/
def begun (s : Scan) (t : Text) : Text := if s = .plain false then trimStart t else t

theorem requoteFrom_cons (q : Quoting) (c : Char) (t : Text) :
    requoteFrom q [] (c :: t) = requoteChar q c ++ requoteFrom (q.step c) [] t := by
  rw [requoteFrom, requoteFrom_done]
  simp

/-- What is written of a statement from where the lexer is `s`: nothing but what is taken off its
end, or what the lexer reads up to where a semicolon ends the statement. -/
structure Ends (s : Scan) (hanging : Bool) (written : Text) : Prop where
  blank : written.all isTerminator = true → hanging = false ∧ s.isLoose = true
  solid : written.all isTerminator = false → ∃ o,
    s.requoted.read (trimEndWhile isTerminator written) = some o ∧ o.read [';'] = none

theorem requoteChar_of_not_quoteMark {c : Char} (h : isQuoteMark c = false) (q : Quoting) :
    requoteChar q c = [c] := by
  simp only [isQuoteMark, Bool.or_eq_false_iff, beq_eq_false_iff_ne] at h
  obtain ⟨⟨-, hdouble⟩, htick⟩ := h
  cases q with
  | outside => simp [requoteChar, htick]
  | inside quote escaped => simp [requoteChar, htick, hdouble]

/-- What is written of a character that is not taken off the end is not taken off either. -/
theorem requoteChar_last {c : Char} (h : isTerminator c = false) (q : Quoting) :
    ∃ init last, requoteChar q c = init ++ [last] ∧ isTerminator last = false := by
  unfold requoteChar
  split
  · split
    · exact ⟨[], '\x22', rfl, by decide⟩
    · exact ⟨[], c, rfl, h⟩
  · split
    · split
      · exact ⟨[], '\x22', rfl, by decide⟩
      · split
        · exact ⟨['\x22'], '\x22', rfl, by decide⟩
        · exact ⟨[], c, rfl, h⟩
    · exact ⟨[], c, rfl, h⟩

/-- One character that is kept. -/
theorem Ends.char {s u : Scan} {c : Char} {hanging : Bool} {written : Text} (hs : s.IsSound)
    (hc : s.takes c = true) (hu : s.read [c] = some u)
    (h : Ends u (hangs hanging u c) written) :
    Ends s hanging (requoteChar s.quoting c ++ written) := by
  have hread := Scan.read_requote hs hc hu
  cases hall : written.all isTerminator with
  | true =>
    obtain ⟨hhangs, hloose⟩ := h.blank hall
    cases hterminator : isTerminator c with
    | true =>
      have hchar := requoteChar_of_not_quoteMark (Scan.not_quoteMark_of_isTerminator hterminator)
        s.quoting
      rw [hangs, if_pos hterminator] at hhangs
      rw [hchar]
      constructor
      · intro _
        exact ⟨hhangs, Scan.isLoose_of_read hs hterminator hu hloose⟩
      · intro hsolid
        simp [hterminator, hall] at hsolid
    | false =>
      rw [hangs, if_neg (by simp [hterminator])] at hhangs
      obtain ⟨init, last, himage, hlast⟩ := requoteChar_last hterminator s.quoting
      constructor
      · intro hblank
        rw [himage] at hblank
        simp [hlast] at hblank
      · intro _
        have hname : u ≠ .backtick := by
          rintro rfl
          cases hloose
        rw [Scan.requoted_of_ne hname] at hread
        refine ⟨u, ?_, Scan.read_semicolon hloose hhangs⟩
        rw [trimEndWhile_append_of_all hall, himage, trimEndWhile_last hlast, ← himage]
        exact hread
  | false =>
    obtain ⟨o, ho, hends⟩ := h.solid hall
    constructor
    · intro hblank
      simp [hall] at hblank
    · intro _
      have hne : trimEndWhile isTerminator written ≠ [] := by
        rw [Ne, trimEndWhile_eq_nil_iff, hall]
        simp
      refine ⟨o, ?_, hends⟩
      rw [trimEndWhile_append hne, Scan.read_append_of hread]
      exact ho

/-- The last semicolon ends what is written, unless nothing is. -/
theorem Passes.ends {s : Scan} {hanging : Bool} {kept : Text} (h : Passes s hanging kept)
    (hs : s.IsSound) : Ends s hanging (requoteFrom s.quoting [] (begun s kept)) := by
  induction h with
  | @stop s h =>
    have hloose := Scan.isLoose_of_semicolon h
    have hkept : begun s [';'] = [';'] := by
      unfold begun
      split <;> rfl
    rw [hkept, requoteFrom_cons, Scan.quoting_of_isLoose hloose]
    exact ⟨fun _ => ⟨rfl, hloose⟩, fun hsolid => absurd hsolid (by decide)⟩
  | @blank c hanging rest hc h ih =>
    have hkept : begun (.plain false) (c :: rest) = begun (.plain false) rest := by
      simp [begun, trimStart, hc]
    rw [hkept]
    exact ih hs
  | @char s u c hanging rest hstart hc hu h ih =>
    obtain ⟨hsound, hquoting⟩ := Scan.quoting_read hs hc hu
    have hkept : begun s (c :: rest) = c :: rest := by
      unfold begun
      split
      · next hplain => simp [trimStart, hstart hplain]
      · rfl
    have hbegun : s.begun = true ∨ Unicode.isBlank c = false := by
      by_cases hplain : s = .plain false
      · exact .inr (hstart hplain)
      · refine .inl ?_
        cases s with
        | plain begun =>
          cases begun with
          | true => rfl
          | false => exact absurd rfl hplain
        | _ => rfl
    have hrest : begun u rest = rest := by
      refine if_neg ?_
      rintro rfl
      have hnow := Scan.begun_of_read hu hbegun
      cases hnow
    rw [hkept, requoteFrom_cons, ← hquoting, ← hrest]
    exact (ih hsound).char hs hc hu

/-! ### Conditional comments -/

/-- What follows a conditional comment, where one begins outside names and strings. -/
def behindConditional? (q : Quoting) (t : Text) : Option Text :=
  match q, t with
  | .outside, '/' :: '*' :: '!' :: comment => some (afterConditional comment)
  | _, _ => none

theorem length_behindConditional? {q : Quoting} {t after : Text}
    (h : behindConditional? q t = some after) : after.length < t.length := by
  unfold behindConditional? at h
  split at h
  · next comment =>
    cases h
    have hle := length_afterConditional comment
    simp only [List.length_cons]
    omega
  · cases h

/-- Whether the passes over a statement read it as the lexer does, from where the lexer is `s` over
what was kept so far. Conditional comments stand neither in other comments nor behind a dash or
slash. Without them, the statement ends with its first semicolon outside spans, begins with no
comment and has no line comment directly before that semicolon, which is what `hanging`
tells; its names hold no backslash, and its comments no quote. -/
def agreesFrom (s : Scan) (hanging : Bool) (t : Text) : Bool :=
  match t with
  | [] => false
  | c :: rest =>
    match _h : behindConditional? s.quoting (c :: rest) with
    | some after => (s == .plain s.begun) && agreesFrom s hanging after
    | none =>
      if s = .plain false ∧ Unicode.isBlank c then agreesFrom s hanging rest
      else
        s.takes c &&
          match s.read [c] with
          | some u => agreesFrom u (hangs hanging u c) rest
          | none => c == ';' && rest.isEmpty && !hanging
termination_by t.length
decreasing_by
  · exact length_behindConditional? _h
  · simp
  · simp

/-- Whether the passes over a statement read it as the lexer does. -/
def Agrees (t : Text) : Prop := agreesFrom .start false t = true

instance : DecidablePred Agrees := fun t => inferInstanceAs (Decidable (agreesFrom .start false t = true))

theorem stripFrom_conditional {q : Quoting} {t after : Text}
    (h : behindConditional? q t = some after) (done : Text) :
    stripFrom q done t = stripFrom q done after := by
  unfold behindConditional? at h
  split at h
  · next comment =>
    cases h
    rw [stripFrom]
  · cases h

/-- A character that begins no conditional comment is kept. -/
theorem stripFrom_char {q : Quoting} {c : Char} {rest : Text}
    (h : behindConditional? q (c :: rest) = none) (done : Text) :
    stripFrom q done (c :: rest) = stripFrom (q.step c) (c :: done) rest := by
  rw [stripFrom.eq_def]
  split
  · next hnil => cases hnil
  · next heq =>
    cases heq
    cases h
  · next rest _ heq =>
    -- The asterisk is kept with the slash before it.
    cases heq
    have hnext : stripFrom (Quoting.outside.step '/') ('/' :: done) ('*' :: rest) =
        stripFrom .outside ('*' :: '/' :: done) rest := by
      rw [stripFrom.eq_def]
      rfl
    exact hnext.symm
  · next heq =>
    cases heq
    rfl

/-- The statement without its conditional comments is one that the passes read as the lexer does. -/
theorem passes_of_agrees {s : Scan} {hanging : Bool} {t : Text} (hs : s.IsSound)
    (h : agreesFrom s hanging t = true) :
    ∃ kept, (∀ done, stripFrom s.quoting done t = done.reverse ++ kept) ∧
      Passes s hanging kept := by
  fun_induction agreesFrom s hanging t with
  | case1 => cases h
  | case2 s hanging c rest after hafter ih =>
    obtain ⟨kept, hkept, hpasses⟩ := ih hs (Bool.and_eq_true_iff.mp h).2
    refine ⟨kept, ?_, hpasses⟩
    intro done
    rw [stripFrom_conditional hafter, hkept]
  | case3 s hanging c rest hnone hblank ih =>
    obtain ⟨rfl, hc⟩ := hblank
    obtain ⟨kept, hkept, hpasses⟩ := ih hs h
    have hmark : isQuoteMark c = false :=
      Scan.not_quoteMark_of_isTerminator (by simp [isTerminator, hc])
    refine ⟨c :: kept, ?_, .blank hc hpasses⟩
    intro done
    have hstep : (Scan.plain false).quoting.step c = (Scan.plain false).quoting :=
      Scan.outside_step hmark
    rw [stripFrom_char hnone, hstep, hkept]
    simp
  | case4 s hanging c rest hnone hblank ih =>
    obtain ⟨htakes, hnext⟩ := Bool.and_eq_true_iff.mp h
    cases hu : s.read [c] with
    | none =>
      simp only [hu, Bool.and_eq_true, beq_iff_eq, List.isEmpty_iff, Bool.not_eq_true'] at hnext
      obtain ⟨⟨rfl, rfl⟩, rfl⟩ := hnext
      refine ⟨[';'], ?_, .stop hu⟩
      intro done
      rw [stripFrom_char hnone, stripFrom]
      simp
    | some u =>
      simp only [hu] at hnext
      obtain ⟨hsound, hquoting⟩ := Scan.quoting_read hs htakes hu
      obtain ⟨kept, hkept, hpasses⟩ := ih u hsound hnext
      refine ⟨c :: kept, ?_, .char ?_ htakes hu hpasses⟩
      · intro done
        rw [stripFrom_char hnone, ← hquoting, hkept]
        simp
      · intro hplain
        rw [Bool.eq_false_iff]
        intro hc
        exact hblank ⟨hplain, hc⟩

/-! ### What is written -/

theorem requoteFrom_append (q : Quoting) (t u : Text) :
    ∃ r, requoteFrom q [] (t ++ u) = requoteFrom q [] t ++ requoteFrom r [] u := by
  induction t generalizing q with
  | nil => exact ⟨q, rfl⟩
  | cons c t ih =>
    obtain ⟨r, hr⟩ := ih (q.step c)
    refine ⟨r, ?_⟩
    rw [List.cons_append, requoteFrom_cons, hr, requoteFrom_cons, List.append_assoc]

/-- Blanks are written as they are. -/
theorem requoteFrom_blank {t : Text} (h : isBlank t = true) (q : Quoting) :
    requoteFrom q [] t = t := by
  induction t generalizing q with
  | nil => rfl
  | cons c t ih =>
    obtain ⟨hc, ht⟩ := Bool.and_eq_true_iff.mp h
    have hmark : isQuoteMark c = false :=
      Scan.not_quoteMark_of_isTerminator (by simp [isTerminator, hc])
    rw [requoteFrom_cons, requoteChar_of_not_quoteMark hmark, ih ht]
    rfl

/-- The blanks at the end may be taken off before or behind the pass over the names. -/
theorem trimEndWhile_requote (t : Text) :
    trimEndWhile isTerminator (requote (trimEnd t)) = trimEndWhile isTerminator (requote t) := by
  obtain ⟨v, hv, ht⟩ := exists_trimEndWhile Unicode.isBlank t
  obtain ⟨r, hr⟩ := requoteFrom_append .outside (trimEnd t) v
  have hall : v.all isTerminator = true := by
    rw [List.all_eq_true] at hv ⊢
    intro c hc
    simp [isTerminator, hv c hc]
  have hsplit : requote t = requote (trimEnd t) ++ v := by
    have hrest : requote (trimEnd t ++ v) = requote (trimEnd t) ++ v := by
      rw [requote, hr, requoteFrom_blank hv]
      rfl
    rwa [trimEnd, ← ht] at hrest
  rw [hsplit, trimEndWhile_append_of_all hall]

/-- What is written for a text that begins with no blank begins with none. -/
theorem requote_solid {c : Char} (h : Unicode.isBlank c = false) (t : Text) :
    ∃ d rest, requote (c :: t) = d :: rest ∧ Unicode.isBlank d = false := by
  rw [requote, requoteFrom_cons]
  unfold requoteChar
  dsimp only
  split
  · exact ⟨'\x22', _, rfl, by decide⟩
  · exact ⟨c, _, rfl, h⟩

/-- What is written for a statement is one statement for the lexer: it begins with no blank, and
ends with its last semicolon. -/
theorem isStatement_of_agrees {t sql : Text} (ht : Agrees t) (h : renderOther? t = some sql) :
    (Octets.ofText sql).IsStatement := by
  obtain ⟨kept, hkept, hpasses⟩ := passes_of_agrees (s := .start) trivial ht
  have hstrip : stripConditional t = kept := hkept []
  have hends := hpasses.ends trivial
  have hbegun : requoteFrom Scan.start.quoting [] (begun .start kept) = requote (trimStart kept) :=
    rfl
  rw [hbegun] at hends
  unfold renderOther? at h
  rw [hstrip, trim, trimEndWhile_requote] at h
  dsimp only at h
  split at h
  · cases h
  · next hbody =>
    cases h
    have hne : trimEndWhile isTerminator (requote (trimStart kept)) ≠ [] := by simpa using hbody
    have hsolid : (requote (trimStart kept)).all isTerminator = false := by
      rw [Bool.eq_false_iff, Ne, ← trimEndWhile_eq_nil_iff]
      exact hne
    obtain ⟨o, ho, hend⟩ := hends.solid hsolid
    obtain ⟨v, -, hv⟩ := exists_trimEndWhile isTerminator (requote (trimStart kept))
    generalize trimEndWhile isTerminator (requote (trimStart kept)) = body at *
    constructor
    · cases hstart : trimStart kept with
      | nil =>
        rw [hstart] at hsolid
        cases hsolid
      | cons c rest =>
        have hc : Unicode.isBlank c = false := by
          have hhead := List.head?_dropWhile_not Unicode.isBlank kept
          rw [← trimStart, hstart] at hhead
          exact hhead
        obtain ⟨d, more, hrequote, hd⟩ := requote_solid hc rest
        obtain ⟨e, init, rfl⟩ := List.exists_cons_of_ne_nil hne
        rw [hstart, hrequote] at hv
        cases hv
        exact Octets.solid_ofText hd _
    · refine ⟨.ofText body, 0x3B, o, ?_, ho, ?_⟩
      · rw [Octets.ofText_append]
        rfl
      · rw [Scan.read_of_ascii _ (by decide)] at hend
        exact hend

/-- Where the passes over a statement read it as the lexer does, what is written for it is one
statement: by itself, with a line feed behind it, and in front of whatever comes behind it. -/
theorem renderOther?_segments {t sql : Text} (ht : Agrees t) (h : renderOther? t = some sql) :
    (∀ size : Nat, (Reader.ofOctets (size + 1) (.ofText (sql ++ "\n"))).readAll.1.map Prod.fst =
      [⟨.ofText sql, 0, 0, true⟩]) ∧
    (∀ rest : Octets, Segment.all (.ofText sql ++ rest) =
      ⟨.ofText sql, 0, 0, true⟩ :: Segment.fromOffset 1 (Octets.ofText sql).length rest) ∧
    Encoding.decode (.ofText sql) = (sql, .utf8) := by
  have hstatement := isStatement_of_agrees ht h
  have hall (rest : Octets) : Segment.all (.ofText sql ++ rest) =
      ⟨.ofText sql, 0, 0, true⟩ :: Segment.fromOffset 1 (Octets.ofText sql).length rest := by
    have hlead : ([] : Octets).all Octets.isBlank = true := rfl
    have hpiece := Segment.ofPiece_append hlead hstatement.solid 0 0 true
    rw [List.nil_append] at hpiece
    rw [Segment.all, Segment.fromOffset_of_ends hstatement.ended, hpiece]
    simp
  refine ⟨?_, hall, Encoding.decode_ofText sql⟩
  intro size
  have hfeed (n k : Nat) : Segment.fromOffset n k (.ofText "\n") = [] := by
    rw [Scan.fromOffset_eq]
    rfl
  rw [Reader.segments_fromOffset, Octets.ofText_append, ← hfeed 1 (Octets.ofText sql).length]
  exact hall _

/-- A statement with a conditional comment, a name in backticks, a string and a comment. -/
theorem renderOther?_segments_select :
    Agrees "SELECT /*!40001 SQL_NO_CACHE */ `a`, ';' -- one\nFROM t ;" ∧
    renderOther? "SELECT /*!40001 SQL_NO_CACHE */ `a`, ';' -- one\nFROM t ;" =
      some "SELECT  \"a\", ';' -- one\nFROM t;" ∧
    (Reader.ofOctets 8 (.ofText ("SELECT  \"a\", ';' -- one\nFROM t;" ++ "\n"))).readAll.1.map
      Prod.fst = [⟨.ofText "SELECT  \"a\", ';' -- one\nFROM t;", 0, 0, true⟩] := by
  have hagrees : Agrees "SELECT /*!40001 SQL_NO_CACHE */ `a`, ';' -- one\nFROM t ;" := by
    decide +kernel
  have hrender : renderOther? "SELECT /*!40001 SQL_NO_CACHE */ `a`, ';' -- one\nFROM t ;" =
      some "SELECT  \"a\", ';' -- one\nFROM t;" := by
    decide +kernel
  exact ⟨hagrees, hrender, (renderOther?_segments hagrees hrender).1 7⟩

/-- A comment in front of the semicolon swallows the semicolon that takes its place. -/
theorem renderOther?_swallowed :
    Segment.all (.ofText "SELECT 1 -- x\n;") = [⟨.ofText "SELECT 1 -- x\n;", 0, 0, true⟩] ∧
    renderOther? "SELECT 1 -- x\n;" = some "SELECT 1 -- x;" ∧
    Segment.all (.ofText ("SELECT 1 -- x;" ++ "\n")) =
      [⟨.ofText ("SELECT 1 -- x;" ++ "\n"), 0, 0, false⟩] ∧
    Segment.all (.ofText ("SELECT 1 -- x;" ++ "\nSELECT 2;")) =
      [⟨.ofText ("SELECT 1 -- x;" ++ "\nSELECT 2;"), 0, 0, true⟩] := by
  decide +kernel

end Postgres

end SqlDump
