import SqlDump.Postgres.Script
import SqlDump.Proofs.Postgres.Token
import SqlDump.Proofs.Segment.Comments
import SqlDump.Proofs.Text.Items

/-!
# Comments as PostgreSQL reads them

PostgreSQL ends a comment of two dashes at a carriage return as well as at a line feed, and its
block comments nest. What is written for a comment, and for an unterminated statement, is a comment
there only where no carriage return is left inside a line and no block comment is opened inside
another: then nothing of it runs, and what is written behind it is read from its first character.

Main statements: `isGap_line_iff`, what stands behind the line of a comment; `isGap_block_iff`, a
block comment that opens no other; `comments_are_gaps`, the comments of a script.
-/

namespace SqlDump.Postgres

open Text

/-- Where a reader of blanks and comments stands. -/
inductive Gap where
  | between
  /-- Behind a dash or slash, which has to open a comment. -/
  | opener (first : Char)
  /-- Inside a line comment. -/
  | line
  /-- Inside a block comment and `depth` comments around it, `last` being the character before where
  that was no part of an opening or an ending. -/
  | block (depth : Nat) (last : Option Char)
  deriving DecidableEq, Repr

namespace Gap

/-- One character; nothing if it is neither blank nor part of a comment. -/
def step : Gap → Char → Option Gap
  | .between, c =>
    if Token.isBlank c then some .between
    else if c = '-' ∨ c = '/' then some (.opener c)
    else none
  | .opener first, c =>
    if first = '-' ∧ c = '-' then some .line
    else if first = '/' ∧ c = '*' then some (.block 0 none)
    else none
  | .line, c => if c = '\n' ∨ c = '\r' then some .between else some .line
  | .block depth last, c =>
    if last = some '*' ∧ c = '/' then
      match depth with
      | 0 => some .between
      | depth + 1 => some (.block depth none)
    else if last = some '/' ∧ c = '*' then some (.block (depth + 1) none)
    else some (.block depth (some c))

/-- The reader behind a text; nothing if the text holds more than blanks and comments. -/
def run (g : Gap) : Text → Option Gap
  | [] => some g
  | c :: t => (g.step c).bind fun h => h.run t

variable {g h : Gap} {c : Char} {t u : Text}

theorem run_append (g : Gap) (t u : Text) : g.run (t ++ u) = (g.run t).bind fun h => h.run u := by
  induction t generalizing g with
  | nil => rfl
  | cons c t ih =>
    cases hstep : g.step c with
    | none => simp [run, hstep]
    | some h => simp [run, hstep, ih]

theorem run_cons_of_step (hstep : g.step c = some h) (t : Text) : g.run (c :: t) = h.run t := by
  rw [run, hstep, Option.bind_some]

end Gap

/-- A text of blanks and whole comments. -/
def IsGap (t : Text) : Prop := Gap.between.run t = some .between

instance (t : Text) : Decidable (IsGap t) :=
  inferInstanceAs (Decidable (Gap.between.run t = some .between))

theorem IsGap.append {t u : Text} (ht : IsGap t) (hu : IsGap u) : IsGap (t ++ u) := by
  rw [IsGap, Gap.run_append, ht]
  exact hu

theorem IsGap.flatMap {α : Type} {f : α → Text} {as : List α} (h : ∀ a ∈ as, IsGap (f a)) :
    IsGap (as.flatMap f) := by
  induction as with
  | nil => rfl
  | cons a as ih =>
    rw [List.flatMap_cons]
    exact (h a List.mem_cons_self).append (ih fun b hb => h b (List.mem_cons_of_mem a hb))

/-! ## Comments that end with the line -/

/-- What stands behind the first line of a text, where a carriage return ends it too. -/
def behindLine? (t : Text) : Option Text :=
  match t.dropWhile fun c => c != '\n' && c != '\r' with
  | [] => none
  | _ :: rest => some rest

theorem run_line (t u : Text) :
    Gap.line.run (t ++ '\n' :: u) =
      match behindLine? t with
      | none => Gap.between.run u
      | some rest => Gap.between.run (rest ++ '\n' :: u) := by
  induction t with
  | nil => rfl
  | cons c t ih =>
    rw [List.cons_append]
    by_cases hc : c = '\n' ∨ c = '\r'
    · have hstep : Gap.line.step c = some .between := if_pos hc
      have hbehind : behindLine? (c :: t) = some t := by
        obtain rfl | rfl := hc <;> rfl
      rw [Gap.run_cons_of_step hstep, hbehind]
    · have hstep : Gap.line.step c = some .line := if_neg hc
      have hbehind : behindLine? (c :: t) = behindLine? t := by
        simp only [not_or] at hc
        simp [behindLine?, hc.1, hc.2]
      rw [Gap.run_cons_of_step hstep, hbehind]
      exact ih

/-- A comment of two dashes up to the end of a line, with a gap behind it, is a gap exactly when
what stands behind a carriage return in it is one. -/
theorem isGap_line_iff (t : Text) {u : Text} (hu : IsGap u) :
    IsGap ('-' :: '-' :: (t ++ '\n' :: u)) ↔
      ∀ rest, behindLine? t = some rest → IsGap (rest ++ '\n' :: u) := by
  have hrun : Gap.between.run ('-' :: '-' :: (t ++ '\n' :: u)) = Gap.line.run (t ++ '\n' :: u) := rfl
  rw [IsGap, hrun, run_line]
  cases behindLine? t with
  | none => exact iff_of_true hu fun _ h => nomatch h
  | some rest => exact ⟨fun h _ heq => Option.some.inj heq ▸ h, fun h => h rest rfl⟩

/-! ## Block comments -/

/-- Whether no asterisk and slash stand in a comment before its last asterisk. -/
def StaysOpen (last : Option Char) (t : Text) : Prop := ¬['*', '/'] <:+: last.toList ++ (t ++ ['*'])

theorem StaysOpen.tail {last : Option Char} {c : Char} {t : Text} (h : StaysOpen last (c :: t)) :
    ¬(last = some '*' ∧ c = '/') ∧ StaysOpen (some c) t := by
  constructor
  · rintro ⟨rfl, rfl⟩
    exact h ⟨[], t ++ ['*'], rfl⟩
  · intro hinner
    exact h (hinner.trans (List.suffix_append last.toList _).isInfix)

theorem StaysOpen.none {last : Option Char} {t : Text} (h : StaysOpen last t) :
    StaysOpen none t := fun hinner => h (hinner.trans (List.suffix_append last.toList _).isInfix)

/-- Inside a further block comment the first asterisk and slash leave the reader in a comment. -/
theorem run_deep {last : Option Char} {t : Text} (h : StaysOpen last t) (depth : Nat) :
    ∃ m l, (Gap.block (depth + 1) last).run (t ++ ['*', '/']) = some (.block m l) := by
  induction t generalizing depth last with
  | nil =>
    by_cases hl : last = some '/'
    · subst hl
      exact ⟨_, _, rfl⟩
    · refine ⟨depth, none, ?_⟩
      simp [Gap.run, Gap.step, hl]
  | cons c t ih =>
    obtain ⟨hclose, htail⟩ := h.tail
    by_cases hl : last = some '/' ∧ c = '*'
    · have hstep : (Gap.block (depth + 1) last).step c = some (.block (depth + 1 + 1) none) := by
        simp [Gap.step, hl]
      rw [List.cons_append, Gap.run_cons_of_step hstep]
      exact ih htail.none (depth + 1)
    · have hstep : (Gap.block (depth + 1) last).step c = some (.block (depth + 1) (some c)) := by
        rw [Gap.step, if_neg hclose, if_neg hl]
      rw [List.cons_append, Gap.run_cons_of_step hstep]
      exact ih htail depth

/-- The first asterisk and slash end a block comment, unless it opens another. -/
theorem run_block {last : Option Char} {t : Text} (h : StaysOpen last t) :
    ¬['/', '*'] <:+: last.toList ++ (t ++ ['*']) ∧
        (Gap.block 0 last).run (t ++ ['*', '/']) = some .between ∨
      ['/', '*'] <:+: last.toList ++ (t ++ ['*']) ∧
        ∃ m l, (Gap.block 0 last).run (t ++ ['*', '/']) = some (.block m l) := by
  induction t generalizing last with
  | nil =>
    by_cases hl : last = some '/'
    · subst hl
      exact .inr ⟨⟨[], [], rfl⟩, 1, some '/', rfl⟩
    · refine .inl ⟨?_, by simp [Gap.run, Gap.step, hl]⟩
      intro hinner
      cases last with
      | none => exact absurd hinner (by decide)
      | some d =>
        have hd : '/' = d := by simpa [List.infix_cons_iff] using hinner
        exact hl (congrArg some hd.symm)
  | cons c t ih =>
    obtain ⟨hclose, htail⟩ := h.tail
    by_cases hl : last = some '/' ∧ c = '*'
    · -- A comment inside the comment takes the ending.
      have hstep : (Gap.block 0 last).step c = some (.block (0 + 1) none) := by simp [Gap.step, hl]
      have hinner : ['/', '*'] <:+: last.toList ++ (c :: t ++ ['*']) := by
        obtain ⟨rfl, rfl⟩ := hl
        exact ⟨[], t ++ ['*'], rfl⟩
      refine .inr ⟨hinner, ?_⟩
      rw [List.cons_append, Gap.run_cons_of_step hstep]
      exact run_deep htail.none 0
    · have hstep : (Gap.block 0 last).step c = some (.block 0 (some c)) := by
        rw [Gap.step, if_neg hclose, if_neg hl]
      have hinner : ['/', '*'] <:+: last.toList ++ (c :: t ++ ['*']) ↔
          ['/', '*'] <:+: c :: (t ++ ['*']) := by
        cases last with
        | none => rfl
        | some d =>
          have hd : ¬['/', '*'] <+: d :: c :: (t ++ ['*']) := by
            rintro ⟨v, hv⟩
            simp only [List.cons_append, List.cons.injEq] at hv
            exact hl ⟨by rw [hv.1], hv.2.1.symm⟩
          exact List.infix_cons_iff.trans (or_iff_right hd)
      have hrun : (Gap.block 0 last).run (c :: t ++ ['*', '/']) =
          (Gap.block 0 (some c)).run (t ++ ['*', '/']) := Gap.run_cons_of_step hstep _
      rw [hinner, hrun]
      exact ih htail

/-- A block comment up to its first asterisk and slash, before an empty line, is a gap exactly when
it opens no comment inside. -/
theorem isGap_block_iff {t : Text} (h : StaysOpen none t) :
    IsGap ('/' :: '*' :: (t ++ ['*', '/'] ++ "\n\n")) ↔ ¬['/', '*'] <:+: t ++ ['*', '/'] := by
  have hrun : Gap.between.run ('/' :: '*' :: (t ++ ['*', '/'] ++ "\n\n")) =
      ((Gap.block 0 none).run (t ++ ['*', '/'])).bind fun g => g.run "\n\n" :=
    Gap.run_append (.block 0 none) (t ++ ['*', '/']) "\n\n"
  have hinner : ['/', '*'] <:+: t ++ ['*', '/'] ↔ ['/', '*'] <:+: t ++ ['*'] := by
    have hlast : ¬['/', '*'] <:+ t ++ ['*'] ++ ['/'] := by
      rintro ⟨v, hv⟩
      have hend := congrArg List.getLast? hv
      simp at hend
    have hsplit : t ++ ['*', '/'] = t ++ ['*'] ++ ['/'] := by simp
    rw [hsplit, List.infix_concat_iff]
    exact or_iff_right hlast
  rw [hinner, IsGap, hrun]
  obtain ⟨hplain, hclosed⟩ | ⟨hnested, m, l, hopen⟩ := run_block h
  · rw [hclosed]
    exact iff_of_true rfl hplain
  · rw [hopen]
    refine iff_of_false ?_ (not_not_intro hnested)
    simp [Gap.run, Gap.step]

/-! ## The comments of a script -/

/-- An unterminated statement is a comment, line by line, unless a carriage return inside a line is
followed by more than a gap. -/
theorem isGap_renderUnterminated {t : Text}
    (h : ∀ line ∈ lines t, ∀ rest, behindLine? line = some rest → IsGap (rest ++ ['\n'])) :
    IsGap (Part.other (renderUnterminated t)).text := by
  have hlines (ls : List Text) :
      ls.flatMap (fun line => '\n' :: '-' :: '-' :: ' ' :: line) ++ ['\n'] =
        '\n' :: ls.flatMap fun line => '-' :: '-' :: (' ' :: line ++ ['\n']) := by
    induction ls with
    | nil => rfl
    | cons line ls ih =>
      rw [List.flatMap_cons, List.append_assoc, ih]
      simp
  have hregroup (title : Text) (ls : List Text) :
      title ++ ls.flatMap (fun line => '\n' :: '-' :: '-' :: ' ' :: line) ++ ['\n', '\n'] =
        (title ++ ['\n']) ++
          (ls.flatMap (fun line => '-' :: '-' :: (' ' :: line ++ ['\n'])) ++ ['\n']) := by
    have hend : ['\n', '\n'] = ['\n'] ++ ['\n'] := rfl
    rw [hend, List.append_assoc, ← List.append_assoc _ ['\n'], hlines]
    simp
  have htext : (Part.other (renderUnterminated t)).text =
      ("-- unterminated statement kept as comment:" ++ ['\n']) ++
        ((lines t).flatMap (fun line => '-' :: '-' :: (' ' :: line ++ ['\n'])) ++ ['\n']) :=
    hregroup "-- unterminated statement kept as comment:" (lines t)
  have hfeed : IsGap ['\n'] := rfl
  rw [htext]
  refine .append (by decide) (.append (.flatMap fun line hline => ?_) hfeed)
  refine (isGap_line_iff (' ' :: line) (u := []) rfl).mpr fun rest hrest => ?_
  exact h line hline rest hrest

theorem trimEnd_no_feed {t : Text} (closed : ∀ u v, t = u ++ '\n' :: v → v = []) :
    '\n' ∉ trimEnd t := by
  intro hmem
  obtain ⟨u, v, hsplit⟩ := List.append_of_mem hmem
  obtain ⟨tail, -, ht⟩ := exists_trimEndWhile Unicode.isBlank t
  rw [← trimEnd, hsplit, List.append_assoc, List.cons_append] at ht
  have hnil := closed u (v ++ tail) ht
  obtain rfl := (List.append_eq_nil_iff.mp hnil).1
  have htrim := trimEnd_trimEnd t
  rw [hsplit, trimEnd_append_blank rfl] at htrim
  have hle := (List.dropWhile_suffix Unicode.isBlank (l := u.reverse)).length_le
  have hlen := congrArg List.length htrim
  rw [trimEnd, trimEndWhile, List.length_reverse, List.length_append] at hlen
  rw [List.length_reverse] at hle
  simp only [List.length_cons, List.length_nil] at hlen
  omega

/-- A copied comment that begins with two dashes is a gap exactly when what stands behind its first
line is one, a carriage return ending the line too. -/
theorem isGap_dashes_iff (t : Text) :
    IsGap (Part.other ('-' :: '-' :: t)).text ↔
      ∀ rest, behindLine? t = some rest → IsGap (Part.other rest).text :=
  isGap_line_iff t (u := ['\n']) rfl

/-- How a comment and nothing else is copied: without the line feed and the blanks at its end, and
a block comment as it stands. -/
theorem renderComment?_of_isComment {t : Text} (h : Statement.IsComment t) :
    (∃ u, renderComment? t = some ('-' :: '-' :: u) ∧ '\n' ∉ u) ∨
      ∃ u, t = '/' :: '*' :: (u ++ ['*', '/']) ∧ renderComment? t = some t ∧ StaysOpen none u := by
  cases h with
  | @line t closed =>
    have hdash : Unicode.isBlank '-' = false := by decide
    have htrim : trim ('-' :: '-' :: t) = '-' :: '-' :: trimEnd t := trimEnd_solid hdash ['-'] t
    refine .inl ⟨trimEnd t, ?_, trimEnd_no_feed closed⟩
    rw [renderComment?, htrim]
    rfl
  | @block t plain ends closed =>
    obtain ⟨u, rfl⟩ := ends
    have hslash : Unicode.isBlank '/' = false := by decide
    have htrim : trim ('/' :: '*' :: (u ++ ['*', '/'])) = '/' :: '*' :: (u ++ ['*', '/']) := by
      have hsolid := trim_of_solid hslash hslash ('*' :: (u ++ ['*']))
      simpa using hsolid
    refine .inr ⟨u, rfl, ?_, ?_⟩
    · have hbang : startsWith "/*!" ('/' :: '*' :: (u ++ ['*', '/'])) = false := plain
      rw [renderComment?, htrim, hbang]
      rfl
    · rintro ⟨a, b, hab⟩
      have hsplit : u ++ ['*', '/'] = a ++ '*' :: '/' :: (b ++ ['/']) := by
        have happend := congrArg (· ++ ['/']) hab
        simpa using happend.symm
      exact List.append_ne_nil_of_right_ne_nil b (List.cons_ne_nil '/' []) (closed _ _ hsplit)

/-- What a script holds for an unterminated statement and for a comment is nothing but comments and
blanks for PostgreSQL, with the empty line behind it, so that nothing of it runs and nothing behind
it is lost. A carriage return inside a line may be followed by no more than comments and blanks, and
a block comment may open no other. -/
theorem comments_are_gaps (t : Text) (chunks : List Octets) :
    ((∀ line ∈ lines t, ∀ rest, behindLine? line = some rest → IsGap (rest ++ ['\n'])) →
      IsGap (Part.other (renderUnterminated t)).text) ∧
    (∀ sql, renderComment? t = some sql → startsWith "--" sql = true →
      (IsGap (Part.other sql).text ↔
        ∀ rest, behindLine? sql = some rest → IsGap (Part.other rest).text)) ∧
    ∀ s position, (s, position) ∈ (Reader.readAll ⟨chunks, 0, 0⟩).1 →
      Scan.start.endsInComment s.octets = true → ∃ sql, renderComment? s.decode.1 = some sql ∧
        (startsWith "--" sql = true ∧ '\n' ∉ sql ∨
          startsWith "/*" sql = true ∧
            (IsGap (Part.other sql).text ↔ ¬("/*" : Text) <:+: sql.drop 2)) := by
  refine ⟨isGap_renderUnterminated, fun sql _ hdashes => ?_, fun s position hs hcomment => ?_⟩
  · obtain ⟨u, hu⟩ := Option.isSome_iff_exists.mp hdashes
    obtain rfl := eq_append_of_after? hu
    exact isGap_dashes_iff u
  · obtain ⟨u, hcopy, hfeed⟩ | ⟨u, htext, hcopy, hopen⟩ :=
      renderComment?_of_isComment (Reader.isComment_of_endsInComment hs hcomment)
    · exact ⟨_, hcopy, .inl ⟨rfl, by simpa using hfeed⟩⟩
    · refine ⟨_, hcopy, .inr ?_⟩
      rw [htext]
      exact ⟨rfl, isGap_block_iff hopen⟩

/-- An unterminated statement on lines that end with a carriage return and a line feed, and two
comments of a dump, one with an opening of a block comment behind its dashes. -/
theorem comments_are_gaps_lines :
    IsGap (Part.other (renderUnterminated "SELECT ';\r\n, 2")).text ∧
      IsGap (Part.other "-- a /*").text ∧
      ∃ s, (s, 17) ∈ (Reader.readAll ⟨[.ofText "-- a /*\r\n", .ofText "/*- b;*/ SELECT"], 0, 0⟩).1 ∧
        renderComment? s.decode.1 = some ("/*- b;*/" : Text) ∧ IsGap (Part.other "/*- b;*/").text := by
  obtain ⟨hcut, -, hcomments⟩ := comments_are_gaps "SELECT ';\r\n, 2"
    [.ofText "-- a /*\r\n", .ofText "/*- b;*/ SELECT"]
  obtain ⟨-, hdashes, -⟩ := comments_are_gaps "-- a /*\r\n" []
  have hnone : ∀ line ∈ lines "SELECT ';\r\n, 2", behindLine? line = none := by decide +kernel
  have hread : (Reader.readAll ⟨[.ofText "-- a /*\r\n", .ofText "/*- b;*/ SELECT"], 0, 0⟩).1 =
      [(⟨.ofText "-- a /*\r\n", 0, 0, true⟩, 9), (⟨.ofText "/*- b;*/", 1, 9, true⟩, 17),
        (⟨.ofText "SELECT", 2, 18, false⟩, 24)] := by
    decide +kernel
  have hmem : (⟨.ofText "/*- b;*/", 1, 9, true⟩, 17) ∈
      (Reader.readAll ⟨[.ofText "-- a /*\r\n", .ofText "/*- b;*/ SELECT"], 0, 0⟩).1 := by
    rw [hread]
    exact List.mem_cons_of_mem _ List.mem_cons_self
  obtain ⟨sql, hsql, hform⟩ := hcomments _ _ hmem (by decide +kernel)
  have hcopy : renderComment? (Encoding.decode (.ofText "/*- b;*/")).1 =
      some ("/*- b;*/" : Text) := by
    decide +kernel
  obtain rfl := Option.some.inj (hsql.symm.trans hcopy)
  refine ⟨hcut fun line hline rest hrest => ?_, ?_, _, hmem, hcopy, ?_⟩
  · rw [hnone line hline] at hrest
    cases hrest
  · refine (hdashes _ (by decide +kernel) rfl).mpr fun rest hrest => ?_
    cases hrest
  · obtain ⟨hdash, -⟩ | ⟨-, hiff⟩ := hform
    · cases hdash
    · exact hiff.mpr (by decide)

/-- A carriage return lets the rest of an unterminated statement, or of a comment, run, and a block
comment that opens another takes what is written behind it. -/
theorem comments_run_or_swallow :
    Gap.between.run (Part.other (renderUnterminated "SELECT 1\rDROP TABLE t")).text = none ∧
      (Reader.readAll ⟨[.ofText "/* /* */", .ofText "-- a\rDROP TABLE t;"], 0, 0⟩).1 =
        [(⟨.ofText "/* /* */", 0, 0, true⟩, 8), (⟨.ofText "-- a\rDROP TABLE t;", 1, 8, true⟩, 26)] ∧
      renderComment? "/* /* */" = some ("/* /* */" : Text) ∧
      Gap.between.run (Part.other "/* /* */").text = some (.block 0 (some '\n')) ∧
      renderComment? "-- a\rDROP TABLE t;" = some ("-- a\rDROP TABLE t;" : Text) ∧
      Gap.between.run (Part.other "-- a\rDROP TABLE t;").text = none := by
  decide +kernel

end SqlDump.Postgres
