import SqlDump.Proofs.Dump.Opening
import SqlDump.Proofs.Segment.Independence
import SqlDump.Proofs.Text.Decoding

/-!
# Statements that are comments

A comment that begins a statement ends it: at the line feed, behind the asterisk and slash, or with
the input where it runs to the end of the line. The lexer finds that octet by octet. The reader of
texts looks for the ends of comments in the decoded statement, with blanks of its own and no memory
of the lexer, and finds the same comment and nothing behind it.

Main statements: `Reader.readAll_cases`, a whole statement ends with its comment or at a semicolon;
`Scan.eq_comment_of_endsInComment`, the octets of a statement that ends with its comment;
`Reader.classify_of_endsInComment`, such a statement is a comment for the reader of texts.
-/

namespace SqlDump

namespace Scan

/-- Whether an octet closes the comment that begins the statement. -/
def closesLeading : Scan → UInt8 → Bool
  | .dashes leading, b => leading && b == lineFeed
  | .lineComment leading, b => leading && b == lineFeed
  | .blockComment leading _ star, b => leading && star && b == slash
  | _, _ => false

/-- Whether octets are the rest of a statement that ends with the comment that begins it, closed by
the last of them or running to the end of the input. -/
def endsInComment (s : Scan) : Octets → Bool
  | [] => s.isComplete
  | b :: bs =>
    match s.step b with
    | none => s.closesLeading b && bs.isEmpty
    | some t => t.endsInComment bs

/-- Whether the statement may still be a comment and nothing else. -/
def isLeading : Scan → Bool
  | .plain begun => !begun
  | .opener _ leading => leading
  | .dashes leading => leading
  | .quoted _ _ => false
  | .backtick => false
  | .lineComment leading => leading
  | .blockComment leading _ _ => leading

variable {s t : Scan} {b : UInt8} {bs rest : Octets}

theorem endsInComment_of_none (hstep : s.step b = none) (h : s.endsInComment (b :: bs) = true) :
    s.closesLeading b = true ∧ bs = [] := by
  rw [endsInComment, hstep] at h
  obtain ⟨hclose, hbs⟩ := Bool.and_eq_true_iff.mp h
  exact ⟨hclose, List.isEmpty_iff.mp hbs⟩

theorem endsInComment_of_some (hstep : s.step b = some t) (bs : Octets) :
    s.endsInComment (b :: bs) = t.endsInComment bs := by
  rw [endsInComment, hstep]

theorem isLeading_of_stepPlain {begun : Bool} (h : stepPlain begun b = some t)
    (ht : t.isLeading = true) : begun = false := by
  unfold stepPlain at h
  repeat' split at h
  all_goals cases h
  all_goals simp_all [isLeading]

theorem isLeading_of_closeComment {leading : Bool} (h : closeComment leading = some t) :
    t.isLeading = false := by
  cases leading
  · cases h
    rfl
  · cases h

/-- What is no leading comment does not become one. -/
theorem isLeading_of_step (h : s.step b = some t) (ht : t.isLeading = true) :
    s.isLeading = true := by
  have closed {leading : Bool} (h : closeComment leading = some t) : False := by
    rw [isLeading_of_closeComment h] at ht
    cases ht
  have begun (h : stepPlain true b = some t) : False := by
    have hfalse := isLeading_of_stepPlain h ht
    cases hfalse
  cases s with
  | plain begun =>
    rw [isLeading, isLeading_of_stepPlain h ht]
    rfl
  | opener first leading =>
    simp only [step] at h
    split at h
    · cases h
      exact ht
    split at h
    · cases h
      exact ht
    · exact (begun h).elim
  | dashes leading =>
    simp only [step] at h
    split at h
    · cases h
      exact ht
    split at h
    · exact (closed h).elim
    · exact (begun h).elim
  | quoted quote escaped =>
    simp only [step] at h
    repeat' split at h
    all_goals cases h; cases ht
  | backtick =>
    simp only [step] at h
    split at h <;> cases h <;> cases ht
  | lineComment leading =>
    simp only [step] at h
    split at h
    · exact (closed h).elim
    · cases h
      exact ht
  | blockComment leading fresh star =>
    simp only [step] at h
    split at h
    · exact (closed h).elim
    · cases h
      exact (Bool.and_eq_true_iff.mp ht).1

theorem isLeading_of_closesLeading (h : s.closesLeading b = true) : s.isLeading = true := by
  cases s <;> simp_all [closesLeading, isLeading]

theorem isLeading_of_endsInComment (h : s.endsInComment bs = true) : s.isLeading = true := by
  induction bs generalizing s with
  | nil => cases s <;> simp_all [endsInComment, isComplete, isLeading]
  | cons b bs ih =>
    cases hstep : s.step b with
    | none => exact isLeading_of_closesLeading (endsInComment_of_none hstep h).1
    | some t =>
      rw [endsInComment_of_some hstep] at h
      exact isLeading_of_step hstep (ih h)

/-- An octet that ends a statement is a semicolon or closes the comment that begins it. -/
theorem semicolon_or_closesLeading (h : s.step b = none) :
    b = semicolon ∨ s.closesLeading b = true := by
  have plain {begun : Bool} (h : stepPlain begun b = none) : b = semicolon := by
    unfold stepPlain at h
    repeat' split at h
    all_goals first | assumption | cases h
  have closed {leading : Bool} (h : closeComment leading = none) : leading = true := by
    cases leading
    · cases h
    · rfl
  cases s with
  | plain begun => exact .inl (plain h)
  | opener first leading =>
    simp only [step] at h
    repeat' split at h
    · cases h
    · cases h
    · exact .inl (plain h)
  | dashes leading =>
    simp only [step] at h
    split at h
    · cases h
    split at h
    · next hb => exact .inr (by simp [closesLeading, closed h, hb])
    · exact .inl (plain h)
  | quoted quote escaped =>
    simp only [step] at h
    repeat' split at h
    all_goals cases h
  | backtick =>
    simp only [step] at h
    split at h <;> cases h
  | lineComment leading =>
    simp only [step] at h
    split at h
    · next hb => exact .inr (by simp [closesLeading, closed h, hb])
    · cases h
  | blockComment leading fresh star =>
    simp only [step] at h
    split at h
    · next hb =>
      have hleading := (Bool.and_eq_true_iff.mp (closed h)).1
      exact .inr (by simp [closesLeading, hleading, hb.1, hb.2])
    · cases h

/-- Octets that finish a statement go no further than the octet that ends it. -/
theorem Finishes.eq_nil_of_step (h : s.Finishes (b :: bs)) (hstep : s.step b = none) : bs = [] := by
  obtain ⟨body, d, t, hbs, hfeed, -⟩ | ⟨t, hfeed, -⟩ := h
  · cases body with
    | nil => exact (List.cons.inj hbs).2
    | cons c body =>
      obtain ⟨rfl, -⟩ := List.cons.inj hbs
      rw [feed, hstep] at hfeed
      cases hfeed
  · rw [feed, hstep] at hfeed
    cases hfeed

theorem Finishes.tail (h : s.Finishes (b :: bs)) (hstep : s.step b = some t) : t.Finishes bs := by
  obtain ⟨body, d, u, hbs, hfeed, hend⟩ | ⟨u, hfeed, hcomplete⟩ := h
  · cases body with
    | nil =>
      obtain ⟨rfl, -⟩ := List.cons.inj hbs
      cases hfeed
      rw [hstep] at hend
      cases hend
    | cons c body =>
      obtain ⟨rfl, rfl⟩ := List.cons.inj hbs
      rw [feed, hstep] at hfeed
      exact .inl ⟨body, d, u, rfl, hfeed, hend⟩
  · rw [feed, hstep] at hfeed
    exact .inr ⟨u, hfeed, hcomplete⟩

/-- A whole statement ends with the comment that begins it or at a semicolon. -/
theorem Finishes.cases (h : s.Finishes bs) :
    s.endsInComment bs = true ∨ bs.getLast? = some semicolon := by
  induction bs generalizing s with
  | nil =>
    obtain ⟨body, b, t, hbs, -⟩ | ⟨t, hfeed, hcomplete⟩ := h
    · exact absurd hbs.symm (List.append_ne_nil_of_right_ne_nil body (List.cons_ne_nil b []))
    · cases hfeed
      exact .inl hcomplete
  | cons b bs ih =>
    cases hstep : s.step b with
    | none =>
      obtain rfl := h.eq_nil_of_step hstep
      obtain rfl | hclose := semicolon_or_closesLeading hstep
      · exact .inr rfl
      · exact .inl (by simp [endsInComment, hstep, hclose])
    | some t =>
      rw [endsInComment_of_some hstep]
      obtain hcomment | hlast := ih (h.tail hstep)
      · exact .inl hcomment
      · cases bs with
        | nil => cases hlast
        | cons d bs => exact .inr (by rwa [List.getLast?_cons_cons])

/-! ## The octets of a comment -/

/-- A line comment goes no further than its first line feed. -/
theorem line_closed {leading : Bool} {x : Octets}
    (h : (lineComment leading).endsInComment (x ++ lineFeed :: rest) = true) : rest = [] := by
  have hleading : leading = true := isLeading_of_endsInComment h
  subst hleading
  induction x with
  | nil => exact (endsInComment_of_none rfl h).2
  | cons b x ih =>
    rw [List.cons_append] at h
    by_cases hb : b = lineFeed
    · subst hb
      have hnil := (endsInComment_of_none rfl h).2
      exact absurd hnil (List.append_ne_nil_of_right_ne_nil x (List.cons_ne_nil lineFeed rest))
    · have hstep : (lineComment true).step b = some (.lineComment true) := if_neg hb
      rw [endsInComment_of_some hstep] at h
      exact ih h

/-- A block comment goes no further than its first asterisk and slash. -/
theorem block_closed {leading fresh star : Bool} {x : Octets}
    (h : (blockComment leading fresh star).endsInComment (x ++ asterisk :: slash :: rest) = true) :
    rest = [] := by
  induction x generalizing leading fresh star with
  | nil =>
    have hleading : leading = true := isLeading_of_endsInComment h
    subst hleading
    have hstar : (blockComment true fresh star).step asterisk =
        some (.blockComment true false true) := by
      cases fresh <;> cases star <;> rfl
    rw [List.nil_append, endsInComment_of_some hstar] at h
    exact (endsInComment_of_none rfl h).2
  | cons b x ih =>
    rw [List.cons_append] at h
    cases hstep : (blockComment leading fresh star).step b with
    | none =>
      have hnil := (endsInComment_of_none hstep h).2
      exact absurd hnil (List.append_ne_nil_of_right_ne_nil x (List.cons_ne_nil asterisk _))
    | some t =>
      rw [endsInComment_of_some hstep] at h
      simp only [step] at hstep
      split at hstep
      · have hfalse := isLeading_of_closeComment hstep
        rw [isLeading_of_endsInComment h] at hfalse
        cases hfalse
      · cases hstep
        exact ih h

/-- A block comment ends behind an asterisk and a slash. -/
theorem block_ends {leading fresh star : Bool}
    (h : (blockComment leading fresh star).endsInComment bs = true) :
    ∃ x, (if star then asterisk :: bs else bs) = x ++ [asterisk, slash] := by
  induction bs generalizing leading fresh star with
  | nil => cases h
  | cons b bs ih =>
    cases hstep : (blockComment leading fresh star).step b with
    | none =>
      obtain ⟨hclose, rfl⟩ := endsInComment_of_none hstep h
      simp only [closesLeading, Bool.and_eq_true, beq_iff_eq] at hclose
      obtain ⟨⟨-, rfl⟩, rfl⟩ := hclose
      exact ⟨[], rfl⟩
    | some t =>
      rw [endsInComment_of_some hstep] at h
      simp only [step] at hstep
      split at hstep
      · have hfalse := isLeading_of_closeComment hstep
        rw [isLeading_of_endsInComment h] at hfalse
        cases hfalse
      · cases hstep
        obtain ⟨x, hx⟩ := ih h
        have hbs : b :: bs = (if b == asterisk then x else b :: x) ++ [asterisk, slash] := by
          by_cases hb : b = asterisk
          · simpa [hb] using hx
          · simpa [hb] using hx
        rw [hbs]
        cases star
        · exact ⟨_, rfl⟩
        · exact ⟨asterisk :: _, rfl⟩

/-- What begins a statement with another octet than a dash or a slash is no comment. -/
theorem not_endsInComment_of_stepPlain (hstep : s.step b = stepPlain true b)
    (hclose : s.closesLeading b = false) : s.endsInComment (b :: bs) = false := by
  rw [Bool.eq_false_iff]
  intro h
  cases hplain : stepPlain true b with
  | none =>
    rw [(endsInComment_of_none (hstep.trans hplain) h).1] at hclose
    cases hclose
  | some t =>
    rw [endsInComment_of_some (hstep.trans hplain)] at h
    cases isLeading_of_stepPlain hplain (isLeading_of_endsInComment h)

/-- Behind two dashes that open a comment the lexer is in the comment, whatever stands there. -/
theorem lineComment_of_dashes (h : (dashes true).endsInComment bs = true) :
    (lineComment true).endsInComment bs = true := by
  cases bs with
  | nil => rfl
  | cons b bs =>
    by_cases hb : b = 0x20 ∨ b = 0x09 ∨ b = 0x0D ∨ b = lineFeed
    · obtain rfl | rfl | rfl | rfl := hb
      all_goals exact h
    · simp only [not_or] at hb
      have hstep : (dashes true).step b = stepPlain true b := by simp [step, hb]
      rw [not_endsInComment_of_stepPlain hstep (by simp [closesLeading, hb])] at h
      cases h

/-- The octets of a statement that ends with its comment: two dashes, or a slash and an asterisk,
and the comment that they open. -/
theorem eq_comment_of_endsInComment (solid : bs.Solid) (h : start.endsInComment bs = true) :
    (∃ inside, bs = dash :: dash :: inside ∧ (lineComment true).endsInComment inside = true) ∨
      ∃ inside, bs = slash :: asterisk :: inside ∧
        (blockComment true true false).endsInComment inside = true := by
  obtain ⟨b, rest, rfl, hb⟩ := solid
  have hopener : b = dash ∨ b = slash := by
    by_contra hne
    have hstep : start.step b = stepPlain true b := by simp [start, step, stepPlain, hb, hne]
    rw [not_endsInComment_of_stepPlain hstep rfl] at h
    cases h
  have hsecond {first : UInt8} (h : (opener first true).endsInComment rest = true) :
      ∃ d inside, rest = d :: inside ∧ (first = dash ∧ d = dash ∨ first = slash ∧ d = asterisk) := by
    cases rest with
    | nil => cases h
    | cons d inside =>
      refine ⟨d, inside, rfl, ?_⟩
      by_contra hne
      simp only [not_or] at hne
      have hstep : (opener first true).step d = stepPlain true d := by simp [step, hne]
      rw [not_endsInComment_of_stepPlain hstep rfl] at h
      cases h
  obtain rfl | rfl := hopener
  · obtain ⟨d, inside, rfl, ⟨-, rfl⟩ | ⟨hfalse, -⟩⟩ := hsecond h
    · exact .inl ⟨inside, rfl, lineComment_of_dashes h⟩
    · cases hfalse
  · obtain ⟨d, inside, rfl, ⟨hfalse, -⟩ | ⟨-, rfl⟩⟩ := hsecond h
    · cases hfalse
    · exact .inr ⟨inside, rfl, h⟩

end Scan

/-- What follows the first occurrence of a mark stands behind an occurrence. -/
theorem Text.eq_append_of_afterFirst? {mark t v : Text} (h : afterFirst? mark t = some v) :
    ∃ u, t = u ++ (mark ++ v) := by
  induction t with
  | nil =>
    refine ⟨[], ?_⟩
    rw [List.nil_append]
    exact eq_append_of_after? h
  | cons c t ih =>
    rw [afterFirst?] at h
    split at h
    · next hmark =>
      obtain rfl := Option.some.inj h
      refine ⟨[], ?_⟩
      rw [List.nil_append]
      exact eq_append_of_after? hmark
    · obtain ⟨u, rfl⟩ := ih h
      exact ⟨c :: u, rfl⟩

namespace Statement

open Text

/-- A text that is one comment: to the end of its only line, or up to the first asterisk and slash
and not conditional. -/
inductive IsComment : Text → Prop
  | line {t : Text} (closed : ∀ u v, t = u ++ '\n' :: v → v = []) : IsComment ('-' :: '-' :: t)
  | block {t : Text} (plain : startsWith "!" t = false) (ends : ∃ u, t = u ++ ['*', '/'])
      (closed : ∀ u v, t = u ++ '*' :: '/' :: v → v = []) : IsComment ('/' :: '*' :: t)

variable {t : Text}

theorem bodyOf_nil : bodyOf [] = [] := by
  rw [bodyOf_eq]
  rfl

/-- The reader of texts finds nothing in a comment and nothing behind it. -/
theorem IsComment.bodyOf_eq_nil (h : IsComment t) : bodyOf t = [] := by
  cases h with
  | @line t closed =>
    have hstart : trimStart ('-' :: '-' :: t) = '-' :: '-' :: t := rfl
    rw [bodyOf_eq, hstart]
    cases hd : t.dropWhile (· != '\n') with
    | nil => simp only [hd]
    | cons c v =>
      have hc : c = '\n' := by
        have hhead := List.head?_dropWhile_not (· != '\n') t
        simpa [hd] using hhead
      have ht := (List.takeWhile_append_dropWhile (p := (· != '\n')) (l := t)).symm
      rw [hd, hc] at ht
      simp only [hd]
      rw [closed _ v ht]
      exact bodyOf_nil
  | @block t plain _ closed =>
    have hstart : trimStart ('/' :: '*' :: t) = '/' :: '*' :: t := rfl
    rw [bodyOf_eq, hstart]
    simp only [plain, Bool.false_eq_true, if_false]
    cases ha : afterFirst? "*/" t with
    | none => rfl
    | some v =>
      obtain ⟨u, hu⟩ := eq_append_of_afterFirst? ha
      rw [closed u v hu]
      exact bodyOf_nil

theorem IsComment.classify_eq (h : IsComment t) : classify t = (.comment, []) := by
  rw [classify, h.bodyOf_eq_nil]
  rfl

end Statement

namespace Encoding.Reads

open Statement (IsComment)

variable {e : Encoding} {bs : Octets} {t : Text}

theorem nil_iff {y : Octets} {v : Text} (h : e.Reads y v) : v = [] ↔ y = [] := by
  constructor
  · rintro rfl
    rw [← h.octets, octets_nil]
  · rintro rfl
    exact h.unique (.nil e)

/-- The octets of a text in two parts. -/
theorem split {u v : Text} (h : e.Reads bs (u ++ v)) :
    ∃ x y, bs = x ++ y ∧ e.Reads x u ∧ e.Reads y v := by
  refine ⟨e.octets u, e.octets v, ?_, ⟨rfl, ?_⟩, rfl, ?_⟩
  · rw [← h.octets, octets_append]
  · intro he c hc
    exact h.narrow he c (List.mem_append_left _ hc)
  · intro he c hc
    exact h.narrow he c (List.mem_append_right _ hc)

/-- The octets of a text that begins with a character of ASCII. -/
theorem uncons_ascii {c : Char} {v : Text} (h : e.Reads bs (c :: v)) (hc : c.toNat < 0x80) :
    ∃ y, bs = UInt8.ofNat c.toNat :: y ∧ e.Reads y v := by
  refine ⟨e.octets v, ?_, h.tail⟩
  rw [← h.octets, octets_cons, e.octets_ascii hc]
  rfl

/-- A statement that ends with its comment is that comment as a text, however it was decoded. -/
theorem isComment (h : e.Reads bs t) (solid : bs.Solid)
    (hcomment : Scan.start.endsInComment bs = true) : IsComment t := by
  obtain ⟨inside, rfl, hline⟩ | ⟨inside, rfl, hblock⟩ :=
    Scan.eq_comment_of_endsInComment solid hcomment
  · obtain ⟨w, rfl, hw⟩ := h.cons_ascii (by decide)
    obtain ⟨t, rfl, ht⟩ := hw.cons_ascii (by decide)
    refine .line ?_
    rintro u v rfl
    obtain ⟨x, y, rfl, -, hclose⟩ := ht.split
    obtain ⟨y, rfl, hv⟩ := hclose.uncons_ascii (by decide)
    exact hv.nil_iff.mpr (Scan.line_closed hline)
  · obtain ⟨w, rfl, hw⟩ := h.cons_ascii (by decide)
    obtain ⟨t, rfl, ht⟩ := hw.cons_ascii (by decide)
    refine .block ?_ ?_ ?_
    · rw [Bool.eq_false_iff]
      intro hbang
      obtain ⟨v, hv⟩ := Option.isSome_iff_exists.mp hbang
      obtain rfl := Text.eq_append_of_after? hv
      obtain ⟨y, rfl, -⟩ := ht.uncons_ascii (by decide)
      have hstep : (Scan.blockComment true true false).step Scan.exclamation =
          some (.blockComment false false false) := rfl
      have hleading := (Scan.endsInComment_of_some hstep y).symm.trans hblock
      cases Scan.isLeading_of_endsInComment hleading
    · obtain ⟨x, rfl⟩ := Scan.block_ends hblock
      obtain ⟨u, v, rfl, -, hclose⟩ := ht.split_ascii (by decide)
      obtain ⟨v, rfl, hv⟩ := hclose.cons_ascii (by decide)
      obtain rfl := hv.nil_iff.mpr rfl
      exact ⟨u, rfl⟩
    · rintro u v rfl
      obtain ⟨x, y, rfl, -, hclose⟩ := ht.split
      obtain ⟨y, rfl, hslash⟩ := hclose.uncons_ascii (by decide)
      obtain ⟨y, rfl, hv⟩ := hslash.uncons_ascii (by decide)
      exact hv.nil_iff.mpr (Scan.block_closed hblock)

end Encoding.Reads

namespace Segment

variable {s : Segment} {index offset : Nat} {bs : Octets}

theorem solid_of_mem (hs : s ∈ fromOffset index offset bs) : s.octets.Solid :=
  (fromOffset_tiles index offset bs).solid hs

/-- What the lexer makes of the octets of a whole segment alone. -/
theorem finishes_of_mem (hs : s ∈ fromOffset index offset bs) (hwhole : s.terminated = true) :
    Scan.start.Finishes s.octets := by
  obtain ⟨before, after, hsplit⟩ := List.append_of_mem hs
  obtain ⟨-, -, -, -, -, hfinishes, -⟩ := split_fromOffset hsplit hwhole
  exact hfinishes

end Segment

/-- A whole statement of the input ends with the comment that begins it or at a semicolon. -/
theorem Reader.readAll_cases {chunks : List Octets} {s : Segment} {position : Nat}
    (hs : (s, position) ∈ (readAll ⟨chunks, 0, 0⟩).1) (hwhole : s.terminated = true) :
    Scan.start.endsInComment s.octets = true ∨ s.octets.getLast? = some Scan.semicolon := by
  rw [readAll_eq] at hs
  obtain ⟨t, ht, heq⟩ := List.mem_map.mp hs
  obtain ⟨rfl, -⟩ := Prod.mk.inj heq
  exact (Segment.finishes_of_mem ht hwhole).cases

/-- A statement that ends with the comment that begins it is that comment as a text. -/
theorem Reader.isComment_of_endsInComment {chunks : List Octets} {s : Segment} {position : Nat}
    (hs : (s, position) ∈ (readAll ⟨chunks, 0, 0⟩).1)
    (hcomment : Scan.start.endsInComment s.octets = true) : Statement.IsComment s.decode.1 := by
  rw [readAll_eq] at hs
  obtain ⟨t, ht, heq⟩ := List.mem_map.mp hs
  obtain ⟨rfl, -⟩ := Prod.mk.inj heq
  exact (Encoding.decode_reads t.octets).isComment (Segment.solid_of_mem ht) hcomment

/-- A statement that ends with the comment that begins it is a comment for the reader of texts,
whether its octets are UTF-8 or not: no body is left behind its comments, and it is of no other
kind. -/
theorem Reader.classify_of_endsInComment {chunks : List Octets} {s : Segment} {position : Nat}
    (hs : (s, position) ∈ (readAll ⟨chunks, 0, 0⟩).1)
    (hcomment : Scan.start.endsInComment s.octets = true) :
    Statement.bodyOf s.decode.1 = [] ∧ Statement.classify s.decode.1 = (.comment, []) := by
  have htext := isComment_of_endsInComment hs hcomment
  exact ⟨htext.bodyOf_eq_nil, htext.classify_eq⟩

/-- A block comment with a slash right behind its opening, which closes nothing, and an octet that
is no UTF-8. -/
def slashedComment : Octets := Octets.ofText "/*/" ++ 0xE9 :: Octets.ofText "; '*/"

theorem Reader.classify_of_endsInComment_latin1 :
    ∃ chunks s, (s, 19) ∈ (readAll ⟨chunks, 0, 0⟩).1 ∧ s.octets = slashedComment ∧
      s.decode.2 = .latin1 ∧ Scan.start.endsInComment s.octets = true ∧
      Statement.bodyOf s.decode.1 = [] ∧ Statement.classify s.decode.1 = (.comment, []) := by
  have hcut : (readAll ⟨[.ofText "SELECT 1;\n/*", slashedComment.drop 2, .ofText "--\r\n-- a"],
      0, 0⟩).1 =
      [(⟨.ofText "SELECT 1;", 0, 0, true⟩, 9), (⟨slashedComment, 1, 10, true⟩, 19),
        (⟨.ofText "--\r\n", 2, 19, true⟩, 23), (⟨.ofText "-- a", 3, 23, true⟩, 27)] := by
    decide +kernel
  have hmem : (⟨slashedComment, 1, 10, true⟩, 19) ∈ (readAll ⟨[.ofText "SELECT 1;\n/*",
      slashedComment.drop 2, .ofText "--\r\n-- a"], 0, 0⟩).1 := by
    rw [hcut]
    exact List.mem_cons_of_mem _ List.mem_cons_self
  have hcomment : Scan.start.endsInComment slashedComment = true := by decide +kernel
  have hlatin1 : (Encoding.decode slashedComment).2 = .latin1 := by decide +kernel
  exact ⟨_, _, hmem, rfl, hlatin1, hcomment, classify_of_endsInComment hmem hcomment⟩

end SqlDump
