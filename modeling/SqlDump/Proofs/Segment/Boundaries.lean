import SqlDump.Proofs.Segment.Lexemes
import SqlDump.Proofs.Segment.Reading

/-!
# Statements by their lexemes

The lexer goes octet by octet and has to remember what may become a comment. Here its statements are
compared with those that the lexemes of the input make up.

Main statements: `Scan.cut_lexeme`, what one lexeme does to the lexer; `Lexed.fromOffset`, the
segments of an input are the statements of its lexemes; `Reader.readAll_lexed`, so are those of a
reader, for both readings of dashes.
-/

namespace SqlDump

namespace Scan

open Enclosure (Closes)

/-- The lexer behind an opener. -/
def inside (leading : Bool) : Enclosure → Scan
  | .single => .quoted quoteMark false
  | .double => .quoted doubleQuote false
  | .backticks => .backtick
  | .line => .lineComment leading
  | .block => .blockComment leading true false

/-- The cut once a comment is closed: here if the comment began the statement. -/
def cutBehind (leading : Bool) (taken rest : Octets) : Cut :=
  if leading then ⟨taken.reverse, true, rest⟩ else (plain true).cut taken rest

theorem cut_of_step {s t : Scan} {b : UInt8} (h : s.step b = some t) (taken bs : Octets) :
    s.cut taken (b :: bs) = t.cut (b :: taken) bs := by
  rw [cut, h]

theorem cut_of_closeComment {s : Scan} {b : UInt8} {leading : Bool}
    (h : s.step b = closeComment leading) (taken bs : Octets) :
    s.cut taken (b :: bs) = cutBehind leading (b :: taken) bs := by
  rw [cut, h]
  cases leading <;> rfl

/-- A blank behind two dashes makes no difference to the comment they open. -/
theorem cut_dashes {leading : Bool} {t : Octets} (h : Enclosure.line.Admits t) (taken : Octets) :
    (dashes leading).cut taken t = (lineComment leading).cut taken t := by
  cases t with
  | nil => rfl
  | cons b t =>
    have hb : Enclosure.isBreak b = true := h rfl b rfl
    simp only [Enclosure.isBreak, Bool.or_eq_true, beq_iff_eq] at hb
    have same : (dashes leading).step b = (lineComment leading).step b := by
      rcases hb with ((rfl | rfl) | rfl) | rfl <;> rfl
    rw [cut, cut, same]

theorem cut_opener {e : Enclosure} {t : Octets} (h : e.Admits t) (begun : Bool) (taken : Octets) :
    (plain begun).cut taken (e.opener ++ t) =
      (inside (!begun) e).cut (e.opener.reverse ++ taken) t := by
  cases e with
  | line => exact cut_dashes h _
  | _ => rfl

section Closing

variable {e : Enclosure} {t : Octets} (rest : Octets)

theorem cut_quoted {quote : UInt8} (he : e.escapes = true) (hq : e.closer = [quote])
    (hb : quote ≠ backslash) (h : e.Closes t) (taken : Octets) :
    (quoted quote false).cut taken (t ++ rest) = (plain true).cut (t.reverse ++ taken) rest := by
  induction h generalizing taken with
  | closer =>
    rw [hq]
    exact cut_of_step (by simp [step, hb]) taken rest
  | escape b _ _ ih =>
    have first : (quoted quote false).step backslash = some (.quoted quote true) := by simp [step]
    have second : (quoted quote true).step b = some (.quoted quote false) := by simp [step]
    rw [List.cons_append, List.cons_append, cut_of_step first, cut_of_step second, ih]
    simp
  | @content b _ plain inside _ ih =>
    have hx : b ≠ backslash := fun hx => plain ⟨he, hx⟩
    have hc : b ≠ quote := by
      rintro rfl
      exact inside (by simp [hq])
    have hstep : (quoted quote false).step b = some (.quoted quote false) := by
      simp [step, hx, hc]
    rw [List.cons_append, cut_of_step hstep, ih]
    simp

theorem cut_backtick (h : Enclosure.backticks.Closes t) (taken : Octets) :
    backtick.cut taken (t ++ rest) = (plain true).cut (t.reverse ++ taken) rest := by
  induction h generalizing taken with
  | closer => exact cut_of_step rfl taken rest
  | escape _ escapes => cases escapes
  | @content b _ _ inside _ ih =>
    have hb : b ≠ backtickMark := by
      rintro rfl
      exact inside (by simp [Enclosure.closer])
    have hstep : backtick.step b = some .backtick := if_neg hb
    rw [List.cons_append, cut_of_step hstep, ih]
    simp

theorem cut_lineComment {leading : Bool} (h : Enclosure.line.Closes t) (taken : Octets) :
    (lineComment leading).cut taken (t ++ rest) = cutBehind leading (t.reverse ++ taken) rest := by
  induction h generalizing taken with
  | closer => exact cut_of_closeComment rfl taken rest
  | escape _ escapes => cases escapes
  | @content b _ _ inside _ ih =>
    have hb : b ≠ lineFeed := by
      rintro rfl
      exact inside (by simp [Enclosure.closer])
    have hstep : (lineComment leading).step b = some (.lineComment leading) := if_neg hb
    rw [List.cons_append, cut_of_step hstep, ih]
    simp

/-- Of a block comment the lexer knows whether an asterisk stands before. -/
theorem cut_blockComment {leading fresh star : Bool} (h : Enclosure.block.Closes t)
    (hs : star = true → t.head? ≠ some slash) (taken : Octets) :
    (blockComment leading fresh star).cut taken (t ++ rest) =
      cutBehind (leading && !(fresh && t.head? == some exclamation)) (t.reverse ++ taken) rest := by
  induction h generalizing leading fresh star taken with
  | closer =>
    have first : (blockComment leading fresh star).step asterisk =
        some (.blockComment leading false true) := by
      simp [step, asterisk, slash, exclamation]
    have second : (blockComment leading false true).step slash = closeComment leading := by
      simp [step]
    rw [Enclosure.closer, List.cons_append, List.cons_append, cut_of_step first,
      List.nil_append, cut_of_closeComment second]
    simp [asterisk, exclamation]
  | escape _ escapes => cases escapes
  | @content b t _ inside _ ih =>
    have hb : ¬(star = true ∧ b = slash) := by
      rintro ⟨hstar, rfl⟩
      exact hs hstar rfl
    have hstep : (blockComment leading fresh star).step b =
        some (.blockComment (leading && !(fresh && b == exclamation)) false (b == asterisk)) := by
      simp [step, hb]
    have hnext : (b == asterisk) = true → t.head? ≠ some slash := by
      intro ha hh
      obtain ⟨v, rfl⟩ := List.head?_eq_some_iff.mp hh
      obtain rfl := eq_of_beq ha
      exact inside (by simp [Enclosure.closer])
    rw [List.cons_append, cut_of_step hstep, ih hnext]
    simp

/-- What is enclosed ends the statement if it is a comment that began it. -/
theorem cut_closed (h : e.Closes t) (leading : Bool) (taken : Octets) :
    (inside leading e).cut taken (t ++ rest) =
      cutBehind (leading && (Lexeme.closed e t).isComment) (t.reverse ++ taken) rest := by
  cases e with
  | single =>
    simpa [inside, cutBehind, Lexeme.isComment] using cut_quoted rest rfl rfl (by decide) h taken
  | double =>
    simpa [inside, cutBehind, Lexeme.isComment] using cut_quoted rest rfl rfl (by decide) h taken
  | backticks => simpa [inside, cutBehind, Lexeme.isComment] using cut_backtick rest h taken
  | line => simpa [inside, Lexeme.isComment] using cut_lineComment rest h taken
  | block =>
    have hcut : (blockComment leading true false).cut taken (t ++ rest) =
        cutBehind (leading && !(true && t.head? == some exclamation)) (t.reverse ++ taken) rest :=
      cut_blockComment rest h (by simp) taken
    simpa [inside, Lexeme.isComment, bne] using hcut

end Closing

section Unclosed

variable {e : Enclosure} {t : Octets}

theorem cut_quoted_unclosed {quote : UInt8} (he : e.escapes = true) (hq : e.closer = [quote])
    (h : e.Unclosed t) (taken : Octets) :
    (quoted quote false).cut taken t = ⟨taken.reverse ++ t, false, []⟩ := by
  -- An escape takes two octets, so the induction is on their number.
  induction hn : t.length using Nat.strongRecOn generalizing t taken with
  | ind n ih =>
    cases t with
    | nil => simp [cut, isComplete]
    | cons b t =>
      have hb : b ≠ quote := by
        rintro rfl
        exact h.no_closer (by simp [hq])
      by_cases hx : b = backslash
      · subst hx
        have first : (quoted quote false).step backslash = some (.quoted quote true) := by
          simp [step]
        cases t with
        | nil => simp [cut, first, isComplete]
        | cons c t =>
          have second : (quoted quote true).step c = some (.quoted quote false) := by simp [step]
          have hlt : t.length < n := by
            simp only [List.length_cons] at hn
            omega
          rw [cut_of_step first, cut_of_step second, ih t.length hlt (h.escaped he) _ rfl]
          simp
      · have hstep : (quoted quote false).step b = some (.quoted quote false) := by
          simp [step, hx, hb]
        have htail := h.tail fun escapes => hx escapes.2
        rw [cut_of_step hstep, ih t.length (by simp [← hn]) htail _ rfl]
        simp

theorem cut_backtick_unclosed (h : Enclosure.backticks.Unclosed t) (taken : Octets) :
    backtick.cut taken t = ⟨taken.reverse ++ t, false, []⟩ := by
  induction t generalizing taken with
  | nil => simp [cut, isComplete]
  | cons b t ih =>
    have hb : b ≠ backtickMark := by
      rintro rfl
      exact h.no_closer (by simp [Enclosure.closer])
    have hstep : backtick.step b = some .backtick := if_neg hb
    rw [cut_of_step hstep, ih (h.tail (by simp [Enclosure.escapes]))]
    simp

theorem cut_lineComment_unclosed {leading : Bool} (h : Enclosure.line.Unclosed t)
    (taken : Octets) :
    (lineComment leading).cut taken t = ⟨taken.reverse ++ t, leading, []⟩ := by
  induction t generalizing taken with
  | nil => simp [cut, isComplete]
  | cons b t ih =>
    have hb : b ≠ lineFeed := by
      rintro rfl
      exact h.no_closer (by simp [Enclosure.closer])
    have hstep : (lineComment leading).step b = some (.lineComment leading) := if_neg hb
    rw [cut_of_step hstep, ih (h.tail (by simp [Enclosure.escapes]))]
    simp

theorem cut_blockComment_unclosed {leading fresh star : Bool} (h : Enclosure.block.Unclosed t)
    (hs : star = true → t.head? ≠ some slash) (taken : Octets) :
    (blockComment leading fresh star).cut taken t = ⟨taken.reverse ++ t, false, []⟩ := by
  induction t generalizing leading fresh star taken with
  | nil => simp [cut, isComplete]
  | cons b t ih =>
    have hb : ¬(star = true ∧ b = slash) := by
      rintro ⟨hstar, rfl⟩
      exact hs hstar rfl
    have hstep : (blockComment leading fresh star).step b =
        some (.blockComment (leading && !(fresh && b == exclamation)) false (b == asterisk)) := by
      simp [step, hb]
    have hnext : (b == asterisk) = true → t.head? ≠ some slash := by
      intro ha hh
      obtain ⟨v, rfl⟩ := List.head?_eq_some_iff.mp hh
      obtain rfl := eq_of_beq ha
      exact h.no_closer (by simp [Enclosure.closer])
    rw [cut_of_step hstep, ih (h.tail (by simp [Enclosure.escapes])) hnext]
    simp

/-- What is enclosed and not closed takes the rest of the input. -/
theorem cut_unclosed (h : e.Unclosed t) (leading : Bool) (taken : Octets) :
    (inside leading e).cut taken t =
      ⟨taken.reverse ++ t, leading && (Lexeme.unclosed e t).isComment, []⟩ := by
  cases e with
  | single => simpa [inside, Lexeme.isComment] using cut_quoted_unclosed rfl rfl h taken
  | double => simpa [inside, Lexeme.isComment] using cut_quoted_unclosed rfl rfl h taken
  | backticks => simpa [inside, Lexeme.isComment] using cut_backtick_unclosed h taken
  | line => simpa [inside, Lexeme.isComment] using cut_lineComment_unclosed h taken
  | block =>
    have hcut : (blockComment leading true false).cut taken t = ⟨taken.reverse ++ t, false, []⟩ :=
      cut_blockComment_unclosed h (by simp) taken
    simpa [inside, Lexeme.isComment] using hcut

end Unclosed

/-- A dash or slash that opens nothing is like any other character. -/
theorem cut_opener_alone {first : UInt8} {leading : Bool} {t : Octets}
    (hd : first = dash → t.head? ≠ some dash) (hs : first = slash → t.head? ≠ some asterisk)
    (taken : Octets) : (opener first leading).cut taken t = (plain true).cut taken t := by
  cases t with
  | nil => rfl
  | cons b t =>
    have hdd : ¬(first = dash ∧ b = dash) := by
      rintro ⟨h, rfl⟩
      exact hd h rfl
    have hsa : ¬(first = slash ∧ b = asterisk) := by
      rintro ⟨h, rfl⟩
      exact hs h rfl
    have same : (opener first leading).step b = (plain true).step b := by
      simp only [step, if_neg hdd, if_neg hsa]
    rw [cut, cut, same]

/-- So are two dashes that open nothing. -/
theorem cut_dashes_alone {leading : Bool} {t : Octets} (h : ¬Enclosure.line.Admits t)
    (taken : Octets) : (dashes leading).cut taken t = (plain true).cut taken t := by
  cases t with
  | nil => exact (h (by simp [Enclosure.Admits])).elim
  | cons b t =>
    have hb : Enclosure.isBreak b = false := by
      refine Bool.eq_false_iff.mpr fun hb => h ?_
      rintro - c hc
      obtain rfl : b = c := by simpa using hc
      exact hb
    simp only [Enclosure.isBreak, Bool.or_eq_false_iff, beq_eq_false_iff_ne] at hb
    obtain ⟨⟨⟨h₁, h₂⟩, h₃⟩, h₄⟩ := hb
    have same : (dashes leading).step b = (plain true).step b := by
      simp [step, h₁, h₂, h₃, h₄]
    rw [cut, cut, same]

theorem cut_octet {b : UInt8} {rest : Octets} (solid : Octets.isBlank b = false)
    (inner : b ≠ semicolon)
    (opens : ∀ (e : Enclosure) (t : Octets), b :: rest = e.opener ++ t → ¬e.Admits t)
    (alone : b = dash → rest.head? ≠ some dash) (begun : Bool) (taken : Octets) :
    (plain begun).cut taken (b :: rest) = (plain true).cut (b :: taken) rest := by
  have hq : b ≠ quoteMark := by
    rintro rfl
    exact opens .single rest rfl (by simp [Enclosure.Admits])
  have hdq : b ≠ doubleQuote := by
    rintro rfl
    exact opens .double rest rfl (by simp [Enclosure.Admits])
  have ht : b ≠ backtickMark := by
    rintro rfl
    exact opens .backticks rest rfl (by simp [Enclosure.Admits])
  by_cases hm : b = dash ∨ b = slash
  · have hstep : (plain begun).step b = some (.opener b !begun) := by
      simp [step, stepPlain, hq, hdq, ht, inner, hm]
    rw [cut_of_step hstep]
    refine cut_opener_alone alone ?_ _
    rintro rfl hh
    obtain ⟨t, rfl⟩ := List.head?_eq_some_iff.mp hh
    exact opens .block t rfl (by simp [Enclosure.Admits])
  · have hstep : (plain begun).step b = some (.plain true) := by
      simp [step, stepPlain, hq, hdq, ht, inner, hm, solid]
    exact cut_of_step hstep taken rest

theorem cut_pair {rest : Octets} (opens : ¬Enclosure.line.Admits rest) (begun : Bool)
    (taken : Octets) :
    (plain begun).cut taken (dash :: dash :: rest) =
      (plain true).cut (dash :: dash :: taken) rest := by
  have first : (plain begun).step dash = some (.opener dash !begun) := rfl
  have second : (opener dash !begun).step dash = some (.dashes !begun) := rfl
  rw [cut_of_step first, cut_of_step second, cut_dashes_alone opens]

/-- A lexeme ends the statement, or the lexer is outside every span behind it. -/
theorem cut_lexeme {l : Lexeme} {rest : Octets} (h : Begins .paired l rest) (begun : Bool)
    (taken : Octets) :
    (plain begun).cut taken (l.octets ++ rest) =
      if l.ends begun then ⟨(l.octets.reverse ++ taken).reverse, true, rest⟩
      else (plain (begun || !l.isBlank)).cut (l.octets.reverse ++ taken) rest := by
  cases h with
  | @blank b _ blank =>
    have hstep : (plain begun).step b = some (.plain begun) := by
      simp only [Octets.isBlank, Bool.or_eq_true, beq_iff_eq] at blank
      rcases blank with (((rfl | rfl) | rfl) | rfl) | rfl <;> cases begun <;> rfl
    simpa [Lexeme.ends, Lexeme.isComment, Lexeme.isBlank, Lexeme.octets] using
      cut_of_step hstep taken rest
  | semicolon =>
    have hstep : (plain begun).step semicolon = none := rfl
    simp [Lexeme.ends, Lexeme.octets, cut, hstep]
  | @closed e t _ admits closes =>
    rw [Lexeme.octets, List.append_assoc, cut_opener admits, cut_closed rest closes]
    simp [cutBehind, Lexeme.ends, Lexeme.isBlank]
  | @unclosed e t admits never =>
    rw [Lexeme.octets, List.append_nil, cut_opener admits, cut_unclosed never]
    by_cases h : (!begun && (Lexeme.unclosed e t).isComment) = true
    · simp [Lexeme.ends, h]
    · simp [Lexeme.ends, h, cut, isComplete]
  | octet solid inner opens alone =>
    simpa [Lexeme.ends, Lexeme.isComment, Lexeme.isBlank, Lexeme.octets] using
      cut_octet solid inner opens (alone rfl) begun taken
  | pair _ opens =>
    simpa [Lexeme.ends, Lexeme.isComment, Lexeme.isBlank, Lexeme.octets] using
      cut_pair opens begun taken

end Scan

namespace Segment

variable {lead body : Octets}

theorem not_all_blank (solid : body.Solid) : ¬(lead ++ body).all Octets.isBlank = true := by
  obtain ⟨b, t, rfl, hb⟩ := solid
  rw [List.all_append, List.all_cons, hb]
  simp

theorem ofPiece_append (blank : lead.all Octets.isBlank = true) (solid : body.Solid)
    (index offset : Nat) (terminated : Bool) :
    ofPiece (lead ++ body) index offset terminated =
      ⟨body, index, offset + lead.length, terminated⟩ := by
  obtain ⟨b, t, rfl, hb⟩ := solid
  have hlead := List.all_eq_true.mp blank
  unfold ofPiece
  rw [List.dropWhile_append_of_pos hlead, List.takeWhile_append_of_pos hlead,
    List.dropWhile_cons_of_neg (by simp [hb]), List.takeWhile_cons_of_neg (by simp [hb]),
    List.append_nil]

theorem segmentsOfCut_append (blank : lead.all Octets.isBlank = true) (solid : body.Solid)
    (index offset : Nat) (terminated : Bool) (rest : Octets) :
    Scan.segmentsOfCut index offset ⟨lead ++ body, terminated, rest⟩ =
      ⟨body, index, offset + lead.length, terminated⟩ ::
        Scan.segmentsOfCut (index + 1) (offset + lead.length + body.length)
          (Scan.start.cut [] rest) := by
  rw [Scan.segmentsOfCut, if_neg (not_all_blank solid), ofPiece_append blank solid,
    Scan.fromOffset_eq, List.length_append, Nat.add_assoc]

end Segment

namespace Lexed

/-- What the lexer makes of the rest of the input, behind blanks and an open statement, are the
statements of its lexemes. -/
theorem segmentsOfCut_eq {bs : Octets} {ls : List Lexeme} (h : Lexed .paired bs ls)
    {lead body : Octets} (blank : lead.all Octets.isBlank = true)
    (solid : body.isEmpty = false → body.Solid) (index offset : Nat) :
    Scan.segmentsOfCut index offset ((Scan.plain !body.isEmpty).cut (lead ++ body).reverse bs) =
      Lexeme.statements index (offset + lead.length) body ls := by
  induction h generalizing lead body index offset with
  | nil =>
    rw [Scan.cut, List.reverse_reverse, Lexeme.statements]
    cases hb : body.isEmpty with
    | true =>
      obtain rfl := List.isEmpty_iff.mp hb
      simp [Scan.segmentsOfCut, blank]
    | false =>
      rw [Segment.segmentsOfCut_append blank (solid hb)]
      rfl
  | @cons l rest ls head tail ih =>
    rw [Scan.cut_lexeme head, Lexeme.statements, ← List.reverse_append, List.append_assoc]
    by_cases hends : l.ends (!body.isEmpty) = true
    · have hs : Octets.Solid (body ++ l.octets) := by
        cases hb : body.isEmpty with
        | true =>
          obtain rfl := List.isEmpty_iff.mp hb
          exact head.solid (Lexeme.isBlank_of_ends hends)
        | false => exact (solid hb).append _
      have hrest := @ih [] [] rfl (by simp) (index + 1)
        (offset + lead.length + (body ++ l.octets).length)
      rw [if_pos hends, if_pos hends, List.reverse_reverse,
        Segment.segmentsOfCut_append blank hs]
      exact congrArg (_ :: ·) hrest
    rw [if_neg hends, if_neg hends]
    by_cases hb : (body.isEmpty && l.isBlank) = true
    · -- blanks before a statement
      obtain ⟨hbody, hl⟩ := Bool.and_eq_true_iff.mp hb
      obtain rfl := List.isEmpty_iff.mp hbody
      have hlead : (lead ++ l.octets).all Octets.isBlank = true := by
        rw [List.all_append, blank, head.all_blank hl]
        rfl
      have hrest := @ih _ [] hlead (by simp) index offset
      rw [if_pos hb, Nat.add_assoc, ← List.length_append, ← hrest]
      simp [hl]
    · have hs : Octets.Solid (body ++ l.octets) := by
        cases hbody : body.isEmpty with
        | true =>
          obtain rfl := List.isEmpty_iff.mp hbody
          exact head.solid (by simpa using hb)
        | false => exact (solid hbody).append _
      have hrest := ih blank (fun _ => hs) index offset
      have hbegun : (!body.isEmpty || !l.isBlank) = !(body ++ l.octets).isEmpty := by
        obtain ⟨b, t, hbt, _⟩ := hs
        rw [hbt]
        cases h₁ : body.isEmpty <;> cases h₂ : l.isBlank <;> simp [h₁, h₂] at hb ⊢
      rw [if_neg hb, hbegun, hrest]

/-- Cut by the lexer, an input gives the statements of its lexemes. -/
theorem fromOffset {bs : Octets} {ls : List Lexeme} (h : Lexed .paired bs ls) :
    Segment.fromOffset 0 0 bs = Lexeme.statements 0 0 [] ls := by
  have blank : ([] : Octets).all Octets.isBlank = true := rfl
  have unbegun : ([] : Octets).isEmpty = false → Octets.Solid [] := by simp
  rw [Scan.fromOffset_eq]
  exact h.segmentsOfCut_eq blank unbegun 0 0

end Lexed

namespace Reader

/-- The segments of an input, whatever chunks it is read in. -/
theorem segments_fromOffset (size : Nat) (bs : Octets) :
    (ofOctets (size + 1) bs).readAll.1.map Prod.fst = Segment.fromOffset 0 0 bs := by
  obtain ⟨hsegments, -⟩ := readAll_segments (ofOctets (size + 1) bs)
  rw [hsegments]
  simp [ofOctets, rest, flatten_chunksOf, Function.comp_def]

/-- The segments of a reader are the statements of the lexemes, where dashes that open no comment
are taken two at a time. So they are where dashes are taken one by one, unless a comment goes on
behind an odd number of further dashes. -/
theorem readAll_lexed (size : Nat) (bs : Octets) :
    (∀ rule, ∃! ls, Lexed rule bs ls) ∧
    (∀ ls, Lexed .paired bs ls →
      (ofOctets (size + 1) bs).readAll.1.map Prod.fst = Lexeme.statements 0 0 [] ls) ∧
    ∀ ls, Lexed .single bs ls → Lexeme.Separate ls →
      (ofOctets (size + 1) bs).readAll.1.map Prod.fst = Lexeme.statements 0 0 [] ls := by
  rw [segments_fromOffset]
  refine ⟨fun rule => Lexed.existsUnique rule bs, fun ls h => h.fromOffset, ?_⟩
  intro ls h separate
  have paired := Lexed.paired_of_single h separate
  rw [paired.fromOffset, Lexeme.statements_pairUp]

/-- In `1-- ;` the semicolon is part of a comment. -/
theorem readAll_lexed_comment :
    (ofOctets 1 (.ofText "1-- ;\n;")).readAll.1.map Prod.fst =
      [⟨.ofText "1-- ;\n;", 0, 0, true⟩] := by
  have input : Octets.ofText "1-- ;\n;" = [0x31, 0x2D, 0x2D, 0x20, 0x3B, 0x0A, 0x3B] := by decide
  have comment : Enclosure.line.Closes [0x20, 0x3B, 0x0A] :=
    .content (by decide) (by decide) (.content (by decide) (by decide) .closer)
  have lexed : Lexed .single [0x31, 0x2D, 0x2D, 0x20, 0x3B, 0x0A, 0x3B]
      [.text [0x31], .closed .line [0x20, 0x3B, 0x0A], .semicolon] := by
    refine .cons (.octet rfl (by decide) ?_ (by simp))
      (.cons (.closed ?_ comment) (.cons .semicolon .nil))
    · rintro (_ | _ | _ | _ | _) t ht <;> cases ht
    · rintro - b hb
      cases hb
      rfl
  have separate :
      Lexeme.Separate [.text [0x31], .closed .line [0x20, 0x3B, 0x0A], .semicolon] := by
    intro lead n l rest hls _
    have hdash : Lexeme.text [Scan.dash] ∈
        lead ++ List.replicate (2 * n + 1) (.text [Scan.dash]) ++ l :: rest := by
      simp [List.mem_replicate]
    rw [← hls] at hdash
    simp [Scan.dash] at hdash
  rw [input]
  obtain ⟨-, -, single⟩ := readAll_lexed 0 [0x31, 0x2D, 0x2D, 0x20, 0x3B, 0x0A, 0x3B]
  exact single _ lexed separate

/-- In `1--- ;` a third dash hides the comment from the lexer, though two dashes and a blank are
there: the semicolon ends a statement. -/
theorem readAll_dashes_hide_comment :
    ∃ ls, Lexed .single (.ofText "1--- ;\n;") ls ∧
      Lexeme.statements 0 0 [] ls = [⟨.ofText "1--- ;\n;", 0, 0, true⟩] ∧
      (ofOctets 1 (.ofText "1--- ;\n;")).readAll.1.map Prod.fst =
        [⟨.ofText "1--- ;", 0, 0, true⟩, ⟨.ofText ";", 1, 7, true⟩] := by
  have input : Octets.ofText "1--- ;\n;" = [0x31, 0x2D, 0x2D, 0x2D, 0x20, 0x3B, 0x0A, 0x3B] := by
    decide
  have broken : ¬Enclosure.line.Admits [0x2D, 0x20, 0x3B, 0x0A, 0x3B] := by
    intro admits
    cases admits rfl 0x2D rfl
  have comment : Enclosure.line.Closes [0x20, 0x3B, 0x0A] :=
    .content (by decide) (by decide) (.content (by decide) (by decide) .closer)
  have single : Lexed .single [0x31, 0x2D, 0x2D, 0x2D, 0x20, 0x3B, 0x0A, 0x3B]
      [.text [0x31], .text [0x2D], .closed .line [0x20, 0x3B, 0x0A], .semicolon] := by
    refine .cons (.octet rfl (by decide) ?_ (by simp)) (.cons (.octet rfl (by decide) ?_ (by simp))
      (.cons (.closed ?_ comment) (.cons .semicolon .nil)))
    · rintro (_ | _ | _ | _ | _) t ht <;> cases ht
    · rintro (_ | _ | _ | _ | _) t ht <;> cases ht
      exact broken
    · rintro - b hb
      cases hb
      rfl
  have paired : Lexed .paired [0x31, 0x2D, 0x2D, 0x2D, 0x20, 0x3B, 0x0A, 0x3B]
      [.text [0x31], .text [0x2D, 0x2D], .text [0x2D], .blank 0x20, .semicolon, .blank 0x0A,
        .semicolon] := by
    refine .cons (.octet rfl (by decide) ?_ (by simp [Scan.dash])) (.cons (.pair rfl broken)
      (.cons (.dash_alone _ ?_) (.cons (.blank rfl) (.cons .semicolon
        (.cons (.blank rfl) (.cons .semicolon .nil))))))
    · rintro (_ | _ | _ | _ | _) t ht <;> cases ht
    · simp [Scan.dash]
  rw [input, segments_fromOffset, paired.fromOffset]
  refine ⟨_, single, rfl, ?_⟩
  decide

end Reader

end SqlDump
