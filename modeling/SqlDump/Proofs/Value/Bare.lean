import SqlDump.Proofs.Value.Literal
import SqlDump.Text.Nesting

/-!
# Bare tokens

Tokens that stand in a dump as they are: numbers, hexadecimal literals, calls with quoted texts
inside. What stands outside the quotes of such a token decides whether it may be a value: it must
not end the value, the row or the statement, nor open a comment.

Main statements: `IsBare.lexed`, the lexer is outside every span behind the token; `IsBare.reads`,
the value of the token is the token.
-/

namespace SqlDump

open Text

/-- The characters of a text that stand outside quotes, and the quotes. -/
def outsideOf (q : Quoting) : Text → Text
  | [] => []
  | c :: t =>
    if q = .outside ∨ q.step c = .outside then c :: outsideOf (q.step c) t
    else outsideOf (q.step c) t

/-- Whether the parentheses are balanced with `depth` of them open before, and every comma stands
inside some. -/
def isBalanced : Nat → Text → Bool
  | depth, [] => depth == 0
  | depth, c :: t =>
    if c = '(' then isBalanced (depth + 1) t
    else if c = ')' then depth != 0 && isBalanced (depth - 1) t
    else (c != ',' || depth != 0) && isBalanced depth t

/-- A character that tells a token from a quoted text. -/
def IsSolid (c : Char) : Prop := Unicode.isBlank c = false ∧ ¬IsValueQuote c

/-- Nothing in the text opens a name in backticks or a comment. -/
structure IsClear (t : Text) : Prop where
  backtick : '\x60' ∉ t
  dashes : ¬['-', '-'] <:+: t
  comment : ¬['/', '*'] <:+: t

/-- What would end a statement or hide the rest of it. -/
structure IsHarmless (t : Text) : Prop where
  semicolon : ';' ∉ t
  backtick : '\x60' ∉ t
  dashes : ¬['-', '-'] <:+: t
  comment : ¬['/', '*'] <:+: t

/-- A token that stands in a row as it is. -/
structure IsBare (token : Text) : Prop where
  trimmed : trim token = token
  word : sameAscii token "null" = false
  closed : token.foldl Quoting.step .outside = .outside
  balanced : isBalanced 0 (outsideOf .outside token) = true
  solid : ∃ c ∈ outsideOf .outside token, IsSolid c
  harmless : IsHarmless (outsideOf .outside token)

theorem isBalanced_valueQuote {c : Char} (h : IsValueQuote c) (depth : Nat) (t : Text) :
    isBalanced depth (c :: t) = isBalanced depth t := by
  obtain rfl | rfl := h <;> simp [isBalanced]

theorem exists_solid_of_cons {c : Char} {t : Text} (h : IsValueQuote c)
    (hs : ∃ d ∈ c :: t, IsSolid d) : ∃ d ∈ t, IsSolid d := by
  obtain ⟨d, hd, hsolid⟩ := hs
  rcases List.mem_cons.mp hd with rfl | hd
  · exact absurd h hsolid.2
  · exact ⟨d, hd, hsolid⟩

theorem IsClear.mono {t u : Text} (h : IsClear t) (hu : u <:+: t) : IsClear u where
  backtick hm := h.backtick (hu.subset hm)
  dashes hi := h.dashes (hi.trans hu)
  comment hi := h.comment (hi.trans hu)

theorem IsHarmless.isClear {t : Text} (h : IsHarmless t) : IsClear t :=
  ⟨h.backtick, h.dashes, h.comment⟩

theorem outsideOf_step_suffix (q : Quoting) (c : Char) (t : Text) :
    outsideOf (q.step c) t <:+ outsideOf q (c :: t) := by
  rw [outsideOf]
  split
  · exact List.suffix_cons c _
  · exact List.suffix_refl _

theorem IsClear.rest {q : Quoting} {c : Char} {t : Text} (h : IsClear (outsideOf q (c :: t))) :
    IsClear (outsideOf (q.step c) t) :=
  h.mono (outsideOf_step_suffix q c t).isInfix

theorem IsHarmless.rest {q : Quoting} {c : Char} {t : Text}
    (h : IsHarmless (outsideOf q (c :: t))) : IsHarmless (outsideOf (q.step c) t) :=
  have hclear := h.isClear.rest
  ⟨fun hm => h.semicolon ((outsideOf_step_suffix q c t).subset hm), hclear.backtick,
    hclear.dashes, hclear.comment⟩

theorem outsideOf_outside (c : Char) (t : Text) :
    outsideOf .outside (c :: t) = c :: outsideOf (Quoting.outside.step c) t :=
  if_pos (.inl rfl)

theorem outsideOf_content {q : Quoting} {c : Char} (hq : q ≠ .outside) (hc : q.step c ≠ .outside)
    (t : Text) : outsideOf q (c :: t) = outsideOf (q.step c) t :=
  if_neg (not_or.mpr ⟨hq, hc⟩)

theorem outsideOf_close {q : Quoting} {c : Char} (hc : q.step c = .outside) (t : Text) :
    outsideOf q (c :: t) = c :: outsideOf .outside t :=
  (if_pos (.inr hc)).trans (by rw [hc])

theorem eq_quote_of_close {quote c : Char} {escaped : Bool}
    (h : (Quoting.inside quote escaped).step c = .outside) : c = quote := by
  cases escaped with
  | true => cases h
  | false =>
    simp only [Quoting.step] at h
    split at h
    · cases h
    · split at h
      · assumption
      · cases h

theorem mem_of_mem_outsideOf {q : Quoting} {c : Char} {t : Text} (h : c ∈ outsideOf q t) :
    c ∈ t := by
  induction t generalizing q with
  | nil => exact h
  | cons d t ih =>
    unfold outsideOf at h
    split at h
    · rcases List.mem_cons.mp h with rfl | h
      · exact List.mem_cons_self
      · exact List.mem_cons_of_mem d (ih h)
    · exact List.mem_cons_of_mem d (ih h)

/-- Outside quotes, a clear text holds no quote but those of values. -/
theorem IsClear.step_outside {c : Char} {t : Text} (h : IsClear (c :: t)) :
    IsValueQuote c ∧ Quoting.outside.step c = .inside c false ∨
      ¬IsValueQuote c ∧ Quoting.outside.step c = .outside := by
  have hc : c ≠ '\x60' := fun he => h.backtick (he ▸ List.mem_cons_self)
  by_cases hq : IsValueQuote c
  · refine .inl ⟨hq, ?_⟩
    obtain rfl | rfl := hq <;> rfl
  · refine .inr ⟨hq, if_neg ?_⟩
    simpa [isQuoteMark, IsValueQuote, hc] using hq

namespace Scan

/-- The lexer outside every span, where what follows does not make a comment of the last
character. -/
def Settled (s : Scan) (next : Text) : Prop :=
  s = .plain true ∨ (s = .opener dash false ∧ next.head? ≠ some '-') ∨
    (s = .opener slash false ∧ next.head? ≠ some '*')

/-- The lexer is inside the quotes that a character stands in. -/
def Follows (s : Scan) (next : Text) : Quoting → Prop
  | .outside => s.Settled next
  | .inside quote escaped =>
    IsValueQuote quote ∧ s = .quoted (UInt8.ofNat quote.toNat) escaped

theorem read_opener {first : UInt8} {c : Char} (hd : first = dash → c ≠ '-')
    (hs : first = slash → c ≠ '*') :
    (opener first false).read [c] = (plain true).read [c] := by
  by_cases hc : c.toNat < 0x80
  · have h₁ : ¬(first = dash ∧ UInt8.ofNat c.toNat = dash) := by
      rintro ⟨hf, he⟩
      exact ofNat_ne hc (by decide) (hd hf) he
    have h₂ : ¬(first = slash ∧ UInt8.ofNat c.toNat = asterisk) := by
      rintro ⟨hf, he⟩
      exact ofNat_ne hc (by decide) (hs hf) he
    rw [read_of_ascii _ hc, read_of_ascii _ hc]
    simp only [Scan.step, if_neg h₁, if_neg h₂]
  · have hopener : ∀ b, (0x80 : UInt8) ≤ b → (opener first false).step b = some (.plain true) := by
      intro b hb
      have h₁ : b ≠ dash := ne_of_high hb (by decide)
      have h₂ : b ≠ asterisk := ne_of_high hb (by decide)
      simp only [Scan.step, h₁, h₂, and_false, if_false]
      exact stepPlain_high hb
    have hplain : isSpecial c = false := by
      simp only [isSpecial, Bool.or_eq_false_iff, beq_eq_false_iff_ne]
      refine ⟨⟨⟨⟨⟨?_, ?_⟩, ?_⟩, ?_⟩, ?_⟩, ?_⟩ <;>
        exact fun he => hc (by rw [he]; decide)
    rw [read_plain hplain]
    exact read_char (fun h => absurd h hc) fun b hb => ⟨hopener b hb, stepPlain_high hb⟩

theorem Settled.read {s : Scan} {c : Char} {next : Text} (h : s.Settled (c :: next)) :
    s.read [c] = (plain true).read [c] := by
  obtain rfl | ⟨rfl, hc⟩ | ⟨rfl, hc⟩ := h
  · rfl
  · exact read_opener (fun _ he => hc (by rw [he]; rfl)) fun h => by cases h
  · exact read_opener (fun h => by cases h) fun _ he => hc (by rw [he]; rfl)

/-- Two characters that open a comment do not stand beside each other in a clear text. -/
theorem head_ne {a b : Char} {t : Text} (h : ¬[a, b] <:+: a :: t) : t.head? ≠ some b := by
  intro he
  cases t with
  | nil => cases he
  | cons d t =>
    obtain rfl : d = b := by simpa using he
    exact h (List.IsPrefix.isInfix ⟨t, rfl⟩)

/-- One character of a clear text outside quotes. -/
theorem Settled.step {s : Scan} {c : Char} {t : Text} (hs : s.Settled (outsideOf .outside (c :: t)))
    (h : IsClear (outsideOf .outside (c :: t))) :
    c = ';' ∧ s.read [c] = none ∨ ∃ u, s.read [c] = some u ∧
      u.Follows (outsideOf (Quoting.outside.step c) t) (Quoting.outside.step c) := by
  rw [outsideOf_outside] at hs h
  rw [hs.read]
  obtain ⟨hq, hstep⟩ | ⟨hq, hstep⟩ := h.step_outside
  · rw [hstep]
    exact .inr ⟨_, read_open hq, hq, rfl⟩
  rw [hstep] at h ⊢
  by_cases hs : c = ';'
  · subst hs
    exact .inl ⟨rfl, rfl⟩
  refine .inr ?_
  -- A dash or a slash leaves the lexer at what may open a comment; what follows does not.
  by_cases hd : c = '-'
  · subst hd
    exact ⟨.opener dash false, rfl, .inr (.inl ⟨rfl, head_ne h.dashes⟩)⟩
  by_cases hl : c = '/'
  · subst hl
    exact ⟨.opener slash false, rfl, .inr (.inr ⟨rfl, head_ne h.comment⟩)⟩
  have hspecial : isSpecial c = false := by
    have hb : c ≠ '\x60' := fun he => h.backtick (he ▸ List.mem_cons_self)
    simp only [IsValueQuote, not_or] at hq
    simp [isSpecial, hq.1, hq.2, hs, hb, hd, hl]
  exact ⟨.plain true, read_plain hspecial, .inl rfl⟩

/-- One character of a text that is clear outside quotes: a semicolon outside quotes ends the
statement, and any other leaves the lexer in the quotes that the next character stands in. -/
theorem Follows.step {s : Scan} {q : Quoting} {c : Char} {t : Text}
    (hs : s.Follows (outsideOf q (c :: t)) q) (h : IsClear (outsideOf q (c :: t))) :
    (q = .outside ∧ c = ';' ∧ s.read [c] = none) ∨
      ∃ u, s.read [c] = some u ∧ u.Follows (outsideOf (q.step c) t) (q.step c) := by
  cases q with
  | outside => exact (Settled.step hs h).imp_left fun hend => ⟨rfl, hend⟩
  | inside quote escaped =>
    obtain ⟨hq, rfl⟩ := hs
    refine .inr ?_
    cases escaped with
    | true => exact ⟨_, read_escaped hq.ascii c, hq, rfl⟩
    | false =>
      by_cases hb : c = '\\'
      · rw [hb, Quoting.step_escape hq.ne_backtick]
        exact ⟨_, read_backslash _, hq, rfl⟩
      by_cases hc : c = quote
      · rw [hc, Quoting.step_close hq.ne_backslash]
        exact ⟨_, read_close hq.ascii hq.ne_backslash, .inl rfl⟩
      · rw [Quoting.step_content hb hc]
        exact ⟨_, read_content hq.ascii hb hc, hq, rfl⟩

theorem Follows.run {s : Scan} {q : Quoting} {t : Text} (hs : s.Follows (outsideOf q t) q)
    (h : IsHarmless (outsideOf q t)) :
    ∃ u, s.read t = some u ∧ u.Follows [] (t.foldl Quoting.step q) := by
  induction t generalizing s q with
  | nil => exact ⟨s, rfl, hs⟩
  | cons c t ih =>
    obtain ⟨rfl, rfl, -⟩ | ⟨u, hu, hfollows⟩ := hs.step h.isClear
    · rw [outsideOf_outside] at h
      exact absurd List.mem_cons_self h.semicolon
    · rw [read_cons_of hu]
      exact ih hfollows h.rest

end Scan

/-- Behind the token the lexer is outside every span. -/
theorem IsBare.lexed {token : Text} (h : IsBare token) :
    ∃ s, (Scan.plain true).read token = some s ∧ s.Settled [] := by
  have hrun := Scan.Follows.run (q := .outside) (t := token) (.inl rfl) h.harmless
  rwa [h.closed] at hrun

namespace OpenRow

/-- The reader of rows is inside the quotes that a character stands in. -/
def Tracks (quote : QuoteState) : Quoting → Prop
  | .outside => quote.IsIdle
  | .inside q escaped => IsValueQuote q ∧ ∃ start, quote = .inside q start escaped

/-- Inside a token, of which `done` is read and `rest` is not. -/
structure InToken (done rest : Text) (q : Quoting) (values : List Value) (r : OpenRow) : Prop where
  tracks : Tracks r.quote q
  balanced : isBalanced r.nested (outsideOf q rest) = true
  /-- An open parenthesis was met outside quotes. -/
  nested : r.nested ≠ 0 → r.value.residue = true
  solid : r.value.residue = true ∨ ∃ c ∈ outsideOf q rest, IsSolid c
  raw : r.value.raw = done.reverse
  values : r.values = values

variable {r : OpenRow} {done t : Text} {c : Char} {values : List Value}

/-- A quote opens or opens again. -/
theorem step_valueQuote (h : r.quote.IsIdle) (hc : IsValueQuote c) (position : Nat) :
    ∃ content quoted start, r.step position c = .inl { r with
      value := ⟨c :: r.value.raw, content, quoted, r.value.residue⟩
      quote := .inside c start false } := by
  have hout := stepOutside_quote hc r position
  unfold step
  obtain ho | ⟨quote, start, _, ho⟩ := h
  · rw [ho]
    exact ⟨_, _, _, hout⟩
  · rw [ho]
    by_cases he : c = quote
    · subst he
      exact ⟨_, _, _, if_pos rfl⟩
    · exact ⟨_, _, _, (if_neg he).trans hout⟩

/-- A character that is no quote, outside quotes, where it does not end the value. -/
theorem stepOutside_bare {u : Text} (hc : ¬IsValueQuote c)
    (hb : isBalanced r.nested (c :: u) = true) (hn : r.nested ≠ 0 → r.value.residue = true)
    (position : Nat) :
    ∃ r', r.stepOutside position c = .inl r' ∧ r'.quote.IsIdle ∧
      r'.value.raw = c :: r.value.raw ∧ isBalanced r'.nested u = true ∧
      (r'.nested ≠ 0 → r'.value.residue = true) ∧
      (r.value.residue = true ∨ Unicode.isBlank c = false → r'.value.residue = true) ∧
      r'.values = r.values := by
  by_cases ho : c = '('
  · subst ho
    exact ⟨_, rfl, .inl rfl, rfl, hb, fun _ => rfl, fun _ => rfl, rfl⟩
  by_cases hp : c = ')'
  · subst hp
    obtain ⟨hne, hu⟩ : r.nested ≠ 0 ∧ isBalanced (r.nested - 1) u = true := by
      simpa [isBalanced] using hb
    exact ⟨_, if_neg hne, .inl rfl, rfl, hu, fun _ => hn hne, fun _ => hn hne, rfl⟩
  · obtain ⟨hcomma, hu⟩ : (c ≠ ',' ∨ r.nested ≠ 0) ∧ isBalanced r.nested u = true := by
      simpa [isBalanced, ho, hp] using hb
    have hmid : ¬(c = ',' ∧ r.nested = 0) := fun h => hcomma.elim (· h.1) (· h.2)
    have hstep : r.stepOutside position c = .inl { r with
        value := { r.value.push c with residue := r.value.residue || !Unicode.isBlank c }
        quote := .outside } := stepOutside_other hc ho hp hmid position
    refine ⟨_, hstep, .inl rfl, rfl, hu, fun h => ?_, fun h => ?_, rfl⟩
    · simp [hn h]
    · simpa using h

theorem InToken.step_outside (h : InToken done (c :: t) .outside values r)
    (harmless : IsHarmless (outsideOf .outside (c :: t))) (position : Nat) :
    ∃ r', r.step position c = .inl r' ∧
      InToken (done ++ [c]) t (Quoting.outside.step c) values r' := by
  have hbalanced := h.balanced
  have hsolid := h.solid
  rw [outsideOf_outside] at hbalanced hsolid harmless
  obtain ⟨hq, hstep⟩ | ⟨hq, hstep⟩ := harmless.isClear.step_outside
  · obtain ⟨content, quoted, start, hr⟩ := step_valueQuote h.tracks hq position
    rw [hstep] at hbalanced hsolid ⊢
    rw [isBalanced_valueQuote hq] at hbalanced
    exact ⟨_, hr, ⟨hq, start, rfl⟩, hbalanced, h.nested,
      hsolid.imp_right (exists_solid_of_cons hq), by simp [h.raw], h.values⟩
  · rw [hstep] at hbalanced hsolid ⊢
    rw [step_of_idle h.tracks hq]
    obtain ⟨r', hr, hidle, hvalue, hnested, hresidue, hmore, hvalues⟩ :=
      stepOutside_bare hq hbalanced h.nested position
    refine ⟨r', hr, hidle, hnested, hresidue, ?_, by rw [hvalue, h.raw]; simp,
      hvalues.trans h.values⟩
    obtain hres | ⟨d, hd, hb, hn⟩ := hsolid
    · exact .inl (hmore (.inl hres))
    · rcases List.mem_cons.mp hd with rfl | hd
      · exact .inl (hmore (.inr hb))
      · exact .inr ⟨d, hd, hb, hn⟩

/-- A character inside quotes belongs to the value, and may close them. -/
theorem step_inside {quote : Char} {escaped : Bool} (h : Tracks r.quote (.inside quote escaped))
    (c : Char) (position : Nat) :
    ∃ value state, r.step position c = .inl { r with value := value, quote := state } ∧
      Tracks state ((Quoting.inside quote escaped).step c) ∧
      value.raw = c :: r.value.raw ∧ value.residue = r.value.residue := by
  obtain ⟨hq, start, hquote⟩ := h
  cases escaped with
  | true => exact ⟨r.value.pushContent c (ValueBuffer.unescape c), .inside quote start false,
      by simp [step, hquote], ⟨hq, start, rfl⟩, rfl, rfl⟩
  | false =>
    by_cases hb : c = '\\'
    · rw [hb, Quoting.step_escape hq.ne_backtick]
      exact ⟨r.value.push '\\', .inside quote start true, by simp [step, hquote], ⟨hq, start, rfl⟩,
        rfl, rfl⟩
    by_cases hc : c = quote
    · rw [hc, Quoting.step_close hq.ne_backslash]
      exact ⟨r.value.push quote, .closing quote start, by simp [step, hquote, hq.ne_backslash],
        .inr ⟨quote, start, hq, rfl⟩, rfl, rfl⟩
    · rw [Quoting.step_content hb hc]
      exact ⟨r.value.pushContent c c, .inside quote start false, by simp [step, hquote, hb, hc],
        ⟨hq, start, rfl⟩, rfl, rfl⟩

theorem InToken.step_inside {quote : Char} {escaped : Bool}
    (h : InToken done (c :: t) (.inside quote escaped) values r) (position : Nat) :
    ∃ r', r.step position c = .inl r' ∧
      InToken (done ++ [c]) t ((Quoting.inside quote escaped).step c) values r' := by
  obtain ⟨value, state, hr, htracks, hraw, hresidue⟩ := OpenRow.step_inside h.tracks c position
  have hbalanced := h.balanced
  have hsolid := h.solid
  refine ⟨_, hr, htracks, ?_, ?_, ?_, ?_, h.values⟩
  · by_cases hclose : (Quoting.inside quote escaped).step c = .outside
    -- Only the closing quote of a value stands outside, where no parenthesis or text is seen in it.
    · rw [outsideOf_close hclose, isBalanced_valueQuote (eq_quote_of_close hclose ▸ h.tracks.1)]
        at hbalanced
      rwa [hclose]
    · rwa [outsideOf_content (by simp) hclose] at hbalanced
  · rw [hresidue]
    exact h.nested
  · rw [hresidue]
    refine hsolid.imp_right fun hs => ?_
    by_cases hclose : (Quoting.inside quote escaped).step c = .outside
    · rw [outsideOf_close hclose] at hs
      rw [hclose]
      exact exists_solid_of_cons (eq_quote_of_close hclose ▸ h.tracks.1) hs
    · rwa [outsideOf_content (by simp) hclose] at hs
  · rw [hraw, h.raw, List.reverse_append, List.reverse_singleton, List.singleton_append]

theorem InToken.run {q : Quoting} (h : InToken done t q values r)
    (harmless : IsHarmless (outsideOf q t)) :
    Reaches r t (InToken (done ++ t) [] (t.foldl Quoting.step q) values) := by
  induction t generalizing r done q with
  | nil => exact .nil (by simpa using h)
  | cons c t ih =>
    have hstep : ∀ position, ∃ r', r.step position c = .inl r' ∧
        InToken (done ++ [c]) t (q.step c) values r' := by
      intro position
      cases q with
      | outside => exact h.step_outside harmless position
      | inside quote escaped => exact h.step_inside position
    refine .cons fun position => ?_
    obtain ⟨r', hr, hnext⟩ := hstep position
    refine ⟨r', hr, ?_⟩
    have hrest := ih hnext harmless.rest
    rwa [List.append_assoc] at hrest

end OpenRow

/-- The value of the token is the token. -/
theorem IsBare.reads {token : Text} (h : IsBare token) : OpenRow.Reads token (.bare token) := by
  intro r values hr
  have hstart : OpenRow.InToken [] token .outside values r := by
    refine ⟨.inl hr.quote, ?_, ?_, .inr h.solid, ?_, hr.values⟩
    · rw [hr.nested]
      exact h.balanced
    · exact fun hn => absurd hr.nested hn
    · rw [hr.value]
      rfl
  refine (hstart.run h.harmless).mono fun r' hend => ?_
  rw [h.closed] at hend
  have hnested : r'.nested = 0 := by simpa [isBalanced, outsideOf] using hend.balanced
  have hresidue : r'.value.residue = true := by
    obtain hres | ⟨c, hc, _⟩ := hend.solid
    · exact hres
    · cases hc
  have hraw : r'.value.raw.reverse = token := by simp [hend.raw]
  refine ⟨hend.tracks, hnested, hend.values, ?_, ?_⟩
  · unfold ValueBuffer.finish
    rw [hraw, h.trimmed, hresidue]
    simp only [h.word, Bool.not_true, Bool.and_false, Bool.false_eq_true, if_false]
  · obtain ⟨c, hc, hb, _⟩ := h.solid
    have hm : c ∈ r'.value.raw := by
      rw [← List.mem_reverse, hraw]
      exact mem_of_mem_outsideOf hc
    have hblank : Text.isBlank r'.value.raw = false :=
      List.all_eq_false.mpr ⟨c, hm, by simp [hb]⟩
    simp [ValueBuffer.isBlank, hblank]

end SqlDump
