import SqlDump.Proofs.Text.Pieces

/-!
# Texts in lower case

The lower-case form of a text is made character by character, but for a capital sigma, which looks
at the word around it and no further. So it may be made piece by piece where blanks or parentheses
stand between the pieces. It may have another length than the text, but its quotes and parentheses
are those of the text.

Main statements: `Unicode.lowercase_append_border`, pieces are lower-cased one by one;
`scan_lowercase`, the same quotes and parentheses stand around the same places;
`words_append_blank`, blanks part words.
-/

namespace SqlDump

namespace Unicode

variable {c : Char}

/-- The lower-case form of a character between what stands before it, in reverse, and behind it. -/
def lowerAt (before : List Char) (c : Char) (after : List Char) : List Char :=
  if c.toNat == 0x3A3 then [Char.ofNat (if isFinalSigma before after then 0x3C2 else 0x3C3)]
  else lowerChar c

theorem lowercaseFrom_done (before done cs : List Char) :
    lowercaseFrom before done cs = done.reverse ++ lowercaseFrom before [] cs := by
  induction cs generalizing before done with
  | nil => simp [lowercaseFrom]
  | cons c cs ih =>
    rw [lowercaseFrom, lowercaseFrom, ih, ih _ (_ ++ [])]
    simp

theorem lowercaseFrom_cons (before : List Char) (c : Char) (cs : List Char) :
    lowercaseFrom before [] (c :: cs) =
      lowerAt before c cs ++ lowercaseFrom (c :: before) [] cs := by
  rw [lowercaseFrom, lowercaseFrom_done, List.append_nil, List.reverse_reverse]
  rfl

/-! ### Borders -/

/-- A character that ends the word before it: it has no case, and is not passed over in the search
for one that has. -/
def IsBorder (c : Char) : Prop := isCased c = false ∧ isCaseIgnorable c = false

theorem IsBorder.besideCased (h : IsBorder c) (cs more : List Char) :
    Unicode.besideCased (cs ++ c :: more) = Unicode.besideCased cs := by
  unfold Unicode.besideCased
  rw [List.dropWhile_append]
  cases hcs : cs.dropWhile isCaseIgnorable with
  | nil => simp [h.1, h.2]
  | cons d cs => rfl

theorem IsBorder.lowerAt (h : IsBorder c) (before after : List Char) :
    Unicode.lowerAt before c after = lowerChar c := by
  have hsigma : ¬(c.toNat == 0x3A3) = true := by
    intro hc
    have heq : c = Char.ofNat 0x3A3 := by
      rw [← beq_iff_eq.mp hc, Char.ofNat_toNat]
    have hcased := h.1
    rw [heq] at hcased
    exact absurd hcased (by decide +kernel)
  rw [Unicode.lowerAt, if_neg hsigma]

/-- What stands before a border does not matter behind it. -/
theorem IsBorder.lowercaseFrom (h : IsBorder c) (before between cs : List Char) :
    Unicode.lowercaseFrom (between ++ c :: before) [] cs =
      Unicode.lowercaseFrom between [] cs := by
  induction cs generalizing between with
  | nil => rfl
  | cons d cs ih =>
    have hrest := ih (d :: between)
    have hd : Unicode.lowerAt (between ++ c :: before) d cs = Unicode.lowerAt between d cs := by
      rw [Unicode.lowerAt, Unicode.lowerAt, isFinalSigma, isFinalSigma, h.besideCased]
    rw [lowercaseFrom_cons, lowercaseFrom_cons, hd, ← List.cons_append, hrest]

/-- The pieces before and behind a border are lower-cased one by one. -/
theorem lowercase_append_border (h : IsBorder c) (cs more : List Char) :
    lowercase (cs ++ c :: more) = lowercase cs ++ (lowerChar c ++ lowercase more) := by
  have hfrom (before : List Char) : lowercaseFrom before [] (cs ++ c :: more) =
      lowercaseFrom before [] cs ++ (lowerChar c ++ lowercase more) := by
    induction cs generalizing before with
    | nil =>
      rw [List.nil_append, lowercaseFrom_cons, h.lowerAt]
      exact congrArg (lowerChar c ++ ·) (h.lowercaseFrom before [] more)
    | cons d cs ih =>
      have hd : lowerAt before d (cs ++ c :: more) = lowerAt before d cs := by
        rw [lowerAt, lowerAt, isFinalSigma, isFinalSigma, h.besideCased]
      rw [List.cons_append, lowercaseFrom_cons, lowercaseFrom_cons, ih, hd, List.append_assoc]
  exact hfrom []

theorem isBorder_of_isBlank (h : isBlank c = true) : IsBorder c ∧ lowerChar c = [c] :=
  of_isBlank (p := fun c => IsBorder c ∧ lowerChar c = [c])
    (by unfold IsBorder; decide +kernel) h

theorem lowercase_blank_append {v : List Char} (h : v.all isBlank = true) (cs : List Char) :
    lowercase (v ++ cs) = v ++ lowercase cs := by
  induction v with
  | nil => rfl
  | cons c v ih =>
    rw [List.all_cons, Bool.and_eq_true] at h
    obtain ⟨hborder, hc⟩ := isBorder_of_isBlank h.1
    have hpieces := lowercase_append_border hborder [] (v ++ cs)
    rw [hc, ih h.2] at hpieces
    exact hpieces

theorem lowercase_append_blank {v : List Char} (h : v.all isBlank = true) (cs : List Char) :
    lowercase (cs ++ v) = lowercase cs ++ v := by
  cases v with
  | nil => rw [List.append_nil, List.append_nil]
  | cons c v =>
    rw [List.all_cons, Bool.and_eq_true] at h
    obtain ⟨hborder, hc⟩ := isBorder_of_isBlank h.1
    have hv := lowercase_blank_append h.2 []
    rw [List.append_nil] at hv
    rw [lowercase_append_border hborder, hc, hv]
    simp [lowercase, lowercaseFrom]

end Unicode

namespace Text

open Unicode

/-! ### Quotes and parentheses -/

/-- Whether `c` may change what is around the character behind it. -/
def nests (c : Char) : Bool := isQuoteMark c || c == '\\' || c == '(' || c == ')'

/-- Marks stay as they are. -/
theorem lowerAt_of_nests {c : Char} (h : nests c = true) (before after : Text) :
    lowerAt before c after = [c] := by
  rcases (by simpa [nests, isQuoteMark, or_assoc] using h) with
    rfl | rfl | rfl | rfl | rfl | rfl <;> rfl

theorem nests_code {c : Char} (h : nests c = true) : 0 < c.toNat ∧ c.toNat ≤ 0x60 := by
  rcases (by simpa [nests, isQuoteMark, or_assoc] using h) with
    rfl | rfl | rfl | rfl | rfl | rfl <;> decide

theorem not_nests_ofNat {n : Nat} (h : 0x60 < n) : nests (Char.ofNat n) = false := by
  -- A number that is no code point stands for the character zero.
  have htoNat : (Char.ofNat n).toNat = n ∨ (Char.ofNat n).toNat = 0 := by
    by_cases hvalid : n.isValidChar
    · rw [Char.ofNat, dif_pos hvalid]
      exact .inl rfl
    · rw [Char.ofNat, dif_neg hvalid]
      exact .inr rfl
  rw [Bool.eq_false_iff]
  intro hmark
  have hcode := nests_code hmark
  omega

/-- No other character becomes a mark. -/
theorem lowerChar_of_not_nests {c : Char} (h : nests c = false) :
    lowerChar c ≠ [] ∧ ∀ d ∈ lowerChar c, nests d = false := by
  unfold lowerChar
  split
  · next hascii =>
    have hall : ∀ n < 0x80, nests (Char.ofNat n) = false →
        nests (Char.ofNat n).toLower = false := by
      decide +kernel
    have hsmall := hall c.toNat hascii
    rw [Char.ofNat_toNat] at hsmall
    simpa using hsmall h
  split
  · exact ⟨List.cons_ne_nil _ _,
      List.forall_mem_cons.mpr ⟨rfl, List.forall_mem_singleton.mpr (not_nests_ofNat (by decide))⟩⟩
  split
  · next n hn =>
    obtain ⟨r, hr, himage⟩ := List.exists_of_findSome?_eq_some hn
    have hlow : ∀ r ∈ caseRuns, 0x60 < r.target := by decide +kernel
    have hn : 0x60 < n := by
      have htarget := hlow r hr
      unfold CaseRun.image? at himage
      split at himage
      · cases himage
        omega
      · cases himage
    simpa using not_nests_ofNat hn
  · simpa using h

theorem lowerAt_of_not_nests {c : Char} (h : nests c = false) (before after : Text) :
    lowerAt before c after ≠ [] ∧ ∀ d ∈ lowerAt before c after, nests d = false := by
  unfold lowerAt
  split
  · refine ⟨List.cons_ne_nil _ _, fun d hd => ?_⟩
    obtain rfl := List.mem_singleton.mp hd
    split <;> exact not_nests_ofNat (by decide)
  · exact lowerChar_of_not_nests h

namespace Nesting

variable {n : Nesting} {c : Char} {t : Text}

/-- What is around the character behind one that is no mark. -/
def passed (n : Nesting) : Nesting :=
  match n.quoting with
  | .outside => n
  | .inside quote _ => { n with quoting := .inside quote false }

theorem passed_passed (n : Nesting) : n.passed.passed = n.passed := by
  obtain ⟨quoting, depth⟩ := n
  cases quoting <;> rfl

theorem Marked.step_eq_passed (hn : n.Marked) (h : nests c = false) : n.step c = n.passed := by
  obtain ⟨quoting, depth⟩ := n
  simp only [nests, Bool.or_eq_false_iff, beq_eq_false_iff_ne] at h
  obtain ⟨⟨⟨hquote, hslash⟩, hopen⟩, hclose⟩ := h
  cases quoting with
  | outside =>
    rw [Nesting.step, Quoting.step, hquote, if_pos rfl, if_neg hopen, if_neg hclose]
    rfl
  | inside quote escaped =>
    have hne : c ≠ quote := by
      rintro rfl
      rw [hn c escaped rfl] at hquote
      cases hquote
    cases escaped with
    | true => rfl
    | false =>
      rw [Nesting.step, Quoting.step, if_neg fun h => hslash h.1, if_neg hne]
      rfl

theorem Marked.passed (hn : n.Marked) : n.passed.Marked := by
  rw [← hn.step_eq_passed (c := 'a') rfl]
  exact hn.step 'a'

/-- Characters that are no marks show nothing, and one of them does what all of them do. -/
theorem Marked.scan_plain (hn : n.Marked) {p : Char → Bool}
    (hp : ∀ c, nests c = false → p c = false) (ht : t ≠ []) (h : ∀ c ∈ t, nests c = false) :
    hides p n t = true ∧ n.after t = n.passed := by
  induction t generalizing n with
  | nil => exact absurd rfl ht
  | cons c t ih =>
    have hc := h c List.mem_cons_self
    rw [hides, hp c hc, Bool.and_false, after, List.foldl_cons, hn.step_eq_passed hc]
    cases t with
    | nil => exact ⟨rfl, rfl⟩
    | cons d t =>
      have hrest := ih hn.passed (List.cons_ne_nil d t) fun e he => h e (List.mem_cons_of_mem c he)
      rw [passed_passed] at hrest
      exact hrest

end Nesting

variable {n : Nesting} {p : Char → Bool}

/-- Scanning a text in lower case goes like scanning the text. -/
theorem scan_lowercase (hn : n.Marked) (hp : ∀ c, nests c = false → p c = false) (t : Text) :
    hides p n (lower t) = hides p n t ∧ n.after (lower t) = n.after t := by
  have hfrom (before : Text) : hides p n (lowercaseFrom before [] t) = hides p n t ∧
      n.after (lowercaseFrom before [] t) = n.after t := by
    induction t generalizing n before with
    | nil => exact ⟨rfl, rfl⟩
    | cons c t ih =>
      obtain ⟨hhides, hafter⟩ := ih (hn.step c) (c :: before)
      rw [lowercaseFrom_cons, hides_append, Nesting.after_append]
      cases hc : nests c with
      | true =>
        rw [lowerAt_of_nests hc, hides, hides, Bool.and_true, Nesting.after, List.foldl_cons,
          List.foldl_nil, hhides, hafter]
        exact ⟨rfl, rfl⟩
      | false =>
        obtain ⟨hne, hplain⟩ := lowerAt_of_not_nests hc before t
        obtain ⟨hshown, hpassed⟩ := hn.scan_plain hp hne hplain
        rw [hshown, hpassed, ← hn.step_eq_passed hc, hhides, hafter, hides, hp c hc, Bool.and_false]
        exact ⟨rfl, rfl⟩
  exact hfrom []

/-- Only marks become marks. -/
theorem mem_of_mem_lower {c : Char} (hc : nests c = true) {t : Text} (h : c ∈ lower t) :
    c ∈ t := by
  have hfrom (t before : Text) (hmem : c ∈ lowercaseFrom before [] t) : c ∈ t := by
    induction t generalizing before with
    | nil => cases hmem
    | cons d t ih =>
      rw [lowercaseFrom_cons] at hmem
      rcases List.mem_append.mp hmem with hhere | hlater
      · cases hd : nests d with
        | true =>
          rw [lowerAt_of_nests hd] at hhere
          exact List.mem_cons.mpr (.inl (List.mem_singleton.mp hhere))
        | false =>
          have hplain := (lowerAt_of_not_nests hd before t).2 c hhere
          rw [hc] at hplain
          cases hplain
      · exact List.mem_cons_of_mem d (ih (d :: before) hlater)
  exact hfrom t [] h

theorem mem_lower_of_mem {c : Char} (hc : nests c = true) {t : Text} (h : c ∈ t) :
    c ∈ lower t := by
  have hfrom (t before : Text) (hmem : c ∈ t) : c ∈ lowercaseFrom before [] t := by
    induction t generalizing before with
    | nil => cases hmem
    | cons d t ih =>
      rw [lowercaseFrom_cons]
      rcases List.mem_cons.mp hmem with rfl | hlater
      · rw [lowerAt_of_nests hc]
        exact List.mem_cons_self
      · exact List.mem_append_right _ (ih (d :: before) hlater)
  exact hfrom t [] h

/-! ### Words -/

theorem wordsFrom_done (done : List Text) (word t : Text) :
    wordsFrom done word t = done.reverse ++ wordsFrom [] word t := by
  induction t generalizing done word with
  | nil =>
    rw [wordsFrom, wordsFrom]
    split <;> simp
  | cons c t ih =>
    rw [wordsFrom, wordsFrom]
    split
    · rw [ih, ih (if word.isEmpty then [] else _)]
      split <;> simp
    · exact ih done (c :: word)

theorem wordsFrom_blank {c : Char} (hc : Unicode.isBlank c = true) (word t : Text) :
    wordsFrom [] word (c :: t) = wordsFrom [] word [] ++ words t := by
  change (if Unicode.isBlank c = true then _ else _) = _
  rw [if_pos hc, wordsFrom_done]
  rfl

/-- A blank parts the words before it from those behind. -/
theorem words_append_blank {c : Char} (hc : Unicode.isBlank c = true) (t u : Text) :
    words (t ++ c :: u) = words t ++ words u := by
  have hfrom (word : Text) :
      wordsFrom [] word (t ++ c :: u) = wordsFrom [] word t ++ words u := by
    induction t generalizing word with
    | nil => exact wordsFrom_blank hc word u
    | cons d t ih =>
      by_cases hd : Unicode.isBlank d = true
      · rw [List.cons_append, wordsFrom_blank hd, wordsFrom_blank hd, List.append_assoc]
        exact congrArg _ (ih [])
      · rw [List.cons_append, wordsFrom, wordsFrom, if_neg hd, if_neg hd]
        exact ih (d :: word)
  exact hfrom []

/-- Blanks before a text are in no word. -/
theorem words_blank_before {v : Text} (hv : isBlank v = true) (t : Text) :
    words (v ++ t) = words t := by
  induction v with
  | nil => rfl
  | cons c v ih =>
    obtain ⟨hc, hv⟩ := (Bool.and_eq_true _ _).mp hv
    rw [List.cons_append, ← ih hv]
    exact words_append_blank hc [] (v ++ t)

/-- Blanks behind a text are in no word. -/
theorem words_blank_behind {v : Text} (hv : isBlank v = true) (t : Text) :
    words (t ++ v) = words t := by
  cases v with
  | nil => rw [List.append_nil]
  | cons c v =>
    obtain ⟨hc, hv⟩ := (Bool.and_eq_true _ _).mp hv
    have hnone := words_blank_before hv []
    rw [List.append_nil] at hnone
    rw [words_append_blank hc, hnone]
    exact List.append_nil _

end Text

end SqlDump
