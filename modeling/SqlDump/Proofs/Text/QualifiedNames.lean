import SqlDump.Proofs.Text.Names

/-!
# Chains of names

A qualified name with its parts in quotes of either kind or bare, and any blanks around the dots
between them. Only the last part counts. A bare part that is empty is no name: at the end of a chain
the reader would take the text behind the dot for it.

Main statements: `NamePart.read_append`, a part is read back; `readQualified_lt`, reading a chain
takes a character; `readQualified_chain_iff`, the last part of a chain is read back, and the text
behind it left, exactly where no part is missing.
-/

namespace SqlDump.Identifier

open Text

theorem isDelimiter_of_isQuote {c : Char} (h : isQuote c = true) : isDelimiter c = false := by
  rcases (by simpa [isQuote] using h) with rfl | rfl <;> rfl

theorem isBlank_of_not_isDelimiter {c : Char} (h : isDelimiter c = false) :
    Unicode.isBlank c = false := by
  simp only [isDelimiter, Bool.or_eq_false_iff] at h
  exact h.1.1.1.1.1.1

/-- No name begins with a delimiter. -/
theorem read_of_isDelimiter {t : Text} (h : ∀ c ∈ t.head?, isDelimiter c = true) :
    read t = none := by
  cases t with
  | nil => rfl
  | cons c t =>
    have hc := h c rfl
    have hquote : ¬isQuote c = true := by
      intro hquote
      rw [isDelimiter_of_isQuote hquote] at hc
      cases hc
    rw [read, if_neg hquote, if_pos hc]

/-- A name as a part of a chain. -/
inductive NamePart where
  | quoted (quote : Char) (name : Text)
  | bare (name : Text)
  deriving DecidableEq

namespace NamePart

variable {part : NamePart} {rest : Text}

def name : NamePart → Text
  | quoted _ name => name
  | bare name => name

/-- The part as it stands in the chain, its quote written twice inside. -/
def text : NamePart → Text
  | quoted quote name => Identifier.quoted quote name
  | bare name => name

/-- Names are quoted in backticks or double quotes. A bare name has no blank and no delimiter, and
does not begin with such a quote. -/
def IsWritten : NamePart → Prop
  | quoted quote _ => isQuote quote = true
  | bare name => name.any isDelimiter = false ∧ name.head?.any isQuote = false

/-- The rest does not continue the part: with its quote once more, or with what could belong to a
bare name. -/
def EndsBefore (rest : Text) : NamePart → Prop
  | quoted quote _ => ∀ c ∈ rest.head?, c ≠ quote
  | bare _ => ∀ c ∈ rest.head?, isDelimiter c = true

/-- A part without a text of its own. -/
abbrev missing : NamePart := bare []

theorem not_isDelimiter_of_mem {name : Text} (h : (bare name).IsWritten) {c : Char}
    (hc : c ∈ name) : isDelimiter c = false :=
  Bool.eq_false_iff.mpr (List.any_eq_false.mp h.1 c hc)

/-- A part that is not missing begins with neither a blank nor a delimiter. -/
theorem exists_text (h : part.IsWritten) (hpart : part ≠ missing) :
    ∃ c more, part.text = c :: more ∧ isDelimiter c = false := by
  cases part with
  | quoted quote name => exact ⟨quote, _, rfl, isDelimiter_of_isQuote h⟩
  | bare name =>
    cases name with
    | nil => exact absurd rfl hpart
    | cons c name => exact ⟨c, name, rfl, not_isDelimiter_of_mem h List.mem_cons_self⟩

/-- A delimiter or a blank continues no part. -/
theorem IsWritten.endsBefore (h : part.IsWritten)
    (hrest : ∀ c ∈ rest.head?, isDelimiter c = true) : part.EndsBefore rest := by
  cases part with
  | quoted quote name =>
    rintro c hc rfl
    have hdelimiter := hrest c hc
    rw [isDelimiter_of_isQuote h] at hdelimiter
    cases hdelimiter
  | bare name => exact hrest

/-- A part is read back where the rest does not continue it. -/
theorem read_append (h : part.IsWritten) (hpart : part ≠ missing) (hend : part.EndsBefore rest) :
    read (part.text ++ rest) = some (part.name, rest) := by
  cases part with
  | quoted quote name =>
    refine read_quotedIn h name ?_
    rintro tail rfl
    exact hend quote rfl rfl
  | bare name =>
    have hend : ∀ c more, rest = c :: more → (!isDelimiter c) = false := by
      rintro c more rfl
      rw [hend c rfl]
      rfl
    have hname : ∀ c ∈ name, (!isDelimiter c) = true := by
      intro c hc
      rw [not_isDelimiter_of_mem h hc]
      rfl
    obtain ⟨htake, hdrop⟩ := takeWhile_append_rest hname hend
    cases name with
    | nil => exact absurd rfl hpart
    | cons c name =>
      have hquote : ¬isQuote c = true := Bool.eq_false_iff.mp h.2
      have hdelimiter : ¬isDelimiter c = true :=
        Bool.eq_false_iff.mp (not_isDelimiter_of_mem h List.mem_cons_self)
      rw [List.cons_append] at htake hdrop
      rw [text, List.cons_append, read, if_neg hquote, if_neg hdelimiter, htake, hdrop]
      rfl

end NamePart

/-- A part of a chain that is not the last, with the blanks around the dot behind it. -/
structure Qualifier where
  part : NamePart
  before : Text := []
  behind : Text := []

structure Qualifier.IsWritten (q : Qualifier) : Prop where
  part : q.part.IsWritten
  before : isBlank q.before = true
  behind : isBlank q.behind = true

def Qualifier.text (q : Qualifier) : Text := q.part.text ++ (q.before ++ '.' :: q.behind)

/-- The chain with the qualifiers before its last part. -/
def chain (qualifiers : List Qualifier) (last : NamePart) : Text :=
  qualifiers.flatMap Qualifier.text ++ last.text

def parts (qualifiers : List Qualifier) (last : NamePart) : List NamePart :=
  qualifiers.map Qualifier.part ++ [last]

/-! ## One part -/

section Step

variable {q : Qualifier} {rest : Text}

theorem trimStart_text_append {part : NamePart} (h : part.IsWritten) (hpart : part ≠ .missing)
    (rest : Text) : trimStart (part.text ++ rest) = part.text ++ rest := by
  obtain ⟨c, more, htext, hc⟩ := NamePart.exists_text h hpart
  rw [htext]
  exact trimStart_solid (isBlank_of_not_isDelimiter hc) [] _

/-- Behind a part comes its dot, or a blank. -/
theorem Qualifier.IsWritten.isDelimiter (h : q.IsWritten) (rest : Text) :
    ∀ c ∈ (q.before ++ '.' :: rest).head?, isDelimiter c = true := by
  intro c hc
  cases hbefore : q.before with
  | nil =>
    rw [hbefore] at hc
    obtain rfl := Option.some.inj hc
    rfl
  | cons d before =>
    rw [hbefore] at hc
    obtain rfl := Option.some.inj hc
    have hblank := h.before
    rw [hbefore, isBlank, List.all_cons, Bool.and_eq_true] at hblank
    simp [Identifier.isDelimiter, hblank.1]

/-- A part with a dot behind it is passed over, and the blanks too. -/
theorem Qualifier.readQualified_append (h : q.IsWritten) (hpart : q.part ≠ .missing)
    (rest : Text) : readQualified (q.text ++ rest) = readQualified (trimStart rest) := by
  have hend : q.part.EndsBefore (q.before ++ '.' :: (q.behind ++ rest)) :=
    h.part.endsBefore (h.isDelimiter _)
  have hdot : trimStart (q.before ++ '.' :: (q.behind ++ rest)) = '.' :: (q.behind ++ rest) :=
    trimStart_blank_append h.before _
  have hread := NamePart.read_append h.part hpart hend
  have htext : q.text ++ rest = q.part.text ++ (q.before ++ '.' :: (q.behind ++ rest)) := by
    simp [text]
  rw [htext, readQualified_dot hread hdot, trimStart_blank_append h.behind]

/-- Where a part is missing before a dot, reading ends there. -/
theorem Qualifier.readQualified_missing (h : q.IsWritten) (hpart : q.part = .missing) {t : Text}
    (ht : t = q.text ++ rest ∨ t = trimStart (q.text ++ rest)) :
    readQualified t = (none, t) := by
  refine readQualified_of_none (read_of_isDelimiter ?_)
  have htext : q.text ++ rest = q.before ++ '.' :: (q.behind ++ rest) := by
    simp [text, hpart, NamePart.text]
  rw [htext] at ht
  rcases ht with rfl | rfl
  · exact h.isDelimiter _
  · rw [trimStart_blank_append h.before]
    rintro c ⟨rfl⟩
    rfl

end Step

/-- Reading a chain of names takes a character. -/
theorem readQualified_lt {t name rest : Text} (h : readQualified t = (some name, rest)) :
    rest.length < t.length := by
  fun_induction readQualified t with
  | case1 => cases h
  | case2 t found behind hread more hdot ih =>
    have hmore := ih h
    have hfound := read_lt hread
    have hbehind := (List.dropWhile_suffix Unicode.isBlank (l := behind)).length_le
    have htrim := (List.dropWhile_suffix Unicode.isBlank (l := more)).length_le
    rw [trimStart] at hdot hmore
    rw [hdot, List.length_cons] at hbehind
    omega
  | case3 t found behind hread hdot =>
    cases h
    exact read_lt hread

/-! ## The chain -/

section Chain

variable {qualifiers : List Qualifier} {last : NamePart} {rest : Text}

/-- From the first part on, with the blanks before it or without them. -/
theorem readQualified_parts (hqualifiers : ∀ q ∈ qualifiers, q.IsWritten)
    (hlast : last.IsWritten) (hend : last.EndsBefore rest)
    (hdot : ∀ tail, trimStart rest ≠ '.' :: tail) {t : Text}
    (ht : t = chain qualifiers last ++ rest ∨ t = trimStart (chain qualifiers last ++ rest)) :
    readQualified t = (some last.name, rest) ↔ .missing ∉ parts qualifiers last := by
  induction qualifiers generalizing t with
  | nil =>
    rw [chain, List.flatMap_nil, List.nil_append] at ht
    by_cases hpart : last = .missing
    · -- Whatever is read in its place is taken from the rest, so that less than the rest is left.
      subst hpart
      have hlength : t.length ≤ rest.length := by
        rcases ht with rfl | rfl
        · exact Nat.le_refl _
        · exact (List.dropWhile_suffix _).length_le
      refine iff_of_false (fun h => ?_) fun h => h List.mem_cons_self
      exact absurd (readQualified_lt h) (Nat.not_lt.mpr hlength)
    · rw [trimStart_text_append hlast hpart, or_self] at ht
      subst ht
      refine iff_of_true (readQualified_last (NamePart.read_append hlast hpart hend) hdot) ?_
      exact fun h => hpart (List.mem_singleton.mp h).symm
  | cons q qualifiers ih =>
    have hq := hqualifiers q List.mem_cons_self
    have hrest := @ih fun r hr => hqualifiers r (List.mem_cons_of_mem q hr)
    have htext : chain (q :: qualifiers) last ++ rest =
        q.text ++ (chain qualifiers last ++ rest) := by
      simp [chain]
    rw [htext] at ht
    by_cases hpart : q.part = .missing
    · rw [q.readQualified_missing hq hpart ht]
      refine iff_of_false nofun fun h => h ?_
      rw [← hpart]
      exact List.mem_cons_self
    · have hsolid : trimStart (q.text ++ (chain qualifiers last ++ rest)) =
          q.text ++ (chain qualifiers last ++ rest) := by
        rw [Qualifier.text, List.append_assoc, trimStart_text_append hq.part hpart]
      rw [hsolid, or_self] at ht
      subst ht
      rw [q.readQualified_append hq hpart, hrest (.inr rfl)]
      change _ ↔ .missing ∉ q.part :: parts qualifiers last
      rw [List.mem_cons, not_or]
      exact (and_iff_right fun h => hpart h.symm).symm

/-- The last part of a chain is read back and what stands behind it is left, unless some part is
missing. -/
theorem readQualified_chain_iff (hqualifiers : ∀ q ∈ qualifiers, q.IsWritten)
    (hlast : last.IsWritten) (hend : last.EndsBefore rest)
    (hdot : ∀ tail, trimStart rest ≠ '.' :: tail) :
    readQualified (chain qualifiers last ++ rest) = (some last.name, rest) ↔
      .missing ∉ parts qualifiers last :=
  readQualified_parts hqualifiers hlast hend hdot (.inl rfl)

end Chain

/-- Each part as it likes, with blanks around the dots; the blank behind the last part is left. -/
theorem readQualified_chain_iff_mixed :
    readQualified "`my``shop` . stock.\t\"a\"\"b.\" (id)" =
      (some ("a\"b." : Text), (" (id)" : Text)) := by
  have hwritten : ∀ q ∈ [Qualifier.mk (.quoted '\x60' "my`shop") " " " ",
      Qualifier.mk (.bare "stock") [] "\t"], q.IsWritten := by
    rintro q (_ | ⟨_, _ | ⟨_, ⟨⟩⟩⟩)
    · exact ⟨rfl, rfl, rfl⟩
    · exact ⟨⟨rfl, rfl⟩, rfl, rfl⟩
  have hlast : (NamePart.quoted '\x22' "a\"b.").IsWritten := rfl
  have hdot : ∀ tail, trimStart " (id)" ≠ '.' :: tail := by
    rintro tail ⟨⟩
  exact (readQualified_chain_iff hwritten hlast (by rintro c ⟨⟩; decide) hdot).mpr (by decide)

/-- Nothing is a bare part without a blank or a delimiter, but it is no name. -/
theorem readQualified_chain_missing :
    (∀ q ∈ [Qualifier.mk (.bare "db") [] []], q.IsWritten) ∧ (NamePart.bare []).IsWritten ∧
      (NamePart.bare []).EndsBefore "(x)" ∧ (∀ tail, trimStart "(x)" ≠ '.' :: tail) ∧
      readQualified (chain [Qualifier.mk (.bare "db") [] []] (.bare []) ++ "(x)") =
        (none, ("(x)" : Text)) := by
  refine ⟨?_, ⟨rfl, rfl⟩, by rintro c ⟨⟩; rfl, by rintro tail ⟨⟩, ?_⟩
  · intro q hq
    obtain rfl := List.mem_singleton.mp hq
    exact ⟨⟨rfl, rfl⟩, rfl, rfl⟩
  · have hread : read "db.(x)" = some (("db" : Text), (".(x)" : Text)) := rfl
    exact (readQualified_dot hread rfl).trans (readQualified_of_none rfl)

end SqlDump.Identifier
