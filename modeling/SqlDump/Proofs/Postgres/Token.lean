import SqlDump.Postgres.Quote

/-!
# Tokens of PostgreSQL

The lexical rules by which PostgreSQL reads a statement: names in double quotes and strings in
single quotes, each with its quote written twice inside, where a backslash is a character like any
other; keywords in any case; brackets, commas and semicolons. All other spellings, among them
comments, numbers and strings with a prefix, have no tokens here. Strings on lines behind one
another stay apart.

Main statements: `tokens?_quoteName`, `tokens?_quoteString`, a quoted name or string is one token
with what was quoted; `tokens?_join`, items with commas between them are the tokens of the items
with commas between them.
-/

namespace SqlDump.Postgres

open Text

inductive Token where
  /-- A keyword, in lower case. -/
  | word (letters : Text)
  | name (content : Text)
  | string (content : Text)
  | mark (c : Char)
  deriving DecidableEq, Repr

namespace Token

def isBlank (c : Char) : Bool :=
  c == ' ' || c == '\t' || c == '\n' || c == '\r' || c == '\x0C'

def isMark (c : Char) : Bool := c == '(' || c == ')' || c == ',' || c == ';'

/-- Whether no token before `t` goes on in it. -/
def isBorder : Text → Bool
  | [] => true
  | c :: _ => isBlank c || isMark c

/-- The token at the start of a text without blanks before it, and what follows. A keyword ends at
a border, so that the prefix of a string is none. -/
def read? : Text → Option (Token × Text)
  | [] => none
  | c :: rest =>
    if c = '\x22' then
      (Identifier.readQuoted c [] rest).map fun (content, rest) => (.name content, rest)
    else if c = '\x27' then
      (Identifier.readQuoted c [] rest).map fun (content, rest) => (.string content, rest)
    else if isMark c then some (.mark c, rest)
    else if c.isAlpha && isBorder (rest.dropWhile Char.isAlpha) then
      some (.word (asciiLower (c :: rest.takeWhile Char.isAlpha)), rest.dropWhile Char.isAlpha)
    else none

theorem read?_lt {t rest : Text} {token : Token} (h : read? t = some (token, rest)) :
    rest.length < t.length := by
  cases t with
  | nil => simp [read?] at h
  | cons c t =>
    simp only [read?] at h
    by_cases hn : c = '\x22'
    · simp only [if_pos hn, Option.map_eq_some_iff, Prod.mk.injEq] at h
      obtain ⟨⟨content, more⟩, hread, _, rfl⟩ := h
      exact Nat.lt_succ_of_lt (Identifier.readQuoted_le hread)
    by_cases hs : c = '\x27'
    · simp only [if_neg hn, if_pos hs, Option.map_eq_some_iff, Prod.mk.injEq] at h
      obtain ⟨⟨content, more⟩, hread, _, rfl⟩ := h
      exact Nat.lt_succ_of_lt (Identifier.readQuoted_le hread)
    rw [if_neg hn, if_neg hs] at h
    split at h
    · simp only [Option.some.injEq, Prod.mk.injEq] at h
      obtain ⟨_, rfl⟩ := h
      exact Nat.lt_succ_self _
    · split at h
      · simp only [Option.some.injEq, Prod.mk.injEq] at h
        obtain ⟨_, rfl⟩ := h
        exact Nat.lt_succ_of_le (List.dropWhile_suffix _).length_le
      · cases h

end Token

/-- The tokens of a text; nothing if a part of it is none. -/
def tokens? (t : Text) : Option (List Token) :=
  match t with
  | [] => some []
  | c :: rest =>
    if Token.isBlank c then tokens? rest
    else
      match _h : Token.read? (c :: rest) with
      | none => none
      | some (token, more) => (tokens? more).map (token :: ·)
termination_by t.length
decreasing_by
  · exact Nat.lt_succ_self _
  · exact Token.read?_lt _h

theorem tokens?_nil : tokens? [] = some [] := by
  rw [tokens?]

theorem tokens?_blank {c : Char} (hc : Token.isBlank c = true) (rest : Text) :
    tokens? (c :: rest) = tokens? rest := by
  rw [tokens?, if_pos hc]

theorem tokens?_of_read? {c : Char} {t rest : Text} {token : Token} (hc : Token.isBlank c = false)
    (h : Token.read? (c :: t) = some (token, rest)) :
    tokens? (c :: t) = (tokens? rest).map (token :: ·) := by
  rw [tokens?, if_neg (by simp [hc])]
  split
  · rename_i hr
    rw [h] at hr
    cases hr
  · rename_i hr
    rw [h] at hr
    cases hr
    rfl

theorem tokens?_mark {c : Char} (hc : Token.isMark c = true) (rest : Text) :
    tokens? (c :: rest) = (tokens? rest).map (.mark c :: ·) := by
  have hcase : c = '(' ∨ c = ')' ∨ c = ',' ∨ c = ';' := by
    simpa [Token.isMark, or_assoc] using hc
  refine tokens?_of_read? ?_ ?_
  · rcases hcase with rfl | rfl | rfl | rfl <;> rfl
  · rcases hcase with rfl | rfl | rfl | rfl <;> rfl

/-- Behind a border no text begins with a quote. -/
theorem Token.ne_quote_of_isBorder {rest : Text} (h : isBorder rest = true) {quote : Char}
    (hq : quote = '\x22' ∨ quote = '\x27') (tail : Text) : rest ≠ quote :: tail := by
  intro he
  subst he
  rcases hq with rfl | rfl <;> simp [isBorder, isBlank, isMark] at h

theorem Token.read?_quoteName (name : Text) {rest : Text} (h : isBorder rest = true) :
    read? (quoteName name ++ rest) = some (.name name, rest) := by
  have hread := Identifier.readQuoted_double '\x22' [] name rest (ne_quote_of_isBorder h (.inl rfl))
  unfold quoteName Identifier.quoted
  simpa [read?] using hread

theorem Token.read?_quoteString (s : Text) {rest : Text} (h : isBorder rest = true) :
    read? (quoteString s ++ rest) = some (.string s, rest) := by
  have hread := Identifier.readQuoted_double '\x27' [] s rest (ne_quote_of_isBorder h (.inr rfl))
  unfold quoteString
  simpa [read?] using hread

/-- A quoted name is one token, and the name is what it holds. -/
theorem tokens?_quoteName (name : Text) {rest : Text} (h : Token.isBorder rest = true) :
    tokens? (quoteName name ++ rest) = (tokens? rest).map (.name name :: ·) :=
  tokens?_of_read? rfl (Token.read?_quoteName name h)

/-- A string literal is one token, and the text is what it holds. -/
theorem tokens?_quoteString (s : Text) {rest : Text} (h : Token.isBorder rest = true) :
    tokens? (quoteString s ++ rest) = (tokens? rest).map (.string s :: ·) :=
  tokens?_of_read? rfl (Token.read?_quoteString s h)

/-- The name in double quotes at the start of a text, and what follows. -/
def readName? (t : Text) : Option (Text × Text) :=
  match Token.read? t with
  | some (.name name, rest) => some (name, rest)
  | _ => none

/-- The string literal at the start of a text, and what follows. -/
def readString? (t : Text) : Option (Text × Text) :=
  match Token.read? t with
  | some (.string s, rest) => some (s, rest)
  | _ => none

theorem readName?_lt {t name rest : Text} (h : readName? t = some (name, rest)) :
    rest.length < t.length := by
  unfold readName? at h
  split at h
  · next hread =>
    cases h
    exact Token.read?_lt hread
  · cases h

theorem readName?_quoteName (name : Text) {rest : Text} (h : Token.isBorder rest = true) :
    readName? (quoteName name ++ rest) = some (name, rest) := by
  rw [readName?, Token.read?_quoteName name h]

theorem readString?_quoteString (s : Text) {rest : Text} (h : Token.isBorder rest = true) :
    readString? (quoteString s ++ rest) = some (s, rest) := by
  rw [readString?, Token.read?_quoteString s h]

/-- A border holds no letter. -/
theorem Token.not_alpha_of_border {c : Char} (h : (isBlank c || isMark c) = true) :
    c.isAlpha = false := by
  simp only [isBlank, isMark, Bool.or_eq_true, beq_iff_eq] at h
  rcases h with ((((rfl | rfl) | rfl) | rfl) | rfl) | ((rfl | rfl) | rfl) | rfl <;> rfl

/-- Letters up to a border are one keyword. -/
theorem tokens?_word {word rest : Text} (hw : word ≠ []) (hl : word.all Char.isAlpha = true)
    (h : Token.isBorder rest = true) :
    tokens? (word ++ rest) = (tokens? rest).map (.word (asciiLower word) :: ·) := by
  obtain ⟨c, letters, rfl⟩ := List.exists_cons_of_ne_nil hw
  obtain ⟨hc, hall⟩ := (Bool.and_eq_true _ _).mp hl
  have hletters := List.all_eq_true.mp hall
  have hstop : rest.takeWhile Char.isAlpha = [] ∧ rest.dropWhile Char.isAlpha = rest := by
    cases rest with
    | nil => exact ⟨rfl, rfl⟩
    | cons d rest =>
      have hd := Token.not_alpha_of_border h
      exact ⟨by simp [hd], by simp [hd]⟩
  have htake : (letters ++ rest).takeWhile Char.isAlpha = letters := by
    rw [List.takeWhile_append_of_pos hletters, hstop.1, List.append_nil]
  have hdrop : (letters ++ rest).dropWhile Char.isAlpha = rest := by
    rw [List.dropWhile_append_of_pos hletters, hstop.2]
  have hborder : Token.isBlank c = false ∧ Token.isMark c = false := by
    cases hm : Token.isBlank c || Token.isMark c with
    | false => exact Bool.or_eq_false_iff.mp hm
    | true =>
      rw [Token.not_alpha_of_border hm] at hc
      cases hc
  have hq : c ≠ '\x22' ∧ c ≠ '\x27' := by
    constructor
    · rintro rfl
      cases hc
    · rintro rfl
      cases hc
  refine tokens?_of_read? hborder.1 ?_
  simp [Token.read?, hq.1, hq.2, hborder.2, hc, hdrop, htake, h]

/-- A keyword with a blank behind it. -/
theorem tokens?_keyword (word : Text) (blank : Char) (hw : word ≠ [])
    (hl : word.all Char.isAlpha = true) (hb : Token.isBlank blank = true) (rest : Text) :
    tokens? (word ++ blank :: rest) = (tokens? rest).map (.word (asciiLower word) :: ·) := by
  have hborder : Token.isBorder (blank :: rest) = true := by
    simp [Token.isBorder, hb]
  rw [tokens?_word hw hl hborder, tokens?_blank hb]

/-- Items with a comma between neighbours. -/
def commas (items : List (List Token)) : List Token := List.intercalate [.mark ','] items

theorem commas_singleton (item : List Token) : commas [item] = item := by
  simp [commas, List.intercalate]

theorem commas_cons (item next : List Token) (items : List (List Token)) :
    commas (item :: next :: items) = item ++ .mark ',' :: commas (next :: items) := by
  simp [commas, List.intercalate]

/-- Where every item is read to its tokens up to a border, items with commas and blanks between
them are read to those tokens with commas between them. -/
theorem tokens?_join {α : Type} (text : α → Text) (tokens : α → List Token)
    (h : ∀ x rest, Token.isBorder rest = true →
      tokens? (text x ++ rest) = (tokens? rest).map (tokens x ++ ·))
    {blank : Char} (hb : Token.isBlank blank = true) (xs : List α) {rest : Text}
    (hrest : Token.isBorder rest = true) :
    tokens? (join [',', blank] (xs.map text) ++ rest) =
      (tokens? rest).map (commas (xs.map tokens) ++ ·) := by
  induction xs with
  | nil => simp [join, commas, List.intercalate]
  | cons x xs ih =>
    cases xs with
    | nil => simpa [join, List.intercalate, commas_singleton] using h x rest hrest
    | cons y ys =>
      have hsep := h x (',' :: blank :: (join [',', blank] ((y :: ys).map text) ++ rest)) rfl
      rw [tokens?_mark rfl, tokens?_blank hb, ih, Option.map_map, Option.map_map] at hsep
      simpa [join, List.intercalate, commas_cons, Function.comp_def] using hsep

end SqlDump.Postgres
