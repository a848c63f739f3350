import SqlDump.Proofs.Schema.Definition
import SqlDump.Proofs.Value.Literal

/-!
# Columns as a dump lists them

A column in the listing of a table: its name in backticks, its type with arguments and attributes,
and its modifiers, with one blank before each token. The tokens are told apart whatever stands in
quotes and parentheses, and the column is read back from them.

Main statements: `Spelling.shields`, a quoted literal shows nothing; `TypeListing.readType?_tokens`,
the type is read back; `Modifier.applyModifiers_tokens`, so are the modifiers;
`ColumnListing.parse?_text`, so is the column.
-/

namespace SqlDump

open Text

namespace Spelling

variable {quote : Char} {written content : Text}

/-- Between quotes nothing shows, and the text does not end them. -/
theorem hides_written (h : Spelling quote written content) (hq : IsValueQuote quote)
    {p : Char → Bool} (hp : p quote = false) (depth : Nat) :
    hides p ⟨.inside quote false, depth⟩ written = true ∧
      Nesting.after ⟨.inside quote false, depth⟩ written = ⟨.inside quote false, depth⟩ := by
  have hopen : Nesting.step ⟨.outside, depth⟩ quote = ⟨.inside quote false, depth⟩ := by
    obtain rfl | rfl := hq <;> rfl
  have hclose : Nesting.step ⟨.inside quote false, depth⟩ quote = ⟨.outside, depth⟩ := by
    obtain rfl | rfl := hq <;> rfl
  have hescape : Nesting.step ⟨.inside quote false, depth⟩ '\\' = ⟨.inside quote true, depth⟩ := by
    obtain rfl | rfl := hq <;> rfl
  have hescaped (c : Char) :
      Nesting.step ⟨.inside quote true, depth⟩ c = ⟨.inside quote false, depth⟩ := rfl
  induction h with
  | nil => exact ⟨rfl, rfl⟩
  | @plain c written content hb hc _ ih =>
    have hstay : Nesting.step ⟨.inside quote false, depth⟩ c = ⟨.inside quote false, depth⟩ := by
      simp [Nesting.step, Quoting.step, hb, hc]
    constructor
    · simp [hides, hstay, ih.1, Nesting.isTop]
    · rw [Nesting.after, List.foldl_cons, hstay]
      exact ih.2
  | @escaped c written content _ ih =>
    constructor
    · simp [hides, hescape, hescaped, ih.1, Nesting.isTop]
    · rw [Nesting.after, List.foldl_cons, List.foldl_cons, hescape, hescaped]
      exact ih.2
  | doubled _ ih =>
    constructor
    · simp [hides, hclose, hopen, hp, ih.1, Nesting.isTop]
    · rw [Nesting.after, List.foldl_cons, List.foldl_cons, hclose, hopen]
      exact ih.2

/-- A quoted literal shows nothing and is left behind. -/
theorem shields (h : Spelling quote written content) (hq : IsValueQuote quote)
    {p : Char → Bool} (hp : p quote = false) : Shields p (quote :: (written ++ [quote])) := by
  obtain ⟨hhides, hafter⟩ := h.hides_written hq hp 0
  have hopen : Nesting.step {} quote = ⟨.inside quote false, 0⟩ := by
    obtain rfl | rfl := hq <;> rfl
  have hclose : Nesting.step ⟨.inside quote false, 0⟩ quote = {} := by
    obtain rfl | rfl := hq <;> rfl
  constructor
  · rw [hides, hopen, hides_append, hhides, hafter, hp]
    rfl
  · rw [Nesting.after, List.foldl_cons, hopen, ← Nesting.after, Nesting.after_append, hafter]
    exact hclose

end Spelling

/-! ## Tokens -/

/-- What can be one token of a column: no blank, comma or parenthesis shows, and no blank ends
it. -/
structure IsToken (t : Text) : Prop where
  ends : endsSolid t = true
  hidden : Shields (fun c => Unicode.isBlank c || c == ',' || c == ')') t

namespace IsToken

variable {t : Text}

theorem ne_nil (h : IsToken t) : t ≠ [] := by
  rintro rfl
  cases h.ends

theorem isItem (h : IsToken t) : IsItem t :=
  h.hidden.mono fun c hc => by rw [Bool.or_assoc, hc, Bool.or_true]

theorem blank (h : IsToken t) : Shields Unicode.isBlank t :=
  h.hidden.mono fun c hc => by rw [hc, Bool.true_or, Bool.true_or]

end IsToken

/-- The quotes and parentheses, and what parts a list or ends a statement. -/
def marks : Text := [',', ';', '(', ')', '\x27', '\x22', '\x60']

/-- What stands in a bare word. -/
def isPlain (c : Char) : Bool := !Unicode.isBlank c && !marks.contains c

theorem isPlain_iff {c : Char} :
    isPlain c = true ↔ Unicode.isBlank c = false ∧ ∀ d ∈ marks, c ≠ d := by
  simp [isPlain, marks]

theorem isPlain_of_isAlpha {c : Char} (h : c.isAlpha = true) : isPlain c = true := by
  refine isPlain_iff.mpr ⟨Unicode.not_isBlank_of_isAlpha h, ?_⟩
  rintro d hd rfl
  have hmark := List.all_eq_true.mp (by decide : marks.all (!Char.isAlpha ·) = true) c hd
  rw [h] at hmark
  cases hmark

/-- A bare word, such as a number. -/
structure Word where
  text : Text
  ne_nil : text ≠ []
  plain : text.all isPlain = true

theorem Word.isPlain_of_mem {w : Word} {c : Char} (h : c ∈ w.text) : isPlain c = true :=
  List.all_eq_true.mp w.plain c h

theorem IsToken.of_plain {t : Text} (hne : t ≠ []) (hplain : t.all isPlain = true) :
    IsToken t where
  ends := by
    have hlast := (isPlain_iff.mp (List.all_eq_true.mp hplain _ (List.getLast_mem hne))).1
    rw [endsSolid, List.getLast?_eq_some_getLast hne, Option.any_some, hlast]
    rfl
  hidden := Shields.of_plain fun c hc => by
    obtain ⟨hblank, hmarks⟩ := isPlain_iff.mp (List.all_eq_true.mp hplain c hc)
    simp only [marks, List.forall_mem_cons] at hmarks
    simp [hblank, isQuoteMark, hmarks]

theorem Word.isToken (w : Word) : IsToken w.text := IsToken.of_plain w.ne_nil w.plain

/-- A text between quotes. -/
structure QuotedLiteral where
  quote : Char
  written : Text
  content : Text
  isQuote : IsValueQuote quote
  spelling : Spelling quote written content

namespace QuotedLiteral

def token (l : QuotedLiteral) : Text := l.quote :: (l.written ++ [l.quote])

theorem ofToken (l : QuotedLiteral) : Value.ofToken l.token = .text l.content :=
  (l.spelling.reads l.isQuote).ofToken
    (trim_of_solid l.isQuote.isBlank l.isQuote.isBlank l.written)

theorem isToken (l : QuotedLiteral) : IsToken l.token where
  ends := endsSolid_iff.mpr ⟨l.quote :: l.written, l.quote, l.isQuote.isBlank, rfl⟩
  hidden := l.spelling.shields l.isQuote (by obtain h | h := l.isQuote <;> rw [h] <;> rfl)

end QuotedLiteral

/-! ## Types -/

/-- The text between the parentheses of a type. -/
structure ArgumentList where
  text : Text
  closed : Shields (· == ')') text

inductive TypeAttribute where
  | unsigned
  | zerofill
  deriving DecidableEq, Repr

def TypeAttribute.keyword : TypeAttribute → Text
  | .unsigned => "unsigned"
  | .zerofill => "zerofill"

/-- A type as a dump lists it: a word of the letters A to Z, in parentheses what it is of, and
attributes. -/
structure TypeListing where
  word : Text
  word_ne_nil : word ≠ []
  letters : word.all Char.isAlpha = true
  arguments : Option ArgumentList
  attributes : List TypeAttribute

namespace TypeListing

def argumentText : Option ArgumentList → Text
  | some list => '(' :: (list.text ++ [')'])
  | none => []

/-- The word with its arguments, which is one token. -/
def head (t : TypeListing) : Text := t.word ++ argumentText t.arguments

def tokens (t : TypeListing) : List Text := t.head :: t.attributes.map TypeAttribute.keyword

def text (t : TypeListing) : Text :=
  t.head ++ (t.attributes.map TypeAttribute.keyword).flatMap (' ' :: ·)

theorem isToken_head (t : TypeListing) : IsToken t.head := by
  have hword : IsToken t.word :=
    IsToken.of_plain t.word_ne_nil <| List.all_eq_true.mpr fun c hc =>
      isPlain_of_isAlpha (List.all_eq_true.mp t.letters c hc)
  cases h : t.arguments with
  | none =>
    rw [head, h, argumentText, List.append_nil]
    exact hword
  | some list =>
    rw [head, h, argumentText]
    refine ⟨endsSolid_append t.word ?_, hword.hidden.append (Shields.group list.closed rfl)⟩
    exact endsSolid_iff.mpr ⟨'(' :: list.text, ')', rfl, rfl⟩

theorem any_isAlpha_head (t : TypeListing) : t.head.head?.any Char.isAlpha = true := by
  obtain ⟨c, rest, hword⟩ := List.exists_cons_of_ne_nil t.word_ne_nil
  have hletters := t.letters
  rw [hword, List.all_cons, Bool.and_eq_true] at hletters
  rw [head, hword, List.cons_append, List.head?_cons, Option.any_some]
  exact hletters.1

theorem isToken_of_mem {t : TypeListing} {token : Text} (h : token ∈ t.tokens) :
    IsToken token := by
  obtain rfl | h := List.mem_cons.mp h
  · exact t.isToken_head
  · obtain ⟨a, -, rfl⟩ := List.mem_map.mp h
    cases a with
    | unsigned => exact IsToken.of_plain (by decide) (by decide)
    | zerofill => exact IsToken.of_plain (by decide) (by decide)

end TypeListing

/-! ## Modifiers -/

/-- The default of a column as a dump lists it. -/
inductive DefaultListing where
  | literal (l : QuotedLiteral)
  | word (w : Word)

def DefaultListing.token : DefaultListing → Text
  | .literal l => l.token
  | .word w => w.text

theorem DefaultListing.isToken (d : DefaultListing) : IsToken d.token := by
  cases d with
  | literal l => exact l.isToken
  | word w => exact w.isToken

/-- What may follow the type of a column. -/
inductive Modifier where
  | notNull
  | default (d : DefaultListing)
  | autoIncrement
  | comment (l : QuotedLiteral)

namespace Modifier

def tokens : Modifier → List Text
  | .notNull => ["NOT", "NULL"]
  | .default d => ["DEFAULT", d.token]
  | .autoIncrement => ["AUTO_INCREMENT"]
  | .comment l => ["COMMENT", l.token]

/-- The column with the modifier. -/
def apply (c : Column) : Modifier → Column
  | .notNull => { c with nullable := false }
  | .default d => { c with default := some d.token }
  | .autoIncrement => { c with autoIncrement := true }
  | .comment l => { c with comment := some l.content }

theorem isToken_of_mem (m : Modifier) : ∀ token ∈ m.tokens, IsToken token := by
  cases m with
  | notNull =>
    rw [tokens, List.forall_mem_cons, List.forall_mem_singleton]
    exact ⟨IsToken.of_plain (by decide) (by decide), IsToken.of_plain (by decide) (by decide)⟩
  | default d =>
    rw [tokens, List.forall_mem_cons, List.forall_mem_singleton]
    exact ⟨IsToken.of_plain (by decide) (by decide), d.isToken⟩
  | autoIncrement =>
    rw [tokens, List.forall_mem_singleton]
    exact IsToken.of_plain (by decide) (by decide)
  | comment l =>
    rw [tokens, List.forall_mem_cons, List.forall_mem_singleton]
    exact ⟨IsToken.of_plain (by decide) (by decide), l.isToken⟩

/-- One modifier is applied, and what follows it is read next. -/
theorem applyModifiers_tokens_append (c : Column) (m : Modifier) (rest : List Text) :
    Column.applyModifiers c (m.tokens ++ rest) = Column.applyModifiers (m.apply c) rest := by
  cases m with
  | notNull =>
    rw [tokens, List.cons_append, Column.applyModifiers]
    rfl
  | default d =>
    rw [tokens, List.cons_append, Column.applyModifiers]
    rfl
  | autoIncrement =>
    rw [tokens, List.cons_append, Column.applyModifiers]
    rfl
  | comment l =>
    have hcontent : (Value.ofToken l.token).content? = some l.content := by
      rw [l.ofToken]
      rfl
    rw [tokens, List.cons_append, Column.applyModifiers, apply, ← hcontent]
    rfl

/-- The modifiers are applied one after another. -/
theorem applyModifiers_tokens (c : Column) (ms : List Modifier) :
    Column.applyModifiers c (ms.flatMap tokens) = (ms.foldl apply c, none) := by
  induction ms generalizing c with
  | nil => rw [List.flatMap_nil, Column.applyModifiers, List.foldl_nil]
  | cons m ms ih => rw [List.flatMap_cons, applyModifiers_tokens_append, ih, List.foldl_cons]

end Modifier

/-- The first token behind a type is of the type only if it is one of its attributes. -/
theorem Modifier.head_tokens (ms : List Modifier) {token : Text} {rest : List Text}
    (h : ms.flatMap tokens = token :: rest) :
    Column.isTypeAttribute token = false ∧ startsWith "(" token = false := by
  cases ms with
  | nil => cases h
  | cons m ms =>
    cases m with
    | notNull =>
      cases h
      decide
    | default d =>
      cases h
      decide
    | autoIncrement =>
      cases h
      decide
    | comment l =>
      cases h
      decide

/-- A type is read up to the first token that cannot belong to it. -/
theorem readType?_append {head : Text} {attributes rest : List Text}
    (hhead : head.head?.any Char.isAlpha = true)
    (hattributes : ∀ token ∈ attributes,
      Column.isTypeAttribute token = true ∧ startsWith "(" token = false)
    (hrest : ∀ token more, rest = token :: more →
      Column.isTypeAttribute token = false ∧ startsWith "(" token = false) :
    Column.readType? (head :: (attributes ++ rest)) =
      some (head ++ attributes.flatMap (' ' :: ·), rest) := by
  have hopen : ∀ token more, attributes ++ rest = token :: more →
      startsWith "(" token = false := by
    intro token more h
    cases attributes with
    | nil => exact (hrest token more h).2
    | cons a as =>
      cases h
      exact (hattributes token List.mem_cons_self).2
  obtain ⟨htake, hdrop⟩ := takeWhile_append_rest (fun token h => (hattributes token h).1)
    fun token more h => (hrest token more h).1
  unfold Column.readType?
  simp only [hhead, Bool.not_true, Bool.false_eq_true, if_false]
  split
  · next token more heq =>
    simp only [hopen token more heq, Bool.false_eq_true, if_false, htake, hdrop]
    rfl
  · next heq =>
    obtain ⟨rfl, rfl⟩ := List.append_eq_nil_iff.mp heq
    rfl

/-- The type is read back from its tokens, whatever modifiers follow. -/
theorem TypeListing.readType?_tokens (t : TypeListing) (ms : List Modifier) :
    Column.readType? (t.tokens ++ ms.flatMap Modifier.tokens) =
      some (t.text, ms.flatMap Modifier.tokens) := by
  have hattributes : ∀ token ∈ t.attributes.map TypeAttribute.keyword,
      Column.isTypeAttribute token = true ∧ startsWith "(" token = false := by
    intro token htoken
    obtain ⟨a, -, rfl⟩ := List.mem_map.mp htoken
    cases a <;> decide
  exact readType?_append t.any_isAlpha_head hattributes fun token more h =>
    Modifier.head_tokens ms h

/-! ## Columns -/

/-- A name that is not empty. -/
structure Name where
  text : Text
  ne_nil : text ≠ []

def Name.quoted (n : Name) : Text := Identifier.quoted '\x60' n.text

/-- A column as a dump lists it. -/
structure ColumnListing where
  name : Name
  type : TypeListing
  notNull : Bool
  default : Option DefaultListing
  autoIncrement : Bool
  comment : Option QuotedLiteral

namespace ColumnListing

def modifiers (c : ColumnListing) : List Modifier :=
  (if c.notNull then [.notNull] else []) ++ (c.default.map .default).toList ++
    (if c.autoIncrement then [.autoIncrement] else []) ++ (c.comment.map .comment).toList

def tokens (c : ColumnListing) : List Text := c.type.tokens ++ c.modifiers.flatMap Modifier.tokens

/-- The column as a dump writes it. -/
def text (c : ColumnListing) : Text := c.name.quoted ++ c.tokens.flatMap (' ' :: ·)

/-- The column that the listing describes. -/
def column (c : ColumnListing) : Column where
  name := c.name.text
  type := c.type.text
  nullable := !c.notNull
  default := c.default.map DefaultListing.token
  autoIncrement := c.autoIncrement
  comment := c.comment.map QuotedLiteral.content

/-- What a dump writes for a column are tokens. -/
theorem isToken_of_mem {c : ColumnListing} {token : Text} (h : token ∈ c.tokens) :
    IsToken token := by
  obtain h | h := List.mem_append.mp h
  · exact TypeListing.isToken_of_mem h
  · obtain ⟨m, -, hm⟩ := List.mem_flatMap.mp h
    exact m.isToken_of_mem token hm

theorem foldl_modifiers (c : ColumnListing) :
    c.modifiers.foldl Modifier.apply { name := c.name.text, type := c.type.text } = c.column := by
  obtain ⟨name, type, notNull, default, autoIncrement, comment⟩ := c
  cases notNull <;> cases default <;> cases autoIncrement <;> cases comment <;> rfl

/-- What a dump writes for a column is one item. -/
theorem isItem_text (c : ColumnListing) : IsItem c.text := by
  refine (shields_quoted rfl c.name.text).append (Shields.flatMap fun token h => ?_)
  exact Shields.cons rfl (by decide) (by decide) rfl (isToken_of_mem h).isItem

theorem endsSolid_text (c : ColumnListing) : endsSolid c.text = true := by
  have hne : c.tokens ≠ [] := nofun
  have hlast := isToken_of_mem (List.getLast_mem hne)
  rw [text, ← List.dropLast_concat_getLast hne, List.flatMap_append, List.flatMap_singleton,
    ← List.append_assoc, ← List.singleton_append]
  exact endsSolid_append _ (endsSolid_append _ hlast.ends)

/-- The column is read back. -/
theorem parse?_text (c : ColumnListing) : Column.parse? c.text = some (c.column, none) := by
  have hname : Identifier.read c.text = some (c.name.text, c.tokens.flatMap (' ' :: ·)) :=
    Identifier.read_quoted c.name.text fun tail h => by
      rw [tokens, TypeListing.tokens, List.cons_append, List.flatMap_cons] at h
      cases h
  have htokens : Text.tokens (c.tokens.flatMap (' ' :: ·)) = c.tokens :=
    tokens_flatMap fun t ht => ⟨(isToken_of_mem ht).ne_nil, (isToken_of_mem ht).blank⟩
  have htype : Column.readType? c.tokens =
      some (c.type.text, c.modifiers.flatMap Modifier.tokens) :=
    c.type.readType?_tokens c.modifiers
  rw [Column.parse?, trim_of_endsSolid rfl c.endsSolid_text, hname]
  simp only [Option.bind_eq_bind, Option.bind_some, htokens, htype,
    Modifier.applyModifiers_tokens, c.foldl_modifiers]
  rfl

end ColumnListing

end SqlDump
