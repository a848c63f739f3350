import Mathlib.Data.List.Pairwise
import SqlDump.Proofs.Schema.InlineReference

/-!
# Modifiers of columns

The type of a column and its modifiers, with keywords in any case. The modifiers each set a part of
their own, so that their order does not matter, save that unknown words are kept in theirs. The
reader takes a reference for the last of them: what stands behind it is lost to the column.

Main statements: `ColumnClause.applyModifiers_tokens`, what is read of modifiers in a row;
`ColumnClause.apply_perm`, another order makes the same column; `ColumnClause.recorded_of_mem`, no
modifier is lost; `ColumnClause.applyModifiers_behind`, except behind a reference.
-/

namespace SqlDump

open Text

/-! ## Words and tokens -/

/-- A token as it is written, such as a literal. -/
structure WrittenToken where
  text : Text
  isToken : IsToken text

/-- The words that begin a modifier, and the one that may follow `UNIQUE`. -/
def modifierWords : List Text :=
  ["not", "null", "default", "auto_increment", "on", "primary", "unique", "key", "comment",
    "character", "charset", "collate", "references"]

/-- A token that neither begins a modifier nor belongs to a type. -/
structure UnknownWord where
  text : Text
  isToken : IsToken text
  unknown : ∀ word ∈ modifierWords, Column.isKeyword word text = false
  apart : Column.isTypeAttribute text = false
  closed : startsWith "(" text = false

/-- What follows a type may begin with the token: it is no part of the type, nor of `UNIQUE KEY`. -/
structure FollowsType (token : Text) : Prop where
  apart : Column.isTypeAttribute token = false
  closed : startsWith "(" token = false
  key : Column.isKeyword "key" token = false

theorem startsWith_of_plain {t : Text} (h : t.all isPlain = true) : startsWith "(" t = false := by
  cases t with
  | nil => rfl
  | cons c t =>
    have hc := (isPlain_iff.mp (List.all_eq_true.mp h c List.mem_cons_self)).2 '(' (by decide)
    have hnone : after? "(" (c :: t) = none := if_neg (Ne.symm hc)
    rw [startsWith, hnone]
    rfl

namespace Keyword

variable {word : Text} (k : Keyword word)

theorem followsType (h : Column.isTypeAttribute word = false ∧ Column.isKeyword "key" word = false ∧
    word.all isPlain = true) : FollowsType k.text where
  apart := by
    unfold Column.isTypeAttribute
    simp only [k.isKeyword_text]
    exact h.1
  closed := startsWith_of_plain (plain_of_asciiLower k.asciiLower_text h.2.2)
  key := by rw [k.isKeyword_text, h.2.1]

end Keyword

/-! ## Types -/

/-- A type as it is written: a token with a letter at its start, one in parentheses if its arguments
stand apart, and attributes. -/
structure WrittenType where
  head : Text
  isToken : IsToken head
  letter : head.head?.any Char.isAlpha = true
  arguments : Option WrittenToken
  opened : ∀ token ∈ arguments, startsWith "(" token.text = true
  attributes : List Text
  known : ∀ token ∈ attributes, Column.isTypeAttribute token = true

namespace WrittenType

variable (t : WrittenType)

def tokens : List Text :=
  t.head :: ((t.arguments.map WrittenToken.text).toList ++ t.attributes)

/-- The type that is read. -/
def text : Text :=
  t.head ++ (t.arguments.map WrittenToken.text).getD [] ++ t.attributes.flatMap (' ' :: ·)

theorem plain_of_isTypeAttribute {token : Text} (h : Column.isTypeAttribute token = true) :
    token.all isPlain = true ∧ token ≠ [] := by
  obtain ⟨word, hword, hsame⟩ := List.any_eq_true.mp h
  have hplain : ∀ word ∈ Column.typeAttributes, word.all isPlain = true ∧ asciiLower word ≠ [] := by
    decide
  obtain ⟨hall, hne⟩ := hplain word hword
  refine ⟨plain_of_asciiLower (eq_of_beq hsame).symm hall, ?_⟩
  rintro rfl
  exact hne (eq_of_beq hsame)

theorem isToken_of_mem {t : WrittenType} {token : Text} (h : token ∈ t.tokens) : IsToken token := by
  obtain rfl | h := List.mem_cons.mp h
  · exact t.isToken
  obtain h | h := List.mem_append.mp h
  · obtain ⟨w, -, rfl⟩ := Option.map_eq_some_iff.mp (Option.mem_toList.mp h)
    exact w.isToken
  · obtain ⟨hplain, hne⟩ := plain_of_isTypeAttribute (t.known token h)
    exact IsToken.of_plain hne hplain

/-- The type is read back up to the first token that cannot belong to it. -/
theorem readType?_tokens {rest : List Text} (hrest : ∀ token ∈ rest.head?, FollowsType token) :
    Column.readType? (t.tokens ++ rest) = some (t.text, rest) := by
  have hattributes : ∀ token ∈ t.attributes,
      Column.isTypeAttribute token = true ∧ startsWith "(" token = false := fun token htoken =>
    ⟨t.known token htoken, startsWith_of_plain (plain_of_isTypeAttribute (t.known token htoken)).1⟩
  have hfollows : ∀ token more, rest = token :: more →
      Column.isTypeAttribute token = false ∧ startsWith "(" token = false := by
    rintro token more rfl
    have htoken := hrest token rfl
    exact ⟨htoken.apart, htoken.closed⟩
  unfold tokens text
  cases harguments : t.arguments with
  | none =>
    have hread := readType?_append t.letter hattributes hfollows
    simpa using hread
  | some list =>
    have hopen := t.opened list harguments
    obtain ⟨htake, hdrop⟩ := takeWhile_append_rest (fun token h => (hattributes token h).1)
      fun token more h => (hfollows token more h).1
    simp only [Column.readType?, Option.map_some, Option.toList_some, Option.getD_some,
      List.cons_append, List.nil_append, t.letter, Bool.not_true, Bool.false_eq_true, if_false,
      hopen, if_true, htake, hdrop]
    rfl

end WrittenType

/-! ## Modifiers -/

/-- A modifier of a column as it is written. -/
inductive ColumnClause where
  | notNull (not : Keyword "not") (null : Keyword "null")
  | null (null : Keyword "null")
  | default (default : Keyword "default") (value : WrittenToken)
  | autoIncrement (autoIncrement : Keyword "auto_increment")
  | onUpdate (on : Keyword "on") (update : Keyword "update") (value : WrittenToken)
  | primaryKey (primary : Keyword "primary") (key : Keyword "key")
  | unique (unique : Keyword "unique") (key : Option (Keyword "key"))
  | comment (comment : Keyword "comment") (value : WrittenToken)
  | characterSet (character : Keyword "character") (set : Keyword "set") (name : WrittenToken)
  | charset (charset : Keyword "charset") (name : WrittenToken)
  | collate (collate : Keyword "collate") (name : WrittenToken)
  | word (w : UnknownWord)
  | references (r : ReferenceClause)

/-- The column with other unknown words. -/
def Column.withExtra (c : Column) (extra : List Text) : Column := { c with extra }

namespace ColumnClause

def tokens : ColumnClause → List Text
  | .notNull k l => [k.text, l.text]
  | .null k => [k.text]
  | .default k value => [k.text, value.text]
  | .autoIncrement k => [k.text]
  | .onUpdate k l value => [k.text, l.text, value.text]
  | .primaryKey k l => [k.text, l.text]
  | .unique k l => k.text :: (l.map Keyword.text).toList
  | .comment k value => [k.text, value.text]
  | .characterSet k l name => [k.text, l.text, name.text]
  | .charset k name => [k.text, name.text]
  | .collate k name => [k.text, name.text]
  | .word w => [w.text]
  | .references r => r.tokens

/-- What a modifier is about. -/
inductive Kind where
  | nullable
  | default
  | autoIncrement
  | onUpdate
  | primaryKey
  | unique
  | comment
  | charset
  | collate
  | word
  | reference
  deriving DecidableEq

def kind : ColumnClause → Kind
  | .notNull .. => .nullable
  | .null .. => .nullable
  | .default .. => .default
  | .autoIncrement .. => .autoIncrement
  | .onUpdate .. => .onUpdate
  | .primaryKey .. => .primaryKey
  | .unique .. => .unique
  | .comment .. => .comment
  | .characterSet .. => .charset
  | .charset .. => .charset
  | .collate .. => .collate
  | .word .. => .word
  | .references .. => .reference

/-- The column with the modifier. A reference is no part of the column. -/
def apply (c : Column) : ColumnClause → Column
  | .notNull .. => { c with nullable := false }
  | .null .. => { c with nullable := true }
  | .default _ value => { c with default := some value.text }
  | .autoIncrement .. => { c with autoIncrement := true }
  | .onUpdate _ _ value => { c with onUpdate := some value.text }
  | .primaryKey .. => { c with primaryKey := true }
  | .unique .. => { c with unique := true }
  | .comment _ value => { c with comment := (Value.ofToken value.text).content? }
  | .characterSet .. => c
  | .charset .. => c
  | .collate .. => c
  | .word w => { c with extra := c.extra ++ [w.text] }
  | .references .. => c

theorem isToken_of_mem (m : ColumnClause) : ∀ token ∈ m.tokens, IsToken token := by
  have hkeyword {word : Text} (k : Keyword word) (h : word ≠ [] ∧ word.all isPlain = true) :
      ∀ token ∈ [k.text], IsToken token := List.forall_mem_singleton.mpr (k.isToken h)
  have hvalue (w : WrittenToken) : ∀ token ∈ [w.text], IsToken token :=
    List.forall_mem_singleton.mpr w.isToken
  cases m with
  | notNull k l =>
    exact List.forall_mem_cons.mpr ⟨k.isToken (by decide), hkeyword l (by decide)⟩
  | null k => exact hkeyword k (by decide)
  | default k value => exact List.forall_mem_cons.mpr ⟨k.isToken (by decide), hvalue value⟩
  | autoIncrement k => exact hkeyword k (by decide)
  | onUpdate k l value =>
    exact List.forall_mem_cons.mpr ⟨k.isToken (by decide),
      List.forall_mem_cons.mpr ⟨l.isToken (by decide), hvalue value⟩⟩
  | primaryKey k l =>
    exact List.forall_mem_cons.mpr ⟨k.isToken (by decide), hkeyword l (by decide)⟩
  | unique k l =>
    refine List.forall_mem_cons.mpr ⟨k.isToken (by decide), ?_⟩
    cases l with
    | none => exact nofun
    | some l => exact hkeyword l (by decide)
  | comment k value => exact List.forall_mem_cons.mpr ⟨k.isToken (by decide), hvalue value⟩
  | characterSet k l name =>
    exact List.forall_mem_cons.mpr ⟨k.isToken (by decide),
      List.forall_mem_cons.mpr ⟨l.isToken (by decide), hvalue name⟩⟩
  | charset k name => exact List.forall_mem_cons.mpr ⟨k.isToken (by decide), hvalue name⟩
  | collate k name => exact List.forall_mem_cons.mpr ⟨k.isToken (by decide), hvalue name⟩
  | word w => exact List.forall_mem_singleton.mpr w.isToken
  | references r => exact fun _ => r.isToken_of_mem

/-- What begins a modifier is no part of the type before it, nor of `UNIQUE KEY`. -/
theorem exists_tokens_cons (m : ColumnClause) :
    ∃ token more, m.tokens = token :: more ∧ FollowsType token := by
  cases m with
  | notNull k l => exact ⟨_, _, rfl, k.followsType (by decide)⟩
  | null k => exact ⟨_, _, rfl, k.followsType (by decide)⟩
  | default k value => exact ⟨_, _, rfl, k.followsType (by decide)⟩
  | autoIncrement k => exact ⟨_, _, rfl, k.followsType (by decide)⟩
  | onUpdate k l value => exact ⟨_, _, rfl, k.followsType (by decide)⟩
  | primaryKey k l => exact ⟨_, _, rfl, k.followsType (by decide)⟩
  | unique k l => exact ⟨_, _, rfl, k.followsType (by decide)⟩
  | comment k value => exact ⟨_, _, rfl, k.followsType (by decide)⟩
  | characterSet k l name => exact ⟨_, _, rfl, k.followsType (by decide)⟩
  | charset k name => exact ⟨_, _, rfl, k.followsType (by decide)⟩
  | collate k name => exact ⟨_, _, rfl, k.followsType (by decide)⟩
  | word w => exact ⟨_, _, rfl, w.apart, w.closed, w.unknown "key" (by decide)⟩
  | references r => exact ⟨_, _, rfl, r.keyword.followsType (by decide)⟩

theorem head?_flatMap_tokens (ms : List ColumnClause) :
    ∀ token ∈ (ms.flatMap tokens).head?, FollowsType token := by
  intro token h
  cases ms with
  | nil => cases h
  | cons m ms =>
    obtain ⟨first, more, htokens, hfirst⟩ := m.exists_tokens_cons
    rw [List.flatMap_cons, htokens, List.cons_append, List.head?_cons] at h
    obtain rfl := Option.mem_some.mp h
    exact hfirst

/-! ### Reading -/

/-- One modifier is applied, and what follows it is read next. -/
theorem applyModifiers_tokens_append (c : Column) {m : ColumnClause} (hm : m.kind ≠ .reference)
    {rest : List Text} (hrest : ∀ token ∈ rest.head?, FollowsType token) :
    Column.applyModifiers c (m.tokens ++ rest) = Column.applyModifiers (m.apply c) rest := by
  have hkey : Column.beginsWith "key" rest = false := by
    cases rest with
    | nil => rfl
    | cons token rest => exact (hrest token rfl).key
  have hbegins (word token : Text) (more : List Text) :
      Column.beginsWith word (token :: more) = Column.isKeyword word token := rfl
  cases m with
  | references r => exact absurd rfl hm
  | word w =>
    -- No test of the reader holds of the word.
    have hunknown := w.unknown
    simp only [modifierWords, List.forall_mem_cons] at hunknown
    rw [tokens, List.cons_append, Column.applyModifiers]
    simp only [hunknown, Bool.false_and, Bool.false_or, Bool.false_eq_true, if_false]
    rfl
  | unique k l =>
    rw [tokens, List.cons_append, Column.applyModifiers]
    cases l with
    | none =>
      simp only [Keyword.isKeyword_text, Option.map_none, Option.toList_none, List.nil_append, hkey]
      rfl
    | some l =>
      simp only [Keyword.isKeyword_text, Option.map_some, Option.toList_some, List.cons_append,
        List.nil_append, hbegins]
      rfl
  | _ =>
    rw [tokens, List.cons_append, Column.applyModifiers]
    simp only [List.cons_append, List.nil_append, hbegins, Keyword.isKeyword_text]
    rfl

/-- A reference is read together with all that follows, and nothing is read behind it. -/
theorem applyModifiers_reference (c : Column) (r : ReferenceClause) (behind : List Text) :
    Column.applyModifiers c (r.tokens ++ behind) =
      (c, Reference.parse? (join " " (r.tokens ++ behind))) := by
  have htokens : r.tokens ++ behind = r.keyword.text :: (r.target ++ r.actions ++ behind) := by
    rw [ReferenceClause.tokens, List.cons_append]
  rw [htokens, Column.applyModifiers]
  simp only [Keyword.isKeyword_text]
  rfl

/-- Modifiers are applied one after another up to a reference. -/
theorem applyModifiers_append (c : Column) {ms : List ColumnClause}
    (h : ∀ m ∈ ms, m.kind ≠ .reference) {rest : List Text}
    (hrest : ∀ token ∈ rest.head?, FollowsType token) :
    Column.applyModifiers c (ms.flatMap tokens ++ rest) =
      Column.applyModifiers (ms.foldl apply c) rest := by
  induction ms generalizing c with
  | nil => rfl
  | cons m ms ih =>
    have hbehind : ∀ token ∈ (ms.flatMap tokens ++ rest).head?, FollowsType token := by
      have hhead := head?_flatMap_tokens ms
      cases hms : ms.flatMap tokens with
      | nil => exact hrest
      | cons first more =>
        rw [hms] at hhead
        exact hhead
    rw [List.flatMap_cons, List.append_assoc,
      applyModifiers_tokens_append c (h m List.mem_cons_self) hbehind,
      ih _ fun n hn => h n (List.mem_cons_of_mem m hn), List.foldl_cons]

/-- What stands behind a reference is taken for a part of it, and lost to the column. -/
theorem applyModifiers_behind (c : Column) {before : List ColumnClause}
    (h : ∀ m ∈ before, m.kind ≠ .reference) (r : ReferenceClause) (behind : List ColumnClause) :
    Column.applyModifiers c ((before ++ .references r :: behind).flatMap tokens) =
      (before.foldl apply c, Reference.parse? (join " " (r.tokens ++ behind.flatMap tokens))) := by
  rw [List.flatMap_append,
    applyModifiers_append c h (head?_flatMap_tokens (.references r :: behind))]
  exact applyModifiers_reference (before.foldl apply c) r (behind.flatMap tokens)

/-- Nothing stands behind a reference. -/
def ReferenceLast (ms : List ColumnClause) : Prop := ∀ m ∈ ms.dropLast, m.kind ≠ .reference

instance (ms : List ColumnClause) : Decidable (ReferenceLast ms) :=
  inferInstanceAs (Decidable (∀ m ∈ ms.dropLast, _))

theorem ReferenceLast.behind_eq_nil {before behind : List ColumnClause} {r : ReferenceClause}
    (h : ReferenceLast (before ++ .references r :: behind)) : behind = [] := by
  cases behind with
  | nil => rfl
  | cons m behind =>
    refine absurd rfl (h (.references r) ?_)
    rw [List.dropLast_append_of_ne_nil (List.cons_ne_nil _ _), List.dropLast_cons_cons]
    exact List.mem_append_right _ List.mem_cons_self

/-- Modifiers without a reference, or up to the first. -/
theorem exists_split (ms : List ColumnClause) : ∃ before, (∀ m ∈ before, m.kind ≠ .reference) ∧
    (ms = before ∨ ∃ r behind, ms = before ++ .references r :: behind) := by
  induction ms with
  | nil => exact ⟨[], nofun, .inl rfl⟩
  | cons m ms ih =>
    by_cases hm : m.kind = .reference
    · refine ⟨[], nofun, .inr ?_⟩
      cases m with
      | references r => exact ⟨r, ms, rfl⟩
      | _ => cases hm
    · obtain ⟨before, hbefore, hms⟩ := ih
      refine ⟨m :: before, List.forall_mem_cons.mpr ⟨hm, hbefore⟩, ?_⟩
      rcases hms with rfl | ⟨r, behind, rfl⟩
      · exact .inl rfl
      · exact .inr ⟨r, behind, rfl⟩

/-- What a modifier refers to. -/
def reference? : ColumnClause → Option Reference
  | .references r => some r.reference
  | _ => none

/-- What is read of modifiers with nothing behind a reference. -/
theorem applyModifiers_tokens (c : Column) {ms : List ColumnClause} (h : ReferenceLast ms) :
    Column.applyModifiers c (ms.flatMap tokens) =
      (ms.foldl apply c, ms.findSome? reference?) := by
  obtain ⟨before, hbefore, hms⟩ := exists_split ms
  have hnone : before.findSome? reference? = none := by
    refine List.findSome?_eq_none_iff.mpr fun m hm => ?_
    cases m with
    | references r => exact absurd rfl (hbefore _ hm)
    | _ => rfl
  rcases hms with rfl | ⟨r, behind, rfl⟩
  · have hend : ∀ token ∈ ([] : List Text).head?, FollowsType token := nofun
    have hread := applyModifiers_append c hbefore hend
    rw [List.append_nil, Column.applyModifiers] at hread
    rw [hread, hnone]
  · obtain rfl := h.behind_eq_nil
    have hread := applyModifiers_behind c hbefore r []
    rw [List.flatMap_nil, List.append_nil, r.parse?_tokens] at hread
    rw [hread, List.findSome?_append, hnone, List.foldl_append]
    rfl

/-! ### Other orders -/

/-- Each modifier is there at most once, except for unknown words. -/
def UsedOnce (ms : List ColumnClause) : Prop :=
  ms.Pairwise fun m n => m.kind = n.kind → m.kind = .word

instance (ms : List ColumnClause) : Decidable (UsedOnce ms) :=
  inferInstanceAs (Decidable (ms.Pairwise _))

theorem UsedOnce.eq_of_kind {ms : List ColumnClause} (h : UsedOnce ms) {m n : ColumnClause}
    (hm : m ∈ ms) (hn : n ∈ ms) (hkind : m.kind = n.kind) (hword : m.kind ≠ .word) : m = n := by
  by_contra hne
  have hsymm : Std.Symm fun m n : ColumnClause => m.kind = n.kind → m.kind = .word :=
    ⟨fun m n h heq => heq.trans (h heq.symm)⟩
  exact hword (List.Pairwise.forall h hm hn hne hkind)

theorem UsedOnce.perm {ms ms' : List ColumnClause} (h : UsedOnce ms) (hperm : ms.Perm ms') :
    UsedOnce ms' := by
  refine (hperm.pairwise_iff ?_).mp h
  intro m n h heq
  exact heq.trans (h heq.symm)

/-- The unknown words among modifiers, in their order. -/
def words (ms : List ColumnClause) : List Text :=
  ms.filterMap fun
    | .word w => some w.text
    | _ => none

theorem extra_foldl_apply (c : Column) (ms : List ColumnClause) :
    (ms.foldl apply c).extra = c.extra ++ words ms := by
  induction ms generalizing c with
  | nil => exact (List.append_nil _).symm
  | cons m ms ih =>
    rw [List.foldl_cons, ih]
    cases m with
    | word w =>
      have hwords : words (.word w :: ms) = w.text :: words ms := rfl
      rw [hwords, apply, List.append_assoc, List.singleton_append]
    | _ => rfl

/-- The column with the modifier, without what is kept of unknown words. -/
def applyPlain (c : Column) (m : ColumnClause) : Column := (apply c m).withExtra []

theorem foldl_applyPlain (c : Column) (ms : List ColumnClause) :
    ms.foldl applyPlain (c.withExtra []) = (ms.foldl apply c).withExtra [] := by
  induction ms generalizing c with
  | nil => rfl
  | cons m ms ih =>
    have hstep : applyPlain (c.withExtra []) m = (apply c m).withExtra [] := by cases m <;> rfl
    rw [List.foldl_cons, hstep, ih, List.foldl_cons]

theorem foldl_apply_eq (c : Column) (ms : List ColumnClause) :
    (ms.foldl apply c).name = c.name ∧ (ms.foldl apply c).type = c.type := by
  induction ms generalizing c with
  | nil => exact ⟨rfl, rfl⟩
  | cons m ms ih =>
    have hstep : (apply c m).name = c.name ∧ (apply c m).type = c.type := by
      cases m <;> exact ⟨rfl, rfl⟩
    rw [List.foldl_cons, (ih _).1, (ih _).2]
    exact hstep

/-- Modifiers of two kinds set two parts of a column, whichever is set first. -/
theorem applyPlain_comm {m n : ColumnClause} (h : m.kind ≠ n.kind) (c : Column) :
    applyPlain (applyPlain c m) n = applyPlain (applyPlain c n) m := by
  cases m <;> cases n <;> first | rfl | exact absurd rfl h

/-- Modifiers in another order make the same column, with its unknown words in that order. -/
theorem apply_perm {ms ms' : List ColumnClause} (honce : UsedOnce ms) (hperm : ms.Perm ms')
    (c : Column) :
    ms'.foldl apply c = (ms.foldl apply c).withExtra (c.extra ++ words ms') := by
  have hcomm : ∀ m ∈ ms, ∀ n ∈ ms, ∀ c, applyPlain (applyPlain c m) n =
      applyPlain (applyPlain c n) m := by
    intro m hm n hn c
    by_cases hkind : m.kind = n.kind
    · by_cases hword : m.kind = .word
      · -- Nothing is left of either word.
        rw [hword] at hkind
        cases m with
        | word w =>
          cases n with
          | word v => rfl
          | _ => cases hkind
        | _ => cases hword
      · rw [honce.eq_of_kind hm hn hkind hword]
    · exact applyPlain_comm hkind c
  have hplain : (ms'.foldl apply c).withExtra [] = (ms.foldl apply c).withExtra [] := by
    rw [← foldl_applyPlain, ← foldl_applyPlain, hperm.foldl_eq' hcomm]
  have hrestore (d : Column) : d = (d.withExtra []).withExtra d.extra := rfl
  rw [hrestore (ms'.foldl apply c), hplain, extra_foldl_apply]
  rfl

theorem findSome?_reference?_eq_some {ms : List ColumnClause} (honce : UsedOnce ms)
    {reference : Reference} :
    ms.findSome? reference? = some reference ↔ ∃ m ∈ ms, reference? m = some reference := by
  constructor
  · exact List.exists_of_findSome?_eq_some
  · rintro ⟨m, hm, href⟩
    obtain ⟨found, hfound⟩ : ∃ found, ms.findSome? reference? = some found := by
      refine Option.isSome_iff_exists.mp (List.findSome?_isSome_iff.mpr ⟨m, hm, ?_⟩)
      rw [href]
      rfl
    obtain ⟨n, hn, hnref⟩ := List.exists_of_findSome?_eq_some hfound
    -- There is no other reference among them.
    have hkind {m : ColumnClause} {r : Reference} (h : reference? m = some r) :
        m.kind = .reference := by
      cases m with
      | references _ => rfl
      | _ => cases h
    obtain rfl : m = n := honce.eq_of_kind hm hn ((hkind href).trans (hkind hnref).symm) (by
      rw [hkind href]
      decide)
    rw [hfound, ← hnref, href]

/-- Modifiers in another order refer to the same. -/
theorem reference?_perm {ms ms' : List ColumnClause} (honce : UsedOnce ms) (hperm : ms.Perm ms') :
    ms'.findSome? reference? = ms.findSome? reference? := by
  refine Option.ext fun reference => ?_
  rw [findSome?_reference?_eq_some (honce.perm hperm), findSome?_reference?_eq_some honce]
  simp only [hperm.mem_iff]

/-- What a modifier says is kept of the column, or in its reference. -/
def Recorded (c : Column) (reference : Option Reference) : ColumnClause → Prop
  | .notNull .. => c.nullable = false
  | .null .. => c.nullable = true
  | .default _ value => c.default = some value.text
  | .autoIncrement .. => c.autoIncrement = true
  | .onUpdate _ _ value => c.onUpdate = some value.text
  | .primaryKey .. => c.primaryKey = true
  | .unique .. => c.unique = true
  | .comment _ value => c.comment = (Value.ofToken value.text).content?
  | .characterSet .. => True
  | .charset .. => True
  | .collate .. => True
  | .word w => w.text ∈ c.extra
  | .references r => reference = some r.reference

/-- No modifier is lost. -/
theorem recorded_of_mem {ms : List ColumnClause} (honce : UsedOnce ms) (c : Column)
    {m : ColumnClause} (hm : m ∈ ms) :
    m.Recorded (ms.foldl apply c) (ms.findSome? reference?) := by
  -- The modifier may as well stand at the end, where nothing follows that could set its part.
  obtain ⟨d, hmoved⟩ : ∃ d, ms.foldl apply c = (apply d m).withExtra (c.extra ++ words ms) := by
    obtain ⟨first, rest, rfl⟩ := List.append_of_mem hm
    have hperm : (first ++ m :: rest).Perm (first ++ rest ++ [m]) :=
      List.perm_middle.trans (List.perm_append_singleton m (first ++ rest)).symm
    have hend : (first ++ rest ++ [m]).foldl apply c = apply ((first ++ rest).foldl apply c) m := by
      rw [List.foldl_append]
      rfl
    refine ⟨(first ++ rest).foldl apply c, ?_⟩
    rw [apply_perm (honce.perm hperm) hperm.symm c, hend]
  cases m with
  | word w =>
    have hword : w.text ∈ words ms := List.mem_filterMap.mpr ⟨.word w, hm, rfl⟩
    rw [Recorded, extra_foldl_apply]
    exact List.mem_append_right _ hword
  | references r => exact (findSome?_reference?_eq_some honce).mpr ⟨.references r, hm, rfl⟩
  | characterSet _ _ _ => trivial
  | charset _ _ => trivial
  | collate _ _ => trivial
  | _ =>
    rw [Recorded, hmoved]
    rfl

end ColumnClause

end SqlDump
