import Mathlib.Data.Bool.AllAny
import SqlDump.Proofs.Schema.Ending
import SqlDump.Proofs.Schema.Listing

/-!
# References in the definition of a column

A clause that refers to a table from the definition of a column. Its keywords are in any case, its
names in backticks or bare. The reader of a column puts its tokens together again with one blank
between, and reads the reference from that.

Main statements: `Text.keyword?_asciiLower`, the case of a text does not matter for a keyword;
`ReferenceClause.parse?_tokens`, the reference is read back from the tokens of its clause.
-/

namespace SqlDump

/-! ## Keywords in any case -/

namespace Text

/-- What is true of the letters A to Z is true of every character that has another lower-case
letter. -/
theorem of_toLower_ne {p : Char → Prop} (h : ∀ k < 26, p (Char.ofNat (65 + k))) {c : Char}
    (hc : c.toLower ≠ c) : p c := by
  unfold Char.toLower at hc
  split at hc
  · next hrange =>
    obtain ⟨hle, hge⟩ := hrange
    have hlow : 65 ≤ c.toNat := hle
    have hhigh : c.toNat ≤ 90 := hge
    have hletter := h (c.toNat - 65) (by omega)
    rwa [Nat.add_sub_cancel' hlow, Char.ofNat_toNat] at hletter
  · exact absurd rfl hc

/-- What is told alike of the letters A to Z and their lower case is told alike of every character
and its lower-case letter. -/
theorem toLower_congr {α : Type} [DecidableEq α] {f : Char → α}
    (h : ∀ k < 26, f (Char.ofNat (65 + k)).toLower = f (Char.ofNat (65 + k))) (c : Char) :
    f c.toLower = f c := by
  by_cases hc : c.toLower = c
  · rw [hc]
  · exact of_toLower_ne (p := fun c => f c.toLower = f c) h hc

theorem foldCase_toLower (c : Char) : foldCase c.toLower = foldCase c :=
  toLower_congr (by decide) c

theorem isBlank_toLower (c : Char) : Unicode.isBlank c.toLower = Unicode.isBlank c :=
  toLower_congr (by decide) c

theorem isPlain_toLower (c : Char) : isPlain c.toLower = isPlain c :=
  toLower_congr (by decide) c

theorem isWordChar_toLower (c : Char) : isWordChar c.toLower = isWordChar c :=
  toLower_congr (by decide +kernel) c

theorem keyword?_asciiLower (word t : Text) :
    keyword? word (asciiLower t) = (keyword? word t).map asciiLower := by
  induction word generalizing t with
  | nil => rfl
  | cons a word ih =>
    cases t with
    | nil => rfl
    | cons c t =>
      have hcons : asciiLower (c :: t) = c.toLower :: asciiLower t := rfl
      rw [hcons, keyword?, keyword?, foldCase_toLower]
      split
      · exact ih t
      · rfl

theorem trimStart_asciiLower (t : Text) : trimStart (asciiLower t) = asciiLower (trimStart t) := by
  unfold trimStart asciiLower
  rw [List.dropWhile_map]
  exact congrArg (fun p => (t.dropWhile p).map Char.toLower) (funext isBlank_toLower)

theorem blanks?_asciiLower (t : Text) : blanks? (asciiLower t) = (blanks? t).map asciiLower := by
  cases t with
  | nil => rfl
  | cons c t =>
    have hcons : asciiLower (c :: t) = c.toLower :: asciiLower t := rfl
    rw [hcons, blanks?, blanks?, isBlank_toLower, trimStart_asciiLower]
    split <;> rfl

theorem keywordBlanks?_asciiLower (word t : Text) :
    keywordBlanks? word (asciiLower t) = (keywordBlanks? word t).map asciiLower := by
  unfold keywordBlanks?
  rw [keyword?_asciiLower]
  cases keyword? word t with
  | none => rfl
  | some rest => exact blanks?_asciiLower rest

/-- A keyword is read off its spelling in any case. -/
theorem keyword?_of_asciiLower {word t : Text} (hword : word.map foldCase = word)
    (h : asciiLower t = word) (rest : Text) : keyword? word (t ++ rest) = some rest := by
  induction t generalizing word with
  | nil =>
    subst h
    rfl
  | cons c t ih =>
    subst h
    obtain ⟨hhead, htail⟩ := List.cons.inj hword
    have hc : foldCase c = c.toLower := by rw [← foldCase_toLower, hhead]
    have ht := ih htail rfl
    rw [List.cons_append]
    exact (if_pos hc).trans ht

end Text

open Text

namespace ReferentialAction

theorem begins_asciiLower (a : ReferentialAction) (t : Text) : a.begins (asciiLower t) = a.begins t := by
  have hpair (first second : Text) : (keywordPair? first second (asciiLower t)).isSome =
      (keywordPair? first second t).isSome := by
    unfold keywordPair?
    rw [keywordBlanks?_asciiLower]
    cases keywordBlanks? first t with
    | none => rfl
    | some rest =>
      rw [Option.map_some, Option.bind_some, Option.bind_some, keyword?_asciiLower,
        Option.isSome_map]
  have hword (word : Text) : (keyword? word (asciiLower t)).isSome = (keyword? word t).isSome := by
    rw [keyword?_asciiLower, Option.isSome_map]
  cases a with
  | restrict => exact hword _
  | cascade => exact hword _
  | setNull => exact hpair _ _
  | setDefault => exact hpair _ _
  | noAction => exact hpair _ _

theorem read?_asciiLower (t : Text) : read? (asciiLower t) = read? t := by
  unfold read?
  exact congrArg (all.find? ·) (funext fun a => begins_asciiLower a t)

/-- The case of a text does not matter for the action in it. -/
theorem find?_asciiLower (event : Text) (inWord : Bool) (t : Text) :
    find? event inWord (asciiLower t) = find? event inWord t := by
  induction t generalizing inWord with
  | nil => rfl
  | cons c t ih =>
    have hcons : asciiLower (c :: t) = c.toLower :: asciiLower t := rfl
    have hhere : ((keywordBlanks? "on" (asciiLower (c :: t))).bind (keywordBlanks? event)).bind
        read? = ((keywordBlanks? "on" (c :: t)).bind (keywordBlanks? event)).bind read? := by
      rw [keywordBlanks?_asciiLower]
      cases keywordBlanks? "on" (c :: t) with
      | none => rfl
      | some rest =>
        rw [Option.map_some, Option.bind_some, Option.bind_some, keywordBlanks?_asciiLower]
        cases keywordBlanks? event rest with
        | none => rfl
        | some rest => exact read?_asciiLower rest
    rw [hcons] at hhere ⊢
    rw [find?, find?, hhere, isWordChar_toLower, ih]

end ReferentialAction

/-- A keyword in any case of the letters A to Z. -/
structure Keyword (word : Text) where
  text : Text
  same : Column.isKeyword word text = true

namespace Keyword

variable {word : Text} (k : Keyword word)

theorem asciiLower_text : asciiLower k.text = asciiLower word := (eq_of_beq k.same).symm

/-- Keywords are told apart by the words that they are. -/
theorem isKeyword_text (other : Text) :
    Column.isKeyword other k.text = Column.isKeyword other word := by
  unfold Column.isKeyword sameAscii
  rw [k.asciiLower_text]

end Keyword

/-- What is plain in one case is plain in any. -/
theorem plain_of_asciiLower {t u : Text} (h : asciiLower t = asciiLower u)
    (hu : u.all isPlain = true) : t.all isPlain = true := by
  have hall (v : Text) : (asciiLower v).all isPlain = v.all isPlain := by
    rw [asciiLower, List.all_map]
    exact congrArg (v.all ·) (funext isPlain_toLower)
  rw [← hall, h, hall, hu]

theorem IsToken.of_asciiLower {t u : Text} (h : asciiLower t = asciiLower u)
    (hu : u ≠ [] ∧ u.all isPlain = true) : IsToken t := by
  refine IsToken.of_plain ?_ (plain_of_asciiLower h hu.2)
  rintro rfl
  exact hu.1 (List.map_eq_nil_iff.mp h.symm)

theorem Keyword.isToken {word : Text} (k : Keyword word) (h : word ≠ [] ∧ word.all isPlain = true) :
    IsToken k.text :=
  IsToken.of_asciiLower k.asciiLower_text h

/-! ## Names -/

theorem isPlain_of_isNameChar {c : Char} (h : Definition.isNameChar c = true) :
    isPlain c = true ∧ Identifier.isDelimiter c = false ∧ Identifier.isQuote c = false := by
  have hne {d : Char} (hd : Definition.isNameChar d = false) : c ≠ d := by
    rintro rfl
    rw [h] at hd
    cases hd
  have hblank : Unicode.isBlank c = false := by
    rw [Bool.eq_false_iff]
    intro hblank
    have hending : isEnding c = true := by rw [isEnding, hblank, Bool.or_true]
    exact Bool.false_ne_true ((Definition.isNameChar_ending hending).symm.trans h)
  have hother : marks.all (fun d => Definition.isNameChar d = false) = true := by decide +kernel
  have hmarks : ∀ d ∈ marks, c ≠ d := fun d hd => hne (List.all_iff_forall_prop.mp hother d hd)
  have hdot : c ≠ '.' := hne (by decide +kernel)
  have hequals : c ≠ '=' := hne (by decide +kernel)
  refine ⟨isPlain_iff.mpr ⟨hblank, hmarks⟩, ?_, ?_⟩
  · simp only [marks, List.forall_mem_cons] at hmarks
    simp [Identifier.isDelimiter, hblank, hmarks, hdot, hequals]
  · simp only [marks, List.forall_mem_cons] at hmarks
    simp [Identifier.isQuote, hmarks]

section Bare

variable {t : Text} (hne : t ≠ []) (hplain : ∀ c ∈ t, Definition.isNameChar c = true)

include hne hplain

theorem isToken_bare : IsToken t :=
  IsToken.of_plain hne (List.all_eq_true.mpr fun c hc => (isPlain_of_isNameChar (hplain c hc)).1)

theorem exists_bare_cons : ∃ c rest, t = c :: rest ∧ Unicode.isBlank c = false := by
  obtain ⟨c, rest, rfl⟩ := List.exists_cons_of_ne_nil hne
  have hc := (isPlain_of_isNameChar (hplain c List.mem_cons_self)).1
  exact ⟨c, rest, rfl, (isPlain_iff.mp hc).1⟩

theorem isName_bare : IsName t t := by
  have htoken := isToken_bare hne hplain
  have hwhole : ∀ c ∈ t, (!Identifier.isDelimiter c) = true := by
    intro c hc
    rw [(isPlain_of_isNameChar (hplain c hc)).2.1]
    rfl
  obtain ⟨c, rest, rfl, hsolid⟩ := exists_bare_cons hne hplain
  obtain ⟨-, hdelimiter, hquote⟩ := isPlain_of_isNameChar (hplain c List.mem_cons_self)
  have hstart : trimStart (c :: rest) = c :: rest :=
    List.dropWhile_cons_of_neg (by simp [hsolid])
  refine ⟨htoken.isItem.comma, trim_of_endsSolid hstart htoken.ends, ?_⟩
  simp only [Identifier.read, hquote, hdelimiter, List.takeWhile_eq_self_iff.mpr hwhole,
    List.dropWhile_eq_nil_iff.mpr hwhole]
  rfl

theorem name?_bare {c : Char} (hc : Definition.isNameChar c = false) (rest : Text) :
    Definition.name? (t ++ c :: rest) = some (t, c :: rest) := by
  obtain ⟨htake, hdrop⟩ := takeWhile_append_rest hplain fun d tail (h : c :: rest = d :: tail) => by
    rw [← (List.cons.inj h).1]
    exact hc
  obtain ⟨d, more, rfl⟩ := List.exists_cons_of_ne_nil hne
  have hquote := (isPlain_of_isNameChar (hplain d List.mem_cons_self)).2.2
  have hd : ¬(d = '\x60' ∨ d = '\x22') := by simpa [Identifier.isQuote] using hquote
  rw [List.cons_append] at htake hdrop ⊢
  rw [Definition.name?, if_neg hd, if_pos (hplain d List.mem_cons_self), htake, hdrop]

end Bare

/-- A name as it may be written: in backticks, or bare. -/
inductive WrittenName where
  | quoted (n : Name)
  | bare (text : Text) (ne_nil : text ≠ []) (plain : ∀ c ∈ text, Definition.isNameChar c = true)

namespace WrittenName

def text : WrittenName → Text
  | .quoted n => n.quoted
  | .bare text _ _ => text

def name : WrittenName → Text
  | .quoted n => n.text
  | .bare text _ _ => text

variable (w : WrittenName)

theorem isToken_text : IsToken w.text := by
  cases w with
  | quoted n =>
    exact ⟨endsSolid_iff.mpr ⟨'\x60' :: double '\x60' n.text, '\x60', rfl, rfl⟩,
      shields_quoted rfl n.text⟩
  | bare text ne_nil plain => exact isToken_bare ne_nil plain

theorem isName_text : IsName w.text w.name := by
  cases w with
  | quoted n => exact isName_quoted n.text
  | bare text ne_nil plain => exact isName_bare ne_nil plain

theorem exists_text_cons : ∃ c rest, w.text = c :: rest ∧ Unicode.isBlank c = false := by
  cases w with
  | quoted n => exact ⟨'\x60', double '\x60' n.text ++ ['\x60'], rfl, rfl⟩
  | bare text ne_nil plain => exact exists_bare_cons ne_nil plain

/-- The name of a table is read back where no other follows behind a dot and nothing goes on with
it. -/
theorem qualifiedName?_text {c : Char} (hc : c ≠ '\x60' ∧ Definition.isNameChar c = false)
    {rest : Text} (hdot : ∀ tail, trimStart (c :: rest) ≠ '.' :: tail) :
    Definition.qualifiedName? (w.text ++ c :: rest) = some (w.name, c :: rest) := by
  cases w with
  | quoted n =>
    refine Definition.qualifiedName?_quoted n ?_ hdot
    intro tail h
    exact hc.1 (List.cons.inj h).1
  | bare text ne_nil plain =>
    have hname := name?_bare ne_nil plain hc.2 rest
    unfold Definition.qualifiedName?
    change (Definition.name? (text ++ c :: rest)).bind _ = _
    rw [hname, Option.bind_some]
    dsimp only
    split
    · next tail heq => exact absurd heq (hdot tail)
    · rfl

end WrittenName

/-! ## Clauses -/

/-- The words of an action. -/
def ReferentialAction.words : ReferentialAction → List Text
  | .restrict => ["RESTRICT"]
  | .cascade => ["CASCADE"]
  | .setNull => ["SET", "NULL"]
  | .setDefault => ["SET", "DEFAULT"]
  | .noAction => ["NO", "ACTION"]

/-- The words that say what is to happen on an event, if anything is. -/
def actionWords (event : Text) : Option ReferentialAction → List Text
  | some action => "ON" :: event :: action.words
  | none => []

theorem flatMap_actionWords (event : Text) (action : Option ReferentialAction) :
    (actionWords event action).flatMap (' ' :: ·) = actionText event action := by
  cases action with
  | none => rfl
  | some action =>
    have hwords : action.words.flatMap (' ' :: ·) = ' ' :: action.keywords := by
      cases action <;> rfl
    have htext : actionText event (some action) =
        " ON " ++ event ++ " " ++ action.keywords := rfl
    have hevent : (actionWords event (some action)).flatMap (' ' :: ·) =
        " ON " ++ (event ++ action.words.flatMap (' ' :: ·)) := rfl
    rw [hevent, htext, hwords, List.append_assoc, List.append_assoc]
    rfl

/-- A clause `REFERENCES table (columns)` with what is to happen when rows that are referred to go
or change. -/
structure ReferenceClause where
  keyword : Keyword "references"
  table : WrittenName
  /-- Whether a blank stands between the table and the columns. -/
  apart : Bool
  columns : List WrittenName
  /-- What stands behind the commas between the columns. -/
  gap : Text
  gap_blank : isBlank gap = true
  onDelete : Option ReferentialAction
  onUpdate : Option ReferentialAction
  /-- The words for the actions as they are written. -/
  actions : List Text
  same : actions.map asciiLower =
    (actionWords "DELETE" onDelete ++ actionWords "UPDATE" onUpdate).map asciiLower

namespace ReferenceClause

variable (r : ReferenceClause)

def list : Text := join (',' :: r.gap) (r.columns.map WrittenName.text)

def group : Text := '(' :: (r.list ++ [')'])

/-- The tokens that tell what is referred to. -/
def target : List Text :=
  if r.apart then [r.table.text, r.group] else [r.table.text ++ r.group]

def tokens : List Text := r.keyword.text :: (r.target ++ r.actions)

/-- What the clause refers to. -/
def reference : Reference where
  table := r.table.name
  columns := r.columns.map WrittenName.name
  onDelete := r.onDelete
  onUpdate := r.onUpdate

theorem find?_actions :
    ReferentialAction.find? "delete" false (r.actions.flatMap (' ' :: ·)) = r.onDelete ∧
      ReferentialAction.find? "update" false (r.actions.flatMap (' ' :: ·)) = r.onUpdate := by
  have hlower : asciiLower (r.actions.flatMap (' ' :: ·)) =
      asciiLower (actionsText r.onDelete r.onUpdate) := by
    have hmap (words : List Text) : asciiLower (words.flatMap (' ' :: ·)) =
        (words.map asciiLower).flatMap (' ' :: ·) := by
      induction words with
      | nil => rfl
      | cons word words ih =>
        rw [List.map_cons, List.flatMap_cons, List.flatMap_cons, ← ih]
        simp [asciiLower]
    rw [hmap, r.same, ← hmap, List.flatMap_append, flatMap_actionWords, flatMap_actionWords]
    rfl
  rw [← ReferentialAction.find?_asciiLower, hlower, ReferentialAction.find?_asciiLower,
    ← ReferentialAction.find?_asciiLower "update", hlower, ReferentialAction.find?_asciiLower]
  exact find?_actionsText r.onDelete r.onUpdate

theorem shields_list : Shields (· == ')') r.list := by
  have hgap : Shields (· == ')') r.gap := (IsItem.blank r.gap_blank).parenthesis
  refine Shields.join (Shields.cons rfl (by decide) (by decide) rfl hgap) fun t ht => ?_
  obtain ⟨w, -, rfl⟩ := List.mem_map.mp ht
  exact w.isToken_text.isItem.parenthesis

theorem isToken_group : IsToken r.group where
  ends := endsSolid_iff.mpr ⟨'(' :: r.list, ')', rfl, rfl⟩
  hidden := Shields.group r.shields_list rfl

/-- What is written for a reference are tokens. -/
theorem isToken_of_mem {token : Text} (h : token ∈ r.tokens) : IsToken token := by
  obtain rfl | h := List.mem_cons.mp h
  · exact r.keyword.isToken (by decide)
  obtain h | h := List.mem_append.mp h
  · unfold target at h
    split at h
    · obtain rfl | h := List.mem_cons.mp h
      · exact r.table.isToken_text
      · obtain rfl := List.mem_singleton.mp h
        exact r.isToken_group
    · obtain rfl := List.mem_singleton.mp h
      exact ⟨endsSolid_append _ r.isToken_group.ends,
        r.table.isToken_text.hidden.append r.isToken_group.hidden⟩
  · have hwords (onDelete onUpdate : Option ReferentialAction) :
        ∀ u ∈ actionWords "DELETE" onDelete ++ actionWords "UPDATE" onUpdate,
          u ≠ [] ∧ u.all isPlain = true := by
      obtain _ | (_ | _ | _ | _ | _) := onDelete <;>
        obtain _ | (_ | _ | _ | _ | _) := onUpdate <;> decide
    have hlower := List.mem_map_of_mem (f := asciiLower) h
    rw [r.same] at hlower
    obtain ⟨u, hu, heq⟩ := List.mem_map.mp hlower
    exact IsToken.of_asciiLower heq.symm (hwords _ _ u hu)

theorem join_blank (t : Text) (ts : List Text) : join " " (t :: ts) = t ++ ts.flatMap (' ' :: ·) := by
  induction ts generalizing t with
  | nil => rw [join_singleton, List.flatMap_nil, List.append_nil]
  | cons u ts ih =>
    rw [join_cons_cons, ih, List.flatMap_cons]
    rfl

/-- What is referred to is read back whatever follows. What is to happen is looked for in all that
follows. -/
theorem parse?_tokens_append (behind : List Text) :
    Reference.parse? (join " " (r.tokens ++ behind)) = some { r.reference with
      onDelete :=
        ReferentialAction.find? "delete" false ((r.actions ++ behind).flatMap (' ' :: ·))
      onUpdate :=
        ReferentialAction.find? "update" false ((r.actions ++ behind).flatMap (' ' :: ·)) } := by
  obtain ⟨tail, htail⟩ : ∃ tail, (r.actions ++ behind).flatMap (' ' :: ·) = tail := ⟨_, rfl⟩
  -- A blank or none, and then the columns.
  obtain ⟨c, rest, hrest, hc, hstart⟩ : ∃ c rest,
      (r.target ++ (r.actions ++ behind)).flatMap (' ' :: ·) =
        ' ' :: (r.table.text ++ c :: rest) ∧
      (c ≠ '\x60' ∧ Definition.isNameChar c = false) ∧
      trimStart (c :: rest) = '(' :: (r.list ++ ')' :: tail) := by
    rw [List.flatMap_append, htail, target]
    split
    · refine ⟨' ', r.group ++ tail, ?_, by decide +kernel, ?_⟩
      · simp
      · simp only [group, List.cons_append, List.append_assoc, List.nil_append]
        rfl
    · refine ⟨'(', r.list ++ ')' :: tail, ?_, by decide +kernel, rfl⟩
      simp [group]
  have hkeyword : keywordBlanks? "references" (join " " (r.tokens ++ behind)) =
      some (r.table.text ++ c :: rest) := by
    obtain ⟨d, more, htable, hd⟩ := r.table.exists_text_cons
    have hsolid : trimStart (r.table.text ++ c :: rest) = r.table.text ++ c :: rest := by
      rw [htable]
      exact List.dropWhile_cons_of_neg (by simp [hd])
    have hword : asciiLower r.keyword.text = "references" :=
      r.keyword.asciiLower_text.trans (by decide)
    have hread := keyword?_of_asciiLower (by decide) hword (' ' :: (r.table.text ++ c :: rest))
    rw [tokens, List.cons_append, join_blank, List.append_assoc, hrest, keywordBlanks?, hread]
    exact congrArg some hsolid
  have hname := r.table.qualifiedName?_text hc fun tail h => by
    rw [hstart] at h
    cases h
  have hgroup := group?_shields r.shields_list tail
  have hlist : nameList r.list = r.columns.map WrittenName.name :=
    nameList_join r.gap_blank WrittenName.text WrittenName.name fun w _ => w.isName_text
  rw [Reference.parse?, hkeyword, htail]
  simp only [Option.bind_eq_bind, Option.bind_some, hname, hstart, hgroup, hlist]
  rfl

/-- The reference is read back from the tokens of its clause. -/
theorem parse?_tokens : Reference.parse? (join " " r.tokens) = some r.reference := by
  have hparse := r.parse?_tokens_append []
  obtain ⟨hdelete, hupdate⟩ := r.find?_actions
  rw [List.append_nil, List.append_nil, hdelete, hupdate] at hparse
  exact hparse

end ReferenceClause

end SqlDump
