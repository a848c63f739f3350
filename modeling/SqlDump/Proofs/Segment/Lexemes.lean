import Mathlib.Data.List.Infix
import SqlDump.Segment.Basic

/-!
# Lexemes

A dump as a list of lexemes, told without a lexer: strings, names, comments, semicolons, blanks and
what is left. Two readings of dashes are told apart, one in which every dash may be the first of a
comment and one in which dashes that open no comment are taken two at a time.

Main statements: `Lexed.existsUnique`, an input has exactly one list of lexemes in either reading;
`Lexed.paired_of_single`, the readings differ only where a comment stands behind an odd number of
dashes.
-/

namespace SqlDump

open Scan (quoteMark doubleQuote backtickMark backslash semicolon dash slash asterisk exclamation
  lineFeed)

/-- What begins with an octet that is no blank. -/
def Octets.Solid (bs : Octets) : Prop := ∃ b t, bs = b :: t ∧ Octets.isBlank b = false

theorem Octets.Solid.append {bs : Octets} (h : bs.Solid) (t : Octets) : Octets.Solid (bs ++ t) := by
  obtain ⟨b, u, rfl, hb⟩ := h
  exact ⟨b, u ++ t, rfl, hb⟩

/-- What octets can be enclosed in. -/
inductive Enclosure where
  | single
  | double
  | backticks
  /-- A line comment. -/
  | line
  | block
  deriving DecidableEq, Repr

namespace Enclosure

def opener : Enclosure → Octets
  | single => [quoteMark]
  | double => [doubleQuote]
  | backticks => [backtickMark]
  | line => [dash, dash]
  | block => [slash, asterisk]

def closer : Enclosure → Octets
  | single => [quoteMark]
  | double => [doubleQuote]
  | backticks => [backtickMark]
  | line => [lineFeed]
  | block => [asterisk, slash]

/-- Whether a backslash takes the meaning from the octet behind it. -/
def escapes : Enclosure → Bool
  | single => true
  | double => true
  | _ => false

/-- What has to stand behind two dashes for them to open a comment. -/
def isBreak (b : UInt8) : Bool := b == 0x20 || b == 0x09 || b == 0x0D || b == lineFeed

/-- Whether an opener opens with these octets behind it. Only two dashes need something there: a
blank, or the end of the input. -/
def Admits (e : Enclosure) (behind : Octets) : Prop :=
  e = .line → ∀ b, behind.head? = some b → isBreak b = true

/-- Octets up to the first closer that is not escaped, and with it. -/
inductive Closes (e : Enclosure) : Octets → Prop
  | closer : Closes e e.closer
  | escape (b : UInt8) {t : Octets} (escapes : e.escapes = true) (tail : Closes e t) :
      Closes e (backslash :: b :: t)
  | content {b : UInt8} {t : Octets} (plain : ¬(e.escapes = true ∧ b = backslash))
      (inside : ¬e.closer <+: b :: t) (tail : Closes e t) : Closes e (b :: t)

/-- Octets in which no closer is met. -/
def Unclosed (e : Enclosure) (t : Octets) : Prop := ∀ p, p <+: t → ¬e.Closes p

theorem closer_length_le {e : Enclosure} {t : Octets} (h : e.Closes t) :
    e.closer.length ≤ t.length := by
  induction h with
  | closer => exact Nat.le_refl _
  | escape b _ _ ih => exact Nat.le_succ_of_le (Nat.le_succ_of_le ih)
  | content _ _ _ ih => exact Nat.le_succ_of_le ih

/-- A closer of one octet is no backslash. -/
theorem closer_ne_backslash (e : Enclosure) (t : Octets) : ¬e.closer <+: backslash :: t := by
  cases e <;> simp [closer, backslash, quoteMark, doubleQuote, backtickMark, lineFeed, asterisk]

/-- The first closer is one and the same, whatever stands behind it. -/
theorem Closes.unique {e : Enclosure} {t u r s : Octets} (ht : e.Closes t) (hu : e.Closes u)
    (h : t ++ r = u ++ s) : t = u := by
  have early {b : UInt8} {t r v : Octets} (tail : e.Closes t) (inside : ¬e.closer <+: b :: t)
      (hv : b :: (t ++ r) = e.closer ++ v) : False := by
    apply inside
    have hlen := closer_length_le tail
    have hp : e.closer <+: (b :: t) ++ r := ⟨v, hv.symm⟩
    exact List.prefix_of_prefix_length_le hp (List.prefix_append _ _)
      (Nat.le_succ_of_le hlen)
  induction ht generalizing u with
  | closer =>
    cases hu with
    | closer => rfl
    | escape b _ _ => exact (closer_ne_backslash e _ ⟨r, h⟩).elim
    | content _ inside tail => exact (early tail inside h.symm).elim
  | @escape b t esc tail ih =>
    cases hu with
    | closer => exact (closer_ne_backslash e _ ⟨s, h.symm⟩).elim
    | @escape c v _ hv =>
      simp only [List.cons_append, List.cons.injEq, true_and] at h
      rw [h.1, ih hv h.2]
    | content plain _ _ =>
      simp only [List.cons_append, List.cons.injEq] at h
      exact (plain ⟨esc, h.1.symm⟩).elim
  | @content b t plain inside tail ih =>
    cases hu with
    | closer => exact (early tail inside h).elim
    | escape c esc _ =>
      simp only [List.cons_append, List.cons.injEq] at h
      exact (plain ⟨esc, h.1⟩).elim
    | content _ _ hv =>
      simp only [List.cons_append, List.cons.injEq] at h
      rw [h.1, ih hv h.2]

theorem Unclosed.no_closer {e : Enclosure} {t : Octets} (h : e.Unclosed t) : ¬e.closer <+: t :=
  fun hp => h e.closer hp .closer

theorem Unclosed.tail {e : Enclosure} {b : UInt8} {t : Octets} (h : e.Unclosed (b :: t))
    (plain : ¬(e.escapes = true ∧ b = backslash)) : e.Unclosed t := by
  intro p hp hc
  have hbp : b :: p <+: b :: t := List.cons_prefix_cons.mpr ⟨rfl, hp⟩
  have inside : ¬e.closer <+: b :: p := fun hcp => h.no_closer (hcp.trans hbp)
  exact h (b :: p) hbp (.content plain inside hc)

theorem Unclosed.escaped {e : Enclosure} {b : UInt8} {t : Octets}
    (h : e.Unclosed (backslash :: b :: t)) (escapes : e.escapes = true) : e.Unclosed t := by
  intro p hp hc
  have hbp : backslash :: b :: p <+: backslash :: b :: t :=
    List.cons_prefix_cons.mpr ⟨rfl, List.cons_prefix_cons.mpr ⟨rfl, hp⟩⟩
  exact h _ hbp (.escape b escapes hc)

/-- Octets open one enclosure at most. -/
theorem opener_unique {d e : Enclosure} {t u : Octets} (h : d.opener ++ t = e.opener ++ u) :
    d = e := by
  cases d <;> cases e <;>
    simp [opener, quoteMark, doubleQuote, backtickMark, dash, slash, asterisk] at h ⊢

/-- An opener begins with no blank and no semicolon. -/
theorem solid_of_opener (e : Enclosure) {b : UInt8} {u t : Octets} (h : e.opener ++ t = b :: u) :
    Octets.isBlank b = false ∧ b ≠ semicolon := by
  cases e <;> simp only [opener, List.cons_append, List.cons.injEq] at h <;> rw [← h.1] <;>
    decide

theorem opener_ne_nil (e : Enclosure) : e.opener ≠ [] := by cases e <;> simp [opener]

end Enclosure

/-- How dashes that open no comment are read. -/
inductive Dashes where
  /-- One by one: the second of two dashes may be the first of a comment. -/
  | single
  /-- Two at a time. -/
  | paired
  deriving DecidableEq, Repr

/-- What stands together in a dump. -/
inductive Lexeme where
  | blank (b : UInt8)
  | semicolon
  /-- What has no meaning for where a statement ends. -/
  | text (octets : Octets)
  /-- What is enclosed, with the closer. -/
  | closed (e : Enclosure) (inside : Octets)
  /-- What is enclosed up to the end of the input. -/
  | unclosed (e : Enclosure) (inside : Octets)
  deriving DecidableEq, Repr

namespace Lexeme

def octets : Lexeme → Octets
  | blank b => [b]
  | semicolon => [Scan.semicolon]
  | text octets => octets
  | closed e inside => e.opener ++ inside
  | unclosed e inside => e.opener ++ inside

def isBlank : Lexeme → Bool
  | blank _ => true
  | _ => false

/-- Whether a lexeme is a whole comment, and not a conditional one. A comment that ends with the
line may end with the input. -/
def isComment : Lexeme → Bool
  | closed .line _ => true
  | unclosed .line _ => true
  | closed .block inside => inside.head? != some exclamation
  | _ => false

/-- Whether a lexeme ends the statement, of which something was met before if it has `begun`. -/
def ends (begun : Bool) : Lexeme → Bool
  | semicolon => true
  | l => !begun && l.isComment

theorem isBlank_of_ends {begun : Bool} {l : Lexeme} (h : l.ends begun = true) :
    l.isBlank = false := by
  cases l <;> simp [ends, isComment, isBlank] at h ⊢

/-- The first lexeme of octets that open nothing, and what follows it. -/
def bare (rule : Dashes) (b : UInt8) (bs : Octets) : Lexeme × Octets :=
  if Octets.isBlank b then (.blank b, bs)
  else if b = Scan.semicolon then (.semicolon, bs)
  else if rule = .paired ∧ b = dash ∧ bs.head? = some dash then (.text [dash, dash], bs.tail)
  else (.text [b], bs)

/-- The statements that lexemes make up, `body` holding what was met of the one that began at
`offset`. A statement ends with a semicolon, or with the comment that begins it. Blanks before it
are no part of it. -/
def statements (index offset : Nat) (body : Octets) : List Lexeme → List Segment
  | [] => if body.isEmpty then [] else [⟨body, index, offset, false⟩]
  | l :: ls =>
    if l.ends !body.isEmpty then
      ⟨body ++ l.octets, index, offset, true⟩ ::
        statements (index + 1) (offset + (body ++ l.octets).length) [] ls
    else if body.isEmpty && l.isBlank then statements index (offset + l.octets.length) [] ls
    else statements index offset (body ++ l.octets) ls

/-- Whether a line comment has more than its dashes. -/
def goesOn : Lexeme → Bool
  | closed .line inside => inside != [lineFeed]
  | unclosed .line inside => !inside.isEmpty
  | _ => false

/-- No comment that goes on behind its dashes stands behind an odd number of further dashes. -/
def Separate (ls : List Lexeme) : Prop :=
  ∀ (lead : List Lexeme) (n : Nat) (l : Lexeme) (rest : List Lexeme),
    ls = lead ++ List.replicate (2 * n + 1) (.text [dash]) ++ l :: rest →
      lead.getLast? ≠ some (.text [dash]) → l.goesOn = false

/-- Lexemes that were read dash by dash, with the dashes taken two at a time. -/
def pairUp : List Lexeme → List Lexeme
  | .text [0x2D] :: .text [0x2D] :: ls => .text [dash, dash] :: pairUp ls
  | .text [0x2D] :: .closed .line [0x0A] :: ls =>
    .text [dash, dash] :: .text [dash] :: .blank lineFeed :: pairUp ls
  | .text [0x2D] :: .unclosed .line [] :: ls =>
    .text [dash, dash] :: .text [dash] :: pairUp ls
  | l :: ls => l :: pairUp ls
  | [] => []

theorem statements_pairUp (index offset : Nat) (body : Octets) (ls : List Lexeme) :
    statements index offset body (pairUp ls) = statements index offset body ls := by
  -- Behind the first dash the statement has begun, and a comment does not end it any more.
  fun_induction pairUp ls generalizing index offset body with
  | case1 ls ih => simp [statements, ends, isComment, isBlank, octets, dash, ih]
  | case2 ls ih =>
    simp [statements, ends, isComment, isBlank, octets, Enclosure.opener, dash, lineFeed, ih]
  | case3 ls ih =>
    simp [statements, ends, isComment, isBlank, octets, Enclosure.opener, dash, ih]
  | case4 l ls _ _ _ ih => simp [statements, ih]
  | case5 => rfl

theorem Separate.tail {l : Lexeme} {ls : List Lexeme} (h : Separate (l :: ls))
    (hl : l = .text [dash] → ls.head? ≠ some (.text [dash])) : Separate ls := by
  intro lead n m rest hls hlead
  refine h (l :: lead) n m rest (by rw [hls]; rfl) ?_
  cases lead with
  | nil =>
    intro he
    refine hl (by simpa using he) ?_
    rw [hls]
    rfl
  | cons k lead => simpa [List.getLast?_cons_cons] using hlead

theorem Separate.tail_pair {ls : List Lexeme} (h : Separate (.text [dash] :: .text [dash] :: ls)) :
    Separate ls := by
  intro lead n m rest hls hlead
  cases lead with
  | nil =>
    refine h [] (n + 1) m rest ?_ (by simp)
    rw [hls, show 2 * (n + 1) + 1 = 2 * n + 1 + 1 + 1 by omega,
      List.replicate_succ (n := 2 * n + 1 + 1), List.replicate_succ (n := 2 * n + 1)]
    rfl
  | cons k lead =>
    refine h (.text [dash] :: .text [dash] :: k :: lead) n m rest (by rw [hls]; rfl) ?_
    simpa [List.getLast?_cons_cons] using hlead

theorem Separate.behind_dash {l : Lexeme} {ls : List Lexeme}
    (h : Separate (.text [dash] :: l :: ls)) : l.goesOn = false :=
  h [] 0 l ls rfl (by simp)

end Lexeme

/-- The first lexeme of octets, and what follows it. -/
inductive Begins (rule : Dashes) : Lexeme → Octets → Prop
  | blank {b : UInt8} {rest : Octets} (blank : Octets.isBlank b = true) :
      Begins rule (.blank b) rest
  | semicolon {rest : Octets} : Begins rule .semicolon rest
  | closed {e : Enclosure} {t rest : Octets} (admits : e.Admits (t ++ rest))
      (closes : e.Closes t) : Begins rule (.closed e t) rest
  | unclosed {e : Enclosure} {t : Octets} (admits : e.Admits t)
      (never : e.Unclosed t) : Begins rule (.unclosed e t) []
  | octet {b : UInt8} {rest : Octets} (solid : Octets.isBlank b = false) (inner : b ≠ semicolon)
      (opens : ∀ (e : Enclosure) (t : Octets), b :: rest = e.opener ++ t → ¬e.Admits t)
      (alone : rule = .paired → b = dash → rest.head? ≠ some dash) : Begins rule (.text [b]) rest
  | pair {rest : Octets} (paired : rule = .paired) (opens : ¬Enclosure.line.Admits rest) :
      Begins rule (.text [dash, dash]) rest

/-- The lexemes that octets are made of. -/
inductive Lexed (rule : Dashes) : Octets → List Lexeme → Prop
  | nil : Lexed rule [] []
  | cons {l : Lexeme} {rest : Octets} {ls : List Lexeme} (head : Begins rule l rest)
      (tail : Lexed rule rest ls) : Lexed rule (l.octets ++ rest) (l :: ls)

namespace Begins

variable {rule : Dashes} {l m : Lexeme} {rest more : Octets}

theorem octets_ne_nil (h : Begins rule l rest) : l.octets ≠ [] := by
  cases h <;> simp [Lexeme.octets, Enclosure.opener_ne_nil]

/-- A lexeme that is no blank begins with none. -/
theorem solid (h : Begins rule l rest) (hl : l.isBlank = false) :
    l.octets.Solid := by
  have enclosed (e : Enclosure) (t : Octets) :
      Octets.Solid (e.opener ++ t) := by
    obtain ⟨b, bs, hb⟩ := List.exists_cons_of_ne_nil
      (List.append_ne_nil_of_left_ne_nil e.opener_ne_nil t)
    exact ⟨b, bs, hb, (e.solid_of_opener hb).1⟩
  cases h with
  | blank => cases hl
  | semicolon => exact ⟨_, _, rfl, rfl⟩
  | @closed e t => exact enclosed e t
  | @unclosed e t => exact enclosed e t
  | octet solid => exact ⟨_, _, rfl, solid⟩
  | pair => exact ⟨_, _, rfl, rfl⟩

theorem all_blank (h : Begins rule l rest) (hl : l.isBlank = true) :
    l.octets.all Octets.isBlank = true := by
  cases h with
  | blank blank => simp [Lexeme.octets, blank]
  | _ => cases hl

/-- Octets behind an opener are one enclosed lexeme and what follows it. -/
theorem opens_of_enclosure {e : Enclosure} {t : Octets} (admits : e.Admits t) :
    ∃ l rest, Begins rule l rest ∧ l.octets ++ rest = e.opener ++ t := by
  by_cases h : ∃ p, p <+: t ∧ e.Closes p
  · obtain ⟨p, ⟨r, rfl⟩, hp⟩ := h
    exact ⟨_, r, .closed admits hp, List.append_assoc _ _ _⟩
  · refine ⟨_, [], .unclosed admits ?_, List.append_nil _⟩
    intro p hp hc
    exact h ⟨p, hp, hc⟩

/-- Octets that open an enclosure begin with a lexeme that it encloses. -/
theorem of_admits (h : Begins rule l rest) {e : Enclosure} {t : Octets}
    (ht : l.octets ++ rest = e.opener ++ t) (admits : e.Admits t) :
    (∃ u, l = .closed e u ∧ e.Closes u ∧ u ++ rest = t) ∨
      l = .unclosed e t ∧ rest = [] ∧ e.Unclosed t := by
  cases h with
  | blank blank => simp [(e.solid_of_opener ht.symm).1] at blank
  | semicolon => exact absurd rfl (e.solid_of_opener ht.symm).2
  | @closed d u _ _ closes =>
    rw [Lexeme.octets, List.append_assoc] at ht
    obtain rfl := Enclosure.opener_unique ht
    exact .inl ⟨u, rfl, closes, List.append_cancel_left ht⟩
  | @unclosed d u _ never =>
    rw [Lexeme.octets, List.append_nil] at ht
    obtain rfl := Enclosure.opener_unique ht
    obtain rfl := List.append_cancel_left ht
    exact .inr ⟨rfl, rfl, never⟩
  | octet _ _ opens _ => exact (opens e t ht admits).elim
  | pair _ opens =>
    obtain rfl := Enclosure.opener_unique (d := .line) ht
    obtain rfl := List.append_cancel_left ht
    exact (opens admits).elim

section Bare

variable {b : UInt8} {bs : Octets}
  (opens : ∀ (e : Enclosure) (t : Octets), b :: bs = e.opener ++ t → ¬e.Admits t)

include opens

theorem begins_bare (rule : Dashes) :
    Begins rule (Lexeme.bare rule b bs).1 (Lexeme.bare rule b bs).2 ∧
      (Lexeme.bare rule b bs).1.octets ++ (Lexeme.bare rule b bs).2 = b :: bs := by
  unfold Lexeme.bare
  by_cases hb : Octets.isBlank b = true
  · rw [if_pos hb]
    exact ⟨.blank hb, rfl⟩
  by_cases hs : b = Scan.semicolon
  · rw [if_neg hb, if_pos hs, hs]
    exact ⟨.semicolon, rfl⟩
  rw [if_neg hb, if_neg hs]
  by_cases hd : rule = .paired ∧ b = dash ∧ bs.head? = some dash
  · obtain ⟨hr, rfl, hh⟩ := hd
    obtain ⟨c, rfl⟩ := List.head?_eq_some_iff.mp hh
    rw [if_pos ⟨hr, rfl, hh⟩]
    exact ⟨.pair hr (opens .line c rfl), rfl⟩
  · rw [if_neg hd]
    refine ⟨.octet (Bool.eq_false_iff.mpr hb) hs opens ?_, rfl⟩
    intro hr hb hh
    exact hd ⟨hr, hb, hh⟩

theorem eq_bare (h : Begins rule l rest) (hb : l.octets ++ rest = b :: bs) :
    (l, rest) = Lexeme.bare rule b bs := by
  unfold Lexeme.bare
  cases h with
  | blank blank =>
    obtain ⟨rfl, rfl⟩ : _ = b ∧ rest = bs := List.cons.inj hb
    rw [if_pos blank]
  | semicolon =>
    obtain ⟨rfl, rfl⟩ : _ = b ∧ rest = bs := List.cons.inj hb
    rw [if_neg (by decide), if_pos rfl]
  | @closed e t _ admits _ =>
    rw [Lexeme.octets, List.append_assoc] at hb
    exact (opens e _ hb.symm admits).elim
  | @unclosed e t admits _ =>
    rw [Lexeme.octets, List.append_nil] at hb
    exact (opens e t hb.symm admits).elim
  | octet solid inner _ alone =>
    obtain ⟨rfl, rfl⟩ : _ = b ∧ rest = bs := List.cons.inj hb
    rw [if_neg (by simp [solid]), if_neg inner, if_neg fun ⟨hr, hd, hh⟩ => alone hr hd hh]
  | pair paired _ =>
    obtain ⟨rfl, rfl⟩ := List.cons.inj hb
    rw [if_neg (by decide), if_neg (by decide), if_pos ⟨paired, rfl, rfl⟩]
    rfl

end Bare

theorem exists_cons (rule : Dashes) (b : UInt8) (bs : Octets) :
    ∃ l rest, Begins rule l rest ∧ l.octets ++ rest = b :: bs := by
  by_cases h : ∃ (e : Enclosure) (t : Octets), b :: bs = e.opener ++ t ∧ e.Admits t
  · obtain ⟨e, t, ht, admits⟩ := h
    rw [ht]
    exact opens_of_enclosure admits
  · have opens : ∀ (e : Enclosure) (t : Octets), b :: bs = e.opener ++ t → ¬e.Admits t := by
      intro e t ht admits
      exact h ⟨e, t, ht, admits⟩
    exact ⟨_, _, begins_bare opens rule⟩

theorem unique (h : Begins rule l rest) (h' : Begins rule m more)
    (he : l.octets ++ rest = m.octets ++ more) : l = m ∧ rest = more := by
  by_cases ho : ∃ (e : Enclosure) (t : Octets), l.octets ++ rest = e.opener ++ t ∧ e.Admits t
  · obtain ⟨e, t, ht, admits⟩ := ho
    rcases h.of_admits ht admits with ⟨u, rfl, hu, rfl⟩ | ⟨rfl, rfl, never⟩
    · rcases h'.of_admits (he ▸ ht) admits with ⟨v, rfl, hv, hr⟩ | ⟨_, _, never⟩
      · obtain rfl := hu.unique hv hr.symm
        exact ⟨rfl, (List.append_cancel_left hr).symm⟩
      · exact (never u (List.prefix_append _ _) hu).elim
    · rcases h'.of_admits (he ▸ ht) admits with ⟨v, _, hv, rfl⟩ | ⟨rfl, rfl, _⟩
      · exact (never v (List.prefix_append _ _) hv).elim
      · exact ⟨rfl, rfl⟩
  · obtain ⟨b, bs, hb⟩ := List.exists_cons_of_ne_nil
      (List.append_ne_nil_of_left_ne_nil h.octets_ne_nil rest)
    have opens : ∀ (e : Enclosure) (t : Octets), b :: bs = e.opener ++ t → ¬e.Admits t := by
      intro e t ht admits
      exact ho ⟨e, t, hb.trans ht, admits⟩
    have same := (eq_bare opens h hb).trans (eq_bare opens h' (he ▸ hb)).symm
    exact Prod.mk.inj same

/-- A dash before something else stands for itself. -/
theorem dash_alone (rule : Dashes) {t : Octets} (h : t.head? ≠ some dash) :
    Begins rule (.text [dash]) t := by
  refine .octet rfl (by decide) ?_ fun _ _ => h
  intro e u hu
  cases e with
  | line =>
    rw [(List.cons.inj hu).2] at h
    exact (h rfl).elim
  | _ => exact absurd (List.cons.inj hu).1 (by decide)

/-- Read dash by dash, a dash is one for itself or the first of a comment. -/
theorem of_dash (h : Begins .single l rest) (hd : (l.octets ++ rest).head? = some dash) :
    l = .text [dash] ∨ ∃ t, l = .closed .line t ∨ l = .unclosed .line t := by
  have enclosed {e : Enclosure} {t : Octets} (ht : (e.opener ++ t).head? = some dash) :
      e = .line := by
    cases e <;> simp [Enclosure.opener, quoteMark, doubleQuote, backtickMark, dash, slash] at ht ⊢
  cases h with
  | blank blank =>
    obtain rfl := Option.some.inj hd
    cases blank
  | semicolon => cases hd
  | @closed e t =>
    rw [Lexeme.octets, List.append_assoc] at hd
    rw [enclosed hd]
    exact .inr ⟨t, .inl rfl⟩
  | @unclosed e t =>
    rw [Lexeme.octets, List.append_assoc] at hd
    rw [enclosed hd]
    exact .inr ⟨t, .inr rfl⟩
  | octet =>
    obtain rfl := Option.some.inj hd
    exact .inl rfl
  | pair paired => cases paired

end Begins

namespace Lexed

variable {rule : Dashes}

theorem exists_lexemes (rule : Dashes) (bs : Octets) : ∃ ls, Lexed rule bs ls := by
  induction hn : bs.length using Nat.strongRecOn generalizing bs with
  | ind n ih =>
    cases bs with
    | nil => exact ⟨[], .nil⟩
    | cons b bs =>
      obtain ⟨l, rest, head, he⟩ := Begins.exists_cons rule b bs
      have hlt : rest.length < n := by
        have hpos := List.length_pos_iff.mpr head.octets_ne_nil
        have hlen := congrArg List.length he
        rw [List.length_append] at hlen
        omega
      obtain ⟨ls, tail⟩ := ih rest.length hlt rest rfl
      exact ⟨l :: ls, he ▸ .cons head tail⟩

protected theorem unique {bs : Octets} {ls ms : List Lexeme} (h : Lexed rule bs ls)
    (h' : Lexed rule bs ms) : ls = ms := by
  induction h generalizing ms with
  | nil =>
    generalize hbs : ([] : Octets) = bs at h'
    cases h' with
    | nil => rfl
    | cons head tail =>
      exact (head.octets_ne_nil (List.append_eq_nil_iff.mp hbs.symm).1).elim
  | @cons l rest ls head tail ih =>
    generalize hbs : l.octets ++ rest = bs at h'
    cases h' with
    | nil => exact (head.octets_ne_nil (List.append_eq_nil_iff.mp hbs).1).elim
    | cons head' tail' =>
      obtain ⟨rfl, rfl⟩ := head.unique head' hbs
      rw [ih tail']

theorem existsUnique (rule : Dashes) (bs : Octets) : ∃! ls, Lexed rule bs ls := by
  obtain ⟨ls, h⟩ := Lexed.exists_lexemes rule bs
  exact ⟨ls, h, fun ms h' => h'.unique h⟩

/-- Read two at a time, dashes give the lexemes that they give one by one, as long as no comment
goes on behind an odd number of them. -/
theorem paired_of_single {bs : Octets} {ls : List Lexeme} (h : Lexed .single bs ls)
    (hs : Lexeme.Separate ls) : Lexed .paired bs (Lexeme.pairUp ls) := by
  have unbroken (t : Octets) : ¬Enclosure.line.Admits (dash :: t) := by
    intro hd
    have := hd rfl dash rfl
    simp [Enclosure.isBreak, dash, lineFeed] at this
  fun_induction Lexeme.pairUp ls generalizing bs with
  | case1 ls ih =>
    obtain _ | ⟨first, _ | ⟨second, tail⟩⟩ := h
    cases second
    cases first with
    | octet _ _ opens _ =>
      exact .cons (.pair rfl (opens .line _ rfl)) (ih tail hs.tail_pair)
  | case2 ls ih =>
    obtain _ | ⟨first, _ | @⟨_, rest, _, _, tail⟩⟩ := h
    have behind : Lexed .paired (lineFeed :: rest) (.blank lineFeed :: Lexeme.pairUp ls) :=
      .cons (.blank rfl) (ih tail ((hs.tail (by simp)).tail (by simp)))
    have third : Lexed .paired (dash :: lineFeed :: rest)
        (.text [dash] :: .blank lineFeed :: Lexeme.pairUp ls) :=
      .cons (.dash_alone .paired (by simp [dash, lineFeed])) behind
    exact .cons (.pair rfl (unbroken _)) third
  | case3 ls ih =>
    obtain _ | ⟨first, _ | ⟨second, tail⟩⟩ := h
    cases second
    have third : Lexed .paired [dash] (.text [dash] :: Lexeme.pairUp ls) :=
      .cons (.dash_alone .paired (by simp)) (ih tail ((hs.tail (by simp)).tail (by simp)))
    exact .cons (.pair rfl (unbroken _)) third
  | case4 l ls h₁ h₂ h₃ ih =>
    obtain _ | @⟨_, rest, _, head, tail⟩ := h
    have htail : Lexeme.Separate ls := by
      refine hs.tail ?_
      intro hl hh
      obtain ⟨ms, rfl⟩ := List.head?_eq_some_iff.mp hh
      exact h₁ ms hl rfl
    refine .cons ?_ (ih tail htail)
    cases head with
    | blank blank => exact .blank blank
    | semicolon => exact .semicolon
    | closed admits closes => exact .closed admits closes
    | unclosed admits never => exact .unclosed admits never
    | pair paired => cases paired
    | octet solid inner opens _ =>
      refine .octet solid inner opens ?_
      rintro - rfl hh
      -- Behind the dash stands another: it would have been paired with it, or is a comment.
      obtain _ | @⟨m, _, ms, next, _⟩ := tail
      · cases hh
      rcases next.of_dash hh with rfl | ⟨t, rfl | rfl⟩
      · exact h₁ ms rfl rfl
      · have ht : t = [lineFeed] := by simpa [Lexeme.goesOn] using hs.behind_dash
        subst ht
        exact h₂ ms rfl rfl
      · have ht : t = [] := by simpa [Lexeme.goesOn] using hs.behind_dash
        subst ht
        exact h₃ ms rfl rfl
  | case5 =>
    cases h
    exact .nil

end Lexed

end SqlDump
