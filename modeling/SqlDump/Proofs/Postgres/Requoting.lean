import Mathlib.Data.Bool.AllAny
import SqlDump.Proofs.Postgres.Passing
import SqlDump.Proofs.Postgres.Token
import SqlDump.Proofs.Schema.Distinct

/-!
# Names in statements passed through

A statement that is translated gives its names from what was read of the dump; one that is passed
through gets double quotes in the place of its backticks, character by character. A double quote in
a name is then written twice, and so is a backtick, which MySQL writes twice itself, as a double
quote. So the two ways agree on the names without a backtick.

Main statements: `requote_name`, what is passed through of a name in backticks;
`tableRead?_remainder`, the table that is named where clauses of an `ALTER TABLE` are passed
through; `requote_quoted`, both where a backtick is in the name and where none is.
-/

namespace SqlDump

open Text

namespace Postgres

/-! ## Names -/

/-- The name that a name in backticks is passed through as: its backticks are double quotes. -/
def passedName (name : Text) : Text := replaceChar '\x60' ['\x22'] name

theorem passedName_cons_self (name : Text) :
    passedName ('\x60' :: name) = '\x22' :: passedName name := by
  simp [passedName, replaceChar]

theorem passedName_cons_of_ne {c : Char} (h : c ≠ '\x60') (name : Text) :
    passedName (c :: name) = c :: passedName name := by
  simp [passedName, replaceChar, h]

theorem passedName_eq_self_iff {name : Text} : passedName name = name ↔ '\x60' ∉ name := by
  induction name with
  | nil => simp [passedName, replaceChar]
  | cons c name ih =>
    by_cases hc : c = '\x60'
    · subst hc
      rw [passedName_cons_self]
      simp
    · rw [passedName_cons_of_ne hc, List.cons_inj_right, ih, List.mem_cons]
      simp [eq_comm, hc]

theorem quoteName_injective {name other : Text} (h : quoteName name = quoteName other) :
    name = other := by
  have hread (name : Text) : Identifier.readQuoted '\x22' [] (double '\x22' name ++ ['\x22']) =
      some (name, []) := Identifier.readQuoted_double '\x22' [] name [] nofun
  have hinner : double '\x22' name ++ ['\x22'] = double '\x22' other ++ ['\x22'] :=
    (List.cons.inj h).2
  have hsame := hread name
  rw [hinner, hread other] at hsame
  exact (Prod.mk.inj (Option.some.inj hsame)).1.symm

/-- Between backticks every quote of either kind becomes two double quotes. -/
theorem requoteFrom_name (name rest : Text) :
    requoteFrom (.inside '\x60' false) [] (double '\x60' name ++ '\x60' :: rest) =
      double '\x22' (passedName name) ++ '\x22' :: requote rest := by
  induction name with
  | nil =>
    change requoteFrom (.inside '\x60' false) [] ('\x60' :: rest) = _
    rw [requoteFrom_cons]
    rfl
  | cons c name ih =>
    by_cases htick : c = '\x60'
    · -- The first of two backticks leaves the name, and the second goes back into it.
      subst htick
      rw [double_cons_self, passedName_cons_self, double_cons_self, List.cons_append,
        List.cons_append, requoteFrom_cons, requoteFrom_cons]
      exact congrArg (['\x22', '\x22'] ++ ·) ih
    · have hstep : Quoting.step (.inside '\x60' false) c = .inside '\x60' false := by
        simp [Quoting.step, htick]
      rw [double_cons_of_ne htick, passedName_cons_of_ne htick, List.cons_append, requoteFrom_cons,
        hstep, ih]
      by_cases hquote : c = '\x22'
      · subst hquote
        rw [double_cons_self]
        rfl
      · rw [double_cons_of_ne hquote]
        simp [requoteChar, htick, hquote]

/-- What stands outside quotes is passed through as it is. -/
theorem requote_plain {t : Text} (h : ∀ c ∈ t, isQuoteMark c = false) (rest : Text) :
    requote (t ++ rest) = t ++ requote rest := by
  induction t with
  | nil => rfl
  | cons c t ih =>
    have hc := h c List.mem_cons_self
    have hstep : Quoting.outside.step c = .outside := by simp [Quoting.step, hc]
    have htail := ih fun d hd => h d (List.mem_cons_of_mem c hd)
    unfold requote at htail ⊢
    rw [List.cons_append, requoteFrom_cons, requoteChar_of_not_quoteMark hc, hstep, htail]
    rfl

/-- A name in backticks is passed through in double quotes. -/
theorem requote_name (name rest : Text) :
    requote (Identifier.quoted '\x60' name ++ rest) = quoteName (passedName name) ++ requote rest := by
  have hopen : Identifier.quoted '\x60' name ++ rest =
      '\x60' :: (double '\x60' name ++ '\x60' :: rest) := by
    simp [Identifier.quoted]
  have hquoted : quoteName (passedName name) ++ requote rest =
      '\x22' :: (double '\x22' (passedName name) ++ '\x22' :: requote rest) := by
    simp [quoteName, Identifier.quoted]
  rw [hopen, hquoted, requote, requoteFrom_cons]
  exact congrArg ('\x22' :: ·) (requoteFrom_name name rest)

/-! ## Conditional comments -/

/-- What is kept of a text does not depend on what was kept before it. -/
theorem exists_stripFrom (q : Quoting) (t : Text) :
    ∃ kept, ∀ done, stripFrom q done t = done.reverse ++ kept := by
  induction hn : t.length using Nat.strong_induction_on generalizing q t with
  | h n ih =>
    subst hn
    cases t with
    | nil =>
      refine ⟨[], fun done => ?_⟩
      rw [stripFrom, List.append_nil]
    | cons c rest =>
      cases hbehind : behindConditional? q (c :: rest) with
      | some after =>
        obtain ⟨kept, hkept⟩ := ih _ (length_behindConditional? hbehind) q after rfl
        refine ⟨kept, fun done => ?_⟩
        rw [stripFrom_conditional hbehind, hkept]
      | none =>
        obtain ⟨kept, hkept⟩ := ih _ (Nat.lt_succ_self rest.length) (q.step c) rest rfl
        refine ⟨c :: kept, fun done => ?_⟩
        rw [stripFrom_char hbehind, hkept]
        simp

/-- Nothing is taken out of a text without slashes that stands outside quotes. -/
theorem stripFrom_plain {t : Text} (h : ∀ c ∈ t, c ≠ '/' ∧ isQuoteMark c = false)
    (done rest : Text) :
    stripFrom .outside done (t ++ rest) = stripFrom .outside (t.reverse ++ done) rest := by
  induction t generalizing done with
  | nil => rfl
  | cons c t ih =>
    obtain ⟨hslash, hmark⟩ := h c List.mem_cons_self
    have hbehind : behindConditional? .outside (c :: (t ++ rest)) = none := by
      unfold behindConditional?
      split
      · next heq => exact absurd (List.cons.inj heq).1 hslash
      · rfl
    have hstep : Quoting.outside.step c = .outside := by simp [Quoting.step, hmark]
    rw [List.cons_append, stripFrom_char hbehind, hstep,
      ih fun d hd => h d (List.mem_cons_of_mem c hd)]
    simp

/-- Nothing is taken out of a name in backticks. -/
theorem stripFrom_name (done name rest : Text) :
    stripFrom (.inside '\x60' false) done (double '\x60' name ++ '\x60' :: rest) =
      stripFrom .outside ((double '\x60' name ++ ['\x60']).reverse ++ done) rest := by
  induction name generalizing done with
  | nil =>
    change stripFrom (.inside '\x60' false) done ('\x60' :: rest) = _
    rw [stripFrom_char rfl]
    rfl
  | cons c name ih =>
    by_cases htick : c = '\x60'
    · subst htick
      rw [double_cons_self, List.cons_append, List.cons_append, stripFrom_char rfl,
        stripFrom_char rfl]
      refine (ih ('\x60' :: '\x60' :: done)).trans ?_
      simp
    · have hstep : Quoting.step (.inside '\x60' false) c = .inside '\x60' false := by
        simp [Quoting.step, htick]
      rw [double_cons_of_ne htick, List.cons_append, stripFrom_char rfl, hstep, ih]
      simp

theorem stripFrom_quoted (done name rest : Text) :
    stripFrom .outside done (Identifier.quoted '\x60' name ++ rest) =
      stripFrom .outside ((Identifier.quoted '\x60' name).reverse ++ done) rest := by
  have hopen : Identifier.quoted '\x60' name ++ rest =
      '\x60' :: (double '\x60' name ++ '\x60' :: rest) := by
    simp [Identifier.quoted]
  rw [hopen, stripFrom_char rfl]
  refine (stripFrom_name ('\x60' :: done) name rest).trans ?_
  simp [Identifier.quoted]

/-! ## Statements about a table -/

/-- The table that a statement is about, as PostgreSQL reads it: the name in quotes behind the words
that the statement begins with. -/
def tableRead? (words sql : Text) : Option Text :=
  match (after? words sql).bind Token.read? with
  | some (.name table, _) => some table
  | _ => none

theorem tableRead?_quoteName (words name : Text) {rest : Text} (h : ∀ tail, rest ≠ '\x22' :: tail) :
    tableRead? words (words ++ (quoteName name ++ rest)) = some name := by
  have hread := Identifier.readQuoted_double '\x22' [] name rest h
  have htoken : Token.read? (quoteName name ++ rest) = some (.name name, rest) := by
    simpa [quoteName, Identifier.quoted, Token.read?] using hread
  unfold tableRead?
  rw [after?_append, Option.bind_some, htoken]

/-- The statement that creates a table is about the table. -/
theorem tableRead?_render (t : Table) (flags : List Bool) :
    tableRead? "CREATE TABLE " (CreateTable.ofTable t flags).render = some t.name := by
  have hsplit (words name body : Text) :
      words ++ quoteName name ++ " (\n    " ++ body ++ "\n);" =
        words ++ (quoteName name ++ (' ' :: ("(\n    " ++ body ++ "\n);"))) := by
    simp
  have hname : (CreateTable.ofTable t flags).name = t.name := rfl
  unfold CreateTable.render
  rw [hsplit, hname]
  exact tableRead?_quoteName _ _ fun tail h => by cases h

theorem trimEndWhile_behind {p : Char → Bool} {c : Char} (h : p c = false) (t u : Text) :
    trimEndWhile p (t ++ c :: u) = t ++ c :: trimEndWhile p u := by
  rw [List.append_cons]
  by_cases hu : trimEndWhile p u = []
  · rw [trimEndWhile_append_of_all (trimEndWhile_eq_nil_iff.mp hu), trimEndWhile_last h, hu]
  · rw [trimEndWhile_append hu, ← List.append_cons]

theorem alterTable_plain : ∀ c ∈ ("ALTER TABLE " : Text), c ≠ '/' ∧ isQuoteMark c = false :=
  List.all_iff_forall_prop.mp (by decide)

/-- Nothing is taken out of a statement that alters a table up to the name of the table. -/
theorem exists_stripConditional (name : Text) (clauses : List Text) :
    ∃ kept, stripConditional (Table.alterStatement name clauses) =
      "ALTER TABLE " ++ (Identifier.quoted '\x60' name ++ ' ' :: kept) := by
  have hstatement : Table.alterStatement name clauses =
      "ALTER TABLE " ++ (Identifier.quoted '\x60' name ++ (' ' :: (join ", " clauses ++ ";"))) := by
    unfold Table.alterStatement
    simp
  obtain ⟨kept, hkept⟩ := exists_stripFrom .outside (join ", " clauses ++ ";")
  have hblank (done : Text) : stripFrom .outside done (' ' :: (join ", " clauses ++ ";")) =
      done.reverse ++ ' ' :: kept := by
    rw [stripFrom_char rfl]
    refine (hkept (' ' :: done)).trans ?_
    simp
  refine ⟨kept, ?_⟩
  rw [hstatement, stripConditional, stripFrom_plain alterTable_plain, stripFrom_quoted, hblank]
  simp

/-- A statement that alters a table is passed through with the name of the table as it is passed
through. -/
theorem exists_renderOther? (name : Text) (clauses : List Text) : ∃ rest,
    renderOther? (Table.alterStatement name clauses) =
      some ("ALTER TABLE " ++ (quoteName (passedName name) ++ rest)) ∧
    ∀ tail, rest ≠ '\x22' :: tail := by
  obtain ⟨kept, hstrip⟩ := exists_stripConditional name clauses
  have hrequote : requote ("ALTER TABLE " ++ (Identifier.quoted '\x60' name ++ ' ' :: kept)) =
      "ALTER TABLE " ++ (quoteName (passedName name) ++ ' ' :: requote kept) := by
    rw [requote_plain fun c hc => (alterTable_plain c hc).2, requote_name]
    exact congrArg (fun rest => _ ++ (quoteName (passedName name) ++ rest))
      (requote_plain (t := [' ']) (List.forall_mem_singleton.mpr rfl) kept)
  have hbody : trimEndWhile isTerminator
      ("ALTER TABLE " ++ (quoteName (passedName name) ++ ' ' :: requote kept)) =
        "ALTER TABLE " ++
          (quoteName (passedName name) ++ trimEndWhile isTerminator (' ' :: requote kept)) := by
    have hlast := trimEndWhile_behind (p := isTerminator) (c := '\x22') rfl
      ("ALTER TABLE " ++ '\x22' :: double '\x22' (passedName name)) (' ' :: requote kept)
    simpa [quoteName, Identifier.quoted] using hlast
  have hother : renderOther? (Table.alterStatement name clauses) =
      some (trimEndWhile isTerminator
        ("ALTER TABLE " ++ (quoteName (passedName name) ++ ' ' :: requote kept)) ++ ";") := by
    unfold renderOther?
    rw [hstrip, trim, trimEndWhile_requote]
    have hstart (t : Text) : trimStart ("ALTER TABLE " ++ t) = "ALTER TABLE " ++ t := rfl
    rw [hstart, hrequote, hbody]
    rfl
  refine ⟨trimEndWhile isTerminator (' ' :: requote kept) ++ ";", ?_, ?_⟩
  · rw [hother, hbody]
    simp
  · intro tail h
    obtain ⟨v, -, hv⟩ := exists_trimEndWhile isTerminator (' ' :: requote kept)
    cases hrest : trimEndWhile isTerminator (' ' :: requote kept) with
    | nil =>
      rw [hrest] at h
      cases h
    | cons c rest =>
      rw [hrest] at h hv
      cases (List.cons.inj h).1
      cases (List.cons.inj hv).1

end Postgres

/-- What remains of a statement that alters a table is a statement about that table, in the catalog
that is left. -/
theorem Alteration.exists_clauses {c d : Catalog} {a : Alteration} {statement remainder : Text}
    (h : parse? c statement = some (a, d)) (hremainder : a.remainder = some remainder) :
    ∃ clauses, remainder = Table.alterStatement a.table clauses ∧
      ∃ t ∈ d.tables, t.name = a.table := by
  obtain ⟨⟨name, clauses⟩, -, h⟩ := Option.bind_eq_some_iff.mp h
  obtain ⟨id, -, h⟩ := Option.bind_eq_some_iff.mp h
  obtain ⟨t, ht, h⟩ := Option.bind_eq_some_iff.mp h
  obtain ⟨rfl, rfl⟩ := Prod.mk.inj (Option.some.inj h)
  refine ⟨(t.alter clauses).2, ?_, (t.alter clauses).1, ?_, Table.alter_name t clauses⟩
  · dsimp only [ofRemaining] at hremainder
    split at hremainder
    · cases hremainder
    · exact (Option.some.inj hremainder).symm
  · exact List.mem_of_getElem? (List.getElem?_set_self (List.getElem?_eq_some_iff.mp ht).1)

namespace Postgres

/-- A name in backticks, with no quotes before and behind it, is passed through in double quotes
with its backticks as double quotes: as the name is written elsewhere if and only if there is no
backtick in it. So is the name of a table where clauses of an `ALTER TABLE` are passed through: they
name the table that the script creates if and only if there is no backtick in its name. -/
theorem requote_quoted (name : Text) :
    (∀ before behind : Text, (∀ c ∈ before ++ behind, isQuoteMark c = false) →
      requote (before ++ (Identifier.quoted '\x60' name ++ behind)) =
          before ++ (quoteName (passedName name) ++ behind) ∧
        (requote (before ++ (Identifier.quoted '\x60' name ++ behind)) =
          before ++ (quoteName name ++ behind) ↔ '\x60' ∉ name)) ∧
    ∀ c statement a d remainder, Alteration.parse? c statement = some (a, d) → a.table = name →
      a.remainder = some remainder →
      ∃ t ∈ d.tables, ∃ sql, renderOther? remainder = some sql ∧
        (∀ flags, tableRead? "CREATE TABLE " (CreateTable.ofTable t flags).render = some name) ∧
        tableRead? "ALTER TABLE " sql = some (passedName name) ∧
        (tableRead? "ALTER TABLE " sql = some name ↔ '\x60' ∉ name) := by
  constructor
  · intro before behind hplain
    have hbefore : ∀ c ∈ before, isQuoteMark c = false :=
      fun c hc => hplain c (List.mem_append_left behind hc)
    have hbehind : ∀ c ∈ behind, isQuoteMark c = false :=
      fun c hc => hplain c (List.mem_append_right before hc)
    have hpassed : requote (before ++ (Identifier.quoted '\x60' name ++ behind)) =
        before ++ (quoteName (passedName name) ++ behind) := by
      have hrest := requote_plain hbehind []
      rw [List.append_nil] at hrest
      rw [requote_plain hbefore, requote_name, hrest]
      simp [requote, requoteFrom]
    refine ⟨hpassed, ?_⟩
    rw [hpassed, List.append_cancel_left_eq, List.append_cancel_right_eq,
      ← passedName_eq_self_iff]
    constructor
    · intro h
      exact quoteName_injective h
    · intro h
      rw [h]
  · rintro c statement a d remainder hparse rfl hremainder
    obtain ⟨clauses, rfl, t, ht, hname⟩ := Alteration.exists_clauses hparse hremainder
    obtain ⟨rest, hother, hrest⟩ := exists_renderOther? a.table clauses
    have hread := tableRead?_quoteName "ALTER TABLE " (passedName a.table) hrest
    refine ⟨t, ht, _, hother, ?_, hread, ?_⟩
    · intro flags
      rw [tableRead?_render, hname]
    · rw [hread, Option.some_inj, passedName_eq_self_iff]

/-- A catalog with one table, which has no columns. -/
def singleCatalog (name : Text) : Catalog := Catalog.insert {} { name := name }

theorem requote_quoted_double_quote :
    (∀ c ∈ ("SELECT * FROM " : Text) ++ " LIMIT 1", isQuoteMark c = false) ∧
      requote "SELECT * FROM `a\"b` LIMIT 1" = "SELECT * FROM \"a\"\"b\" LIMIT 1" ∧
      (∃ a d, Alteration.parse? (singleCatalog "a\"b") "ALTER TABLE `a\"b` DROP COLUMN x;" =
          some (a, d) ∧ a.table = "a\"b" ∧
          a.remainder = some ("ALTER TABLE `a\"b` DROP COLUMN x;" : Text)) ∧
      ∃ sql, renderOther? "ALTER TABLE `a\"b` DROP COLUMN x;" = some sql ∧
        tableRead? "ALTER TABLE " sql = some ("a\"b" : Text) := by
  have hplain : ∀ c ∈ ("SELECT * FROM " : Text) ++ " LIMIT 1", isQuoteMark c = false :=
    List.all_iff_forall_prop.mp (by decide)
  have htick : '\x60' ∉ ("a\"b" : Text) := by decide
  have hparse : Alteration.parse? (singleCatalog "a\"b") "ALTER TABLE `a\"b` DROP COLUMN x;" =
      some ⟨Alteration.ofRemaining "a\"b" 0 ["DROP COLUMN x"], singleCatalog "a\"b"⟩ := by
    decide +kernel
  obtain ⟨-, -, sql, hsql, -, -, hnamed⟩ :=
    (requote_quoted "a\"b").2 _ _ _ _ _ hparse rfl rfl
  exact ⟨hplain, (((requote_quoted "a\"b").1 _ _ hplain).2).mpr htick, ⟨_, _, hparse, rfl, rfl⟩,
    sql, hsql, hnamed.mpr htick⟩

/-- A backtick in a name becomes two double quotes: the table that is created is not the one that is
altered. -/
theorem requote_quoted_backtick :
    requote (Identifier.quoted '\x60' "a`b") = "\"a\"\"b\"" ∧
      requote (Identifier.quoted '\x60' "a`b") ≠ quoteName "a`b" ∧
      ∃ a d sql,
        Alteration.parse? (singleCatalog "a`b") "ALTER TABLE `a``b` DROP COLUMN x;" = some (a, d) ∧
        a.remainder.bind renderOther? = some sql ∧
        tableRead? "ALTER TABLE " sql = some ("a\"b" : Text) ∧
        ∃ t, d.tables = [t] ∧
          tableRead? "CREATE TABLE " (CreateTable.ofTable t []).render = some ("a`b" : Text) := by
  have hparse : Alteration.parse? (singleCatalog "a`b") "ALTER TABLE `a``b` DROP COLUMN x;" =
      some ⟨Alteration.ofRemaining "a`b" 0 ["DROP COLUMN x"], singleCatalog "a`b"⟩ := by
    decide +kernel
  have hother : renderOther? "ALTER TABLE `a``b` DROP COLUMN x;" =
      some ("ALTER TABLE \"a\"\"b\" DROP COLUMN x;" : Text) := by
    decide +kernel
  exact ⟨by decide +kernel, by decide +kernel, _, _, _, hparse, hother, by decide +kernel, _, rfl,
    by decide +kernel⟩

end Postgres

end SqlDump
