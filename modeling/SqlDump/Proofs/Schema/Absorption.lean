import SqlDump.Proofs.Schema.References
import SqlDump.Proofs.Text.Pieces

/-!
# Clauses absorbed and clauses left

A clause of an `ALTER TABLE` statement is absorbed by its table, or it is left: the table stays as
it is, and the clause goes to a statement of its own with the others that are left. No clause
changes which clauses are absorbed, so the altered table absorbs nothing of that statement.

Main statements: `handles_alter`, clauses one after another; `clauses?_alterStatement`, what is left
is read again; `Alteration.parse?_handles`, what becomes of a statement, its table and its clauses.
-/

namespace SqlDump

open Text

namespace Table

variable {t u v : Table} {clause : Text} {clauses absorbed left : List Text}

/-! ## Clauses one after another -/

/-- Clauses applied in order: those that the table absorbs, those that are left, and the table
behind them. What is left has not changed the table. -/
inductive Handles : Table → List Text → List Text → List Text → Table → Prop
  | done {t : Table} : Handles t [] [] [] t
  | absorb {t u v : Table} {clause : Text} {clauses absorbed left : List Text}
      (h : t.Absorbs clause u) (hrest : Handles u clauses absorbed left v) :
      Handles t (clause :: clauses) (clause :: absorbed) left v
  | leave {t u : Table} {clause : Text} {clauses absorbed left : List Text}
      (h : ∀ v, ¬t.Absorbs clause v) (hrest : Handles t clauses absorbed left u) :
      Handles t (clause :: clauses) absorbed (clause :: left) u

theorem handles_alter (t : Table) (clauses : List Text) :
    ∃ absorbed, t.Handles clauses absorbed (t.alter clauses).2 (t.alter clauses).1 := by
  induction clauses generalizing t with
  | nil => exact ⟨[], .done⟩
  | cons clause clauses ih =>
    rw [alter]
    cases h : t.absorb? clause with
    | none =>
      obtain ⟨absorbed, hrest⟩ := ih t
      exact ⟨absorbed, .leave (absorb?_eq_none_iff.mp h) hrest⟩
    | some u =>
      obtain ⟨absorbed, hrest⟩ := ih u
      exact ⟨clause :: absorbed, .absorb (absorb?_eq_some_iff.mp h) hrest⟩

namespace Handles

theorem length (h : t.Handles clauses absorbed left u) :
    absorbed.length + left.length = clauses.length := by
  induction h with
  | done => rfl
  | absorb _ _ ih =>
    simp only [List.length_cons]
    omega
  | leave _ _ ih =>
    simp only [List.length_cons]
    omega

theorem sublist (h : t.Handles clauses absorbed left u) : left.Sublist clauses := by
  induction h with
  | done => exact .slnil
  | absorb _ _ ih => exact ih.cons _
  | leave _ _ ih => exact ih.cons_cons _

/-- The clauses that are absorbed make the table what it is, whatever stands between them. -/
theorem replay (h : t.Handles clauses absorbed left u) : t.Handles absorbed absorbed [] u := by
  induction h with
  | done => exact .done
  | absorb h _ ih => exact .absorb h ih
  | leave _ _ ih => exact ih

theorem like (h : t.Handles clauses absorbed left u) : t.Like u := by
  induction h with
  | done => exact .refl _
  | absorb h _ ih => exact h.like.trans ih
  | leave _ _ ih => exact ih

/-- What is left is not absorbed behind the other clauses either. -/
theorem settled (h : t.Handles clauses absorbed left u) :
    ∀ clause ∈ left, u.absorb? clause = none := by
  induction h with
  | done => exact nofun
  | absorb _ _ ih => exact ih
  | @leave t u clause clauses absorbed left h hrest ih =>
    intro other hother
    rcases List.mem_cons.mp hother with rfl | hother
    · refine absorb?_eq_none_iff.mpr fun v habsorbs => ?_
      obtain ⟨w, hw⟩ := hrest.like.absorbs habsorbs
      exact h w hw
    · exact ih other hother

end Handles

theorem alter_eq_self (h : ∀ clause ∈ left, t.absorb? clause = none) :
    t.alter left = (t, left) := by
  induction left with
  | nil => rfl
  | cons clause left ih =>
    rw [alter, h clause List.mem_cons_self]
    dsimp only
    rw [ih fun other hother => h other (List.mem_cons_of_mem clause hother)]

/-! ## The statement that is left -/

/-- The clauses of a statement: no blanks are around them, and they can be a list. -/
structure AreClauses (clauses : List Text) : Prop where
  listed : Listed clauses
  trimmed : ∀ clause ∈ clauses, trim clause = clause ∧ clause ≠ []

theorem AreClauses.sublist (h : AreClauses clauses) (hleft : left.Sublist clauses) :
    AreClauses left :=
  ⟨h.listed.sublist hleft, fun clause hclause => h.trimmed clause (hleft.subset hclause)⟩

theorem areClauses_of_clauses? {statement name : Text}
    (h : Alteration.clauses? statement = some (name, clauses)) : AreClauses clauses := by
  obtain ⟨rest, -, h⟩ := Option.bind_eq_some_iff.mp h
  split at h
  · cases h
    exact ⟨listed_items _, fun clause hclause => mem_items hclause⟩
  · cases h

/-- A clause begins with no blank, and so does the list of them. -/
theorem AreClauses.trimStart_join (h : AreClauses clauses) :
    trimStart (join ", " clauses ++ ";") = join ", " clauses ++ ";" := by
  cases clauses with
  | nil => rfl
  | cons clause clauses =>
    obtain ⟨htrim, hne⟩ := h.trimmed clause List.mem_cons_self
    obtain ⟨c, rest, hc, rfl⟩ := exists_solid htrim hne
    obtain ⟨more, hmore⟩ := exists_join_cons ", " (c :: rest) clauses
    rw [hmore, List.cons_append, List.cons_append, trimStart,
      List.dropWhile_cons_of_neg (by simp [hc])]

theorem bodyOf_alterStatement (name : Text) (clauses : List Text) :
    Statement.bodyOf (alterStatement name clauses) =
      "ALTER TABLE " ++ (Identifier.quoted '\x60' name ++ (' ' :: (join ", " clauses ++ ";"))) := by
  have hstatement (name list : Text) :
      Statement.bodyOf ("ALTER TABLE " ++ name ++ " " ++ list ++ ";") =
        "ALTER TABLE " ++ (name ++ (' ' :: (list ++ ";"))) := by
    have hassoc : "ALTER TABLE " ++ name ++ " " ++ list ++ ";" =
        ("ALTER TABLE " ++ (name ++ (' ' :: (list ++ ";"))) : Text) := by simp
    rw [hassoc]
    exact Statement.bodyOf_eq_self (c := 'A') (by decide) (by decide) (by decide)
  exact hstatement ..

theorem readQualified_alterStatement (name : Text) (h : AreClauses clauses)
    (hdot : (join ", " clauses).head? ≠ some '.') :
    Identifier.readQualified
        (Identifier.quoted '\x60' name ++ (' ' :: (join ", " clauses ++ ";"))) =
      (some name, ' ' :: (join ", " clauses ++ ";")) := by
  refine Identifier.readQualified_quoted name nofun fun tail heq => ?_
  have hstart : trimStart (' ' :: (join ", " clauses ++ ";")) = join ", " clauses ++ ";" :=
    h.trimStart_join
  rw [hstart] at heq
  cases hjoin : join ", " clauses with
  | nil =>
    rw [hjoin] at heq
    cases heq
  | cons c rest =>
    rw [hjoin] at heq hdot
    exact hdot (congrArg some (List.cons.inj heq).1)

theorem classify_alterStatement (name : Text) (clauses : List Text) :
    Statement.classify (alterStatement name clauses) =
      (.alterTable, ((Identifier.readQualified
        (Identifier.quoted '\x60' name ++ (' ' :: (join ", " clauses ++ ";")))).1).getD []) := by
  unfold Statement.classify
  rw [bodyOf_alterStatement]
  rfl

/-- The statement is read as its clauses, if its name and its last clause end where they do. -/
theorem clauses?_alterStatement (name : Text) (h : AreClauses clauses)
    (hdot : (join ", " clauses).head? ≠ some '.')
    (hend : (join ", " clauses).getLast? ≠ some ';') :
    Alteration.clauses? (alterStatement name clauses) = some (name, clauses) := by
  have hhead : Statement.alterHead?
      ("ALTER TABLE " ++ (Identifier.quoted '\x60' name ++ (' ' :: (join ", " clauses ++ ";")))) =
        some (Identifier.quoted '\x60' name ++ (' ' :: (join ", " clauses ++ ";"))) := rfl
  have htrim : trim (' ' :: (join ", " clauses ++ ";")) = join ", " clauses ++ ";" := by
    have hstart : trimStart (' ' :: (join ", " clauses ++ ";")) = join ", " clauses ++ ";" :=
      h.trimStart_join
    rw [trim, hstart]
    exact trimEnd_solid (c := ';') rfl (join ", " clauses) []
  have hcut : trimEndWhile (· == ';') (join ", " clauses ++ ";") = join ", " clauses := by
    have hlast := trimEndWhile_singleton (p := (· == ';')) (c := ';') rfl (join ", " clauses)
    refine hlast.trans ?_
    obtain hnil | ⟨init, c, hjoin⟩ := List.eq_nil_or_concat (join ", " clauses)
    · rw [hnil]
      rfl
    · rw [List.concat_eq_append] at hjoin
      rw [hjoin, List.getLast?_concat] at hend
      have hc : (c == ';') = false := beq_eq_false_iff_ne.mpr fun hc => hend (congrArg some hc)
      rw [hjoin]
      exact trimEndWhile_last (p := (· == ';')) hc init
  unfold Alteration.clauses?
  rw [bodyOf_alterStatement, hhead]
  simp only [Option.bind_eq_bind, Option.bind_some, readQualified_alterStatement name h hdot, htrim,
    hcut, items_join_listed h.listed h.trimmed]
  rfl

end Table

namespace Alteration

open Table

variable {c : Catalog} {t u : Table} {id : Nat} {statement name : Text}
variable {clauses absorbed left : List Text}

/-- What an alteration says of the clauses that a table absorbs and those that are left. -/
structure Accounts (a : Alteration) (name : Text) (clauses absorbed left : List Text) : Prop where
  table : a.table = name
  absorbed : a.absorbed = absorbed.length
  total : a.absorbed + left.length = clauses.length
  order : left.Sublist clauses
  complete : a.remainder = none ↔ a.absorbed = clauses.length
  remainder : left ≠ [] → a.remainder = some (alterStatement name left)
  noted : left ≠ [] → ∃ note ∈ a.notes, note.kind = .unsupportedClause ∧ note.table = some name

theorem accounts_ofRemaining (h : t.Handles clauses absorbed left u) :
    (ofRemaining t.name absorbed.length left).Accounts t.name clauses absorbed left where
  table := rfl
  absorbed := rfl
  total := h.length
  order := h.sublist
  complete := by
    have hlength := h.length
    cases left with
    | nil => exact ⟨fun _ => hlength, fun _ => rfl⟩
    | cons clause left =>
      refine ⟨nofun, fun hall => ?_⟩
      rw [List.length_cons, ← hall] at hlength
      change absorbed.length + (left.length + 1) = absorbed.length at hlength
      omega
  remainder := by
    intro hne
    cases left with
    | nil => exact absurd rfl hne
    | cons clause left => rfl
  noted := by
    intro hne
    cases left with
    | nil => exact absurd rfl hne
    | cons clause left => exact ⟨_, List.mem_singleton_self _, rfl, rfl⟩

theorem parse?_alter (hclauses : clauses? statement = some (name, clauses))
    (hid : c.id? name = some id) (ht : c.table? id = some t)
    (halter : t.alter clauses = (u, left)) :
    parse? c statement =
      some (ofRemaining t.name (clauses.length - left.length) left, c.set id u) := by
  unfold parse?
  simp only [hclauses, Option.bind_eq_bind, Option.bind_some, hid, ht, halter]
  rfl

/-- The altered table absorbs nothing of what it left. -/
theorem parse?_remainder (hid : c.id? name = some id) (ht : c.table? id = some t)
    (h : t.Handles clauses absorbed left u) (hleft : AreClauses left)
    (hdot : (join ", " left).head? ≠ some '.') (hend : (join ", " left).getLast? ≠ some ';') :
    parse? (c.set id u) (alterStatement t.name left) =
      some (ofRemaining t.name 0 left, c.set id u) := by
  have hname := h.like.name
  have hfound : (c.set id u).id? t.name = some id := by
    rw [Catalog.id?_set ht (congrArg lower hname),
      Catalog.id?_congr (Catalog.lower_name_of_id? hid ht), hid]
  have htable : (c.set id u).table? id = some u := List.getElem?_set_self (Catalog.table?_lt ht)
  have hagain := parse?_alter (clauses?_alterStatement t.name hleft hdot hend) hfound htable
    (alter_eq_self h.settled)
  rw [hagain, hname, Nat.sub_self, Catalog.set, Catalog.set, List.set_set]

/-- Each clause of a statement is absorbed by its table or left in its place among the others, which
changes nothing: the altered table is what the absorbed clauses alone make of it, and its columns
keep their number and their names. The clauses that are left make up a statement again, with a note.
It is an `ALTER TABLE` of the same table, if its first clause does not begin with a dot, which would
go on with the name; and nothing more is absorbed of it, if it ends where its last clause does. -/
theorem parse?_handles (hclauses : clauses? statement = some (name, clauses))
    (hid : c.id? name = some id) :
    ∃ t u a absorbed left, c.table? id = some t ∧ parse? c statement = some (a, c.set id u) ∧
      t.Handles clauses absorbed left u ∧ t.Handles absorbed absorbed [] u ∧
      u.columnNames = t.columnNames ∧ a.Accounts t.name clauses absorbed left ∧
      ∀ remainder, a.remainder = some remainder →
        (Statement.classify remainder).1 = .alterTable ∧
        ((join ", " left).head? ≠ some '.' →
          Statement.classify remainder = (.alterTable, t.name) ∧
          ((join ", " left).getLast? ≠ some ';' →
            parse? (c.set id u) remainder = some ({ a with absorbed := 0 }, c.set id u))) := by
  obtain ⟨hlt, -, -⟩ := List.findIdx?_eq_some_iff_getElem.mp hid
  obtain ⟨t, ht⟩ := Catalog.exists_table? hlt
  obtain ⟨absorbed, hhandles⟩ := handles_alter t clauses
  obtain ⟨u, left, halter⟩ : ∃ u left, t.alter clauses = (u, left) := ⟨_, _, rfl⟩
  rw [halter] at hhandles
  have hcount : clauses.length - left.length = absorbed.length := by
    rw [← hhandles.length, Nat.add_sub_cancel]
  have hleft := (areClauses_of_clauses? hclauses).sublist hhandles.sublist
  have hparse := parse?_alter hclauses hid ht halter
  rw [hcount] at hparse
  refine ⟨t, u, _, absorbed, left, ht, hparse, hhandles, hhandles.replay, hhandles.like.columns,
    accounts_ofRemaining hhandles, ?_⟩
  intro remainder hremainder
  obtain rfl : alterStatement t.name left = remainder := by
    cases left with
    | nil => cases hremainder
    | cons clause left => exact Option.some.inj hremainder
  refine ⟨congrArg Prod.fst (classify_alterStatement ..), fun hdot => ⟨?_, fun hend => ?_⟩⟩
  · rw [classify_alterStatement, readQualified_alterStatement t.name hleft hdot]
    rfl
  · exact parse?_remainder hid ht hhandles hleft hdot hend

theorem parse?_handles_mixed :
    clauses? "ALTER TABLE t ADD PRIMARY KEY (a), DROP x, MODIFY A bigint;" =
        some ⟨"t", ["ADD PRIMARY KEY (a)", "DROP x", "MODIFY A bigint"]⟩ ∧
      (Catalog.insert {} { name := "t", columns := [{ name := "a", type := "int" }] }).id? "t" =
        some 0 ∧
      ∃ t u a absorbed left,
        (Catalog.insert {} { name := "t", columns := [{ name := "a", type := "int" }] }).table? 0 =
          some t ∧
        t.Handles ["ADD PRIMARY KEY (a)", "DROP x", "MODIFY A bigint"] absorbed left u ∧
        u.columnNames = t.columnNames ∧
        Accounts a t.name ["ADD PRIMARY KEY (a)", "DROP x", "MODIFY A bigint"] absorbed left ∧
        ∀ remainder, a.remainder = some remainder →
          (Statement.classify remainder).1 = .alterTable := by
  have hclauses : clauses? "ALTER TABLE t ADD PRIMARY KEY (a), DROP x, MODIFY A bigint;" =
      some ⟨"t", ["ADD PRIMARY KEY (a)", "DROP x", "MODIFY A bigint"]⟩ := by
    decide +kernel
  have hid : (Catalog.insert {} { name := "t", columns := [{ name := "a", type := "int" }] }).id?
      "t" = some 0 := by
    decide +kernel
  obtain ⟨t, u, a, absorbed, left, ht, -, hhandles, -, hcolumns, haccounts, hrest⟩ :=
    parse?_handles hclauses hid
  exact ⟨hclauses, hid, t, u, a, absorbed, left, ht, hhandles, hcolumns, haccounts,
    fun remainder hremainder => (hrest remainder hremainder).1⟩

/-- A clause that begins with a dot goes on with the name: what `t` leaves is about `x`. -/
theorem remainder_dotted :
    (parse? (Catalog.insert {} { name := "t" })
        "ALTER TABLE t ADD PRIMARY KEY (a), .x ADD PRIMARY KEY (y);").map
      (fun found => (found.1.table, found.1.absorbed, found.1.remainder.map Statement.classify)) =
    some ⟨"t", 1, some ⟨.alterTable, "x"⟩⟩ := by
  decide +kernel

end Alteration

end SqlDump
