import SqlDump.Proofs.Schema.Definition
import SqlDump.Proofs.Schema.Ending

/-!
# Clauses of a statement that alters a table

An `ALTER TABLE` statement written from its parts: the name in backticks, clauses with commas
between and a semicolon. The statement is cut off before its semicolons, so that the last clause is
read without its own. A clause that adds a key adds the same key without them.

Main statements: `clauses?_alterText`, the statement is read as its clauses; `read_add`, clauses
that add keys are read as these; `read_modify`, a new definition is read without the semicolons at
its end.
-/

namespace SqlDump.Table

open Text

/-- The statement that applies clauses to a table of that name. -/
def alterText (name : Text) (clauses : List Text) : Text :=
  "ALTER TABLE " ++ (Identifier.quoted '\x60' name ++ (join [','] clauses ++ [';']))

/-- The clauses of a statement, the last of them without the semicolons at its end. -/
def unended : List Text → List Text
  | [] => []
  | [clause] => [trimEndWhile (· == ';') clause]
  | clause :: next :: clauses => clause :: unended (next :: clauses)

/-- What can be a clause: an item behind blanks. -/
structure IsClause (t : Text) : Prop where
  item : IsItem t
  opens : ∃ lead c rest, isBlank lead = true ∧ Char.isAlpha c = true ∧ t = lead ++ c :: rest

theorem unended_append_singleton (last : Text) (init : List Text) :
    unended (init ++ [last]) = init ++ [trimEndWhile (· == ';') last] := by
  induction init with
  | nil => rfl
  | cons t init ih =>
    cases init with
    | nil => rfl
    | cons u init =>
      rw [List.cons_append, List.cons_append, unended, ← List.cons_append, ih]
      rfl

/-- The statement is cut off before its semicolons, and what stands before its clauses is blank. -/
theorem cut_statement {before last : Text} (hlast : IsClause last) :
    items (trimEndWhile (· == ';') (trim (before ++ last ++ [';']))) =
      items (before ++ trimEndWhile (· == ';') last) := by
  obtain ⟨lead, c, rest, -, hc, rfl⟩ := hlast.opens
  have hblank := Unicode.not_isBlank_of_isAlpha hc
  have hsemicolon : (c == ';') = false := by
    rw [beq_eq_false_iff_ne]
    rintro rfl
    cases hc
  obtain ⟨v, hv, hrest⟩ := exists_trimEndWhile (· == ';') (c :: rest)
  obtain ⟨x, hx⟩ : ∃ x, trimEndWhile (· == ';') (c :: rest) = c :: x := by
    cases hcut : trimEndWhile (· == ';') (c :: rest) with
    | nil =>
      rw [trimEndWhile_eq_nil_iff, List.all_cons, hsemicolon] at hcut
      cases hcut
    | cons d x =>
      rw [hcut, List.cons_append] at hrest
      rw [(List.cons.inj hrest).1]
      exact ⟨x, rfl⟩
  have hne : trimEndWhile (· == ';') (c :: rest) ≠ [] := by simp [hx]
  have htrim : trim (before ++ (lead ++ c :: rest) ++ [';']) =
      trimStart (before ++ lead) ++ c :: rest ++ [';'] := by
    have hstart := trimStart_solid hblank (before ++ lead) (rest ++ [';'])
    have hend := trimEnd_solid (c := ';') rfl (trimStart (before ++ lead) ++ c :: rest) []
    rw [trim]
    simp only [List.append_assoc, List.cons_append] at hstart hend ⊢
    rw [hstart, hend]
    rfl
  rw [htrim, trimEndWhile_singleton rfl, trimEndWhile_append hne, trimEndWhile_append hne, hx,
    ← trimStart_solid hblank, items_trimStart, List.append_assoc]

/-- The last clause loses the semicolons at its end, with that of the statement. -/
theorem items_statement {clauses : List Text} (h : ∀ t ∈ clauses, IsClause t) :
    items (trimEndWhile (· == ';') (trim (join [','] clauses ++ [';']))) =
      ((unended clauses).map trim).filter (!·.isEmpty) := by
  obtain rfl | ⟨init, last, rfl⟩ := List.eq_nil_or_concat clauses
  · rfl
  rw [List.concat_eq_append] at h ⊢
  obtain ⟨v, hv, hlast⟩ := exists_trimEndWhile (· == ';') last
  have hpieces := splitTop_join (List.append_ne_nil_of_right_ne_nil init (List.cons_ne_nil last []))
    fun t ht => (h t ht).item.comma
  have hcomma : ∀ c ∈ v, (c == ',') = false := by
    intro c hc
    have hsemicolon := List.all_eq_true.mp hv c hc
    rw [beq_iff_eq] at hsemicolon
    rw [hsemicolon]
    rfl
  obtain ⟨init', last', hcut, hwhole⟩ :=
    splitTop_append hcomma (init.flatMap (· ++ [',']) ++ trimEndWhile (· == ';') last)
  rw [List.append_assoc, ← hlast, ← join_append_singleton, hpieces] at hwhole
  obtain ⟨rfl, hsingle⟩ := List.append_inj' hwhole rfl
  have heq : trimEndWhile (· == ';') last = last' :=
    List.append_cancel_right (hlast.symm.trans (List.cons.inj hsingle).1)
  rw [join_append_singleton, cut_statement (h last (by simp)), items, hcut, ← heq,
    unended_append_singleton]

/-- What follows the name of the table begins, behind blanks, with nothing of a name. -/
theorem exists_opening {clauses : List Text} (h : ∀ t ∈ clauses, IsClause t) :
    ∃ lead c rest, isBlank lead = true ∧ Unicode.isBlank c = false ∧ c ≠ '\x60' ∧ c ≠ '.' ∧
      join [','] clauses ++ [';'] = lead ++ c :: rest := by
  cases clauses with
  | nil => exact ⟨[], ';', [], rfl, rfl, by decide, by decide, rfl⟩
  | cons t ts =>
    obtain ⟨lead, c, rest, hlead, hc, rfl⟩ := (h t List.mem_cons_self).opens
    have hne {d : Char} (hd : d.isAlpha = false) : c ≠ d := by
      rintro rfl
      rw [hc] at hd
      cases hd
    obtain ⟨more, hmore⟩ := exists_join_cons [','] (lead ++ c :: rest) ts
    refine ⟨lead, c, rest ++ more ++ [';'], hlead, Unicode.not_isBlank_of_isAlpha hc, hne rfl,
      hne rfl, ?_⟩
    rw [hmore]
    simp

/-- The statement is read as its clauses. -/
theorem clauses?_alterText (name : Text) {clauses : List Text} (h : ∀ t ∈ clauses, IsClause t) :
    Alteration.clauses? (alterText name clauses) =
      some (name, ((unended clauses).map trim).filter (!·.isEmpty)) := by
  have hstart : Statement.bodyOf (alterText name clauses) = alterText name clauses :=
    Statement.bodyOf_eq_self (c := 'A') (by decide) (by decide) (by decide)
  have hhead : Statement.alterHead? (alterText name clauses) =
      some (Identifier.quoted '\x60' name ++ (join [','] clauses ++ [';'])) := rfl
  have hname : Identifier.readQualified
      (Identifier.quoted '\x60' name ++ (join [','] clauses ++ [';'])) =
        (some name, join [','] clauses ++ [';']) := by
    obtain ⟨lead, c, rest, hlead, hblank, hquote, hdot, hrest⟩ := exists_opening h
    rw [hrest]
    refine Identifier.readQualified_quoted name (fun tail heq => ?_) fun tail heq => ?_
    · cases lead with
      | nil => exact hquote (List.cons.inj heq).1
      | cons d lead =>
        have hd : Unicode.isBlank d = true := List.all_eq_true.mp hlead d List.mem_cons_self
        rw [(List.cons.inj heq).1] at hd
        cases hd
    · rw [trimStart_blank_append hlead, trimStart, List.dropWhile_cons_of_neg (by simp [hblank])]
        at heq
      exact hdot (List.cons.inj heq).1
  unfold Alteration.clauses?
  rw [hstart, hhead]
  simp only [Option.bind_eq_bind, Option.bind_some, hname, items_statement h]
  rfl

/-! ## Keys -/

/-- The clause that adds an item to a table. -/
def addClause (lead item : Text) : Text := lead ++ ("ADD " ++ item)

theorem isClause_add {lead item : Text} (hlead : isBlank lead = true) (h : IsItem item) :
    IsClause (addClause lead item) where
  item := (IsItem.blank hlead).append (Shields.append ⟨rfl, rfl⟩ h)
  opens := ⟨lead, 'A', "DD " ++ item, hlead, rfl, rfl⟩

/-- A key is more than blanks and semicolons. -/
theorem not_ending_of_isKey {table item : Text} (h : (TableItem.parse table item).isKey = true) :
    item.all isEnding = false := by
  rw [Bool.eq_false_iff]
  intro hending
  have hnil := TableItem.parse_of_append table (t := []) hending h
  rw [List.nil_append] at hnil
  rw [← hnil] at h
  cases h

theorem trimEndWhile_ne_nil {p : Char → Bool} (hp : ∀ c, p c = true → isEnding c = true)
    {table item : Text} (h : (TableItem.parse table item).isKey = true) :
    trimEndWhile p item ≠ [] := by
  rw [Ne, trimEndWhile_eq_nil_iff]
  intro hall
  have hending : item.all isEnding = true :=
    List.all_eq_true.mpr fun c hc => hp c (List.all_eq_true.mp hall c hc)
  rw [not_ending_of_isKey h] at hending
  cases hending

theorem isEnding_of_semicolon (c : Char) (h : (c == ';') = true) : isEnding c = true := by
  rw [isEnding, h, Bool.true_or]

theorem isEnding_of_isBlank (c : Char) (h : Unicode.isBlank c = true) : isEnding c = true := by
  rw [isEnding, h, Bool.or_true]

theorem parse_trimEndWhile {table item : Text}
    (h : (TableItem.parse table item).isKey = true) :
    TableItem.parse table (trimEndWhile (· == ';') item) = TableItem.parse table item := by
  obtain ⟨v, hv, hitem⟩ := exists_trimEndWhile (· == ';') item
  have hending : v.all isEnding = true :=
    List.all_eq_true.mpr fun c hc => isEnding_of_semicolon c (List.all_eq_true.mp hv c hc)
  have hparse := TableItem.parse_of_append table (t := trimEndWhile (· == ';') item) hending
  rw [← hitem] at hparse
  exact hparse h

theorem parse_unended {table : Text} {items : List Text}
    (h : ∀ item ∈ items, (TableItem.parse table item).isKey = true) :
    (unended items).map (TableItem.parse table) = items.map (TableItem.parse table) := by
  fun_induction unended items with
  | case1 => rfl
  | case2 item => rw [List.map_singleton, parse_trimEndWhile (h item (by simp)), List.map_singleton]
  | case3 item next items ih =>
    have hrest := ih fun other hother => h other (List.mem_cons_of_mem item hother)
    rw [List.map_cons, hrest]
    rfl

theorem isKey_unended {table : Text} {items : List Text}
    (h : ∀ item ∈ items, (TableItem.parse table item).isKey = true) :
    ∀ item ∈ unended items, (TableItem.parse table item).isKey = true := by
  intro item hitem
  have hmem := List.mem_map_of_mem (f := TableItem.parse table) hitem
  rw [parse_unended h] at hmem
  obtain ⟨other, hother, heq⟩ := List.mem_map.mp hmem
  rw [← heq]
  exact h other hother

theorem unended_add (lead : Text) {table : Text} {items : List Text}
    (h : ∀ item ∈ items, (TableItem.parse table item).isKey = true) :
    unended (items.map (addClause lead)) = (unended items).map (addClause lead) := by
  fun_induction unended items with
  | case1 => rfl
  | case2 item =>
    have hne := trimEndWhile_ne_nil isEnding_of_semicolon (h item (by simp))
    have hadd : trimEndWhile (· == ';') ("ADD " ++ item) =
        "ADD " ++ trimEndWhile (· == ';') item := trimEndWhile_append hne _
    rw [List.map_singleton, unended, List.map_singleton, addClause, addClause,
      trimEndWhile_append (by rw [hadd]; simp), hadd]
  | case3 item next items ih =>
    have hrest := ih fun other hother => h other (List.mem_cons_of_mem item hother)
    rw [List.map_cons] at hrest ⊢
    rw [List.map_cons, unended, hrest, List.map_cons]

/-- The keys of a statement as it reads them. -/
theorem read_add {lead table : Text} (hlead : isBlank lead = true) {items : List Text}
    (h : ∀ item ∈ items, (TableItem.parse table item).isKey = true) :
    ((unended (items.map (addClause lead))).map trim).filter (!·.isEmpty) =
      (unended items).map fun item => "ADD " ++ trimEnd item := by
  have hread : ∀ item ∈ unended items, trim (addClause lead item) = "ADD " ++ trimEnd item := by
    intro item hitem
    have hkey := isKey_unended h item hitem
    have hstart : trimStart ("ADD " ++ item) = "ADD " ++ item := rfl
    rw [addClause, trim_blank_append hlead, trim, hstart]
    exact trimEndWhile_append (trimEndWhile_ne_nil isEnding_of_isBlank hkey) _
  have hclauses : (unended items).map (trim ∘ addClause lead) =
      (unended items).map fun item => "ADD " ++ trimEnd item := List.map_congr_left hread
  rw [unended_add lead h, List.map_map, hclauses, List.filter_eq_self]
  intro clause hclause
  obtain ⟨item, -, rfl⟩ := List.mem_map.mp hclause
  rfl

/-! ## Definitions of columns -/

/-- The keywords before a new definition of a column, the second of which may be left out. -/
def modifyKeyword (long : Bool) : Text := if long then "MODIFY COLUMN " else "MODIFY "

/-- The clause that defines a column anew. -/
def modifyClause (lead : Text) (long : Bool) (definition : Text) : Text :=
  lead ++ (modifyKeyword long ++ definition)

theorem isClause_modify {lead definition : Text} (hlead : isBlank lead = true) (long : Bool)
    (h : IsItem definition) : IsClause (modifyClause lead long definition) where
  item := by
    have hkeyword : IsItem (modifyKeyword long) := by
      cases long <;> exact ⟨rfl, rfl⟩
    exact (IsItem.blank hlead).append (hkeyword.append h)
  opens := by
    cases long with
    | true => exact ⟨lead, 'M', "ODIFY COLUMN " ++ definition, hlead, rfl, rfl⟩
    | false => exact ⟨lead, 'M', "ODIFY " ++ definition, hlead, rfl, rfl⟩

/-- The clause as its statement reads it, without the semicolons at the end of the definition. -/
theorem read_modify {lead : Text} (hlead : isBlank lead = true) (long : Bool) (body : Text) :
    ((unended [modifyClause lead long ('\x60' :: body)]).map trim).filter (!·.isEmpty) =
      [modifyKeyword long ++ trimEnd ('\x60' :: trimEndWhile (· == ';') body)] := by
  have hcut : trimEndWhile (· == ';') ('\x60' :: body) = '\x60' :: trimEndWhile (· == ';') body :=
    trimEndWhile_cons (by decide) body
  have hclause : trimEndWhile (· == ';') (modifyClause lead long ('\x60' :: body)) =
      modifyClause lead long ('\x60' :: trimEndWhile (· == ';') body) := by
    rw [modifyClause, ← List.append_assoc, trimEndWhile_append (by simp [hcut]), hcut,
      List.append_assoc, modifyClause]
  generalize trimEndWhile (· == ';') body = rest at *
  have hsolid : trimEnd ('\x60' :: rest) = '\x60' :: trimEnd rest :=
    trimEnd_solid (c := '\x60') rfl [] rest
  have hend : trimEnd ('\x60' :: rest) ≠ [] := hsolid ▸ List.cons_ne_nil _ _
  have hstart : trimStart (modifyKeyword long ++ '\x60' :: rest) =
      modifyKeyword long ++ '\x60' :: rest := by
    cases long <;> rfl
  have htrim : trim (modifyClause lead long ('\x60' :: rest)) =
      modifyKeyword long ++ trimEnd ('\x60' :: rest) := by
    rw [modifyClause, trim_blank_append hlead, trim, hstart]
    exact trimEndWhile_append hend _
  rw [unended, hclause, List.map_singleton, htrim]
  cases long <;> rfl

end SqlDump.Table
