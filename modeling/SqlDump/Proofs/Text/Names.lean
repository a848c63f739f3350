import SqlDump.Proofs.Text.Items

/-!
# Groups and lists of names

Names in backticks are passed over whole, so that a group of them is found and split into them.

Main statements: `shields_quoted`, a name in backticks shows nothing; `group?_names`, a group of
names ends behind the last of them; `nameList_namesWith`, the names are read back;
`Identifier.readQualified_quoted`, so is the name of a table.
-/

namespace SqlDump.Identifier

/-- A name is read back where its last quote is not one of two. -/
theorem read_quotedIn {quote : Char} (hquote : isQuote quote = true) (name : Text) {rest : Text}
    (h : ∀ tail, rest ≠ quote :: tail) : read (quoted quote name ++ rest) = some (name, rest) := by
  simpa [read, quoted, hquote] using readQuoted_double quote [] name rest h

theorem read_quoted (name : Text) {rest : Text} (h : ∀ tail, rest ≠ '\x60' :: tail) :
    read (quoted '\x60' name ++ rest) = some (name, rest) :=
  read_quotedIn rfl name h

end SqlDump.Identifier

namespace SqlDump.Text

/-- Between backticks nothing shows, and the name does not end them. -/
theorem hides_double {p : Char → Bool} (hp : p '\x60' = false) (name : Text) (depth : Nat) :
    hides p ⟨.inside '\x60' false, depth⟩ (double '\x60' name) = true ∧
      Nesting.after ⟨.inside '\x60' false, depth⟩ (double '\x60' name) =
        ⟨.inside '\x60' false, depth⟩ := by
  induction name with
  | nil => exact ⟨rfl, rfl⟩
  | cons c name ih =>
    obtain ⟨hhides, hafter⟩ := ih
    by_cases hc : c = '\x60'
    · have hclose : Nesting.step ⟨.inside '\x60' false, depth⟩ '\x60' = ⟨.outside, depth⟩ := rfl
      have hopen : Nesting.step ⟨.outside, depth⟩ '\x60' = ⟨.inside '\x60' false, depth⟩ := rfl
      rw [hc, double_cons_self]
      constructor
      · simp [hides, hclose, hopen, hp, hhides, Nesting.isTop]
      · rw [Nesting.after, List.foldl_cons, List.foldl_cons, hclose, hopen]
        exact hafter
    · have hstay :
          Nesting.step ⟨.inside '\x60' false, depth⟩ c = ⟨.inside '\x60' false, depth⟩ := by
        simp [Nesting.step, Quoting.step, hc]
      rw [double_cons_of_ne hc]
      constructor
      · simp [hides, hstay, hhides, Nesting.isTop]
      · rw [Nesting.after, List.foldl_cons, hstay]
        exact hafter

/-- A name in backticks shows nothing and is left behind. -/
theorem shields_quoted {p : Char → Bool} (hp : p '\x60' = false) (name : Text) :
    Shields p (Identifier.quoted '\x60' name) := by
  obtain ⟨hhides, hafter⟩ := hides_double hp name 0
  have hopen : Nesting.step {} '\x60' = ⟨.inside '\x60' false, 0⟩ := rfl
  unfold Identifier.quoted
  constructor
  · rw [List.cons_append, hides, hopen, hides_append, hhides, hafter]
    simp [hides, hp, Nesting.isTop]
  · rw [List.cons_append, Nesting.after, List.foldl_cons, hopen]
    exact (Nesting.after_append _ _ _).trans (by rw [hafter]; rfl)

theorem trim_quoted (name : Text) :
    trim (Identifier.quoted '\x60' name) = Identifier.quoted '\x60' name :=
  trim_of_solid rfl rfl (double '\x60' name)

/-- The names of a list, in backticks, with a comma and `gap` between. -/
def namesWith (gap : Text) (names : List Text) : Text :=
  join (',' :: gap) (names.map (Identifier.quoted '\x60'))

/-- The names of a list, in backticks and with commas between. -/
def nameText (names : List Text) : Text := join ", " (names.map (Identifier.quoted '\x60'))

/-- A list of names shows neither a parenthesis nor a blank, where none is between them. -/
theorem shields_namesWith {p : Char → Bool} (hp : p '\x60' = false) {gap : Text}
    (hgap : Shields p (',' :: gap)) (names : List Text) : Shields p (namesWith gap names) := by
  refine Shields.join hgap fun t ht => ?_
  obtain ⟨name, -, rfl⟩ := List.mem_map.mp ht
  exact shields_quoted hp name

/-- The gap of a list is part of the pieces behind the first. -/
theorem join_gap (gap t : Text) (ts : List Text) :
    join (',' :: gap) (t :: ts) = join [','] (t :: ts.map (gap ++ ·)) := by
  induction ts generalizing t with
  | nil => rfl
  | cons u ts ih =>
    have hprefix (v u : Text) (ts : List Text) :
        v ++ join [','] (u :: ts) = join [','] ((v ++ u) :: ts) := by
      cases ts with
      | nil => rw [join_singleton, join_singleton]
      | cons w ts => rw [join_cons_cons, join_cons_cons, List.append_assoc]
    rw [join_cons_cons, ih, List.map_cons, join_cons_cons, List.cons_append, hprefix]
    rfl

/-- The items of a list with gaps between are its pieces, if no blanks are around these. -/
theorem items_join_gap {gap : Text} (hblank : isBlank gap = true) {ts : List Text}
    (h : ∀ t ∈ ts, t ≠ [] ∧ trim t = t ∧ Shields (· == ',') t) :
    items (join (',' :: gap) ts) = ts := by
  have hgap : Shields (· == ',') gap := .comma_of_blank hblank
  cases ts with
  | nil => rfl
  | cons t ts =>
    obtain ⟨-, htrimmed, ht⟩ := h t List.mem_cons_self
    have hpieces : ∀ u ∈ t :: ts.map (gap ++ ·), Shields (· == ',') u := by
      intro u hu
      obtain rfl | hu := List.mem_cons.mp hu
      · exact ht
      · obtain ⟨v, hv, rfl⟩ := List.mem_map.mp hu
        exact hgap.append (h v (List.mem_cons_of_mem t hv)).2.2
    have htrim : ts.map (trim ∘ (gap ++ ·)) = ts := by
      refine (List.map_congr_left fun u hu => ?_).trans (List.map_id ts)
      rw [Function.comp_apply, trim_blank_append hblank, (h u (List.mem_cons_of_mem t hu)).2.1, id]
    rw [join_gap, items_join hpieces, List.map_cons, htrimmed, List.map_map, htrim,
      List.filter_eq_self]
    intro u hu
    simpa using (h u hu).1

/-- A text is a name as it stands in a list. -/
structure IsName (t name : Text) : Prop where
  hidden : Shields (· == ',') t
  trimmed : trim t = t
  read : Identifier.read t = some (name, [])

theorem IsName.ne_nil {t name : Text} (h : IsName t name) : t ≠ [] := by
  rintro rfl
  cases h.read

theorem isName_quoted (name : Text) : IsName (Identifier.quoted '\x60' name) name where
  hidden := shields_quoted rfl name
  trimmed := trim_quoted name
  read := by
    have hread : Identifier.read (Identifier.quoted '\x60' name ++ []) = some (name, []) :=
      Identifier.read_quoted name nofun
    rwa [List.append_nil] at hread

/-- The names of a list are read back, however they are written. -/
theorem nameList_join {gap : Text} (hblank : isBlank gap = true) {α : Type}
    (written name : α → Text) {as : List α} (h : ∀ a ∈ as, IsName (written a) (name a)) :
    nameList (join (',' :: gap) (as.map written)) = as.map name := by
  have hitems : items (join (',' :: gap) (as.map written)) = as.map written := by
    refine items_join_gap hblank fun t ht => ?_
    obtain ⟨a, ha, rfl⟩ := List.mem_map.mp ht
    exact ⟨(h a ha).ne_nil, (h a ha).trimmed, (h a ha).hidden⟩
  rw [nameList, hitems]
  clear hitems
  induction as with
  | nil => rfl
  | cons a as ih =>
    rw [List.map_cons, List.filterMap_cons, (h a List.mem_cons_self).read,
      ih fun b hb => h b (List.mem_cons_of_mem a hb)]
    rfl

/-- The names of a list are read back. -/
theorem nameList_namesWith {gap : Text} (hblank : isBlank gap = true) (names : List Text) :
    nameList (namesWith gap names) = names := by
  have hnames : nameList (namesWith gap names) = names.map id :=
    nameList_join hblank (Identifier.quoted '\x60') id fun name _ => isName_quoted name
  rwa [List.map_id] at hnames

/-- A group of names ends behind the last of them. -/
theorem group?_names (names : List Text) (rest : Text) :
    group? ('(' :: (nameText names ++ ')' :: rest)) = some (nameText names, rest) :=
  group?_shields (shields_namesWith rfl ⟨rfl, rfl⟩ names) rest

theorem nameList_nameText (names : List Text) : nameList (nameText names) = names :=
  nameList_namesWith rfl names

end SqlDump.Text

namespace SqlDump.Identifier

section Qualified

variable {t name rest : Text}

theorem readQualified_of_none (h : read t = none) : readQualified t = (none, t) := by
  rw [readQualified]
  split
  · rfl
  · next hname =>
    rw [h] at hname
    cases hname

/-- A name without a dot behind it is the last. -/
theorem readQualified_last (h : read t = some (name, rest))
    (hdot : ∀ tail, Text.trimStart rest ≠ '.' :: tail) : readQualified t = (some name, rest) := by
  rw [readQualified]
  split
  · next hname =>
    rw [h] at hname
    cases hname
  · next hname =>
    rw [h] at hname
    cases hname
    split
    · next htail => exact absurd htail (hdot _)
    · rfl

/-- A dot behind a name leads on to the next. -/
theorem readQualified_dot {more : Text} (h : read t = some (name, rest))
    (hdot : Text.trimStart rest = '.' :: more) :
    readQualified t = readQualified (Text.trimStart more) := by
  rw [readQualified]
  split
  · next hname =>
    rw [h] at hname
    cases hname
  · next hname =>
    rw [h] at hname
    cases hname
    split
    · next htail =>
      rw [hdot] at htail
      cases htail
      rfl
    · next htail => exact absurd hdot (htail more)

/-- The name of a table is read back where no other name follows behind a dot. -/
theorem readQualified_quoted (name : Text) (hq : ∀ tail, rest ≠ '\x60' :: tail)
    (hd : ∀ tail, Text.trimStart rest ≠ '.' :: tail) :
    readQualified (quoted '\x60' name ++ rest) = (some name, rest) :=
  readQualified_last (read_quoted name hq) hd

end Qualified

end SqlDump.Identifier
