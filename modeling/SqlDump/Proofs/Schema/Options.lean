import SqlDump.Proofs.Schema.ColumnListing

/-!
# Options behind a table

What a dump writes behind the items of a table: options with a sign and a bare value. They are read
one after another, and the semicolons behind the last are in no value.

Main statements: `OptionKind.read?_opening`, an option is read back; `OptionListing.readAll_text`,
so are the options one after another; `OptionListing.parse_text`, so is the clause.
-/

namespace SqlDump

open Text

namespace TableOption

theorem isValueChar_of_isPlain {c : Char} (h : isPlain c = true) : isValueChar c = true := by
  obtain ⟨hblank, hmarks⟩ := isPlain_iff.mp h
  simp only [marks, List.forall_mem_cons] at hmarks
  simp [isValueChar, hblank, hmarks]

/-- A bare value is read up to what stands in no value. -/
theorem value?_word (w : Word) {rest : Text}
    (h : ∀ c more, rest = c :: more → isValueChar c = false) :
    value? (w.text ++ rest) = some (w.text, rest) := by
  have hword : ∀ c ∈ w.text, isValueChar c = true :=
    fun c hc => isValueChar_of_isPlain (w.isPlain_of_mem hc)
  have hbare : bare? (w.text ++ rest) = some (w.text, rest) := by
    obtain ⟨htake, hdrop⟩ := takeWhile_append_rest hword h
    rw [bare?, htake, hdrop, if_neg (by simpa using w.ne_nil)]
  obtain ⟨c, more, hc⟩ := List.exists_cons_of_ne_nil w.ne_nil
  have hquote : c ≠ '\x27' := by
    have hplain : isPlain c = true := w.isPlain_of_mem (hc ▸ List.mem_cons_self)
    exact (isPlain_iff.mp hplain).2 '\x27' (by decide)
  rw [value?, hbare]
  intro tail heq
  rw [hc, List.cons_append, List.cons.injEq] at heq
  exact hquote heq.1

/-- A name with a sign and a bare value is one option. -/
theorem named?_word {key : Text} (hne : key ≠ []) (hkey : key.all isKeyChar = true) (w : Word)
    {rest : Text} (h : ∀ c more, rest = c :: more → isValueChar c = false) :
    named? (key ++ '=' :: (w.text ++ rest)) = some (key, w.text, rest) := by
  have hstart : trimStart (w.text ++ rest) = w.text ++ rest := by
    obtain ⟨c, more, hc⟩ := List.exists_cons_of_ne_nil w.ne_nil
    have hplain : isPlain c = true := w.isPlain_of_mem (hc ▸ List.mem_cons_self)
    have hblank := (isPlain_iff.mp hplain).1
    rw [hc, List.cons_append, trimStart, List.dropWhile_cons, hblank]
    rfl
  have hassigned : assigned? ('=' :: (w.text ++ rest)) = some (w.text, rest) := by
    have hsign : trimStart ('=' :: (w.text ++ rest)) = '=' :: (w.text ++ rest) := rfl
    rw [assigned?]
    simp only [hsign, hstart, value?_word w h]
    rfl
  have hsignEnds : ∀ c more, '=' :: (w.text ++ rest) = c :: more → isKeyChar c = false := by
    intro c more heq
    cases heq
    rfl
  obtain ⟨htake, hdrop⟩ := takeWhile_append_rest (List.all_eq_true.mp hkey) hsignEnds
  have hblanks : blanks? ('=' :: (w.text ++ rest)) = none := rfl
  rw [named?]
  simp only [htake, hdrop, hblanks, hassigned]
  rw [if_neg (by simpa using hne)]
  rfl

theorem readAll_cons {t key value rest : Text}
    (h : read? (t.dropWhile isSeparator) = some (key, value, rest)) (fuel : Nat)
    (done : List (Text × Text)) :
    readAll (fuel + 1) done t = readAll fuel ((lower key, value) :: done) rest := by
  rw [readAll, h]

/-- The semicolons behind a word that ends the text are cut off. -/
theorem trimEndWhile_semicolons (t : Text) (w : Word) (semicolons : Nat) :
    trimEndWhile (· == ';') (t ++ w.text ++ List.replicate semicolons ';') = t ++ w.text := by
  induction semicolons with
  | zero =>
    have hplain := isPlain_iff.mp (w.isPlain_of_mem (List.getLast_mem w.ne_nil))
    have hlast : (w.text.getLast w.ne_nil == ';') = false :=
      beq_eq_false_iff_ne.mpr (hplain.2 ';' (by decide))
    rw [List.replicate_zero, List.append_nil, ← List.dropLast_concat_getLast w.ne_nil,
      ← List.append_assoc]
    exact trimEndWhile_last (p := (· == ';')) hlast _
  | succ n ih => rw [List.replicate_succ', ← List.append_assoc, trimEndWhile_singleton rfl, ih]

/-- A clause that ends with a word is read without what stands around it. -/
theorem parse_clause {t : Text} (hstart : ∀ u, trimStart (t ++ u) = t ++ u) (w : Word)
    (semicolons : Nat) :
    parse (' ' :: (t ++ w.text ++ List.replicate semicolons ';')) =
      ((readAll (t ++ w.text).length [] (t ++ w.text)).1,
        trim (readAll (t ++ w.text).length [] (t ++ w.text)).2) := by
  have hends : endsSolid (t ++ w.text) = true := endsSolid_append t w.isToken.ends
  have hbehind : endsSolid (t ++ w.text ++ List.replicate semicolons ';') = true := by
    cases semicolons with
    | zero => rwa [List.replicate_zero, List.append_nil]
    | succ n =>
      rw [List.replicate_succ']
      exact endsSolid_append _ (endsSolid_append _ rfl)
  have hwhole : trim (' ' :: (t ++ w.text ++ List.replicate semicolons ';')) =
      t ++ w.text ++ List.replicate semicolons ';' := by
    rw [← List.singleton_append, trim_blank_append rfl]
    exact trim_of_endsSolid (by rw [List.append_assoc, hstart]) hbehind
  rw [parse, hwhole, trimEndWhile_semicolons, trim_of_endsSolid (hstart w.text) hends]

end TableOption

/-! ## Options as a dump lists them -/

/-- The options that a dump writes with a bare value. -/
inductive OptionKind where
  | engine
  | autoIncrement
  | charset
  | collate
  | rowFormat
  deriving DecidableEq, Repr

namespace OptionKind

def name : OptionKind → Text
  | .engine => "ENGINE"
  | .autoIncrement => "AUTO_INCREMENT"
  | .charset => "CHARSET"
  | .collate => "COLLATE"
  | .rowFormat => "ROW_FORMAT"

def key : OptionKind → Text
  | .engine => "engine"
  | .autoIncrement => "auto_increment"
  | .charset => "charset"
  | .collate => "collate"
  | .rowFormat => "row_format"

/-- What a dump writes before the sign. -/
def opening : OptionKind → Text
  | .charset => "DEFAULT CHARSET"
  | k => k.name

theorem lower_name (k : OptionKind) : lower k.name = k.key := by
  cases k <;> decide

/-- None of the options says anything about the content of a table. -/
theorem isSilent_key (k : OptionKind) : TableOption.isSilent k.key = true := by
  cases k <;> decide

theorem trimStart_opening (k : OptionKind) (t : Text) :
    trimStart (k.opening ++ t) = k.opening ++ t := by
  cases k <;> rfl

theorem dropWhile_opening (k : OptionKind) (t : Text) :
    (k.opening ++ t).dropWhile TableOption.isSeparator = k.opening ++ t := by
  cases k <;> rfl

/-- The option is read back where its value ends. -/
theorem read?_opening (k : OptionKind) (w : Word) {rest : Text}
    (h : ∀ c more, rest = c :: more → TableOption.isValueChar c = false) :
    TableOption.read? (k.opening ++ '=' :: (w.text ++ rest)) = some (k.name, w.text, rest) := by
  have hnamed : TableOption.named? (k.name ++ '=' :: (w.text ++ rest)) =
      some (k.name, w.text, rest) :=
    TableOption.named?_word (by cases k <;> decide) (by cases k <;> decide) w h
  cases k with
  | charset =>
    have hdefault : keywordBlanks? "default" (opening .charset ++ '=' :: (w.text ++ rest)) =
        some (name .charset ++ '=' :: (w.text ++ rest)) := rfl
    rw [TableOption.read?, hdefault, Option.bind_some, hnamed]
    rfl
  | _ => exact hnamed

end OptionKind

/-- An option as a dump lists it. -/
structure OptionListing where
  kind : OptionKind
  value : Word

namespace OptionListing

/-- The option as a dump writes it, with a blank before. -/
def text (o : OptionListing) : Text := ' ' :: (o.kind.opening ++ '=' :: o.value.text)

/-- The option that the listing describes. -/
def option (o : OptionListing) : Text × Text := (o.kind.key, o.value.text)

/-- Where an option ends its value ends too. -/
theorem ends_value (os : List OptionListing) :
    ∀ c more, os.flatMap text = c :: more → TableOption.isValueChar c = false := by
  intro c more h
  cases os with
  | nil => cases h
  | cons o os =>
    cases h
    rfl

/-- The first option is read, and what follows it is read next. -/
theorem readAll_opening (o : OptionListing) (os : List OptionListing) {t : Text}
    (ht : t.dropWhile TableOption.isSeparator =
      o.kind.opening ++ '=' :: (o.value.text ++ os.flatMap text))
    (fuel : Nat) (done : List (Text × Text)) :
    TableOption.readAll (fuel + 1) done t =
      TableOption.readAll fuel (o.option :: done) (os.flatMap text) := by
  have hread := o.kind.read?_opening o.value (ends_value os)
  rw [← ht] at hread
  rw [TableOption.readAll_cons hread, o.kind.lower_name]
  rfl

/-- The options are read one after another. -/
theorem readAll_text (os : List OptionListing) {fuel : Nat} (hfuel : os.length ≤ fuel)
    (done : List (Text × Text)) :
    TableOption.readAll fuel done (os.flatMap text) = (done.reverse ++ os.map option, []) := by
  induction os generalizing fuel done with
  | nil =>
    rw [List.flatMap_nil, List.map_nil, List.append_nil]
    cases fuel <;> rfl
  | cons o os ih =>
    obtain ⟨fuel, rfl⟩ : ∃ n, fuel = n + 1 :=
      Nat.exists_eq_add_one_of_ne_zero (Nat.ne_zero_of_lt hfuel)
    have hopening : ((o :: os).flatMap text).dropWhile TableOption.isSeparator =
        o.kind.opening ++ '=' :: (o.value.text ++ os.flatMap text) := by
      have hblank (t : Text) : (' ' :: t).dropWhile TableOption.isSeparator =
          t.dropWhile TableOption.isSeparator := rfl
      rw [List.flatMap_cons, text, List.cons_append, hblank, List.append_assoc,
        o.kind.dropWhile_opening, List.cons_append]
    rw [readAll_opening o os hopening, ih (Nat.le_of_succ_le_succ hfuel)]
    simp

theorem length_le_text (os : List OptionListing) : os.length ≤ (os.flatMap text).length := by
  induction os with
  | nil => exact Nat.zero_le _
  | cons o os ih =>
    rw [List.flatMap_cons, text, List.cons_append, List.length_cons, List.length_cons,
      List.length_append]
    omega

/-- Options end with the last value. -/
theorem exists_last (o : OptionListing) (os : List OptionListing) :
    ∃ t, ∃ w : Word, '=' :: (o.value.text ++ os.flatMap text) = t ++ w.text := by
  obtain rfl | ⟨init, last, rfl⟩ := List.eq_nil_or_concat os
  · exact ⟨['='], o.value, by simp⟩
  · exact ⟨'=' :: (o.value.text ++ (init.flatMap text ++ ' ' :: (last.kind.opening ++ ['=']))),
      last.value, by simp [text]⟩

/-- The options are read back, whatever semicolons follow them. -/
theorem parse_text (os : List OptionListing) (semicolons : Nat) :
    TableOption.parse (os.flatMap text ++ List.replicate semicolons ';') =
      (os.map option, []) := by
  cases os with
  | nil =>
    have hcut : trimEndWhile (· == ';') (trim (List.replicate semicolons ';')) = [] := by
      rw [trimEndWhile_eq_nil_iff, List.all_eq_true]
      intro c hc
      rw [List.eq_of_mem_replicate (mem_of_mem_trim hc)]
      rfl
    rw [List.flatMap_nil, List.nil_append, TableOption.parse, hcut]
    rfl
  | cons o os =>
    obtain ⟨t, w, hlast⟩ := exists_last o os
    have hclause : (o :: os).flatMap text =
        ' ' :: (o.kind.opening ++ t ++ w.text) := by
      rw [List.append_assoc, ← hlast]
      simp [text]
    have hstart (u : Text) : trimStart (o.kind.opening ++ t ++ u) = o.kind.opening ++ t ++ u := by
      rw [List.append_assoc, o.kind.trimStart_opening]
    have hopening : (o.kind.opening ++ t ++ w.text).dropWhile TableOption.isSeparator =
        o.kind.opening ++ '=' :: (o.value.text ++ os.flatMap text) := by
      rw [List.append_assoc, ← hlast, o.kind.dropWhile_opening]
    obtain ⟨fuel, hfuel, hlength⟩ : ∃ fuel, os.length ≤ fuel ∧
        (o.kind.opening ++ t ++ w.text).length = fuel + 1 := by
      refine ⟨(o.kind.opening ++ o.value.text ++ os.flatMap text).length, ?_, ?_⟩
      · have hle := length_le_text os
        rw [List.length_append]
        omega
      · rw [List.append_assoc, ← hlast]
        simp
        omega
    have hparse := TableOption.parse_clause hstart w semicolons
    rw [hlength, readAll_opening o os hopening, readAll_text os hfuel] at hparse
    rw [hclause, List.cons_append, hparse]
    rfl

end OptionListing

end SqlDump
