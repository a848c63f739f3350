import SqlDump.Proofs.Value.Quoted

/-!
# Escapes

How those who write dumps spell a text between quotes. An exporter puts a backslash before each of
the seven characters that MySQL escapes; others escape a quote with a backslash or write it twice.
The reader of rows finds the text of every such spelling, with a charset introducer before it or
not. It knows no escape for NUL and Ctrl-Z: behind a backslash the digit and the letter that the
exporter writes for them stand for themselves.

Main statements: `ParsedRows.ofText_exported`, what is read of an exported text, and when that is
the text; `ParsedRows.introduced_alike`, a literal behind a charset introducer is written like the
literal alone.
-/

namespace SqlDump

open Text

/-! ### Exported texts -/

/-- What an exporter writes between quotes for a character. -/
def exportChar (c : Char) : Text :=
  match c with
  | '\x00' => ['\\', '0']
  | '\n' => ['\\', 'n']
  | '\r' => ['\\', 'r']
  | '\x1a' => ['\\', 'Z']
  | '\\' => ['\\', '\\']
  | '\x27' => ['\\', '\x27']
  | '\x22' => ['\\', '\x22']
  | c => [c]

/-- A text as an exporter writes it between quotes. -/
def exported (s : Text) : Text := s.flatMap exportChar

/-- What is read of what an exporter writes for a character. -/
def readBack (c : Char) : Char :=
  match c with
  | '\x00' => '0'
  | '\x1a' => 'Z'
  | c => c

/-- What is written for a character spells the one that is read. -/
theorem spelling_exportChar (c : Char) {written text : Text} (h : Spelling '\x27' written text) :
    Spelling '\x27' (exportChar c ++ written) (readBack c :: text) := by
  unfold exportChar
  split
  case h_8 hnul _ _ hctrl hbackslash hquote _ =>
    have hkept : readBack c = c := by
      unfold readBack
      split
      · exact absurd rfl hnul
      · exact absurd rfl hctrl
      · rfl
    rw [hkept]
    exact .plain hbackslash hquote h
  all_goals exact .escaped h

theorem spelling_exported (s : Text) : Spelling '\x27' (exported s) (s.map readBack) := by
  induction s with
  | nil => exact .nil
  | cons c s ih => exact spelling_exportChar c ih

theorem readBack_eq_self_iff {c : Char} : readBack c = c ↔ c ≠ '\x00' ∧ c ≠ '\x1a' := by
  unfold readBack
  split
  · simp
  · simp
  · next hnul hctrl => exact iff_of_true rfl ⟨hnul, hctrl⟩

theorem map_readBack_eq_self_iff {s : Text} :
    s.map readBack = s ↔ '\x00' ∉ s ∧ '\x1a' ∉ s := by
  have hmap : s.map readBack = s ↔ ∀ c ∈ s, readBack c = c := by
    conv_lhs => rhs; rw [← List.map_id s]
    exact List.map_inj_left
  rw [hmap]
  constructor
  · intro h
    exact ⟨fun hnul => (readBack_eq_self_iff.mp (h _ hnul)).1 rfl,
      fun hctrl => (readBack_eq_self_iff.mp (h _ hctrl)).2 rfl⟩
  · rintro ⟨hnul, hctrl⟩ c hc
    refine readBack_eq_self_iff.mpr ⟨?_, ?_⟩
    · rintro rfl
      exact hnul hc
    · rintro rfl
      exact hctrl hc

/-- An exported text between quotes is read as one text, with the digit for NUL and the letter for
Ctrl-Z in it, and so as the text that was exported exactly where that has neither. -/
theorem ParsedRows.ofText_exported (s : Text) :
    (∃ consumed, ofText ("('" ++ exported s ++ "')") =
      ⟨[[.text (s.map readBack)]], consumed, [], none⟩) ∧
    ((ofText ("('" ++ exported s ++ "')")).rows = [[.text s]] ↔ '\x00' ∉ s ∧ '\x1a' ∉ s) := by
  have hreads : OpenRow.Reads ('\x27' :: (exported s ++ ['\x27'])) (.text (s.map readBack)) :=
    (spelling_exported s).reads (.inl rfl)
  obtain ⟨consumed, hrows⟩ := hreads.ofText
  have htext : ("('" : Text) ++ exported s ++ "')" =
      '(' :: ('\x27' :: (exported s ++ ['\x27']) ++ [')']) := by simp
  rw [htext, hrows, ← map_readBack_eq_self_iff]
  exact ⟨⟨consumed, rfl⟩, by simp⟩

/-- The octet of a NUL is read as the digit that is written for it. -/
theorem ParsedRows.ofText_exported_nul :
    ("('" : Text) ++ exported ['\x00'] ++ "')" = "('\\0')" ∧
    (ofText "('\\0')").rows = [[.text ['0']]] ∧ (ofText "('\\0')").rows ≠ [[.text ['\x00']]] := by
  decide +kernel

/-! ### Styles and charset introducers -/

/-- The ways to escape a quote between quotes: a backslash before it, or the quote twice. -/
inductive EscapeStyle where
  | backslash
  | doubled
  deriving DecidableEq, Repr

namespace EscapeStyle

/-- What stands for a character in a style. A backslash is escaped in either. -/
def writeChar (style : EscapeStyle) (c : Char) : Text :=
  if c = '\\' then ['\\', '\\']
  else if c = '\x27' then
    match style with
    | backslash => ['\\', '\x27']
    | doubled => ['\x27', '\x27']
  else [c]

/-- A text between single quotes in a style. -/
def write (style : EscapeStyle) (s : Text) : Text := s.flatMap style.writeChar

theorem spelling_write (style : EscapeStyle) (s : Text) : Spelling '\x27' (style.write s) s := by
  induction s with
  | nil => exact .nil
  | cons c s ih =>
    unfold write at ih ⊢
    rw [List.flatMap_cons]
    unfold writeChar
    split
    · next hbackslash =>
      subst hbackslash
      exact .escaped ih
    split
    · next hquote =>
      subst hquote
      cases style with
      | backslash => exact .escaped ih
      | doubled => exact .doubled ih
    · next hbackslash hquote => exact .plain hbackslash hquote ih

end EscapeStyle

/-- The value is a zero date for a column where its content is. -/
theorem QuotedValue.Valid.isNulledDate {q : QuotedValue} (h : q.Valid) (family : TypeFamily) :
    Postgres.isNulledDate q.value family = Postgres.isNulledDate (.text q.content) family := by
  unfold Postgres.isNulledDate
  rw [h.quotedContent?]
  rfl

/-- A text that is written between quotes in any style, or any other way that spells it, is read
where it stands alone in a row. Behind a charset introducer and blanks the whole is read as a token.
In every column token and text are written alike, and both or neither is a zero date that becomes
`NULL`. -/
theorem ParsedRows.introduced_alike (s name gap : Text) (named : name ≠ [])
    (word : name.all Char.isAlphanum = true) (blank : isBlank gap = true) :
    (∀ style : EscapeStyle, Spelling '\x27' (style.write s) s) ∧
    ∀ written, Spelling '\x27' written s → ∃ token alone introduced,
      ofText ("('" ++ written ++ "')") = ⟨[[.text s]], alone, [], none⟩ ∧
      ofText ("(_" ++ name ++ gap ++ "'" ++ written ++ "')") =
        ⟨[[.bare token]], introduced, [], none⟩ ∧
      ∀ family encoding,
        Postgres.renderValue (.bare token) family encoding =
          Postgres.renderValue (.text s) family encoding ∧
        Postgres.isNulledDate (.bare token) family = Postgres.isNulledDate (.text s) family := by
  refine ⟨fun style => style.spelling_write s, fun written hspells => ?_⟩
  have hvalid : QuotedValue.Valid ⟨written, s, some (name, gap), [], []⟩ :=
    ⟨hspells, rfl, rfl, fun i hi => by
      obtain rfl := Option.some.inj hi
      exact ⟨named, word, blank⟩⟩
  obtain ⟨introduced, hintroduced⟩ := hvalid.reads.ofText
  obtain ⟨alone, halone⟩ := (hspells.reads (.inl rfl)).ofText
  refine ⟨_, alone, introduced, ?_, ?_, fun family encoding => ⟨?_, hvalid.isNulledDate family⟩⟩
  · rw [← halone]
    simp
  · refine Eq.trans (congrArg ofText ?_) hintroduced
    simp [QuotedValue.text, QuotedValue.introducerText]
  · exact hvalid.renderValue family encoding

/-- Quotes, marks of rows, a backslash and a line feed in a text, the quotes written twice. -/
theorem ParsedRows.introduced_alike_doubled :
    ∃ token alone introduced,
      ofText "('it''s (a,\\\\b),\n''')" = ⟨[[.text "it's (a,\\b),\n'"]], alone, [], none⟩ ∧
      ofText "(_utf8mb4 \t'it''s (a,\\\\b),\n''')" = ⟨[[.bare token]], introduced, [], none⟩ ∧
      ∀ family encoding,
        Postgres.renderValue (.bare token) family encoding =
          Postgres.renderValue (.text "it's (a,\\b),\n'") family encoding ∧
        Postgres.isNulledDate (.bare token) family =
          Postgres.isNulledDate (.text "it's (a,\\b),\n'") family := by
  have halike := introduced_alike "it's (a,\\b),\n'" "utf8mb4" " \t"
    (by decide) (by decide) (by decide)
  exact halike.2 "it''s (a,\\\\b),\n''" (halike.1 .doubled)

end SqlDump
