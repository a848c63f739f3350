import SqlDump.Proofs.Schema.ColumnListing
import SqlDump.Proofs.Schema.TypeToken
import SqlDump.Proofs.Value.Escapes

/-!
# Enumerations

The members of an enumeration stand between single quotes, whatever they hold. They are cut from the
token of the type and read like the values of a row, and the column is wide enough for the longest.

Main statements: `EnumToken.parse_text`, the list of members is cut from the token;
`rows_memberList`, the members are read from the list; `EnumToken.map_text`, the width of the
column.
-/

namespace SqlDump

open Text

/-- A member of an enumeration as it is declared, between single quotes and with blanks around. -/
structure EnumMember where
  content : Text
  /-- What stands between the quotes. -/
  written : Text
  before : Text := []
  behind : Text := []
  spells : Spelling '\x27' written content
  blankBefore : isBlank before = true
  blankBehind : isBlank behind = true

namespace EnumMember

variable {members : List EnumMember}

def text (m : EnumMember) : Text := m.before ++ '\x27' :: (m.written ++ '\x27' :: m.behind)

/-- The text as a member in a style. -/
def ofStyle (style : EscapeStyle) (s before behind : Text) (hbefore : isBlank before = true)
    (hbehind : isBlank behind = true) : EnumMember :=
  ⟨s, style.write s, before, behind, style.spelling_write s, hbefore, hbehind⟩

/-- The member is a quoted value of a row. -/
theorem reads (m : EnumMember) : OpenRow.Reads m.text (.text m.content) := by
  have hvalid : QuotedValue.Valid ⟨m.written, m.content, none, m.before, m.behind⟩ :=
    ⟨m.spells, m.blankBefore, m.blankBehind, nofun⟩
  have htext : QuotedValue.text ⟨m.written, m.content, none, m.before, m.behind⟩ = m.text := by
    simp [QuotedValue.text, QuotedValue.introducerText, text]
  exact htext ▸ hvalid.reads

/-- No parenthesis of a member closes the list. -/
theorem shields (m : EnumMember) : Shields (· == ')') m.text := by
  have hblank {v : Text} (hv : isBlank v = true) : Shields (· == ')') v :=
    .of_blank (fun _ => Unicode.of_isBlank (p := fun c => (c == ')') = false) (by decide)) hv
  have hquoted : Shields (· == ')') ('\x27' :: (m.written ++ ['\x27'])) :=
    m.spells.shields (.inl rfl) rfl
  have htext : m.text = m.before ++ ('\x27' :: (m.written ++ ['\x27']) ++ m.behind) := by
    simp [text]
  rw [htext]
  exact (hblank m.blankBefore).append (hquoted.append (hblank m.blankBehind))

end EnumMember

/-- The members with commas between them. -/
def memberList (members : List EnumMember) : Text := join "," (members.map EnumMember.text)

theorem shields_memberList (members : List EnumMember) :
    Shields (· == ')') (memberList members) := by
  refine Shields.join (by decide) fun t ht => ?_
  obtain ⟨m, -, rfl⟩ := List.mem_map.mp ht
  exact m.shields

/-- The members are the values of one row. -/
theorem rows_memberList (members : List EnumMember) :
    (ParsedRows.ofText ('(' :: memberList members ++ [')'])).rows =
      [members.map fun m => .text m.content] := by
  obtain ⟨consumed, hrows⟩ := ParsedRows.ofText_list fun (m : EnumMember) _ => m.reads
  exact congrArg ParsedRows.rows hrows

/-! ## The width -/

namespace ColumnType

theorem foldl_max_attained (ss : List Text) (n : Nat) :
    ss.foldl (fun n s => max n s.length) n = n ∨
      ∃ s ∈ ss, s.length = ss.foldl (fun n s => max n s.length) n := by
  induction ss generalizing n with
  | nil => exact .inl rfl
  | cons s ss ih =>
    rw [List.foldl_cons]
    rcases ih (max n s.length) with hkept | ⟨u, hu, hlength⟩
    · rcases Nat.le_total n s.length with hle | hle
      · exact .inr ⟨s, List.mem_cons_self, by rw [hkept, Nat.max_eq_right hle]⟩
      · exact .inl (by rw [hkept, Nat.max_eq_left hle])
    · exact .inr ⟨u, List.mem_cons_of_mem s hu, hlength⟩

/-- The column is as wide as the longest member, but not narrower than the minimum. -/
theorem enumWidth_memberList (members : List EnumMember) :
    enumMinimum ≤ enumWidth (memberList members) ∧
      (∀ m ∈ members, m.content.length ≤ enumWidth (memberList members)) ∧
      (enumWidth (memberList members) = enumMinimum ∨
        ∃ m ∈ members, m.content.length = enumWidth (memberList members)) := by
  have hrows := rows_memberList members
  have hcontents : (members.map fun m => Value.text m.content).filterMap Value.content? =
      members.map EnumMember.content := by
    rw [List.filterMap_map]
    exact congrFun List.filterMap_eq_map members
  have hwidth : enumWidth (memberList members) =
      max ((members.map EnumMember.content).foldl (fun n s => max n s.length) 0) enumMinimum := by
    simp only [enumWidth, hrows, longest, hcontents]
  refine ⟨hwidth ▸ Nat.le_max_right _ _, fun m hm => ?_, ?_⟩
  · exact enumWidth_ge hrows (List.mem_map.mpr ⟨m, hm, rfl⟩) rfl
  rcases Nat.le_total ((members.map EnumMember.content).foldl (fun n s => max n s.length) 0)
    enumMinimum with hshort | hlong
  · exact .inl (hwidth.trans (Nat.max_eq_right hshort))
  · rw [Nat.max_eq_left hlong] at hwidth
    rcases foldl_max_attained (members.map EnumMember.content) 0 with hzero | ⟨s, hs, hlength⟩
    · -- No member is as long as the minimum, which is more than nothing.
      rw [hzero] at hlong
      exact absurd hlong (by decide)
    · obtain ⟨m, hm, rfl⟩ := List.mem_map.mp hs
      exact .inr ⟨m, hm, hlength.trans hwidth.symm⟩

end ColumnType

/-! ## The token -/

/-- The type of an enumeration as a column declares it: a name that is `enum` in any case and the
members in parentheses, with blanks around both. -/
structure EnumToken where
  name : Text
  members : List EnumMember
  before : Text := []
  gap : Text := []
  behind : Text := []
  named : lower name = "enum"
  blankBefore : isBlank before = true
  blankGap : isBlank gap = true
  blankBehind : isBlank behind = true

namespace EnumToken

open ColumnType

def text (t : EnumToken) : Text :=
  t.before ++ (t.name ++ t.gap) ++ '(' :: (memberList t.members ++ ')' :: t.behind)

theorem not_mem_head (t : EnumToken) : '(' ∉ t.before ++ (t.name ++ t.gap) := by
  have hname : '(' ∉ t.name := by
    intro hmem
    have hlower := mem_lower_of_mem (c := '(') rfl hmem
    rw [t.named] at hlower
    exact absurd hlower (by decide)
  simp [hname, not_mem_of_isBlank (c := '(') (by decide) t.blankBefore,
    not_mem_of_isBlank (c := '(') (by decide) t.blankGap]

/-- The list of members is cut from the token. -/
theorem parse_text (t : EnumToken) :
    parse t.text = { base := "enum", arguments := some (memberList t.members) } := by
  rw [text, parse_group t.not_mem_head (shields_memberList t.members),
    nameWords_lower_blank_before t.blankBefore, nameWords_lower_blank_behind t.blankGap, t.named]
  have hbehind : nameWords (lower t.behind) = [] := by
    have hnone := nameWords_lower_blank_before t.blankBehind []
    rwa [List.append_nil] at hnone
  rw [hbehind]
  rfl

/-- An enumeration becomes a text that is wide enough for every member, as wide as the longest but
not narrower than 50 characters. Members may be written in any style, or any other way that spells
them, and the list of members is the same if it is looked for in the lower case of the token. -/
theorem map_text (t : EnumToken) :
    (∀ (style : EscapeStyle) (s : Text), Spelling '\x27' (style.write s) s) ∧
    parseLowered t.text = { base := "enum", arguments := some (memberList t.members) } ∧
    ∃ n, (map t.text).sql = "VARCHAR(" ++ ofNat n ++ ")" ∧ 50 ≤ n ∧
      (∀ m ∈ t.members, m.content.length ≤ n) ∧
      (n = 50 ∨ ∃ m ∈ t.members, m.content.length = n) := by
  refine ⟨EscapeStyle.spelling_write, (parseLowered_eq t.text).trans t.parse_text, ?_⟩
  refine ⟨enumWidth (memberList t.members), ?_, enumWidth_memberList t.members⟩
  have hbase : String.ofList ("enum" : Text) = "enum" := String.ofList_toList
  simp only [map, mapKnown?, t.parse_text, hbase, Option.getD_some]

/-- Quotes in either style, marks of lists, and letters of two octets each. -/
theorem map_text_styles :
    (map (" Enum ('a),(b' , 'it''s','it\\'s','" ++ List.replicate 52 'é' ++ "')")).sql =
      "VARCHAR(52)" := by
  have htoken : ∃ t : EnumToken,
      t.text = " Enum ('a),(b' , 'it''s','it\\'s','" ++ List.replicate 52 'é' ++ "')" ∧
        (∀ m ∈ t.members, m.content.length ≤ 52) ∧ ∃ m ∈ t.members, m.content.length = 52 := by
    refine ⟨{
      name := "Enum", before := " ", gap := " ", named := by decide +kernel
      members := [.ofStyle .doubled "a),(b" [] " " rfl rfl,
        .ofStyle .doubled "it's" " " [] rfl rfl, .ofStyle .backslash "it's" [] [] rfl rfl,
        .ofStyle .doubled (List.replicate 52 'é') [] [] rfl rfl]
      blankBefore := rfl, blankGap := rfl, blankBehind := rfl }, ?_, ?_, ?_⟩
    · decide +kernel
    · decide +kernel
    · decide +kernel
  obtain ⟨t, htext, hshort, m, hm, hlong⟩ := htoken
  obtain ⟨-, -, n, hsql, hmin, hfits, hattained⟩ := t.map_text
  have hn : n = 52 := by
    have hle := hfits m hm
    rcases hattained with hmin | ⟨widest, hwidest, hlength⟩
    · omega
    · have hbound := hshort widest hwidest
      omega
  rw [← htext, hsql, hn]
  rfl

end EnumToken

end SqlDump
