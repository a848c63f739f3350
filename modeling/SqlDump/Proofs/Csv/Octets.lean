import SqlDump.Proofs.Csv.Reading
import SqlDump.Proofs.Postgres.Insertion
import SqlDump.Proofs.Value.Quoted

/-!
# Octets in CSV files

A quoted text for a binary column goes to a script as the digits of its octets, and to a CSV file as
the octets themselves. The two agree where the text stands alone. With a charset introducer before
it a script still has its octets, while a CSV file has the whole token, quotes included, which is
longer than they are.

Main statements: `QuotedValue.field_eq_octets_iff`, when the field of a quoted value is its octets;
`Csv.octets_agree_iff`, when a CSV file and a script agree on such a value; `Csv.octets_disagree`, a
value on which they do not.
-/

namespace SqlDump

open Text

/-! ### Lengths -/

/-- The octets of a text are no more than those that it has in UTF-8. -/
theorem Encoding.length_octets_le (e : Encoding) (t : Text) : (e.octets t).length ≤ size t := by
  cases e with
  | utf8 => exact Nat.le_of_eq (Octets.length_ofText t)
  | latin1 =>
    rw [octets, Octets.toLatin1, List.length_map]
    induction t with
    | nil => exact Nat.le_refl _
    | cons c t ih =>
      have hc := c.utf8Size_pos
      rw [List.length_cons, size_cons]
      omega

theorem utf8Size_unescape (c : Char) : (ValueBuffer.unescape c).utf8Size = c.utf8Size := by
  unfold ValueBuffer.unescape
  split <;> rfl

/-- A text is no longer than what is written for it. -/
theorem Spelling.size_le {quote : Char} {written text : Text} (h : Spelling quote written text) :
    size text ≤ size written := by
  induction h with
  | nil => exact Nat.le_refl _
  | plain _ _ _ ih =>
    rw [size_cons, size_cons]
    omega
  | escaped _ ih =>
    rw [size_cons, size_cons, size_cons, utf8Size_unescape]
    omega
  | doubled _ ih =>
    rw [size_cons, size_cons, size_cons]
    omega

namespace QuotedValue

variable {q : QuotedValue} {e : Encoding}

/-- The field of a quoted value is its octets unless a charset introducer stands before it. -/
theorem Valid.field_eq_octets_iff (h : q.Valid) :
    Csv.field q.value .binary e = e.octets q.content ↔ q.introducer = none := by
  unfold value
  cases hq : q.introducer with
  | none => simp [Csv.field]
  | some introducer =>
    -- The token has the quotes besides what is written for the content, which is no shorter.
    have hlonger : (e.octets q.content).length <
        (Octets.ofText (q.introducerText ++ q.literal)).length := by
      have hoctets := e.length_octets_le q.content
      have hspells := h.spells.size_le
      rw [Octets.length_ofText, size_append, literal, size_cons, size_append]
      have hquote : ('\x27').utf8Size = 1 := rfl
      omega
    refine iff_of_false ?_ (Option.some_ne_none _)
    intro heq
    rw [← heq] at hlonger
    exact Nat.lt_irrefl _ hlonger

/-- In a script the value is the literal of its octets. -/
theorem Valid.renderValue_eq_literal (h : q.Valid) :
    ∃ literal, Postgres.renderValue q.value .binary e = (Postgres.Literal.string literal).text ∧
      Postgres.byteaOctets? literal = some (e.octets q.content) := by
  have hcontent : Postgres.renderValue q.value .binary e =
      Postgres.renderValue (.text q.content) .binary e := h.renderValue .binary e
  exact ⟨_, hcontent.trans (Postgres.text_literalOf (.inr ⟨q.content, rfl⟩) .binary e),
    Octets.ofHexDigits?_toHex _⟩

end QuotedValue

namespace Csv

variable {rows : List Row} {place : Nat × Nat} {v : Value}

/-- The field for a value at a place, read back from the file of its rows. -/
theorem cell?_read? (families : List TypeFamily) (e : Encoding) (h : cell? rows place = some v) :
    ∃ records, read? ((rows.map (record families e)).flatMap encodeRecord) = some records ∧
      cell? records place = some (field v (families.getD place.2 .other) e) := by
  refine ⟨_, read?_encodeRecord _, ?_⟩
  obtain ⟨row, hrow, hv⟩ := Option.bind_eq_some_iff.mp h
  have hfield : (record families e row)[place.2]? =
      some (field v (families.getD place.2 .other) e) := by
    rw [record, List.getElem?_mapIdx, hv]
    rfl
  have hshown : shown (record families e row) = record families e row := by
    unfold shown
    split
    · next hempty =>
      rw [List.isEmpty_iff.mp hempty] at hfield
      cases hfield
    · rfl
  unfold cell?
  rw [List.getElem?_map, List.getElem?_map, hrow, Option.map_some, Option.map_some,
    Option.bind_some, hshown]
  exact hfield

/-- A quoted value in a binary column: a script has a literal that denotes the octets of its
content, and a CSV file has a field that is these octets unless a charset introducer stands
before the quotes. -/
theorem octets_agree_iff {q : QuotedValue} {t : Text} (hq : q.Valid)
    (ht : ParsedRows.WrittenAt t place q.text) {families : List TypeFamily}
    (hfamily : families.getD place.2 .other = .binary) (e : Encoding) :
    cell? (ParsedRows.ofText t).rows place = some q.value ∧
    ∃ literal bytes records content,
      Postgres.renderValue q.value .binary e = (Postgres.Literal.string literal).text ∧
      Postgres.byteaOctets? literal = some bytes ∧ bytes = e.octets q.content ∧
      read? (((ParsedRows.ofText t).rows.map (record families e)).flatMap encodeRecord) =
        some records ∧
      cell? records place = some content ∧ (content = bytes ↔ q.introducer = none) := by
  have hcell := ParsedRows.cell?_of_writtenAt ht hq.reads
  obtain ⟨literal, hliteral, hbytes⟩ := hq.renderValue_eq_literal (e := e)
  obtain ⟨records, hread, hfield⟩ := cell?_read? families e hcell
  rw [hfamily] at hfield
  exact ⟨hcell, literal, _, records, _, hliteral, hbytes, rfl, hread, hfield,
    hq.field_eq_octets_iff⟩

/-- An octet that is no text and a quote, in a statement that is read as Latin-1. -/
theorem octets_agree_latin1 :
    ∃ literal records,
      Postgres.renderValue (.text "ÿ'") .binary .latin1 = (Postgres.Literal.string literal).text ∧
      Postgres.byteaOctets? literal = some [0xFF, 0x27] ∧
      read? (((ParsedRows.ofText "(1, 'ÿ\\''),(2,NULL)").rows.map
        (record [.integer, .binary] .latin1)).flatMap encodeRecord) = some records ∧
      cell? records (0, 1) = some [0xFF, 0x27] := by
  have hvalid : QuotedValue.Valid ⟨"ÿ\\'", "ÿ'", none, " ", ""⟩ :=
    ⟨.plain (by decide) (by decide) (.escaped .nil), rfl, rfl, fun _ h => by cases h⟩
  have hwritten : ParsedRows.WrittenAt "(1, 'ÿ\\''),(2,NULL)" (0, 1)
      (QuotedValue.text ⟨"ÿ\\'", "ÿ'", none, " ", ""⟩) :=
    ⟨"(1,", ')', ",(2,NULL)", _, _, [.bare "1"], rfl, .inr rfl, rfl, rfl, ⟨rfl, rfl, rfl, rfl⟩, rfl,
      by decide +kernel⟩
  have hfamily : ([.integer, .binary] : List TypeFamily).getD 1 .other = .binary := rfl
  obtain ⟨-, literal, bytes, records, content, hliteral, hbytes, rfl, hread, hcell, hagree⟩ :=
    octets_agree_iff hvalid hwritten hfamily .latin1
  obtain rfl := hagree.mpr rfl
  exact ⟨literal, records, hliteral, hbytes, hread, hcell⟩

/-- With a charset introducer before a quoted value, a script has its octet and a CSV file has
the whole token. -/
theorem octets_disagree :
    cell? (ParsedRows.ofText "(_binary 'a')").rows (0, 0) = some (.bare "_binary 'a'") ∧
    ∃ literal records,
      Postgres.renderValue (.bare "_binary 'a'") .binary .utf8 =
        (Postgres.Literal.string literal).text ∧
      Postgres.byteaOctets? literal = some [0x61] ∧
      read? (((ParsedRows.ofText "(_binary 'a')").rows.map
        (record [.binary] .utf8)).flatMap encodeRecord) = some records ∧
      cell? records (0, 0) = some (.ofText "_binary 'a'") ∧
      Octets.ofText "_binary 'a'" ≠ [0x61] := by
  refine ⟨by decide +kernel, "\\x61", [[.ofText "_binary 'a'"]], ?_, ?_, ?_, ?_, ?_⟩
  all_goals decide +kernel

end Csv

end SqlDump
