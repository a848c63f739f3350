import SqlDump.Proofs.Dump.Opening
import SqlDump.Proofs.Translation.Writing
import SqlDump.Proofs.Value.Alike
import SqlDump.Proofs.Value.Content
import SqlDump.Proofs.Value.Enclosed

/-!
# Two statements that differ between two quotes

An `INSERT` is given without what stands between two quotes of its rows. Two statements that fill it
differently are written alike, but for the value that the quotes belong to, where both are decoded
in the same way. Where one is UTF-8 and the other is not, its other texts are read as Latin-1: then
values of ASCII are written alike, and so are quoted texts for binary columns, with a charset
introducer or without.

Main statements: `Frame.Opens.cell_eq`, the values that are read are the same but for one;
`Frame.IsEnclosed.cell_recode`, or are those of the other read as Latin-1; `execute_neighbours`, so
the scripts of two dumps agree on all values but that one.
-/

namespace SqlDump

open Text

/-- An `INSERT`, decoded, without what stands between two quotes of its rows. -/
structure Frame where
  /-- What stands before the rows. -/
  lead : Text
  /-- The first character of the rows. -/
  next : Char
  /-- The rows behind it, up to the quote that opens. -/
  body : Text
  quote : Char
  /-- What follows the quote that closes. -/
  behind : Text

namespace Frame

/-- The rows with a text between the quotes. -/
def values (f : Frame) (inside : Text) : Text :=
  f.next :: (f.body ++ (inside ++ f.quote :: f.behind))

/-- The statement with a text between the quotes. -/
def text (f : Frame) (inside : Text) : Text := f.lead ++ f.values inside

/-- The statement names a table and columns, and the quote opens in the row `r` behind `rows`, which
are in reverse. -/
structure Opens (f : Frame) (table : Text) (columns : Option (List Text)) (rows : List Row)
    (r : OpenRow) : Prop where
  opening : Insert.opening? (f.lead ++ [f.next]) = some (table, columns, [f.next])
  run : ∃ position, RowScan.run {} (f.next :: f.body) = (⟨rows, some r, position⟩, [])
  inside : ∃ start, r.quote = .inside f.quote start false

/-- Octets before and behind those between the quotes are decoded as a frame. -/
structure Reads (f : Frame) (e : Encoding) (pre post : Octets) : Prop where
  pre : e.Reads pre (f.lead ++ f.next :: f.body)
  post : e.Reads post f.behind

/-- Characters that are not of ASCII stand between quotes of the rows only. -/
structure IsEnclosed (f : Frame) : Prop where
  lead : f.lead.IsAscii
  rows : RowScan.encloses {} (f.values []) = true

/-- The frame that is read as Latin-1. -/
def recode (f : Frame) : Frame := { f with body := f.body.recode, behind := f.behind.recode }

variable {f : Frame} {table : Text} {columns : Option (List Text)} {rows : List Row} {r : OpenRow}

theorem Opens.isValueQuote (h : f.Opens table columns rows r) : IsValueQuote f.quote := by
  obtain ⟨position, hrun⟩ := h.run
  obtain ⟨start, hr⟩ := h.inside
  exact (RowScan.quoted_of_run hrun hr).1

/-- The opening of the statement does not depend on what stands between the quotes. -/
theorem Opens.opening_text (h : f.Opens table columns rows r) (inside : Text) :
    Insert.opening? (f.text inside) = some (table, columns, f.values inside) := by
  have happend := Insert.opening?_append h.opening (List.cons_ne_nil _ _)
    (f.body ++ (inside ++ f.quote :: f.behind))
  rwa [List.append_assoc, List.singleton_append] at happend

/-- A statement is its frame with some content between the quotes. -/
theorem Opens.ofSegment (h : f.Opens table columns rows r) {s : Segment} {pre post inside : Octets}
    (hend : s.terminated = true)
    (hs : s.octets = pre ++ (inside ++ UInt8.ofNat f.quote.toNat :: post))
    (hinside : Octets.IsContent (UInt8.ofNat f.quote.toNat) inside)
    (hread : f.Reads s.decode.2 pre post) :
    ∃ written content i, Spelling f.quote written content ∧
      (PlacedStatement.ofSegment s).statement = .insert i ∧ i.table = table ∧ i.columns = columns ∧
      i.rows = (ParsedRows.ofText (f.values written)).rows ∧ i.encoding = s.decode.2 := by
  have hq := h.isValueQuote
  have hdecode : s.decode.2.Reads s.octets s.decode.1 := Encoding.decode_reads s.octets
  generalize htext : s.decode.1 = t at hdecode
  rw [hs] at hdecode
  obtain ⟨u, rfl, hu⟩ := hdecode.append_right hread.pre
  obtain ⟨written, behind, rfl, hwritten, hbehind⟩ := hu.split_ascii (Octets.quote_lt hq)
  obtain rfl := hbehind.unique hread.post
  obtain ⟨content, hspelling⟩ := hinside.spelling hq hwritten
  have hopening := h.opening_text written
  have hframe : s.decode.1 = f.text written := by
    rw [htext, Octets.ofNat_quote hq, text, values, List.append_assoc, List.cons_append]
  rw [← hframe] at hopening
  obtain ⟨i, hi⟩ := PlacedStatement.ofSegment_opening hend hopening
  exact ⟨written, content, i, hspelling, hi⟩

/-- What stands between the quotes makes no difference to other values. -/
theorem Opens.cell_eq (h : f.Opens table columns rows r) {written written' content content' : Text}
    (hw : Spelling f.quote written content) (hw' : Spelling f.quote written' content')
    {p : Nat × Nat} (hp : p ≠ (rows.length, r.values.length)) :
    cell? (ParsedRows.ofText (f.values written)).rows p =
      cell? (ParsedRows.ofText (f.values written')).rows p := by
  obtain ⟨position, hrun⟩ := h.run
  obtain ⟨start, hr⟩ := h.inside
  have hcell := (RowScan.alike_of_content hrun hr hw hw' (f.quote :: f.behind)).get p
  unfold ParsedRows.ofText
  rcases rel_inv hcell with ⟨hv, hv'⟩ | ⟨v, v', hv, hv', hsame⟩
  · exact hv.trans hv'.symm
  · rw [hsame hp] at hv
    exact hv.trans hv'.symm

section Recoding

theorem IsEnclosed.next (h : f.IsEnclosed) : f.next.toNat < 0x80 := by
  have hfirst := (Bool.and_eq_true_iff.mp h.rows).1
  simpa [RowScan.isInside] using hfirst

theorem IsEnclosed.values_recode (h : f.IsEnclosed) (hq : IsValueQuote f.quote) :
    f.recode.values [] = (f.values []).recode := by
  rw [values, values, recode_cons h.next, recode_append, List.nil_append, List.nil_append,
    recode_cons hq.ascii]
  rfl

/-- With nothing between the quotes, each value is that of the frame read as Latin-1. -/
theorem IsEnclosed.cell_recode (h : f.IsEnclosed) (hq : IsValueQuote f.quote) (p : Nat × Nat) :
    cell? (ParsedRows.ofText (f.recode.values [])).rows p =
      (cell? (ParsedRows.ofText (f.values [])).rows p).map Value.recode := by
  have hstart : Lockstep.recoded.Scan {} {} := ⟨.nil, .none⟩
  have hcell := (RowScan.recoded_run hstart h.rows).1.get p
  unfold ParsedRows.ofText
  rw [h.values_recode hq]
  rcases rel_inv hcell with ⟨hv, hv'⟩ | ⟨v, v', hv, hv', hsame⟩
  · exact hv'.trans (congrArg (Option.map Value.recode) hv).symm
  · rw [show v' = v.recode from hsame] at hv'
    exact hv'.trans (congrArg (Option.map Value.recode) hv).symm

theorem Reads.recode {pre post : Octets} (h : f.Reads .utf8 pre post) (hf : f.IsEnclosed) :
    f.recode.Reads .latin1 pre post := by
  constructor
  · have hpre := h.pre.recode
    rwa [recode_append, recode_cons hf.next, recode_of_ascii hf.lead] at hpre
  · exact h.post.recode

/-- Read as Latin-1 the quote opens at the same place. -/
theorem Opens.recode (h : f.Opens table columns rows r) (hf : f.IsEnclosed) :
    ∃ rows' r', f.recode.Opens table columns rows' r' ∧
      (rows'.length, r'.values.length) = (rows.length, r.values.length) := by
  obtain ⟨position, hrun⟩ := h.run
  obtain ⟨start, hr⟩ := h.inside
  have hencloses : RowScan.encloses {} (f.next :: f.body) = true :=
    RowScan.encloses_append (t := f.next :: f.body) _ hf.rows
  have hstart : Lockstep.recoded.Scan {} {} := ⟨.nil, .none⟩
  obtain ⟨hscan, hrest⟩ := RowScan.recoded_run hstart hencloses
  rw [recode_cons hf.next, hrun] at hscan hrest
  obtain ⟨⟨rows', row', position'⟩, hrun'⟩ : ∃ s', RowScan.run {} (f.next :: f.body.recode) =
      (s', []) := ⟨_, Prod.ext rfl hrest⟩
  rw [hrun'] at hscan
  rcases rel_inv hscan.row with ⟨hnone, -⟩ | ⟨o, r', ho, hr', hopen⟩
  · cases hnone
  obtain rfl := Option.some.inj ho
  obtain rfl : row' = some r' := hr'
  have hquote := hopen.quote
  rw [hr] at hquote
  generalize hk : r'.quote = k at hquote
  cases hquote with
  | inside mark m n =>
    refine ⟨rows', r', ⟨h.opening, ⟨position', hrun'⟩, ⟨n, hk⟩⟩, ?_⟩
    exact congrArg₂ Prod.mk hscan.rows.length_eq.symm hopen.values.length_eq.symm

end Recoding

end Frame

namespace Postgres

theorem cell?_cells (i : Insert) (families : List TypeFamily) (p : Nat × Nat) :
    cell? (cells i families) p =
      (cell? i.rows p).map fun v => renderValue v (families.getD p.2 .other) i.encoding := by
  simp only [cell?, cells, List.getElem?_map]
  cases i.rows[p.1]? with
  | none => rfl
  | some row => simp

end Postgres

namespace Frame

variable {f : Frame} {table : Text} {columns : Option (List Text)} {rows : List Row} {r : OpenRow}
  {e : Encoding} {written written' content content' : Text} {i j : Insert} {p : Nat × Nat}
  {families : List TypeFamily}

/-- Decoded in one way, two such statements are written alike. -/
theorem Opens.cells_of_same (h : f.Opens table columns rows r)
    (hw : Spelling f.quote written content) (hw' : Spelling f.quote written' content')
    (hi : i.rows = (ParsedRows.ofText (f.values written)).rows)
    (hj : j.rows = (ParsedRows.ofText (f.values written')).rows)
    (hencoding : i.encoding = j.encoding) (hp : p ≠ (rows.length, r.values.length)) :
    cell? (Postgres.cells i families) p = cell? (Postgres.cells j families) p := by
  rw [Postgres.cell?_cells, Postgres.cell?_cells, hi, hj, hencoding, h.cell_eq hw hw' hp]

/-- Where one is UTF-8 and the other is not, what keeps its literal is written alike. -/
theorem Opens.cells_of_recoded (h : f.Opens table columns rows r) (hf : f.IsEnclosed)
    (hw : Spelling f.quote written content) (hw' : Spelling f.quote written' content')
    (hi : i.rows = (ParsedRows.ofText (f.values written)).rows)
    (hj : j.rows = (ParsedRows.ofText (f.recode.values written')).rows)
    (hutf8 : i.encoding = .utf8) (hlatin1 : j.encoding = .latin1)
    (hp : p ≠ (rows.length, r.values.length))
    (hkept : ∀ v, cell? i.rows p = some v → v.IsKept (families.getD p.2 .other)) :
    cell? (Postgres.cells i families) p = cell? (Postgres.cells j families) p := by
  obtain ⟨rows', r', hrecode, hplace⟩ := h.recode hf
  rw [hi, h.cell_eq hw .nil hp] at hkept
  rw [Postgres.cell?_cells, Postgres.cell?_cells, hi, hj, hutf8, hlatin1, h.cell_eq hw .nil hp,
    ← hrecode.cell_eq .nil hw' (hplace ▸ hp), hf.cell_recode h.isValueQuote]
  cases hv : cell? (ParsedRows.ofText (f.values [])).rows p with
  | none => rfl
  | some v =>
    have henclosed := ParsedRows.isEnclosed hf.rows hv
    exact congrArg some (Postgres.renderValue_recode henclosed (hkept v hv)).symm

/-- Two statements that differ between the quotes are for the same columns of the same table, and
all their values but one are written alike: in any case where both are decoded in one way, and else
as far as they keep their literal. -/
theorem Opens.ofSegments (h : f.Opens table columns rows r) {s s' : Segment}
    (hend : s.terminated = true) (hend' : s'.terminated = true)
    {pre post inside inside' : Octets}
    (hs : s.octets = pre ++ (inside ++ UInt8.ofNat f.quote.toNat :: post))
    (hs' : s'.octets = pre ++ (inside' ++ UInt8.ofNat f.quote.toNat :: post))
    (hinside : Octets.IsContent (UInt8.ofNat f.quote.toNat) inside)
    (hinside' : Octets.IsContent (UInt8.ofNat f.quote.toNat) inside')
    (hread : f.Reads s.decode.2 pre post)
    (hdecode : s.decode.2 = s'.decode.2 ∨
      s.decode.2 = .utf8 ∧ s'.decode.2 = .latin1 ∧ f.IsEnclosed) :
    ∃ i i', (PlacedStatement.ofSegment s).statement = .insert i ∧
      (PlacedStatement.ofSegment s').statement = .insert i' ∧
      i.table = i'.table ∧ i.columns = i'.columns ∧
      ∀ (families : List TypeFamily) p, p ≠ (rows.length, r.values.length) →
        (s.decode.2 = s'.decode.2 ∨
          ∀ v, cell? i.rows p = some v → v.IsKept (families.getD p.2 .other)) →
        cell? (Postgres.cells i families) p = cell? (Postgres.cells i' families) p := by
  obtain ⟨written, content, i, hw, hi, rfl, rfl, hrows, hencoding⟩ :=
    h.ofSegment hend hs hinside hread
  rcases hdecode with hsame | ⟨hutf8, hlatin1, henclosed⟩
  · obtain ⟨written', content', i', hw', hi', htable, hcolumns, hrows', hencoding'⟩ :=
      h.ofSegment hend' hs' hinside' (hsame ▸ hread)
    refine ⟨i, i', hi, hi', htable.symm, hcolumns.symm, fun families p hp _ => ?_⟩
    exact h.cells_of_same hw hw' hrows hrows' (by rw [hencoding, hencoding', hsame]) hp
  · obtain ⟨rows', r', hrecode, -⟩ := h.recode henclosed
    rw [hutf8] at hread
    obtain ⟨written', content', i', hw', hi', htable, hcolumns, hrows', hencoding'⟩ :=
      hrecode.ofSegment hend' hs' hinside' (hlatin1 ▸ hread.recode henclosed)
    refine ⟨i, i', hi, hi', htable.symm, hcolumns.symm, fun families p hp hkept => ?_⟩
    rw [hutf8, hlatin1] at hkept
    exact h.cells_of_recoded henclosed hw hw' hrows hrows' (hencoding.trans hutf8)
      (hencoding'.trans hlatin1) hp (hkept.resolve_left (by simp))

end Frame

/-- The scripts of two dumps agree on every value of an `INSERT` but one, where the dumps know the
same tables and the statements differ in nothing but what stands between two quotes: on all other
values where both are decoded in the same way, and else on those that keep their literal. -/
theorem execute_neighbours {options : Options} (hmode : options.mode = .full)
    {dump dump' : Octets} {first rest first' rest' : List Segment} {s s' : Segment}
    (hdump : Segment.all dump = first ++ s :: rest)
    (hdump' : Segment.all dump' = first' ++ s' :: rest')
    (hend : s.terminated = true) (hend' : s'.terminated = true)
    (htables : Translation.SameTables (.ofSource (.ofOctets dump) options)
      (.ofSource (.ofOctets dump') options))
    {f : Frame} {table : Text} {columns : Option (List Text)} {rows : List Row} {r : OpenRow}
    (hf : f.Opens table columns rows r) {pre post inside inside' : Octets}
    (hs : s.octets = pre ++ (inside ++ UInt8.ofNat f.quote.toNat :: post))
    (hs' : s'.octets = pre ++ (inside' ++ UInt8.ofNat f.quote.toNat :: post))
    (hinside : Octets.IsContent (UInt8.ofNat f.quote.toNat) inside)
    (hinside' : Octets.IsContent (UInt8.ofNat f.quote.toNat) inside')
    (hread : f.Reads s.decode.2 pre post)
    (hdecode : s.decode.2 = s'.decode.2 ∨
      s.decode.2 = .utf8 ∧ s'.decode.2 = .latin1 ∧ f.IsEnclosed) (name name' : Option Text) :
    ∃ produced produced' i i' families,
      families = (Translation.ofSource (.ofOctets dump) options).familiesFor i ∧
      execute (.ofOctets dump) options .script name = .ok produced ∧
      execute (.ofOctets dump') options .script name' = .ok produced' ∧
      (PlacedStatement.ofSegment s).statement = .insert i ∧
      (PlacedStatement.ofSegment s').statement = .insert i' ∧
      (i.rows ≠ [] → .insert i families ∈ produced.script ∧ Postgres.renderInsert? i families =
        some (Postgres.insertText i (Postgres.cells i families))) ∧
      (i'.rows ≠ [] → .insert i' families ∈ produced'.script ∧ Postgres.renderInsert? i' families =
        some (Postgres.insertText i' (Postgres.cells i' families))) ∧
      i.table = i'.table ∧ i.columns = i'.columns ∧
      ∀ p, p ≠ (rows.length, r.values.length) →
        (s.decode.2 = s'.decode.2 ∨
          ∀ v, cell? i.rows p = some v → v.IsKept (families.getD p.2 .other)) →
        cell? (Postgres.cells i families) p = cell? (Postgres.cells i' families) p := by
  obtain ⟨i, i', hi, hi', htable, hcolumns, hcells⟩ :=
    hf.ofSegments hend hend' hs hs' hinside hinside' hread hdecode
  obtain ⟨produced, hrun, hmem⟩ := execute_insert hmode hdump hi name
  obtain ⟨produced', hrun', hmem'⟩ := execute_insert hmode hdump' hi' name'
  have hfamilies : (Translation.ofSource (.ofOctets dump') options).familiesFor i' =
      (Translation.ofSource (.ofOctets dump) options).familiesFor i := by
    rw [← htables.familiesFor]
    unfold Translation.familiesFor
    rw [htable, hcolumns]
  rw [hfamilies] at hmem'
  exact ⟨produced, produced', i, i', _, rfl, hrun, hrun', hi, hi',
    fun hne => ⟨hmem hne, Postgres.renderInsert?_cells hne _⟩,
    fun hne => ⟨hmem' hne, Postgres.renderInsert?_cells hne _⟩,
    htable, hcolumns, hcells _⟩

/-- A statement without the octets in its last value, with a charset introducer before another. -/
def quartetFrame : Frame :=
  ⟨"INSERT INTO t VALUES", ' ', "('x','é',_binary 'é','", '\x27', ");"⟩

def quartetSegment (inside : Octets) : Segment :=
  ⟨.ofText "INSERT INTO t VALUES ('x','é',_binary 'é','" ++
    (inside ++ Scan.quoteMark :: Octets.ofText ");"), 1, 54, true⟩

/-- A dump of a table with such a statement. -/
def quartetDump (inside : Octets) : Octets :=
  .ofText "CREATE TABLE t (a varchar(9), b blob, c blob, d blob);" ++ (quartetSegment inside).octets

theorem quartetFrame_opens : quartetFrame.Opens "t" none []
    { start := 1, values := [.bare "_binary 'é'", .text "é", .text "x"]
      value := { raw := ['\x27'], quoted := true }, quote := .inside '\x27' 24 false } :=
  ⟨by decide +kernel, ⟨25, by decide +kernel⟩, ⟨24, rfl⟩⟩

theorem quartetFrame_reads : quartetFrame.Reads .utf8
    (.ofText "INSERT INTO t VALUES ('x','é',_binary 'é','") (.ofText ");") :=
  ⟨⟨rfl, Encoding.noConfusion⟩, ⟨rfl, Encoding.noConfusion⟩⟩

theorem execute_neighbours_quartet :
    ∃ produced produced' i i' families,
      execute (.ofOctets (quartetDump [0x61])) {} .script none = .ok produced ∧
      execute (.ofOctets (quartetDump [0xFF])) {} .script none = .ok produced' ∧
      .insert i families ∈ produced.script ∧ .insert i' families ∈ produced'.script ∧
      i.rows = [[.text "x", .text "é", .bare "_binary 'é'", .text "a"]] ∧
      i'.rows = [[.text "x", .text "Ã©", .bare "_binary 'Ã©'", .text "ÿ"]] ∧
      families = [.text, .binary, .binary, .binary] ∧
      Postgres.cells i families =
        [(["'x'", "'\\xc3a9'", "'\\xc3a9'", "'\\x61'"] : List Text)] ∧
      cell? (Postgres.cells i families) (0, 0) = cell? (Postgres.cells i' families) (0, 0) ∧
      cell? (Postgres.cells i families) (0, 1) = cell? (Postgres.cells i' families) (0, 1) ∧
      cell? (Postgres.cells i families) (0, 2) = cell? (Postgres.cells i' families) (0, 2) := by
  have hall (inside : Octets) (h : Segment.all (quartetDump inside) =
      [⟨.ofText "CREATE TABLE t (a varchar(9), b blob, c blob, d blob);", 0, 0, true⟩,
        quartetSegment inside]) : ∃ first, Segment.all (quartetDump inside) =
          first ++ quartetSegment inside :: [] := ⟨[_], h⟩
  obtain ⟨first, hfirst⟩ := hall [0x61] (by decide +kernel)
  obtain ⟨first', hfirst'⟩ := hall [0xFF] (by decide +kernel)
  have hdecode : (quartetSegment [0x61]).decode.2 = .utf8 := by decide +kernel
  have hdecode' : (quartetSegment [0xFF]).decode.2 = .latin1 := by decide +kernel
  have hcontent (b : UInt8) (hb : b ≠ Scan.backslash ∧ b ≠ Scan.quoteMark) :
      Octets.IsContent Scan.quoteMark [b] := .plain hb.1 hb.2 .nil
  obtain ⟨produced, produced', i, i', families, hfamilies, hrun, hrun', hi, hi', hmem, hmem', -, -,
      hcells⟩ :=
    execute_neighbours (rfl : ({} : Options).mode = .full) hfirst hfirst' rfl rfl
      ⟨by decide +kernel, by decide +kernel⟩ quartetFrame_opens rfl rfl (hcontent 0x61 (by decide))
      (hcontent 0xFF (by decide)) (hdecode ▸ quartetFrame_reads)
      (.inr ⟨hdecode, hdecode', ⟨by decide +kernel, by decide +kernel⟩⟩) none none
  have hinsert : (PlacedStatement.ofSegment (quartetSegment [0x61])).statement =
      .insert ⟨"t", none, [[.text "x", .text "é", .bare "_binary 'é'", .text "a"]], none,
        .utf8⟩ := by
    decide +kernel
  have hinsert' : (PlacedStatement.ofSegment (quartetSegment [0xFF])).statement =
      .insert ⟨"t", none, [[.text "x", .text "Ã©", .bare "_binary 'Ã©'", .text "ÿ"]], none,
        .latin1⟩ := by
    decide +kernel
  obtain rfl := Statement.insert.inj (hinsert.symm.trans hi)
  obtain rfl := Statement.insert.inj (hinsert'.symm.trans hi')
  obtain rfl : families = [.text, .binary, .binary, .binary] :=
    hfamilies.trans (by decide +kernel)
  refine ⟨produced, produced', _, _, _, hrun, hrun', (hmem (by simp)).1, (hmem' (by simp)).1, rfl,
    rfl, rfl, by decide +kernel, hcells (0, 0) (by decide) (.inr ?_),
    hcells (0, 1) (by decide) (.inr ?_), hcells (0, 2) (by decide) (.inr ?_)⟩
  · intro v hv
    obtain rfl := Option.some.inj hv
    exact .inl (by decide : Text.IsAscii "x")
  · intro v hv
    obtain rfl := Option.some.inj hv
    exact .inr ⟨rfl, rfl⟩
  · intro v hv
    obtain rfl := Option.some.inj hv
    exact .inr ⟨rfl, by decide +kernel⟩

/-- A statement with a text and octets. -/
def pairStatement (inside : Octets) : Octets :=
  .ofText "INSERT INTO t VALUES ('é','" ++ (inside ++ Scan.quoteMark :: Octets.ofText ");")

/-- A text is read as Latin-1 for octets of its neighbour that are no UTF-8. -/
theorem execute_neighbours_decoding :
    (execute (.ofOctets (.ofText "CREATE TABLE t (a varchar(9), b blob);" ++
      (pairStatement [0x61] ++ pairStatement [0xFF]))) {} .script none).toOption.map
        (·.script.filterMap Postgres.Part.statement?) =
      some [("CREATE TABLE \"t\" (\n    \"a\" VARCHAR(9),\n    \"b\" BYTEA\n);" : Text),
        "INSERT INTO \"t\" VALUES\n('é', '\\x61');",
        "INSERT INTO \"t\" VALUES\n('Ã©', '\\xff');"] := by
  decide +kernel

end SqlDump
