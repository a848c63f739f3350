import SqlDump.Proofs.Dump.Opening
import SqlDump.Proofs.Segment.Whole
import SqlDump.Proofs.Translation.Writing
import SqlDump.Proofs.Value.Blob

/-!
# Octets in a script

A dump decodes each statement as UTF-8 or, where it is none, as Latin-1. Octets that are written
in a row for a table of binary columns come back out of either: the script holds their digits. What
has to be read is the name of the table, which a statement that is no UTF-8 gives as Latin-1 as
well.

Main statement: `execute_blobs`, the script of a dump holds the octets of such a row.
-/

namespace SqlDump

open Text

/-- The octets of an `INSERT` up to the opening parenthesis of a row, with the rows before that row
in reverse. -/
structure RowOpening (e : Encoding) (head : Octets) (table : Text) (columns : Option (List Text))
    (rows : List Row) : Prop where
  solid : head.Solid
  lexed : Scan.start.feed head = some (.plain true)
  opened : ∃ text values r position, e.Reads head text ∧
    Insert.opening? text = some (table, columns, values) ∧
    RowScan.run {} values = (⟨rows, some r, position⟩, []) ∧ r.Fresh []

namespace Translation

variable {t u : Translation} {table : Text} {columns : Option (List Text)} {n : Nat}

/-- Whether a table is known all of whose columns hold octets, and the first `n` values of a row are
for columns of it. -/
def takesOctets (t : Translation) (table : Text) (columns : Option (List Text)) (n : Nat) : Bool :=
  (t.catalog.find? table).any fun known =>
    (Postgres.families known).all (· == .binary) &&
      match columns with
      | none => n ≤ known.columns.length
      | some names => n ≤ names.length && names.all fun c => (known.columnIndex? c).isSome

/-- The first values of a row for such a table are octets. -/
theorem family_of_takesOctets {i : Insert} (h : t.takesOctets i.table i.columns n = true)
    (hfamilies : t.families = t.catalog.tables.map Postgres.families) {k : Nat} (hk : k < n) :
    (t.familiesFor i).getD k .other = .binary := by
  obtain ⟨known, hfind, h⟩ := (Option.any_eq_true _ _).mp h
  obtain ⟨hbinary, hcolumns⟩ := Bool.and_eq_true_iff.mp h
  obtain ⟨id, hid, htable⟩ := Option.bind_eq_some_iff.mp hfind
  have hknown : t.families.getD id [] = Postgres.families known := by
    have hget : t.catalog.tables[id]? = some known := htable
    simp [hfamilies, List.getD_eq_getElem?_getD, hget]
  have hcolumn {j : Nat} (hj : j < known.columns.length) :
      (Postgres.families known)[j]? = some .binary := by
    rw [← Postgres.length_families] at hj
    rw [List.getElem?_eq_getElem hj]
    exact congrArg some (eq_of_beq (List.all_eq_true.mp hbinary _ (List.getElem_mem hj)))
  unfold familiesFor
  simp only [hid, hknown, htable]
  cases hi : i.columns with
  | none =>
    simp only [hi, decide_eq_true_eq] at hcolumns
    rw [List.getD_eq_getElem?_getD, hcolumn (Nat.lt_of_lt_of_le hk hcolumns)]
    rfl
  | some names =>
    simp only [hi, Bool.and_eq_true, decide_eq_true_eq, List.all_eq_true] at hcolumns
    obtain ⟨hlength, hnames⟩ := hcolumns
    have hk' := Nat.lt_of_lt_of_le hk hlength
    obtain ⟨j, hj⟩ := Option.isSome_iff_exists.mp (hnames _ (List.getElem_mem hk'))
    obtain ⟨hlt, -⟩ := List.findIdx?_eq_some_iff_findIdx_eq.mp hj
    simp [List.getD_eq_getElem?_getD, hk', hj, hcolumn hlt]

/-- A row for such a table is written as octets. -/
theorem renderRow_of_takesOctets {i : Insert} {row : Row}
    (h : t.takesOctets i.table i.columns row.length = true)
    (hfamilies : t.families = t.catalog.tables.map Postgres.families) (e : Encoding) :
    Postgres.renderRow (t.familiesFor i) e row =
      "(" ++ join ", " (row.map (Postgres.renderValue · .binary e)) ++ ")" := by
  have hcells : row.mapIdx (fun j v => Postgres.renderValue v ((t.familiesFor i).getD j .other) e) =
      row.map (Postgres.renderValue · .binary e) := by
    apply List.ext_getElem (by simp)
    intro j hj _
    rw [List.length_mapIdx] at hj
    rw [List.getElem_mapIdx, List.getElem_map, family_of_takesOctets h hfamilies hj]
  rw [Postgres.renderRow, hcells]

end Translation

namespace RowOpening

variable {e : Encoding} {head tail : Octets} {table : Text} {columns : Option (List Text)}
  {rows : List Row} {blobs : List Blob}

theorem isStatement (h : RowOpening e head table columns rows) (hblobs : ∀ b ∈ blobs, b.IsWritten)
    (htail : (Scan.plain true).Ends tail) :
    Octets.IsStatement (head ++ (Blob.rowOctets blobs ++ tail)) := by
  constructor
  · obtain ⟨b, rest, rfl, hb⟩ := h.solid
    exact ⟨b, _, rfl, hb⟩
  · apply Scan.Ends.append h.lexed
    exact htail.append (Blob.feed_rowOctets hblobs)

/-- A row of octets is read as a row whose values are written as the octets. -/
theorem reads_row (h : RowOpening e head table columns rows) (hblobs : ∀ b ∈ blobs, b.IsWritten)
    {t : Text} (ht : e.Reads (head ++ (Blob.rowOctets blobs ++ tail)) t) :
    ∃ (values : Text) (row : Row) (more : List Row),
      Insert.opening? t = some (table, columns, values) ∧
        (ParsedRows.ofText values).rows = rows.reverse ++ row :: more ∧
        row.map (Postgres.renderValue · .binary e) =
          blobs.map fun b => Postgres.quoteOctets b.octets := by
  obtain ⟨text, values, r, position, htext, hopening, hrun, hfresh⟩ := h.opened
  obtain ⟨behind, rfl, hbehind⟩ := ht.append_right htext
  obtain ⟨readings, rest, rfl, hvalid, rfl, -⟩ := Blob.reads_rowOctets hblobs hbehind
  have hvalues : values ≠ [] := by
    rintro rfl
    cases hrun
  have hrow : ∃ position', (⟨rows, some r, position⟩ : RowScan).run
      (join "," (readings.map Blob.Reading.text) ++ [')']) =
        (⟨readings.map Blob.Reading.value :: rows, none, position'⟩, []) :=
    RowScan.run_list (fun x hx => (hvalid x hx).openRow_reads) hfresh rows position
  obtain ⟨position', hrow⟩ := hrow
  obtain ⟨more, hmore⟩ := RowScan.rows_run
    ⟨readings.map Blob.Reading.value :: rows, none, position'⟩ rest
  refine ⟨_, readings.map Blob.Reading.value, more.reverse,
    Insert.opening?_append hopening hvalues _, ?_, ?_⟩
  · unfold ParsedRows.ofText
    rw [RowScan.run_append _ _ _ (by rw [hrun]), hrun, RowScan.run_append _ _ _ (by rw [hrow]), hrow]
    dsimp only
    rw [hmore]
    simp
  · rw [List.map_map, List.map_map]
    apply List.map_congr_left
    intro x hx
    exact (hvalid x hx).renderValue

end RowOpening

/-- The script of a dump holds the octets of a row, whichever way the statement was decoded. -/
theorem execute_blobs {options : Options} (hmode : options.mode = .full)
    {before head tail after : Octets} {blobs : List Blob} {table : Text}
    {columns : Option (List Text)} {rows : List Row} (hbefore : before.IsWhole)
    (hhead : RowOpening (Encoding.decode (head ++ (Blob.rowOctets blobs ++ tail))).2 head table
      columns rows)
    (hblobs : ∀ b ∈ blobs, b.IsWritten) (htail : (Scan.plain true).Ends tail)
    (htable : (Translation.ofSource
      (.ofOctets (before ++ (head ++ (Blob.rowOctets blobs ++ tail) ++ after))) options).takesOctets
        table columns blobs.length = true) (name : Option Text) :
    ∃ produced i families first rest n k,
      execute (.ofOctets (before ++ (head ++ (Blob.rowOctets blobs ++ tail) ++ after))) options
        .script name = .ok produced ∧
      (PlacedStatement.ofSegment ⟨head ++ (Blob.rowOctets blobs ++ tail), n, k, true⟩).statement =
        .insert i ∧
      i.table = table ∧ i.columns = columns ∧ .insert i families ∈ produced.script ∧
      Postgres.renderInsert? i families = some (Postgres.insertHead i ++ join ",\n" (first ++
        ("(" ++ join ", " (blobs.map fun b => Postgres.quoteOctets b.octets) ++ ")") :: rest) ++
          ";") ∧
      first.length = rows.length := by
  obtain ⟨first, n, k, rest, hall⟩ :=
    Segment.all_of_whole hbefore (hhead.isStatement hblobs htail) after
  have hdecode := Encoding.decode_reads (head ++ (Blob.rowOctets blobs ++ tail))
  obtain ⟨values, row, more, hopening, hrows, hrow⟩ := hhead.reads_row hblobs hdecode
  obtain ⟨i, hinsert, rfl, rfl, hvalues, hencoding⟩ := PlacedStatement.ofSegment_opening
    (s := ⟨head ++ (Blob.rowOctets blobs ++ tail), n, k, true⟩) rfl hopening
  rw [hrows] at hvalues
  obtain ⟨produced, hrun, hwritten⟩ := execute_insert hmode hall hinsert name
  generalize hfamilies : (Translation.ofSource _ options).familiesFor i = families at hwritten
  have hrender : Postgres.renderRow families i.encoding row =
      "(" ++ join ", " (blobs.map fun b => Postgres.quoteOctets b.octets) ++ ")" := by
    have hlength : row.length = blobs.length := by simpa using congrArg List.length hrow
    rw [← hlength] at htable
    rw [← hfamilies, Translation.renderRow_of_takesOctets htable
      (Translation.families_ofSource _ _), hencoding]
    exact congrArg (fun cells => "(" ++ join ", " cells ++ ")") hrow
  refine ⟨produced, i, families, rows.reverse.map (Postgres.renderRow families i.encoding),
    more.map (Postgres.renderRow families i.encoding), n, k, hrun, hinsert, rfl, rfl, ?_, ?_, ?_⟩
  · exact hwritten (by simp [hvalues])
  · unfold Postgres.renderInsert?
    rw [if_neg (by simp [hvalues]), hvalues, List.map_append, List.map_cons, hrender]
    rfl
  · rw [List.length_map, List.length_reverse]

/-- A dump of one table and the first octets of a row for it. -/
def rowDump (table opening : Text) (blobs : List Blob) : Octets :=
  .ofText table ++ (.ofText opening ++ (Blob.rowOctets blobs ++ [Scan.semicolon]) ++ [])

theorem execute_blobs_latin1 :
    ∃ (produced : Produced) (i : Insert) (families : List TypeFamily) (first rest : List Text),
      execute (.ofOctets (rowDump "CREATE TABLE t (b blob, c blob);" "INSERT INTO t VALUES ("
        [{ octets := [0xFF, 0x27, 0x00] },
          { octets := [0x5C, 0xC3, 0xA9], introducer := some ("binary", " "), before := " " }])) {}
        .script none = .ok produced ∧
      .insert i families ∈ produced.script ∧
      Postgres.renderInsert? i families = some (Postgres.insertHead i ++ join ",\n" (first ++
        ("('\\xff2700', '\\x5cc3a9')" : Text) :: rest) ++ ";") ∧
      first.length = 0 := by
  have hhead (e : Encoding) : RowOpening e (.ofText "INSERT INTO t VALUES (") "t" none [] := by
    refine ⟨⟨0x49, _, rfl, by decide⟩, by decide +kernel, "INSERT INTO t VALUES (", " (",
      { start := 1 }, 2, ?_, by decide +kernel, rfl, ⟨rfl, rfl, rfl, rfl⟩⟩
    exact .of_ascii e (by decide)
  obtain ⟨produced, i, families, first, rest, -, -, hrun, -, -, -, hmem, hrender, hfirst⟩ :=
    @execute_blobs {} rfl (.ofText "CREATE TABLE t (b blob, c blob);") _ [Scan.semicolon] []
      [{ octets := [0xFF, 0x27, 0x00] },
        { octets := [0x5C, 0xC3, 0xA9], introducer := some ("binary", " "), before := " " }]
      "t" none [] (by decide +kernel) (hhead _) (by decide +kernel)
      ⟨[], Scan.semicolon, _, rfl, rfl, rfl⟩ (by decide +kernel) none
  exact ⟨produced, i, families, first, rest, hrun, hmem, hrender, hfirst⟩

/-- A statement that is no UTF-8 names no table whose name is not of ASCII, so that its octets are
written as a text. -/
theorem execute_blobs_unnamed :
    (Translation.ofSource (.ofOctets (rowDump "CREATE TABLE é (b blob);" "INSERT INTO é VALUES ("
      [{ octets := [0xFF] }])) {}).takesOctets "é" none 1 = true ∧
    Blob.IsWritten { octets := [0xFF] } ∧
    (execute (.ofOctets (rowDump "CREATE TABLE é (b blob);" "INSERT INTO é VALUES ("
      [{ octets := [0xFF] }])) {} .script none).toOption.map
        (·.script.filterMap Postgres.Part.statement?) =
      some [("CREATE TABLE \"é\" (\n    \"b\" BYTEA\n);" : Text),
        "INSERT INTO \"Ã©\" VALUES\n('ÿ');"] := by
  decide +kernel

end SqlDump
