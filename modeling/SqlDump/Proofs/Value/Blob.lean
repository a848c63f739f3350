import SqlDump.Proofs.Value.Content
import SqlDump.Proofs.Value.Quoted

/-!
# Octets in a row

How a dump writes octets that may be no text: between quotes, the backslash and the quotes escaped,
with a charset introducer before them or not. However the octets of the statement are decoded, the
value that is read is written as exactly these octets in a binary column.

Main statements: `Blob.feed_rowOctets`, the lexer is outside every span behind a row of them;
`Blob.reads_rowOctets`, such a row is decoded value by value; `Blob.Reading.Valid.renderValue`, the
octets are written back.
-/

namespace SqlDump

open Text

/-- Octets as a value of a row. -/
structure Blob where
  octets : Octets
  /-- The name in a charset introducer and the blanks behind it, before the quotes. -/
  introducer : Option (Text × Text) := none
  /-- The blanks around the value. -/
  before : Text := []
  behind : Text := []
  deriving DecidableEq, Repr

namespace Blob

/-- Blanks of ASCII. -/
def IsGap (t : Text) : Prop := ∀ c ∈ t, Unicode.isBlank c = true ∧ c.toNat < 0x80

instance (t : Text) : Decidable (IsGap t) := List.decidableBAll _ t

/-- The charset introducer before the quotes. -/
def introducerText (b : Blob) : Text :=
  match b.introducer with
  | none => []
  | some (name, gap) => '_' :: (name ++ gap)

/-- Blanks are blanks, and a charset introducer has a name of letters and digits. -/
structure IsWritten (b : Blob) : Prop where
  before : IsGap b.before
  behind : IsGap b.behind
  introducer : ∀ i ∈ b.introducer, i.1 ≠ [] ∧ i.1.all Char.isAlphanum = true ∧ IsGap i.2

instance (b : Blob) : Decidable b.IsWritten :=
  decidable_of_iff (IsGap b.before ∧ IsGap b.behind ∧
      ∀ i ∈ b.introducer, i.1 ≠ [] ∧ i.1.all Char.isAlphanum = true ∧ IsGap i.2)
    ⟨fun h => ⟨h.1, h.2.1, h.2.2⟩, fun h => ⟨h.before, h.behind, h.introducer⟩⟩

/-- The octets of the value in a dump. -/
def written (b : Blob) : Octets :=
  Octets.ofText (b.before ++ b.introducerText) ++
    (Scan.quoteMark :: (b.octets.escape ++ Scan.quoteMark :: Octets.ofText b.behind))

/-- The octets of a row behind its opening parenthesis. -/
def rowOctets (blobs : List Blob) : Octets :=
  [(0x2C : UInt8)].intercalate (blobs.map written) ++ [0x29]

/-- The octets, decoded: what stands between the quotes, and the text that it spells. -/
structure Reading where
  blob : Blob
  inside : Text
  content : Text

namespace Reading

/-- The literal without what stands around it. -/
def literal (r : Reading) : Text := '\x27' :: (r.inside ++ ['\x27'])

/-- The value as it is decoded. -/
def text (r : Reading) : Text :=
  r.blob.before ++ r.blob.introducerText ++ ('\x27' :: (r.inside ++ '\x27' :: r.blob.behind))

/-- The value that is read. -/
def value (r : Reading) : Value :=
  match r.blob.introducer with
  | none => .text r.content
  | some _ => .bare (r.blob.introducerText ++ r.literal)

/-- What stands between the quotes spells the text that the octets are read as. -/
structure Valid (e : Encoding) (r : Reading) : Prop where
  written : r.blob.IsWritten
  spells : Spelling '\x27' r.inside r.content
  reads : e.Reads r.blob.octets r.content

end Reading

variable {e : Encoding} {b : Blob} {blobs : List Blob} {c : Char} {t : Text} {x : Octets}

/-- A character of ASCII that means nothing, neither in a statement nor in a row. -/
structure IsInert (c : Char) : Prop where
  ascii : c.toNat < 0x80
  special : Scan.isSpecial c = false
  parentheses : c ≠ '(' ∧ c ≠ ')'
  comma : c ≠ ','

theorem isSpecial_eq_false (hc : ∀ d ∈ ("'\x22\x60;-/" : Text), c ≠ d) :
    Scan.isSpecial c = false := by
  simpa [Scan.isSpecial, and_assoc] using hc

/-- What tells the marks of a statement and of a row from other characters leaves these inert. -/
theorem isInert_of {p : Char → Bool} (hp : ("'\x22\x60;-/()," : Text).any p = false)
    (hascii : c.toNat < 0x80) (h : p c = true) : IsInert c := by
  have hne : ∀ d ∈ ("'\x22\x60;-/()," : Text), c ≠ d := by
    rintro d hd rfl
    exact List.any_eq_false.mp hp c hd h
  refine ⟨hascii, isSpecial_eq_false fun d hd => hne d ?_, ⟨hne _ ?_, hne _ ?_⟩, hne _ ?_⟩
  · exact List.mem_append_left _ hd
  all_goals decide

theorem IsGap.isInert (h : IsGap t) : ∀ c ∈ t, IsInert c := by
  intro c hc
  exact isInert_of (p := Unicode.isBlank) (by decide) (h c hc).2 (h c hc).1

theorem IsGap.isBlank (h : IsGap t) : Text.isBlank t = true :=
  List.all_eq_true.mpr fun c hc => (h c hc).1

theorem isInert_of_isAlphanum (h : c.isAlphanum = true) : IsInert c :=
  isInert_of (p := Char.isAlphanum) (by decide) (ascii_of_isAlphanum h) h

/-- What stands before the quotes means nothing. -/
theorem IsWritten.isInert (h : b.IsWritten) : ∀ c ∈ b.before ++ b.introducerText, IsInert c := by
  intro c hc
  rcases List.mem_append.mp hc with hc | hc
  · exact h.before.isInert c hc
  unfold introducerText at hc
  cases hb : b.introducer with
  | none =>
    rw [hb] at hc
    exact absurd hc List.not_mem_nil
  | some introducer =>
    obtain ⟨name, gap⟩ := introducer
    obtain ⟨-, hname, hgap⟩ := h.introducer (name, gap) hb
    simp only [hb, List.mem_cons, List.mem_append] at hc
    rcases hc with rfl | hc | hc
    · exact ⟨by decide, by decide, by decide, by decide⟩
    · exact isInert_of_isAlphanum (List.all_eq_true.mp hname c hc)
    · exact hgap.isInert c hc

section Lexer

theorem feed_inert (h : ∀ c ∈ t, IsInert c) :
    (Scan.plain true).feed (.ofText t) = some (.plain true) :=
  Scan.read_plain_text (List.any_eq_false.mpr fun c hc => by simp [(h c hc).special])

theorem feed_written (h : b.IsWritten) :
    (Scan.plain true).feed b.written = some (.plain true) := by
  have hopen : (Scan.plain true).step Scan.quoteMark = some (.quoted Scan.quoteMark false) := rfl
  have hclose : (Scan.quoted Scan.quoteMark false).step Scan.quoteMark = some (.plain true) := rfl
  have hcontent : Octets.IsContent (UInt8.ofNat '\x27'.toNat) b.octets.escape :=
    Octets.isContent_escape b.octets
  have hinside : (Scan.quoted Scan.quoteMark false).feed b.octets.escape =
      some (.quoted Scan.quoteMark false) := hcontent.feed (.inl rfl)
  rw [written, Scan.feed_append, feed_inert h.isInert, Option.bind_some, Scan.feed, hopen,
    Option.bind_some, Scan.feed_append, hinside, Option.bind_some, Scan.feed, hclose,
    Option.bind_some, feed_inert h.behind.isInert]

/-- Behind a row of octets the lexer is outside every span. -/
theorem feed_rowOctets (h : ∀ b ∈ blobs, b.IsWritten) :
    (Scan.plain true).feed (rowOctets blobs) = some (.plain true) := by
  induction blobs with
  | nil => rfl
  | cons b blobs ih =>
    have hb := feed_written (h b List.mem_cons_self)
    cases blobs with
    | nil =>
      have hrow : rowOctets [b] = b.written ++ [0x29] := by simp [rowOctets]
      rw [hrow, Scan.feed_append, hb]
      rfl
    | cons next blobs =>
      have hrow : rowOctets (b :: next :: blobs) = b.written ++ 0x2C :: rowOctets (next :: blobs) := by
        simp [rowOctets, List.intercalate]
      have hcomma : (Scan.plain true).step 0x2C = some (.plain true) := rfl
      rw [hrow, Scan.feed_append, hb, Option.bind_some, Scan.feed, hcomma, Option.bind_some]
      exact ih fun d hd => h d (List.mem_cons_of_mem b hd)

end Lexer

section Decoding

/-- A value is decoded to a text of its own. -/
theorem reads_written (hb : b.IsWritten) (h : e.Reads (b.written ++ x) t) :
    ∃ (r : Reading) (u : Text), r.blob = b ∧ r.Valid e ∧ t = r.text ++ u ∧ e.Reads x u := by
  rw [written, List.append_assoc, List.cons_append, List.append_assoc, List.cons_append] at h
  obtain ⟨opened, rfl, hopened⟩ :=
    h.append_right (.of_ascii e fun c hc => (hb.isInert c hc).ascii)
  obtain ⟨quoted, rfl, hquoted⟩ := hopened.cons_ascii (by decide)
  obtain ⟨inside, closed, rfl, hinside, hclosed⟩ := hquoted.split_ascii (by decide)
  obtain ⟨u, rfl, hu⟩ := hclosed.append_right (.of_ascii e fun c hc => (hb.behind c hc).2)
  obtain ⟨content, hcontent, hspells⟩ := Octets.escape_reads hinside
  refine ⟨⟨b, inside, content⟩, u, rfl, ⟨hb, hspells, hcontent⟩, ?_, hu⟩
  have hquote : Char.ofNat Scan.quoteMark.toNat = '\x27' := rfl
  simp only [Reading.text, hquote, List.append_assoc, List.cons_append]

/-- A row of octets is decoded value by value. -/
theorem reads_rowOctets (hb : ∀ b ∈ blobs, b.IsWritten) (h : e.Reads (rowOctets blobs ++ x) t) :
    ∃ (readings : List Reading) (u : Text), readings.map Reading.blob = blobs ∧
      (∀ r ∈ readings, r.Valid e) ∧ t = join "," (readings.map Reading.text) ++ [')'] ++ u ∧
      e.Reads x u := by
  induction blobs generalizing t with
  | nil =>
    obtain ⟨u, rfl, hu⟩ := h.cons_ascii (by decide)
    exact ⟨[], u, rfl, by simp, rfl, hu⟩
  | cons b blobs ih =>
    have hfirst := hb b List.mem_cons_self
    cases blobs with
    | nil =>
      have hrow : rowOctets [b] ++ x = b.written ++ 0x29 :: x := by simp [rowOctets]
      rw [hrow] at h
      obtain ⟨r, v, rfl, hr, rfl, hv⟩ := reads_written hfirst h
      obtain ⟨u, rfl, hu⟩ := hv.cons_ascii (by decide)
      refine ⟨[r], u, rfl, by simpa using hr, ?_, hu⟩
      simp [join]
    | cons next blobs =>
      have hrow : rowOctets (b :: next :: blobs) ++ x =
          b.written ++ 0x2C :: (rowOctets (next :: blobs) ++ x) := by
        simp [rowOctets, List.intercalate]
      rw [hrow] at h
      obtain ⟨r, v, rfl, hr, rfl, hv⟩ := reads_written hfirst h
      obtain ⟨w, rfl, hw⟩ := hv.cons_ascii (by decide)
      obtain ⟨readings, u, hblobs, hvalid, rfl, hu⟩ :=
        ih (fun d hd => hb d (List.mem_cons_of_mem _ hd)) hw
      obtain ⟨r', readings, rfl⟩ : ∃ r' rs, readings = r' :: rs :=
        List.exists_cons_of_ne_nil fun hnil => by simp [hnil] at hblobs
      refine ⟨r :: r' :: readings, u, by rw [List.map_cons, hblobs], ?_, ?_, hu⟩
      · intro d hd
        rcases List.mem_cons.mp hd with rfl | hd
        · exact hr
        · exact hvalid d hd
      · simp [join, List.intercalate]

end Decoding

namespace Reading

variable {r : Reading}

/-- The value as a quoted text. -/
def quoted (r : Reading) : QuotedValue where
  written := r.inside
  content := r.content
  introducer := r.blob.introducer
  before := r.blob.before
  behind := r.blob.behind

theorem Valid.quoted (h : r.Valid e) : r.quoted.Valid where
  spells := h.spells
  before := h.written.before.isBlank
  behind := h.written.behind.isBlank
  introducer i hi :=
    let ⟨hne, hname, hgap⟩ := h.written.introducer i hi
    ⟨hne, hname, hgap.isBlank⟩

/-- The reader of rows finds the value. -/
theorem Valid.openRow_reads (h : r.Valid e) : OpenRow.Reads r.text r.value := h.quoted.reads

/-- In a binary column the value is written as the octets. -/
theorem Valid.renderValue (h : r.Valid e) :
    Postgres.renderValue r.value .binary e = Postgres.quoteOctets r.blob.octets := by
  have hvalue : Postgres.renderValue r.value .binary e = Postgres.renderText r.content .binary e :=
    h.quoted.renderValue .binary e
  rw [hvalue, Postgres.renderText, h.reads.octets]

end Reading

end Blob

end SqlDump
