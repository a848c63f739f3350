import SqlDump.Proofs.Dump.Opening
import SqlDump.Proofs.Text.Names
import SqlDump.Proofs.Value.Quotes

/-!
# Quotes in a statement for rows

A statement for rows is cut out of a dump by the lexer and then read by the reader of rows. Where
its rows open neither a name in backticks nor a comment, both see the same quotes in it: at every
place in a row the lexer is inside of a quoted text exactly when the reader is, with the same quote.
So the semicolon that ends the statement is outside of quotes for the reader too.

Main statements: `Octets.exists_end`, where the lexer ends the statement; `Segment.sharesQuotes`,
lexer and reader are inside of the same quotes, and no quoted text is unterminated.
-/

namespace SqlDump

open Text

/-! ### The head of a statement -/

namespace Octets

/-- The octets with every `mark` written twice. -/
def double (mark : UInt8) (bs : Octets) : Octets :=
  bs.flatMap fun b => if b = mark then [mark, mark] else [b]

/-- What stands before the rows for a table, whose name is in backticks. -/
def rowsHead (name : Octets) : Octets :=
  ofText "INSERT INTO \x60" ++
    (double Scan.backtickMark name ++ Scan.backtickMark :: ofText " VALUES")

theorem double_cons (mark b : UInt8) (bs : Octets) :
    double mark (b :: bs) = (if b = mark then [mark, mark] else [b]) ++ double mark bs :=
  List.flatMap_cons

/-- Octets other than the one that is written twice stand as they are. -/
theorem exists_of_double {mark : UInt8} {name more rest : Octets}
    (h : double mark name = more ++ rest) (hmore : mark ∉ more) :
    ∃ behind, name = more ++ behind ∧ rest = double mark behind := by
  induction more generalizing name with
  | nil => exact ⟨name, rfl, h.symm⟩
  | cons d more ih =>
    obtain ⟨hd, hfree⟩ := not_or.mp (mt List.mem_cons.mpr hmore)
    cases name with
    | nil => cases h
    | cons b name =>
      rw [double_cons] at h
      by_cases hb : b = mark
      · rw [if_pos hb] at h
        exact absurd (List.cons.inj h).1 hd
      · rw [if_neg hb, List.singleton_append, List.cons_append] at h
        obtain ⟨rfl, htail⟩ := List.cons.inj h
        obtain ⟨behind, rfl, hrest⟩ := ih htail hfree
        exact ⟨behind, rfl, hrest⟩

end Octets

/-- A name whose backticks are written twice is read as one. -/
theorem Encoding.Reads.exists_double {e : Encoding} {name : Octets} {t : Text}
    (h : e.Reads (name.double Scan.backtickMark) t) : ∃ n, t = Text.double '\x60' n := by
  induction hlen : t.length using Nat.strongRecOn generalizing name t with
  | ind k ih =>
    subst hlen
    cases name with
    | nil => exact ⟨[], h.unique (.nil e)⟩
    | cons b name =>
      rw [Octets.double_cons] at h
      by_cases hb : b = Scan.backtickMark
      · subst hb
        rw [if_pos rfl, List.cons_append, List.cons_append, List.nil_append] at h
        obtain ⟨u, rfl, hu⟩ := h.cons_ascii (by decide)
        obtain ⟨v, rfl, hv⟩ := hu.cons_ascii (by decide)
        obtain ⟨n, rfl⟩ := ih v.length (by simp only [List.length_cons]; omega) hv rfl
        exact ⟨'\x60' :: n, (Text.double_cons_self _ n).symm⟩
      · rw [if_neg hb, List.singleton_append] at h
        obtain ⟨c, v, more, z, rfl, hname, -, hv, hmore, hc⟩ := h.cons_octets
        have hfree : Scan.backtickMark ∉ more := by
          intro hm
          exact absurd (hmore _ hm) (by decide)
        obtain ⟨behind, -, rfl⟩ := Octets.exists_of_double hname hfree
        obtain ⟨n, rfl⟩ := ih v.length (by simp) hv rfl
        have hne : c ≠ '\x60' := by
          rintro rfl
          have hchar := hc (.inr (by decide))
          refine hb (UInt8.toNat_inj.mp ?_)
          rw [← Octets.toNat_ofNat_octet b, ← hchar]
          rfl
        exact ⟨c :: n, (Text.double_cons_of_ne hne n).symm⟩

/-- The head of a statement is read as a keyword, a name and a keyword. -/
theorem Encoding.Reads.of_rowsHead {e : Encoding} {name v : Octets} {t : Text}
    (h : e.Reads (Octets.rowsHead name ++ v) t) :
    ∃ n values, t = "INSERT INTO " ++ (Identifier.quoted '\x60' n ++ (" VALUES" ++ values)) ∧
      e.Reads v values := by
  unfold Octets.rowsHead at h
  rw [List.append_assoc, List.append_assoc, List.cons_append] at h
  obtain ⟨u, rfl, hu⟩ := h.append_right (.of_ascii e (by decide))
  obtain ⟨doubled, w, rfl, hname, hw⟩ := hu.split_ascii (by decide)
  obtain ⟨values, rfl, hvalues⟩ := hw.append_right (.of_ascii e (by decide))
  obtain ⟨n, rfl⟩ := hname.exists_double
  refine ⟨n, values, ?_, hvalues⟩
  simp [Identifier.quoted, Scan.backtickMark]

/-- The rows of a statement follow its head. -/
theorem Insert.values_of_rowsHead {n table values rest : Text} {columns : Option (List Text)}
    (h : opening? ("INSERT INTO " ++ (Identifier.quoted '\x60' n ++ (" VALUES" ++ values))) =
      some (table, columns, rest)) : rest = values := by
  obtain ⟨head, behindName, behind, hhead, hname, hlist, hvalues⟩ := opening?_eq_some.mp h
  have hbody : Statement.bodyOf
      ("INSERT INTO " ++ (Identifier.quoted '\x60' n ++ (" VALUES" ++ values))) =
        "INSERT INTO " ++ (Identifier.quoted '\x60' n ++ (" VALUES" ++ values)) :=
    Statement.bodyOf_eq_self (c := 'I') (by decide) (by decide) (by decide)
  have hinsert : Statement.insertHead?
      ("INSERT INTO " ++ (Identifier.quoted '\x60' n ++ (" VALUES" ++ values))) =
        some (Identifier.quoted '\x60' n ++ (" VALUES" ++ values)) := rfl
  have hblank : trimStart (" VALUES" ++ values) = "VALUES" ++ values := rfl
  have hread : Identifier.readQualified (Identifier.quoted '\x60' n ++ (" VALUES" ++ values)) =
      (some n, " VALUES" ++ values) := by
    refine Identifier.readQualified_quoted n (by simp) ?_
    rw [hblank]
    simp
  have hcolumns : columnList? ("VALUES" ++ values) = some (none, "VALUES" ++ values) := rfl
  have hkeyword : valuesKeyword? ("VALUES" ++ values) = (some values).filter endsWord := rfl
  obtain rfl := Option.some.inj ((hbody ▸ hhead).symm.trans hinsert)
  obtain ⟨-, rfl⟩ := Prod.mk.inj (hname.symm.trans hread)
  rw [hblank] at hlist
  obtain ⟨-, rfl⟩ := Prod.mk.inj (Option.some.inj (hlist.symm.trans hcolumns))
  rw [hkeyword] at hvalues
  exact (Option.some.inj (Option.filter_eq_some_iff.mp hvalues).1).symm

namespace Scan

theorem feed_double (name : Octets) :
    backtick.feed (name.double backtickMark) = some .backtick := by
  induction name with
  | nil => rfl
  | cons b name ih =>
    rw [Octets.double_cons, feed_append]
    by_cases hb : b = backtickMark
    -- The first backtick closes the name and the second opens it again.
    · rw [if_pos hb]
      exact ih
    · have hstep : backtick.feed [b] = some .backtick := by simp [feed, step, hb]
      rw [if_neg hb, hstep]
      exact ih

theorem feed_rowsHead (name : Octets) :
    start.feed (Octets.rowsHead name) = some (.plain true) := by
  have hlead : start.feed (Octets.ofText "INSERT INTO \x60") = some .backtick := rfl
  have hvalues : backtick.feed (backtickMark :: Octets.ofText " VALUES") = some (.plain true) := rfl
  rw [Octets.rowsHead, feed_append, hlead, Option.bind_some, feed_append, feed_double,
    Option.bind_some, hvalues]

end Scan

/-! ### The end of a statement -/

theorem Scan.Follows.not_isComplete {s : Scan} {next : Text} {q : Quoting} (h : s.Follows next q) :
    s.isComplete = false := by
  cases q with
  | outside => obtain rfl | ⟨rfl, -⟩ | ⟨rfl, -⟩ := h <;> rfl
  | inside quote escaped =>
    obtain ⟨-, rfl⟩ := h
    rfl

/-- The first of the octets of clear rows are clear. -/
theorem IsClear.of_prefix {x v : Octets} (h : IsClear (outsideOf .outside v.fromLatin1))
    (hx : x <+: v) : IsClear (outsideOf .outside x.fromLatin1) := by
  obtain ⟨y, rfl⟩ := hx
  rw [Encoding.fromLatin1_append, outsideOf_append] at h
  exact h.mono (List.prefix_append _ _).isInfix

/-- The lexer follows the quotes of rows from their start on. -/
theorem Scan.follows_rows {e : Encoding} {x : Octets} {t next : Text} {l : Scan}
    (hclear : IsClear (outsideOf .outside (t ++ next))) (hx : e.Reads x t)
    (hl : (plain true).feed x = some l) :
    l.Follows (outsideOf (t.foldl Quoting.step .outside) next) (t.foldl Quoting.step .outside) :=
  have hstart : (plain true).Follows (outsideOf .outside (t ++ next)) .outside := .inl rfl
  hstart.feed hclear hx hl

/-- Only a semicolon outside quotes ends a statement for rows. -/
theorem Scan.end_of_rows {body rest : Octets} {b : UInt8} {l : Scan}
    (hclear : IsClear (outsideOf .outside (body ++ b :: rest).fromLatin1))
    (hbody : (plain true).feed body = some l) (hl : l.step b = none) : b = semicolon := by
  have hsplit : (body ++ b :: rest).fromLatin1 =
      body.fromLatin1 ++ Char.ofNat b.toNat :: Octets.fromLatin1 rest := List.map_append
  rw [hsplit] at hclear
  have hfollows := follows_rows hclear (Encoding.reads_fromLatin1 body) hbody
  have hb : (Char.ofNat b.toNat).toNat < 0x80 := by
    rw [Octets.toNat_ofNat_octet]
    by_contra hhigh
    rw [step_high hfollows.isSound (UInt8.le_iff_toNat_le.mpr (Nat.le_of_not_lt hhigh))] at hl
    cases hl
  have hread : l.read [Char.ofNat b.toNat] = none := by
    rw [read_of_ascii l hb, Octets.toNat_ofNat_octet, UInt8.ofNat_toNat, hl]
  rw [outsideOf_append] at hclear
  have hchar := (hfollows.ends (hclear.mono (List.suffix_append _ _).isInfix) hread).2
  rw [← UInt8.toNat_inj, ← Octets.toNat_ofNat_octet b, hchar]
  rfl

/-- The lexer ends a statement for rows at the semicolon that is its last octet. -/
theorem Octets.exists_end {name v : Octets} {s : Segment}
    (hcut : Segment.all (rowsHead name ++ v) = [s]) (hend : s.terminated = true)
    (hclear : IsClear (outsideOf .outside v.fromLatin1)) :
    ∃ body rest l, v = body ++ Scan.semicolon :: rest ∧
      s.octets = rowsHead name ++ (body ++ [Scan.semicolon]) ∧
      (Scan.plain true).feed body = some l ∧ l.step Scan.semicolon = none := by
  have hhead := Scan.feed_rowsHead name
  rcases Scan.foldl_resume (.plain true) v with hfeed | ⟨body, b, rest, l, rfl, hbody, hl, -⟩
  · -- The input would end inside the statement.
    have hfollows :=
      Scan.follows_rows (by rwa [List.append_nil]) (Encoding.reads_fromLatin1 v) hfeed
    have hall :
        Scan.start.feed (rowsHead name ++ v) = some (v.foldl Scan.resume (.plain true)) := by
      rw [Scan.feed_append, hhead, Option.bind_some, hfeed]
    have hpiece : Scan.start.cut [] (rowsHead name ++ v) = ⟨rowsHead name ++ v, false, []⟩ := by
      have hrest := Scan.cut_of_feed hall [] []
      rw [List.append_nil, List.append_nil] at hrest
      rw [hrest, Scan.cut, hfollows.not_isComplete, List.reverse_reverse]
    rw [Segment.all, Scan.fromOffset_eq, hpiece, Scan.segmentsOfCut] at hcut
    split at hcut
    · cases hcut
    · obtain ⟨rfl, -⟩ := List.cons.inj hcut
      cases hend
  · obtain rfl := Scan.end_of_rows hclear hbody hl
    have hends : Scan.start.Ends (rowsHead name ++ (body ++ [Scan.semicolon])) :=
      .append hhead ⟨body, _, l, rfl, hbody, hl⟩
    have hsplit : rowsHead name ++ (body ++ Scan.semicolon :: rest) =
        rowsHead name ++ (body ++ [Scan.semicolon]) ++ rest := by simp
    rw [Segment.all, hsplit, Segment.fromOffset_of_ends hends] at hcut
    obtain ⟨rfl, -⟩ := List.cons.inj hcut
    refine ⟨body, rest, l, rfl, ?_, hbody, hl⟩
    have hsolid : Solid (rowsHead name ++ (body ++ [Scan.semicolon])) := ⟨0x49, _, rfl, rfl⟩
    have hpiece := Segment.ofPiece_append (show List.all [] isBlank = true from rfl) hsolid 0 0 true
    exact congrArg Segment.octets hpiece

/-- Where the lexer ends rows, their quotes are closed. -/
theorem Scan.closed_of_end {e : Encoding} {body : Octets} {values : Text} {l : Scan}
    (hvalues : e.Reads (body ++ [semicolon]) values) (hclear : IsClear (outsideOf .outside values))
    (hbody : (plain true).feed body = some l) (hl : l.step semicolon = none) :
    values.foldl Quoting.step .outside = .outside := by
  obtain ⟨u, w, rfl, hu, hw⟩ := hvalues.split_ascii (by decide)
  obtain rfl := hw.unique (.nil e)
  have hfollows := follows_rows hclear hu hbody
  have hread : l.read [Char.ofNat semicolon.toNat] = none :=
    (read_of_ascii l (by decide)).trans hl
  rw [outsideOf_append] at hclear
  have hquoting := (hfollows.ends (hclear.mono (List.suffix_append _ _).isInfix) hread).1
  rw [List.foldl_append, hquoting]
  rfl

namespace Segment

/-- At every place in a row, the lexer over a statement and the reader of the rows behind its head
are inside of the same quotes. -/
def SharesQuotes (s : Segment) (head : Octets) : Prop :=
  ∀ x b y t, s.octets = head ++ (x ++ b :: y) → s.decode.2.Reads x t →
    ∃ l, Scan.start.feed (head ++ x) = some l ∧ ∀ rows r, RowScan.Behind t rows →
      rows.row = some r → l.quotes = r.quote.quotes.map fun c => UInt8.ofNat c.toNat

theorem prefix_body {x y body : Octets} {b d : UInt8} (h : x ++ b :: y = body ++ [d]) :
    x <+: body := by
  have hprefix : x <+: body ++ [d] := h ▸ List.prefix_append x (b :: y)
  have hlength := congrArg List.length h
  simp only [List.length_append, List.length_cons, List.length_nil] at hlength
  exact List.prefix_of_prefix_length_le hprefix (List.prefix_append _ _) (by omega)

/-- Where rows open neither a name in backticks nor a comment outside quotes, the statement that the
lexer cuts out shares its quotes with the reader of the rows, and none of them is unterminated. -/
theorem sharesQuotes {name v : Octets} {s : Segment}
    (hcut : all (Octets.rowsHead name ++ v) = [s]) (hend : s.terminated = true)
    (hclear : IsClear (outsideOf .outside v.fromLatin1)) :
    (∀ i f, Insert.parse? s.decode.1 = some (i, some f) → f.kind ≠ .unterminatedQuote) ∧
      (∀ table columns values, Insert.opening? s.decode.1 = some (table, columns, values) →
        s.octets = Octets.rowsHead name ++ s.decode.2.octets values) ∧
      s.SharesQuotes (Octets.rowsHead name) := by
  obtain ⟨body, rest, l, rfl, hoctets, hbody, hl⟩ := Octets.exists_end hcut hend hclear
  have hrows : IsClear (outsideOf .outside (body ++ [Scan.semicolon]).fromLatin1) :=
    hclear.of_prefix ⟨rest, by simp⟩
  have hreads : s.decode.2.Reads s.octets s.decode.1 := Encoding.decode_reads s.octets
  rw [hoctets] at hreads
  obtain ⟨n, values, htext, hvalues⟩ := hreads.of_rowsHead
  have hvalue : ∀ table columns rest, Insert.opening? s.decode.1 = some (table, columns, rest) →
      rest = values := by
    intro table columns rest hopening
    rw [htext] at hopening
    exact Insert.values_of_rowsHead hopening
  refine ⟨?_, ?_, ?_⟩
  · intro i f hparse
    rw [Insert.parse?_eq] at hparse
    obtain ⟨⟨table, columns, rest⟩, hopening, hfound⟩ := Option.map_eq_some_iff.mp hparse
    obtain rfl := hvalue table columns rest hopening
    obtain ⟨fault, hfault, rfl⟩ := Option.map_eq_some_iff.mp (Prod.mk.inj hfound).2
    have hread := hvalues.isClear hrows
    have hkind :=
      ParsedRows.fault_of_closed hread (Scan.closed_of_end hvalues hread hbody hl) hfault
    rw [hkind]
    exact RowFaultKind.noConfusion
  · intro table columns rest hopening
    rw [hvalue table columns rest hopening, hvalues.octets, hoctets]
  · intro x b y t hx ht
    obtain ⟨z, rfl⟩ := prefix_body (List.append_cancel_left (hx.symm.trans hoctets))
    rw [Scan.feed_append] at hbody
    obtain ⟨m, hm, -⟩ := Option.bind_eq_some_iff.mp hbody
    have hread : IsClear (outsideOf .outside t) :=
      ht.isClear (hrows.of_prefix ⟨z ++ [Scan.semicolon], by simp⟩)
    have hfollows := Scan.follows_rows (t.append_nil.symm ▸ hread) ht hm
    refine ⟨m, ?_, fun rows r hbehind hrow => (hbehind.tracks hread).quotes_eq hrow hfollows⟩
    rw [Scan.feed_append, Scan.feed_rowsHead, Option.bind_some, hm]

/-- A name with a backtick, in octets. -/
def tickedName : Octets := .ofText "a\x60é"

/-- Rows with quotes of both kinds, doubled and escaped, what opens names and comments inside them,
an octet that is no UTF-8 and a row that is cut short. -/
def quotedRows : Octets :=
  Octets.ofText " ('it''s \\'', \"; -- /* \x60\"\"\" , f(1, 'é\\\\')), ('" ++
    0xFF :: Octets.ofText "', 'a' \"b'\"\"c\"), (2, '(' '';"

theorem sharesQuotes_latin1 :
    all (Octets.rowsHead tickedName ++ quotedRows) =
        [⟨Octets.rowsHead tickedName ++ quotedRows, 0, 0, true⟩] ∧
      IsClear (outsideOf .outside quotedRows.fromLatin1) ∧
      (∃ i f, Insert.parse?
        (Encoding.decode (Octets.rowsHead tickedName ++ quotedRows)).1 = some (i, some f) ∧
          f.kind ≠ .unterminatedQuote) ∧
      SharesQuotes ⟨Octets.rowsHead tickedName ++ quotedRows, 0, 0, true⟩
        (Octets.rowsHead tickedName) := by
  have hcut : all (Octets.rowsHead tickedName ++ quotedRows) =
      [⟨Octets.rowsHead tickedName ++ quotedRows, 0, 0, true⟩] := by decide +kernel
  have hclear : IsClear (outsideOf .outside quotedRows.fromLatin1) :=
    ⟨by decide +kernel, by decide +kernel, by decide +kernel⟩
  obtain ⟨hkind, -, hshares⟩ := sharesQuotes hcut rfl hclear
  have hfault : ((Insert.parse? (Encoding.decode
      (Octets.rowsHead tickedName ++ quotedRows)).1).bind (·.2)).isSome = true := by decide +kernel
  obtain ⟨f, hf⟩ := Option.isSome_iff_exists.mp hfault
  obtain ⟨⟨i, fault⟩, hparse, rfl⟩ := Option.bind_eq_some_iff.mp hf
  exact ⟨hcut, hclear, ⟨i, f, hparse, hkind i f hparse⟩, hshares⟩

end Segment

end SqlDump
