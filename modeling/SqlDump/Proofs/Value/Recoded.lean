import SqlDump.Postgres.Literal
import SqlDump.Proofs.Text.Decoding
import SqlDump.Proofs.Value.Literal
import SqlDump.Proofs.Value.Lockstep

/-!
# Rows read as Latin-1

A statement that is no UTF-8 is read as Latin-1, and so are the texts in it that would be UTF-8 by
themselves. Where characters other than those of ASCII stand between quotes only, the rows are the
same but for these texts, each of which is read as Latin-1.

Main statement: `RowScan.recoded_run`, the rows of a text read as Latin-1.
-/

namespace SqlDump

open Text

namespace Text

/-- The octets of a text as UTF-8, read as Latin-1. -/
def recode (t : Text) : Text := (Octets.ofText t).fromLatin1

variable {t u : Text} {c : Char}

theorem recode_append (t u : Text) : recode (t ++ u) = recode t ++ recode u := by
  simp [recode, Octets.ofText_append, Octets.fromLatin1]

theorem recode_cons (hc : c.toNat < 0x80) (t : Text) : recode (c :: t) = c :: recode t := by
  have hone : recode [c] = [c] := by
    rw [recode, Octets.ofText, List.flatMap_singleton, Octets.utf8EncodeChar_ascii hc]
    simp [Octets.fromLatin1, Nat.mod_eq_of_lt (Nat.lt_trans hc (by decide : 0x80 < 256))]
  have happend := recode_append [c] t
  rwa [hone] at happend

theorem recode_of_ascii (h : IsAscii t) : recode t = t := by
  induction t with
  | nil => rfl
  | cons c t ih =>
    rw [recode_cons (h c List.mem_cons_self), ih fun d hd => h d (List.mem_cons_of_mem c hd)]

theorem mem_recode (hc : c.toNat < 0x80) (h : c ∈ t) : c ∈ recode t := by
  obtain ⟨u, v, rfl⟩ := List.append_of_mem h
  rw [recode_append, recode_cons hc]
  simp

/-- A character that is not of ASCII becomes several such. -/
theorem recode_high (h : 0x80 ≤ c.toNat) : recode [c] ≠ [] ∧ ∀ d ∈ recode [c], 0x80 ≤ d.toNat := by
  obtain ⟨hne, hhigh⟩ := Encoding.octets_high (e := .utf8) h fun he => by cases he
  constructor
  · intro hnil
    exact hne (List.map_eq_nil_iff.mp hnil)
  · intro d hd
    obtain ⟨b, hb, rfl⟩ := List.mem_map.mp hd
    rw [Octets.toNat_ofNat_octet]
    exact UInt8.le_iff_toNat_le.mp (hhigh b hb)

end Text

/-- What is read as UTF-8 can be read as Latin-1. -/
theorem Encoding.Reads.recode {x : Octets} {t : Text} (h : Encoding.utf8.Reads x t) :
    Encoding.latin1.Reads x t.recode := by
  rw [← h.octets]
  exact reads_fromLatin1 (.ofText t)

/-- The value that is read as Latin-1. -/
def Value.recode : Value → Value
  | .null => .null
  | .text s => .text s.recode
  | .bare s => .bare s.recode

section Quotes

variable {t u : Text} {c : Char}

/-- A text with a quote before which it is ASCII. -/
def IsOpened (t : Text) : Prop := ∃ a p m, t = a ++ p :: m ∧ IsAscii a ∧ IsValueQuote p

/-- A text that is ASCII, or is so before its first quote and behind its last. -/
def IsWrapped (t : Text) : Prop :=
  IsAscii t ∨ ∃ a p m q b, t = a ++ p :: (m ++ q :: b) ∧ IsAscii a ∧ IsAscii b ∧
    IsValueQuote p ∧ IsValueQuote q

theorem IsOpened.append (h : IsOpened t) (u : Text) : IsOpened (t ++ u) := by
  obtain ⟨a, p, m, rfl, ha, hp⟩ := h
  exact ⟨a, p, m ++ u, by simp, ha, hp⟩

theorem IsOpened.close (h : IsOpened t) (hc : IsValueQuote c) : IsWrapped (t ++ [c]) := by
  obtain ⟨a, p, m, rfl, ha, hp⟩ := h
  exact .inr ⟨a, p, m, c, [], by simp, ha, by simp [IsAscii], hp, hc⟩

theorem IsWrapped.open (h : IsWrapped t) (hc : IsValueQuote c) : IsOpened (t ++ [c]) := by
  obtain h | ⟨a, p, m, q, b, rfl, ha, -, hp, -⟩ := h
  · exact ⟨t, c, [], rfl, h, hc⟩
  · exact ⟨a, p, m ++ q :: (b ++ [c]), by simp, ha, hp⟩

theorem IsWrapped.ascii (h : IsWrapped t) (hc : c.toNat < 0x80) : IsWrapped (t ++ [c]) := by
  have hone : IsAscii [c] := by simpa [IsAscii] using hc
  obtain h | ⟨a, p, m, q, b, rfl, ha, hb, hp, hq⟩ := h
  · exact .inl (h.append hone)
  · exact .inr ⟨a, p, m, q, b ++ [c], by simp, ha, hb.append hone, hp, hq⟩

/-- The quotes keep the blanks between them. -/
theorem IsWrapped.trim_recode (h : IsWrapped t) : trim (recode t) = recode (trim t) := by
  obtain h | ⟨a, p, m, q, b, rfl, ha, hb, hp, hq⟩ := h
  · rw [recode_of_ascii h, recode_of_ascii fun c hc => h c (mem_of_mem_trim hc)]
  · have hmid {a b : Text} (ha : IsAscii a) (hb : IsAscii b) :
        recode (a ++ p :: (m ++ q :: b)) = a ++ p :: (recode m ++ q :: b) := by
      rw [recode_append, recode_cons hp.ascii, recode_append, recode_cons hq.ascii,
        recode_of_ascii ha, recode_of_ascii hb]
    have hstart : IsAscii (trimStart a) := fun c hc => ha c ((List.dropWhile_suffix _).subset hc)
    have hend : IsAscii (trimEnd b) := by
      intro c hc
      have hmem := (List.dropWhile_suffix _).subset (List.mem_reverse.mp hc)
      exact hb c (List.mem_reverse.mp hmem)
    rw [hmid ha hb, trim_between hp.isBlank hq.isBlank, trim_between hp.isBlank hq.isBlank,
      hmid hstart hend]

/-- A text that is not of ASCII shows a quote. -/
theorem IsWrapped.quote (h : IsWrapped t) : IsAscii t ∨ ∃ q, IsValueQuote q ∧ q ∈ trim t := by
  obtain h | ⟨a, p, m, q, b, rfl, -, -, hp, hq⟩ := h
  · exact .inl h
  · refine .inr ⟨q, hq, ?_⟩
    rw [trim_between hp.isBlank hq.isBlank]
    simp

theorem sameAscii_null_of_quote (hc : IsValueQuote c) (h : c ∈ t) :
    sameAscii t "null" = false := by
  rw [sameAscii, beq_eq_false_iff_ne]
  intro heq
  have hmem : c.toLower ∈ asciiLower t := List.mem_map_of_mem h
  rw [heq] at hmem
  obtain rfl | rfl := hc <;> exact absurd hmem (by decide)

theorem IsWrapped.isBlank_recode (h : IsWrapped t) : isBlank (recode t) = isBlank t := by
  obtain h | ⟨q, hq, hmem⟩ := h.quote
  · rw [recode_of_ascii h]
  · have hfalse {u : Text} (hu : q ∈ u) : isBlank u = false :=
      List.all_eq_false.mpr ⟨q, hu, by simp [hq.isBlank]⟩
    have hmem := mem_of_mem_trim hmem
    rw [hfalse hmem, hfalse (mem_recode hq.ascii hmem)]

theorem IsWrapped.sameAscii_null (h : IsWrapped t) :
    sameAscii (trim (recode t)) "null" = sameAscii (trim t) "null" := by
  rw [h.trim_recode]
  obtain h | ⟨q, hq, hmem⟩ := h.quote
  · rw [recode_of_ascii fun c hc => h c (mem_of_mem_trim hc)]
  · rw [sameAscii_null_of_quote hq hmem, sameAscii_null_of_quote hq (mem_recode hq.ascii hmem)]

end Quotes

namespace ValueBuffer

/-- Buffers of which the second is filled with Latin-1. -/
structure Recoded (k : Side) (v w : ValueBuffer) : Prop where
  raw : w.raw.reverse = recode v.raw.reverse
  content : w.content.reverse = recode v.content.reverse
  quoted : v.quoted = w.quoted
  residue : v.residue = w.residue
  opened : k = .inside → IsOpened v.raw.reverse
  wrapped : k ≠ .inside → IsWrapped v.raw.reverse

namespace Recoded

variable {k l : Side} {v w : ValueBuffer} {c : Char}

theorem isBlank_eq (h : Recoded k v w) (hk : k ≠ .inside) : v.isBlank = w.isBlank := by
  have hblank := (h.wrapped hk).isBlank_recode
  rw [← h.raw] at hblank
  simp only [Text.isBlank, List.all_reverse] at hblank
  simp only [ValueBuffer.isBlank, Text.isBlank, h.quoted, hblank]

theorem finish_eq (h : Recoded k v w) (hk : k ≠ .inside) : w.finish = v.finish.recode := by
  have hwrapped := h.wrapped hk
  unfold finish
  dsimp only
  rw [h.raw, h.content, ← h.quoted, ← h.residue, hwrapped.sameAscii_null, hwrapped.trim_recode]
  split
  · rfl
  split
  · rfl
  · rfl

/-- Both buffers after texts that are read alike. -/
theorem update (h : Recoded k v w) (raw raw' content content' : Text) (quoted residue : Bool)
    (hraw : raw'.reverse = recode raw.reverse)
    (hcontent : content'.reverse = recode content.reverse)
    (hopened : l = .inside → IsOpened (v.raw.reverse ++ raw.reverse))
    (hwrapped : l ≠ .inside → IsWrapped (v.raw.reverse ++ raw.reverse)) :
    Recoded l ⟨raw ++ v.raw, content ++ v.content, v.quoted || quoted, v.residue || residue⟩
      ⟨raw' ++ w.raw, content' ++ w.content, w.quoted || quoted, w.residue || residue⟩ := by
  constructor
  · rw [List.reverse_append, List.reverse_append, recode_append, h.raw, hraw]
  · rw [List.reverse_append, List.reverse_append, recode_append, h.content, hcontent]
  · rw [h.quoted]
  · rw [h.residue]
  · rwa [List.reverse_append]
  · rwa [List.reverse_append]

/-- A character of ASCII is taken into both. -/
theorem take (h : Recoded k v w) (hc : c.toNat < 0x80) (content : Text) (hcontent : IsAscii content)
    (quoted residue : Bool) (hopened : l = .inside → IsOpened (v.raw.reverse ++ [c]))
    (hwrapped : l ≠ .inside → IsWrapped (v.raw.reverse ++ [c])) :
    Recoded l ⟨c :: v.raw, content ++ v.content, v.quoted || quoted, v.residue || residue⟩
      ⟨c :: w.raw, content ++ w.content, w.quoted || quoted, w.residue || residue⟩ := by
  refine h.update [c] [c] content content quoted residue ?_ ?_ hopened hwrapped
  · exact (recode_of_ascii (by simpa [IsAscii] using hc)).symm
  · exact (recode_of_ascii fun d hd => hcontent d (List.mem_reverse.mp hd)).symm

theorem push (h : Recoded k v w) (hc : c.toNat < 0x80)
    (hopened : l = .inside → IsOpened (v.raw.reverse ++ [c]))
    (hwrapped : l ≠ .inside → IsWrapped (v.raw.reverse ++ [c])) :
    Recoded l (v.push c) (w.push c) := by
  simpa [ValueBuffer.push] using h.take hc [] (by simp [IsAscii]) false false hopened hwrapped

theorem pushContent {d : Char} (h : Recoded k v w) (hc : c.toNat < 0x80) (hd : d.toNat < 0x80)
    (hopened : IsOpened (v.raw.reverse ++ [c])) :
    Recoded .inside (v.pushContent c d) (w.pushContent c d) := by
  simpa [ValueBuffer.pushContent] using h.take hc [d] (by simpa [IsAscii] using hd)
    false false (fun _ => hopened) fun hne => absurd rfl hne

end Recoded

end ValueBuffer

theorem unescape_ascii {c : Char} (h : c.toNat < 0x80) : (ValueBuffer.unescape c).toNat < 0x80 := by
  unfold ValueBuffer.unescape
  split
  · decide
  · decide
  · decide
  · exact h

namespace Lockstep

/-- Readers of which the second reads Latin-1. -/
def recoded : Lockstep where
  ok c := c.toNat < 0x80
  value _ v w := w = v.recode
  buffer _ := ValueBuffer.Recoded
  fresh _ := ⟨rfl, rfl, rfl, rfl, Side.noConfusion, fun _ => .inl (by simp [IsAscii])⟩
  finish hk h := h.finish_eq hk
  isBlank hk h := h.isBlank_eq hk
  outside hc _ hk h residue := by
    simpa [ValueBuffer.push] using h.take hc [] (by simp [IsAscii]) false residue
      Side.noConfusion fun _ => (h.wrapped hk).ascii hc
  opened hq hk h := by
    simpa [ValueBuffer.push] using h.take hq.ascii [] (by simp [IsAscii]) true false
      (fun _ => (h.wrapped hk).open hq) fun hne => absurd rfl hne
  escape h := h.push (by decide) (fun _ => (h.opened rfl).append _) fun hne => absurd rfl hne
  content hc hd h := by
    apply h.pushContent hc _ ((h.opened rfl).append _)
    obtain rfl | rfl := hd
    · exact hc
    · exact unescape_ascii hc
  closed hq h := h.push hq.ascii Side.noConfusion fun _ => (h.opened rfl).close hq
  doubled hq h := h.pushContent hq.ascii hq.ascii ((h.wrapped Side.noConfusion).open hq)

end Lockstep

/-- Characters that are not of ASCII stand for themselves inside quotes. -/
theorem OpenRow.reaches_high {t : Text} (hne : t ≠ []) (hhigh : ∀ d ∈ t, 0x80 ≤ d.toNat)
    {r : OpenRow} {quote : Char} {start : Nat} {escaped : Bool} (hq : IsValueQuote quote)
    (hr : r.quote = .inside quote start escaped) :
    Reaches r t (· = { r with
      value := ⟨t.reverse ++ r.value.raw, t.reverse ++ r.value.content, r.value.quoted,
        r.value.residue⟩
      quote := .inside quote start false }) := by
  have hne_of {d e : Char} (hd : 0x80 ≤ d.toNat) (he : e.toNat < 0x80) : d ≠ e := by
    rintro rfl
    exact absurd he (Nat.not_lt.mpr hd)
  have hspelling {u : Text} (hu : ∀ d ∈ u, 0x80 ≤ d.toNat) : Spelling quote u u := by
    induction u with
    | nil => exact .nil
    | cons d u ih =>
      have hd := hu d List.mem_cons_self
      exact .plain (hne_of hd (by decide)) (hne_of hd hq.ascii)
        (ih fun e he => hu e (List.mem_cons_of_mem d he))
  cases escaped with
  | false =>
    have hsame : { r with value := r.value, quote := .inside quote start false } = r := by rw [← hr]
    have hread := (hspelling hhigh).reaches_quoted hq r r.value start
    rwa [hsame] at hread
  | true =>
    obtain ⟨d, u, rfl⟩ := List.exists_cons_of_ne_nil hne
    have hd := hhigh d List.mem_cons_self
    have hkeep : ValueBuffer.unescape d = d := by
      unfold ValueBuffer.unescape
      split
      · exact absurd hd (by decide)
      · exact absurd hd (by decide)
      · exact absurd hd (by decide)
      · rfl
    refine .cons fun _ => ⟨{ r with
      value := r.value.pushContent d d, quote := .inside quote start false }, ?_, ?_⟩
    · simp only [OpenRow.step, hr, hkeep]
    · have hu := hspelling fun e he => hhigh e (List.mem_cons_of_mem d he)
      refine (hu.reaches_quoted hq r (r.value.pushContent d d) start).mono fun r' hr' => ?_
      rw [hr']
      simp [ValueBuffer.pushContent]

namespace RowScan

/-- Whether the next character stands inside quotes. -/
def isInside (s : RowScan) : Bool :=
  match s.row.map OpenRow.quote with
  | some (.inside _ _ _) => true
  | _ => false

/-- Whether every character that is read and is not of ASCII stands inside quotes. -/
def encloses : RowScan → Text → Bool
  | _, [] => true
  | s, c :: t =>
    (decide (c.toNat < 0x80) || s.isInside) &&
      match s.step c with
      | none => true
      | some u => u.encloses t

variable {s s' : RowScan} {c : Char} {t : Text}

/-- A character inside quotes that is not of ASCII. -/
theorem recoded_high (h : Lockstep.recoded.Scan s s') (hs : s.isInside = true)
    (hc : 0x80 ≤ c.toNat) :
    ∃ u u', s.step c = some u ∧ s'.run (recode [c]) = (u', []) ∧ Lockstep.recoded.Scan u u' := by
  rcases rel_inv h.row with ⟨hrow, -⟩ | ⟨r, r', hrow, hrow', hopen⟩
  · simp [isInside, hrow] at hs
  have hquote := hopen.quote
  have hvalue := hopen.value
  generalize hr : r.quote = k at hquote hvalue
  generalize hr' : r'.quote = k' at hquote
  cases hquote with
  | outside => simp [isInside, hrow, hr] at hs
  | closing => simp [isInside, hrow, hr] at hs
  | @inside quote mark m n escaped =>
    obtain ⟨hne, hhigh⟩ := recode_high hc
    obtain ⟨o, i, ho, rfl⟩ := OpenRow.reaches_high (t := [c]) (by simp) (by simpa using hc) mark hr
      s.rows s.position
    obtain ⟨o', i', ho', rfl⟩ := OpenRow.reaches_high hne hhigh mark hr' s'.rows s'.position
    rw [← hrow] at ho
    rw [← hrow'] at ho'
    have hstep {u : RowScan} (hu : s.run [c] = (u, [])) : s.step c = some u := by
      cases h : s.step c with
      | none =>
        rw [run, h] at hu
        cases hu
      | some v =>
        rw [run, h] at hu
        exact congrArg some (Prod.mk.inj hu).1
    refine ⟨_, _, hstep ho, ho', ⟨h.rows, .some ⟨hopen.nested, hopen.values, .inside mark .., ?_⟩⟩⟩
    have hopened := (hvalue.opened rfl).append [c]
    have hupdate := hvalue.update (l := .inside) [c] (recode [c]).reverse [c] (recode [c]).reverse
      false false (by simp) (by simp) (fun _ => hopened) fun hne => absurd rfl hne
    simp only [Bool.or_false] at hupdate
    exact hupdate

theorem encloses_append (u : Text) (h : s.encloses (t ++ u) = true) : s.encloses t = true := by
  induction t generalizing s with
  | nil => rfl
  | cons c t ih =>
    obtain ⟨hc, hrest⟩ := Bool.and_eq_true_iff.mp h
    refine Bool.and_eq_true_iff.mpr ⟨hc, ?_⟩
    cases hs : s.step c with
    | none => rfl
    | some v =>
      rw [hs] at hrest
      exact ih hrest

/-- The rows of a text read as Latin-1 are those of the text, each value read so. -/
theorem recoded_run (h : Lockstep.recoded.Scan s s') (ht : s.encloses t = true) :
    Lockstep.recoded.Scan (s.run t).1 (s'.run (recode t)).1 ∧
      (s'.run (recode t)).2 = recode (s.run t).2 := by
  induction t generalizing s s' with
  | nil => exact ⟨h, rfl⟩
  | cons c t ih =>
    obtain ⟨hc, hrest⟩ := Bool.and_eq_true_iff.mp ht
    by_cases hascii : c.toNat < 0x80
    · rw [recode_cons hascii, run, run]
      rcases rel_inv (h.step hascii) with ⟨hs, hs'⟩ | ⟨u, u', hs, hs', hnext⟩
      · rw [hs, hs']
        exact ⟨h, (recode_cons hascii t).symm⟩
      · rw [hs] at hrest
        rw [hs, hs']
        exact ih hnext hrest
    · have hinside : s.isInside = true := by simpa [hascii] using hc
      obtain ⟨u, u', hs, hs', hnext⟩ := recoded_high h hinside (Nat.le_of_not_lt hascii)
      have hsplit : recode (c :: t) = recode [c] ++ recode t := recode_append [c] t
      rw [hs] at hrest
      rw [hsplit, run_append _ _ _ (by rw [hs']), hs', run, hs]
      exact ih hnext hrest

end RowScan

namespace Value

def IsAscii : Value → Prop
  | .null => True
  | .text s => s.IsAscii
  | .bare s => s.IsAscii

theorem recode_of_isAscii {v : Value} (h : v.IsAscii) : v.recode = v := by
  cases v with
  | null => rfl
  | text s => exact congrArg Value.text (recode_of_ascii h)
  | bare s => exact congrArg Value.bare (recode_of_ascii h)

end Value

namespace Encoding

theorem octets_recode (s : Text) : latin1.octets s.recode = utf8.octets s :=
  (reads_fromLatin1 (.ofText s)).octets

end Encoding

end SqlDump
