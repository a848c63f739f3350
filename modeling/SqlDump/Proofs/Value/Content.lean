import SqlDump.Proofs.Text.Decoding
import SqlDump.Proofs.Value.Literal

/-!
# Quoted octets

What may stand between quotes, told by octets, since a dump may hold octets that are no text. The
lexer stays inside the quotes over any such content. However the octets are decoded, they spell some
text; the content in which just the backslash and the quotes are escaped spells the text that the
octets themselves are read as.

Main statements: `Octets.IsContent.feed`, the lexer passes over a content;
`Octets.IsContent.spelling`, a decoded content spells a text; `Octets.escape_reads`, escapes are
undone behind the decoding as they would be before it.
-/

namespace SqlDump

namespace Octets

open Scan (backslash quoteMark doubleQuote)

/-- What may stand between quotes. -/
inductive IsContent (quote : UInt8) : Octets → Prop
  | nil : IsContent quote []
  | plain {b : UInt8} {bs : Octets} (plain : b ≠ backslash) (other : b ≠ quote)
      (rest : IsContent quote bs) : IsContent quote (b :: bs)
  | escaped {b : UInt8} {bs : Octets} (rest : IsContent quote bs) :
      IsContent quote (backslash :: b :: bs)
  | doubled {bs : Octets} (rest : IsContent quote bs) : IsContent quote (quote :: quote :: bs)

/-- Octets between quotes, of which just the backslash and the quotes are escaped. -/
def escape (bs : Octets) : Octets :=
  bs.flatMap fun b =>
    if b = backslash ∨ b = quoteMark ∨ b = doubleQuote then [backslash, b] else [b]

theorem escape_cons (b : UInt8) (bs : Octets) :
    escape (b :: bs) =
      (if b = backslash ∨ b = quoteMark ∨ b = doubleQuote then [backslash, b] else [b]) ++
        escape bs :=
  List.flatMap_cons

theorem isContent_escape (bs : Octets) : IsContent quoteMark (escape bs) := by
  induction bs with
  | nil => exact .nil
  | cons b bs ih =>
    rw [escape_cons]
    split
    · exact .escaped ih
    · next h =>
      simp only [not_or] at h
      exact .plain h.1 h.2.1 ih

variable {quote : Char} {e : Encoding} {bs hs : Octets} {t : Text}

theorem quote_lt (hq : IsValueQuote quote) : UInt8.ofNat quote.toNat < 0x80 := by
  obtain rfl | rfl := hq <;> decide

/-- The lexer stays inside the quotes. -/
theorem IsContent.feed (h : IsContent (UInt8.ofNat quote.toNat) bs) (hq : IsValueQuote quote) :
    (Scan.quoted (UInt8.ofNat quote.toNat) false).feed bs =
      some (.quoted (UInt8.ofNat quote.toNat) false) := by
  have hne : UInt8.ofNat quote.toNat ≠ backslash := by
    obtain rfl | rfl := hq <;> decide
  have hopen : (Scan.plain true).step (UInt8.ofNat quote.toNat) =
      some (.quoted (UInt8.ofNat quote.toNat) false) := by
    obtain rfl | rfl := hq <;> rfl
  induction h with
  | nil => rfl
  | plain hb hother _ ih => simp [Scan.feed, Scan.step, hb, hother, ih]
  | escaped _ ih => simp [Scan.feed, Scan.step, ih]
  | doubled _ ih =>
    simp only [Scan.feed, Scan.step, hne, if_false, if_true, Bool.false_eq_true, Option.bind_some]
    rw [Scan.step] at hopen
    rw [hopen, Option.bind_some, ih]

/-- No octet from 0x80 on escapes or ends anything. -/
theorem IsContent.of_high (h : IsContent (UInt8.ofNat quote.toNat) (hs ++ bs))
    (hq : IsValueQuote quote) (hhigh : ∀ b ∈ hs, (0x80 : UInt8) ≤ b) :
    IsContent (UInt8.ofNat quote.toNat) bs := by
  induction hs with
  | nil => exact h
  | cons b hs ih =>
    have hb := hhigh b List.mem_cons_self
    have hrest := fun d hd => hhigh d (List.mem_cons_of_mem b hd)
    generalize hall : b :: hs ++ bs = all at h
    cases h with
    | nil => cases hall
    | plain _ _ rest =>
      obtain ⟨rfl, rfl⟩ := List.cons.inj hall
      exact ih rest hrest
    | escaped _ =>
      obtain ⟨rfl, -⟩ := List.cons.inj hall
      exact absurd rfl (Scan.ne_of_high hb (by decide))
    | doubled _ =>
      obtain ⟨rfl, -⟩ := List.cons.inj hall
      exact absurd rfl (Scan.ne_of_high hb (quote_lt hq))

theorem ofNat_quote (hq : IsValueQuote quote) :
    Char.ofNat (UInt8.ofNat quote.toNat).toNat = quote := by
  obtain rfl | rfl := hq <;> rfl

theorem ofNat_ne_of_ne {b : UInt8} {d : Char} (hd : d.toNat < 0x80) (h : b ≠ UInt8.ofNat d.toNat) :
    Char.ofNat b.toNat ≠ d := by
  rintro rfl
  rw [toNat_ofNat_octet, UInt8.ofNat_toNat] at h
  exact h rfl

/-- A decoded content spells a text. -/
theorem IsContent.spelling (h : IsContent (UInt8.ofNat quote.toNat) bs) (hq : IsValueQuote quote)
    (ht : e.Reads bs t) : ∃ s, Spelling quote t s := by
  -- By the length of the text, since a backslash takes the character behind it along.
  induction hn : t.length using Nat.strongRecOn generalizing t bs with
  | ind n ih =>
    subst hn
    cases h with
    | nil =>
      obtain rfl := ht.unique (.nil e)
      exact ⟨[], .nil⟩
    | @plain b bs hb hother rest =>
      obtain ⟨c, v, more, z, rfl, rfl, -, hv, hmore, hc⟩ := ht.cons_octets
      obtain ⟨s, hs⟩ := ih v.length (Nat.lt_succ_self _) (rest.of_high hq hmore) hv rfl
      have hne {d : Char} (hd : d.toNat < 0x80) (hbd : b ≠ UInt8.ofNat d.toNat) : c ≠ d := by
        rintro rfl
        exact ofNat_ne_of_ne hd hbd (hc (.inr hd)).symm
      exact ⟨c :: s, .plain (hne (by decide) hb) (hne hq.ascii hother) hs⟩
    | @escaped b bs rest =>
      obtain ⟨u, rfl, hu⟩ := ht.cons_ascii (by decide)
      obtain ⟨c, v, more, z, rfl, rfl, -, hv, hmore, -⟩ := hu.cons_octets
      obtain ⟨s, hs⟩ := ih v.length (Nat.lt_succ_of_lt (Nat.lt_succ_self _))
        (rest.of_high hq hmore) hv rfl
      exact ⟨_, .escaped hs⟩
    | @doubled bs rest =>
      obtain ⟨u, rfl, hu⟩ := ht.cons_ascii (quote_lt hq)
      obtain ⟨v, rfl, hv⟩ := hu.cons_ascii (quote_lt hq)
      obtain ⟨s, hs⟩ := ih v.length (Nat.lt_succ_of_lt (Nat.lt_succ_self _)) rest hv rfl
      rw [ofNat_quote hq]
      exact ⟨_, .doubled hs⟩

/-- Octets from 0x80 on stand for themselves. -/
theorem escape_of_high (hhigh : ∀ b ∈ hs, (0x80 : UInt8) ≤ b) {x : Octets}
    (h : escape bs = hs ++ x) : ∃ ds, bs = hs ++ ds ∧ escape ds = x := by
  induction hs generalizing bs with
  | nil => exact ⟨bs, rfl, h⟩
  | cons b hs ih =>
    have hb := hhigh b List.mem_cons_self
    cases bs with
    | nil => cases h
    | cons d bs =>
      rw [escape_cons] at h
      split at h
      · obtain ⟨rfl, -⟩ := List.cons.inj h
        exact absurd rfl (Scan.ne_of_high hb (by decide))
      · obtain ⟨rfl, hrest⟩ := List.cons.inj h
        obtain ⟨ds, rfl, hds⟩ := ih (fun a ha => hhigh a (List.mem_cons_of_mem _ ha)) hrest
        exact ⟨ds, rfl, hds⟩

/-- Escapes are undone behind the decoding as they would be before it. -/
theorem escape_reads (ht : e.Reads (escape bs) t) :
    ∃ s, e.Reads bs s ∧ Spelling '\x27' t s := by
  induction hn : t.length using Nat.strongRecOn generalizing t bs with
  | ind n ih =>
    subst hn
    cases bs with
    | nil =>
      obtain rfl := ht.unique (.nil e)
      exact ⟨[], .nil e, .nil⟩
    | cons b bs =>
      rw [escape_cons] at ht
      split at ht
      · next hspecial =>
        obtain ⟨u, rfl, hu⟩ := ht.cons_ascii (by decide)
        obtain ⟨c, v, more, z, rfl, hz, hchar, hv, hmore, hc⟩ := hu.cons_octets
        obtain ⟨ds, rfl, rfl⟩ := escape_of_high hmore hz
        obtain ⟨s, hs, hspell⟩ := ih v.length (Nat.lt_succ_of_lt (Nat.lt_succ_self _)) hv rfl
        have hkeep : ValueBuffer.unescape c = c := by
          rw [hc (.inl (by obtain rfl | rfl | rfl := hspecial <;> decide))]
          obtain rfl | rfl | rfl := hspecial <;> rfl
        have hescaped := hspell.escaped (c := c)
        rw [hkeep] at hescaped
        exact ⟨c :: s, hchar.append hs, hescaped⟩
      · next hplain =>
        obtain ⟨c, v, more, z, rfl, hz, hchar, hv, hmore, hc⟩ := Encoding.Reads.cons_octets ht
        obtain ⟨ds, rfl, rfl⟩ := escape_of_high hmore hz
        obtain ⟨s, hs, hspell⟩ := ih v.length (Nat.lt_succ_self _) hv rfl
        simp only [not_or] at hplain
        have hne {d : Char} (hd : d.toNat < 0x80) (hbd : b ≠ UInt8.ofNat d.toNat) : c ≠ d := by
          rintro rfl
          exact ofNat_ne_of_ne hd hbd (hc (.inr hd)).symm
        exact ⟨c :: s, hchar.append hs,
          .plain (hne (by decide) hplain.1) (hne (by decide) hplain.2.1) hspell⟩

end Octets

end SqlDump
