import Mathlib.Data.Option.Basic
import Mathlib.Data.Sum.Basic
import SqlDump.Proofs.Value.Rows

/-!
# Two readers of rows in lockstep

Readers that take the same characters stay at the same rows, values and quotes, whatever differs in
what they have taken. What may differ is told by a relation between the values at each place and
between the buffers that these are read into.

Main statements: `Lockstep.Scan.step`, one character keeps two readers in lockstep;
`Lockstep.Scan.run`, so does a text; `Lockstep.Scan.get`, the values that are read are related place
by place.
-/

namespace SqlDump

/-- Lists of one length whose members are related by their places, both lists in reverse. -/
inductive Agree {α : Type} (R : Nat → α → α → Prop) : List α → List α → Prop
  | nil : Agree R [] []
  | cons {x y : α} {l m : List α} (head : R l.length x y) (tail : Agree R l m) :
      Agree R (x :: l) (y :: m)

namespace Agree

variable {α : Type} {R : Nat → α → α → Prop} {l m : List α}

theorem refl (h : ∀ n x, R n x x) (l : List α) : Agree R l l := by
  induction l with
  | nil => exact .nil
  | cons x l ih => exact .cons (h _ x) ih

theorem length_eq (h : Agree R l m) : l.length = m.length := by
  induction h with
  | nil => rfl
  | cons _ _ ih => rw [List.length_cons, List.length_cons, ih]

theorem isEmpty_eq (h : Agree R l m) : l.isEmpty = m.isEmpty := by
  cases h <;> rfl

/-- The members at a place are related. -/
theorem get (h : Agree R l m) (n : Nat) : Option.Rel (R n) l.reverse[n]? m.reverse[n]? := by
  induction h with
  | nil => exact .none
  | @cons x y l m hxy hrest ih =>
    have hlength := hrest.length_eq
    rw [List.reverse_cons, List.reverse_cons]
    rcases Nat.lt_trichotomy n l.length with hn | rfl | hn
    · rw [List.getElem?_append_left (by simpa using hn),
        List.getElem?_append_left (by simpa [← hlength] using hn)]
      exact ih
    · rw [List.getElem?_append_right (by simp), List.getElem?_append_right (by simp [hlength])]
      simpa [hlength] using Option.Rel.some hxy
    · rw [List.getElem?_eq_none (by simp; omega), List.getElem?_eq_none (by simp; omega)]
      exact .none

end Agree

theorem rel_inv {α : Type} {R : α → α → Prop} {x y : Option α} (h : Option.Rel R x y) :
    (x = none ∧ y = none) ∨ ∃ a b, x = some a ∧ y = some b ∧ R a b := by
  cases h with
  | some hab => exact .inr ⟨_, _, rfl, rfl, hab⟩
  | none => exact .inl ⟨rfl, rfl⟩

/-- The member at a row and column. -/
def cell? {α : Type} (rows : List (List α)) (place : Nat × Nat) : Option α :=
  rows[place.1]?.bind (·[place.2]?)

/-- Where a reader stands with respect to quotes. -/
inductive Side where
  | outside
  | inside
  /-- Behind a quote that closes, unless it is written twice. -/
  | closing

def QuoteState.side : QuoteState → Side
  | .outside => .outside
  | .inside _ _ _ => .inside
  | .closing _ _ => .closing

/-- States that differ at most in where their quotes opened. -/
inductive QuoteState.Same : QuoteState → QuoteState → Prop
  | outside : Same .outside .outside
  | inside {quote : Char} (mark : IsValueQuote quote) (m n : Nat) (escaped : Bool) :
      Same (.inside quote m escaped) (.inside quote n escaped)
  | closing {quote : Char} (mark : IsValueQuote quote) (m n : Nat) :
      Same (.closing quote m) (.closing quote n)

/-- Relations that two readers keep over the characters in `ok`. -/
structure Lockstep where
  ok : Char → Prop
  /-- Between the values at a place, which is a row and a column. -/
  value : Nat × Nat → Value → Value → Prop
  /-- Between the buffers of the values at a place. -/
  buffer : Nat × Nat → Side → ValueBuffer → ValueBuffer → Prop
  fresh : ∀ p, buffer p .outside {} {}
  finish : ∀ {p k v w}, k ≠ .inside → buffer p k v w → value p v.finish w.finish
  isBlank : ∀ {p k v w}, k ≠ .inside → buffer p k v w → v.isBlank = w.isBlank
  outside : ∀ {p k v w c}, ok c → ¬IsValueQuote c → k ≠ .inside → buffer p k v w → ∀ residue,
    buffer p .outside { v.push c with residue := v.residue || residue }
      { w.push c with residue := w.residue || residue }
  opened : ∀ {p k v w c}, IsValueQuote c → k ≠ .inside → buffer p k v w →
    buffer p .inside { v.push c with quoted := true } { w.push c with quoted := true }
  escape : ∀ {p v w}, buffer p .inside v w → buffer p .inside (v.push '\\') (w.push '\\')
  content : ∀ {p v w c d}, ok c → d = c ∨ d = ValueBuffer.unescape c → buffer p .inside v w →
    buffer p .inside (v.pushContent c d) (w.pushContent c d)
  closed : ∀ {p v w c}, IsValueQuote c → buffer p .inside v w →
    buffer p .closing (v.push c) (w.push c)
  doubled : ∀ {p v w c}, IsValueQuote c → buffer p .closing v w →
    buffer p .inside (v.pushContent c c) (w.pushContent c c)

namespace Lockstep

variable (L : Lockstep)

/-- Values of a row, in reverse, that are related. -/
def Values (row : Nat) : List Value → List Value → Prop := Agree fun column => L.value (row, column)

/-- Open rows whose values are related. -/
structure Open (row : Nat) (r s : OpenRow) : Prop where
  nested : r.nested = s.nested
  values : L.Values row r.values s.values
  quote : r.quote.Same s.quote
  value : L.buffer (row, r.values.length) r.quote.side r.value s.value

/-- Readers whose rows are related. -/
structure Scan (s t : RowScan) : Prop where
  rows : Agree (fun row v w => L.Values row v.reverse w.reverse) s.rows t.rows
  row : Option.Rel (L.Open s.rows.length) s.row t.row

variable {L}

section Open

variable {row : Nat} {r s : OpenRow} {c : Char}

theorem open_fresh (L : Lockstep) (row m n : Nat) : L.Open row { start := m } { start := n } :=
  ⟨rfl, .nil, .outside, L.fresh _⟩

theorem Open.close (h : L.Open row r s) (hr : r.quote.side ≠ .inside) :
    L.Values row r.close.reverse s.close.reverse := by
  unfold OpenRow.close
  rw [← h.values.isEmpty_eq, ← L.isBlank hr h.value]
  split
  · exact .nil
  · rw [List.reverse_reverse, List.reverse_reverse]
    exact .cons (L.finish hr h.value) h.values

theorem Open.stepOutside (h : L.Open row r s) (hr : r.quote.side ≠ .inside) (hc : L.ok c)
    (m n : Nat) :
    Sum.LiftRel (L.Open row) (fun v w => L.Values row v.reverse w.reverse) (r.stepOutside m c)
      (s.stepOutside n c) := by
  by_cases hq : IsValueQuote c
  · rw [OpenRow.stepOutside_quote hq, OpenRow.stepOutside_quote hq]
    apply Sum.LiftRel.inl
    exact ⟨h.nested, h.values, .inside hq m n false, L.opened hq hr h.value⟩
  by_cases ho : c = '('
  · subst ho
    apply Sum.LiftRel.inl
    have hopen := L.outside hc hq hr h.value true
    rw [Bool.or_true, Bool.or_true] at hopen
    exact ⟨congrArg (· + 1) h.nested, h.values, .outside, hopen⟩
  by_cases hp : c = ')'
  · subst hp
    simp only [OpenRow.stepOutside, ← h.nested]
    split
    · exact .inr (h.close hr)
    · apply Sum.LiftRel.inl
      have hclose := L.outside hc hq hr h.value false
      rw [Bool.or_false, Bool.or_false] at hclose
      exact ⟨rfl, h.values, .outside, hclose⟩
  by_cases hm : c = ',' ∧ r.nested = 0
  · obtain ⟨rfl, hn⟩ := hm
    have hn' := h.nested.symm.trans hn
    simp only [OpenRow.stepOutside, hn, hn']
    apply Sum.LiftRel.inl
    exact ⟨rfl, .cons (L.finish hr h.value) h.values, .outside, L.fresh _⟩
  · rw [OpenRow.stepOutside_other hq ho hp hm,
      OpenRow.stepOutside_other hq ho hp (by rwa [← h.nested])]
    apply Sum.LiftRel.inl
    exact ⟨h.nested, h.values, .outside, L.outside hc hq hr h.value _⟩

theorem Open.step (h : L.Open row r s) (hc : L.ok c) (m n : Nat) :
    Sum.LiftRel (L.Open row) (fun v w => L.Values row v.reverse w.reverse) (r.step m c)
      (s.step n c) := by
  have hquote := h.quote
  have hvalue := h.value
  unfold OpenRow.step
  generalize hr : r.quote = k at hquote hvalue
  generalize hs : s.quote = l at hquote
  cases hquote with
  | outside => exact h.stepOutside (by rw [hr]; exact Side.noConfusion) hc m n
  | @inside quote mark from₁ from₂ escaped =>
    cases escaped with
    | true =>
      apply Sum.LiftRel.inl
      exact ⟨h.nested, h.values, .inside mark .., L.content hc (.inr rfl) hvalue⟩
    | false =>
      dsimp only
      split
      · next hb =>
        subst hb
        apply Sum.LiftRel.inl
        exact ⟨h.nested, h.values, .inside mark .., L.escape hvalue⟩
      split
      · next hq =>
        subst hq
        apply Sum.LiftRel.inl
        exact ⟨h.nested, h.values, .closing mark .., L.closed mark hvalue⟩
      · apply Sum.LiftRel.inl
        exact ⟨h.nested, h.values, .inside mark .., L.content hc (.inl rfl) hvalue⟩
  | @closing quote mark from₁ from₂ =>
    dsimp only
    split
    · next hq =>
      subst hq
      apply Sum.LiftRel.inl
      exact ⟨h.nested, h.values, .inside mark .., L.doubled mark hvalue⟩
    · exact h.stepOutside (by rw [hr]; exact Side.noConfusion) hc m n

end Open

namespace Scan

variable {s t : RowScan} {c : Char}

/-- One character keeps two readers in lockstep. -/
theorem step (h : L.Scan s t) (hc : L.ok c) : Option.Rel L.Scan (s.step c) (t.step c) := by
  unfold RowScan.step
  rcases rel_inv h.row with ⟨hs, ht⟩ | ⟨r, r', hs, ht, hopen⟩
  · rw [hs, ht]
    dsimp only
    split
    · apply Option.Rel.some
      exact ⟨h.rows, .some (open_fresh L ..)⟩
    split
    · apply Option.Rel.some
      exact ⟨h.rows, .none⟩
    · exact .none
  · rw [hs, ht]
    have hstep := hopen.step hc s.position t.position
    dsimp only
    revert hstep
    generalize r.step s.position c = x
    generalize r'.step t.position c = y
    intro hstep
    cases hstep with
    | inl hopen => exact .some ⟨h.rows, .some hopen⟩
    | inr hclosed => exact .some ⟨.cons hclosed h.rows, .none⟩

/-- A text keeps two readers in lockstep. -/
theorem run (h : L.Scan s t) {text : Text} (hok : ∀ c ∈ text, L.ok c) :
    L.Scan (s.run text).1 (t.run text).1 := by
  induction text generalizing s t with
  | nil => exact h
  | cons c text ih =>
    rw [RowScan.run, RowScan.run]
    rcases rel_inv (h.step (hok c List.mem_cons_self)) with ⟨hs, ht⟩ | ⟨s', t', hs, ht, hnext⟩
    · rw [hs, ht]
      exact h
    · rw [hs, ht]
      exact ih hnext fun d hd => hok d (List.mem_cons_of_mem c hd)

/-- The values that were read are related. -/
theorem get (h : L.Scan s t) (place : Nat × Nat) :
    Option.Rel (L.value place) (cell? s.rows.reverse place) (cell? t.rows.reverse place) := by
  unfold cell?
  rcases rel_inv (h.rows.get place.1) with ⟨hs, ht⟩ | ⟨v, w, hs, ht, hvalues⟩
  · rw [hs, ht]
    exact .none
  · have hvalue := Agree.get hvalues place.2
    rw [List.reverse_reverse, List.reverse_reverse] at hvalue
    rw [hs, ht]
    exact hvalue

end Scan

end Lockstep

end SqlDump
