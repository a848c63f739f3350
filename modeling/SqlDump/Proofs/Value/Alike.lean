import SqlDump.Proofs.Value.Literal
import SqlDump.Proofs.Value.Lockstep

/-!
# Rows that differ in one value

Two texts that differ in what stands between two quotes are read alike: the value that the quotes
belong to may differ, its row and column given by a place, and every other value is the same.

Main statement: `RowScan.alike_of_content`, what stands between two quotes makes no difference to
other values.
-/

namespace SqlDump

namespace ValueBuffer

/-- Buffers that are the same, or belong to the value at a place and stay alike there. -/
structure Alike (here : Prop) (v w : ValueBuffer) : Prop where
  quoted : v.quoted = w.quoted
  residue : v.residue = w.residue
  /-- Before its first quote the value at the place is the same too. -/
  same : ¬(here ∧ v.quoted = true) → v = w

namespace Alike

variable {here : Prop} {v w : ValueBuffer}

/-- A character is taken into both. -/
theorem update (h : Alike here v w) (c : Char) (content : Text → Text) (quoted residue : Bool) :
    Alike here ⟨c :: v.raw, content v.content, v.quoted || quoted, v.residue || residue⟩
      ⟨c :: w.raw, content w.content, w.quoted || quoted, w.residue || residue⟩ := by
  constructor
  · rw [h.quoted]
  · rw [h.residue]
  · intro hsame
    rw [h.same fun hmet => hsame ⟨hmet.1, by rw [hmet.2, Bool.true_or]⟩]

theorem push (h : Alike here v w) (c : Char) : Alike here (v.push c) (w.push c) := by
  simpa [ValueBuffer.push] using h.update c id false false

theorem pushContent (h : Alike here v w) (c d : Char) :
    Alike here (v.pushContent c d) (w.pushContent c d) := by
  simpa [ValueBuffer.pushContent] using h.update c (d :: ·) false false

theorem isBlank_eq (h : Alike here v w) : v.isBlank = w.isBlank := by
  unfold isBlank
  cases hq : v.quoted with
  | true => rw [← h.quoted, hq, Bool.not_true, Bool.false_and, Bool.false_and]
  | false => rw [← h.same fun hmet => by simp [hq] at hmet, hq]

end Alike

end ValueBuffer

namespace Lockstep

/-- Readers whose values are the same but for the value at a place. -/
def alike (place : Nat × Nat) : Lockstep where
  ok _ := True
  value p v w := p ≠ place → v = w
  buffer p _ := ValueBuffer.Alike (p = place)
  fresh _ := ⟨rfl, rfl, fun _ => rfl⟩
  finish _ h hp := by rw [h.same fun hmet => hp hmet.1]
  isBlank _ h := h.isBlank_eq
  outside _ _ _ h residue := by
    simpa [ValueBuffer.push] using h.update _ id false residue
  opened _ _ h := by
    simpa [ValueBuffer.push] using h.update _ id true false
  escape h := h.push _
  content _ _ h := h.pushContent _ _
  closed _ h := h.push _
  doubled _ h := h.pushContent _ _

/-- A reader with itself: from the quote that opened on, the value has met one. -/
def quoted : Lockstep where
  ok _ := True
  value _ v w := v = w
  buffer _ k v w := v = w ∧ (k = .outside ∨ v.quoted = true)
  fresh _ := ⟨rfl, .inl rfl⟩
  finish _ h := by rw [h.1]
  isBlank _ h := by rw [h.1]
  outside _ _ _ h _ := ⟨by rw [h.1], .inl rfl⟩
  opened _ _ h := ⟨by rw [h.1], .inr rfl⟩
  escape h := ⟨by rw [h.1], .inr (h.2.resolve_left Side.noConfusion)⟩
  content _ _ h := ⟨by rw [h.1], .inr (h.2.resolve_left Side.noConfusion)⟩
  closed _ h := ⟨by rw [h.1], .inr (h.2.resolve_left Side.noConfusion)⟩
  doubled _ h := ⟨by rw [h.1], .inr (h.2.resolve_left Side.noConfusion)⟩

end Lockstep

namespace RowScan

variable {values : Text} {rows : List Row} {r : OpenRow} {position start : Nat} {quote : Char}

/-- Inside quotes, the quote is one of values, and the value has met it. -/
theorem quoted_of_run (h : RowScan.run {} values = (⟨rows, some r, position⟩, []))
    (hr : r.quote = .inside quote start false) : IsValueQuote quote ∧ r.value.quoted = true := by
  have hself := Lockstep.Scan.run (L := .quoted) (s := {}) (t := {}) ⟨.nil, .none⟩
    fun c (_ : c ∈ values) => trivial
  rw [h] at hself
  cases hself.row with
  | some hopen =>
    have hquote := hopen.quote
    have hvalue := hopen.value.2
    rw [hr] at hquote hvalue
    cases hquote with
    | inside mark => exact ⟨mark, hvalue.resolve_left Side.noConfusion⟩

/-- What stands between two quotes makes no difference to other values. -/
theorem alike_of_content (h : RowScan.run {} values = (⟨rows, some r, position⟩, []))
    (hr : r.quote = .inside quote start false) {written written' text text' : Text}
    (hw : Spelling quote written text) (hw' : Spelling quote written' text') (rest : Text) :
    (Lockstep.alike (rows.length, r.values.length)).Scan
      (RowScan.run {} (values ++ (written ++ rest))).1
      (RowScan.run {} (values ++ (written' ++ rest))).1 := by
  obtain ⟨hq, hquoted⟩ := quoted_of_run h hr
  have hsame : { r with value := r.value, quote := .inside quote start false } = r := by
    rw [← hr]
  have hread := hw.reaches_quoted hq r r.value start
  have hread' := hw'.reaches_quoted hq r r.value start
  rw [hsame] at hread hread'
  have hrun {w : Text} {o : OpenRow} {n : Nat}
      (ho : (⟨rows, some r, position⟩ : RowScan).run w = (⟨rows, some o, n⟩, [])) :
      RowScan.run {} (values ++ (w ++ rest)) = (⟨rows, some o, n⟩ : RowScan).run rest := by
    rw [run_append _ _ _ (by rw [h]), h, run_append _ _ _ (by rw [ho]), ho]
  obtain ⟨o, n, ho, rfl⟩ := hread rows position
  obtain ⟨o', n', ho', rfl⟩ := hread' rows position
  rw [hrun ho, hrun ho']
  refine Lockstep.Scan.run ⟨?_, .some ⟨rfl, ?_, .inside hq .., ⟨rfl, rfl, ?_⟩⟩⟩ fun _ _ => trivial
  · apply Agree.refl
    intro row values
    exact Agree.refl (fun _ _ _ => rfl) _
  · exact Agree.refl (fun _ _ _ => rfl) _
  · intro hne
    exact absurd ⟨rfl, hquoted⟩ hne

end RowScan

end SqlDump
