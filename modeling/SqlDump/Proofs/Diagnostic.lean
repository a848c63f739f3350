import Mathlib.Algebra.Ring.Nat
import Mathlib.Data.List.Basic
import SqlDump.Diagnostic

/-!
# Collections of diagnostics

Diagnostics are a list of which the first ones are kept and all are counted.

Main statement: `Diagnostics.records_ofList`, what is kept and counted of a list.
-/

namespace SqlDump

namespace Diagnostics

theorem total_pushAll (ds : Diagnostics) (notes : List Diagnostic) :
    (ds.pushAll notes).total = ds.total + notes.length := by
  unfold pushAll
  induction notes generalizing ds with
  | nil => rfl
  | cons d notes ih =>
    rw [List.foldl_cons, ih, total_push, List.length_cons]
    omega

theorem pushAll_append (ds : Diagnostics) (notes more : List Diagnostic) :
    ds.pushAll (notes ++ more) = (ds.pushAll notes).pushAll more :=
  List.foldl_append

theorem isEmpty_iff (ds : Diagnostics) : ds.isEmpty = true ↔ ds.total = 0 :=
  beq_iff_eq

/-- The diagnostics behind the recording of a list. -/
def ofList (limit : Nat) (notes : List Diagnostic) : Diagnostics := pushAll { limit := limit } notes

theorem pushAll_ofList (limit : Nat) (notes more : List Diagnostic) :
    (ofList limit notes).pushAll more = ofList limit (notes ++ more) :=
  (pushAll_append _ notes more).symm

theorem push_ofList (limit : Nat) (notes : List Diagnostic) (d : Diagnostic) :
    (ofList limit notes).push d = ofList limit (notes ++ [d]) :=
  pushAll_ofList limit notes [d]

theorem limit_push (ds : Diagnostics) (d : Diagnostic) : (ds.push d).limit = ds.limit := by
  simp only [push]
  split <;> rfl

theorem counts_push (ds : Diagnostics) (d : Diagnostic) :
    (ds.push d).counts = increment d.kind ds.counts := by
  simp only [push]
  split <;> rfl

theorem limit_pushAll (ds : Diagnostics) (notes : List Diagnostic) :
    (ds.pushAll notes).limit = ds.limit := by
  unfold pushAll
  induction notes generalizing ds with
  | nil => rfl
  | cons d notes ih => rw [List.foldl_cons, ih, limit_push]

theorem counts_pushAll (ds : Diagnostics) (notes : List Diagnostic) :
    (ds.pushAll notes).counts =
      notes.foldl (fun counts d => increment d.kind counts) ds.counts := by
  unfold pushAll
  induction notes generalizing ds with
  | nil => rfl
  | cons d notes ih => rw [List.foldl_cons, ih, counts_push, List.foldl_cons]

theorem entries_pushAll (ds : Diagnostics) (notes : List Diagnostic) :
    (ds.pushAll notes).entries.toList =
      ds.entries.toList ++ notes.take (ds.limit - ds.entries.size) := by
  unfold pushAll
  induction notes generalizing ds with
  | nil => simp
  | cons d notes ih =>
    rw [List.foldl_cons, ih, push_entries, limit_push]
    have hsize : (ds.push d).entries.size = (ds.push d).entries.toList.length := rfl
    rw [hsize, push_entries]
    by_cases hroom : ds.entries.size < ds.limit
    · obtain ⟨room, hleft⟩ : ∃ room, ds.limit - ds.entries.size = room + 1 :=
        ⟨ds.limit - ds.entries.size - 1, by omega⟩
      have hless : ds.limit - (ds.entries.size + 1) = room := by omega
      simp [hroom, hleft, hless]
    · have hnone : ds.limit - ds.entries.size = 0 := by omega
      simp [hroom, hnone]

theorem lookup_increment (kind k : DiagnosticKind) (counts : List (DiagnosticKind × Nat)) :
    (increment kind counts).lookup k =
      if k = kind then some ((counts.lookup kind).getD 0 + 1) else counts.lookup k := by
  induction counts with
  | nil =>
    by_cases hk : k = kind
    · simp [increment, hk]
    · simp [increment, List.lookup_cons, hk, beq_eq_false_iff_ne.mpr hk]
  | cons entry rest ih =>
    obtain ⟨first, n⟩ := entry
    by_cases hfirst : first = kind
    · subst hfirst
      by_cases hk : k = first
      · simp [increment, hk]
      · simp [increment, List.lookup_cons, hk, beq_eq_false_iff_ne.mpr hk]
    · have hkind : (kind == first) = false := beq_eq_false_iff_ne.mpr (Ne.symm hfirst)
      by_cases hk : k = first
      · simp [increment, hfirst, hk]
      · have hother : (k == first) = false := beq_eq_false_iff_ne.mpr hk
        simp [increment, List.lookup_cons, hfirst, hkind, hother, ih]

theorem sum_increment (kind : DiagnosticKind) (counts : List (DiagnosticKind × Nat)) :
    ((increment kind counts).map (·.2)).sum = (counts.map (·.2)).sum + 1 := by
  induction counts with
  | nil => rfl
  | cons entry rest ih =>
    obtain ⟨first, n⟩ := entry
    by_cases hfirst : first = kind
    · simp [increment, hfirst]
      omega
    · simp [increment, hfirst, ih]
      omega

/-- A kind is looked up exactly when one of it was recorded. -/
theorem lookup_foldl_increment (kind : DiagnosticKind) (notes : List Diagnostic)
    (counts : List (DiagnosticKind × Nat)) :
    (notes.foldl (fun counts d => increment d.kind counts) counts).lookup kind =
      if notes.countP (·.kind = kind) = 0 then counts.lookup kind
      else some ((counts.lookup kind).getD 0 + notes.countP (·.kind = kind)) := by
  induction notes generalizing counts with
  | nil => rfl
  | cons d notes ih =>
    rw [List.foldl_cons, ih, lookup_increment, List.countP_cons]
    by_cases hd : d.kind = kind
    · subst hd
      by_cases hnone : notes.countP (·.kind = d.kind) = 0
      · simp [hnone]
      · simp [hnone]
        omega
    · have hkind : kind ≠ d.kind := Ne.symm hd
      simp [hd, hkind]

theorem sum_foldl_increment (notes : List Diagnostic) (counts : List (DiagnosticKind × Nat)) :
    ((notes.foldl (fun counts d => increment d.kind counts) counts).map (·.2)).sum =
      (counts.map (·.2)).sum + notes.length := by
  induction notes generalizing counts with
  | nil => rfl
  | cons d notes ih =>
    rw [List.foldl_cons, ih, sum_increment, List.length_cons]
    omega

/-- What holds of the diagnostics when a list was recorded: all of it is counted, by kind too, and
the first ones are kept. A diagnostic that is told once is told only if there is none of its kind in
the list, kept or not. -/
structure Records (ds : Diagnostics) (notes : List Diagnostic) : Prop where
  total_eq : ds.total = notes.length
  sum_counts : (ds.counts.map (·.2)).sum = ds.total
  count_eq : ∀ kind, ds.count kind = notes.countP (·.kind = kind)
  entries_eq : ds.entries.toList = notes.take (min ds.limit ds.total)
  pushOnce_known : ∀ d, (∃ note ∈ notes, note.kind = d.kind) → ds.pushOnce d = ds
  pushOnce_new : ∀ d, (∀ note ∈ notes, note.kind ≠ d.kind) → ds.pushOnce d = ds.push d

theorem lookup_ofList (limit : Nat) (notes : List Diagnostic) (kind : DiagnosticKind) :
    (ofList limit notes).counts.lookup kind =
      if notes.countP (·.kind = kind) = 0 then none else some (notes.countP (·.kind = kind)) := by
  rw [ofList, counts_pushAll, lookup_foldl_increment]
  simp

theorem countP_kind_eq_zero {notes : List Diagnostic} {kind : DiagnosticKind} :
    notes.countP (·.kind = kind) = 0 ↔ ¬∃ note ∈ notes, note.kind = kind := by
  simp [List.countP_eq_zero]

theorem limit_ofList (limit : Nat) (notes : List Diagnostic) : (ofList limit notes).limit = limit :=
  limit_pushAll _ notes

theorem total_ofList (limit : Nat) (notes : List Diagnostic) :
    (ofList limit notes).total = notes.length := by
  rw [ofList, total_pushAll]
  exact Nat.zero_add _

theorem entries_ofList (limit : Nat) (notes : List Diagnostic) :
    (ofList limit notes).entries.toList = notes.take limit := by
  simp [ofList, entries_pushAll]

theorem pushOnce_ofList (limit : Nat) (notes : List Diagnostic) (d : Diagnostic) :
    (ofList limit notes).pushOnce d =
      if ∃ note ∈ notes, note.kind = d.kind then ofList limit notes
      else (ofList limit notes).push d := by
  rw [pushOnce, lookup_ofList]
  by_cases hknown : ∃ note ∈ notes, note.kind = d.kind
  · have hcount : notes.countP (·.kind = d.kind) ≠ 0 := fun h => countP_kind_eq_zero.mp h hknown
    simp only [hcount, if_false, Option.isSome_some, if_true, if_pos hknown]
  · have hcount : notes.countP (·.kind = d.kind) = 0 := countP_kind_eq_zero.mpr hknown
    simp only [hcount, if_true, Option.isSome_none, Bool.false_eq_true, if_false, if_neg hknown]

theorem records_ofList (limit : Nat) (notes : List Diagnostic) :
    (ofList limit notes).Records notes where
  total_eq := total_ofList limit notes
  sum_counts := by
    rw [total_ofList, ofList, counts_pushAll, sum_foldl_increment]
    exact Nat.zero_add _
  count_eq kind := by
    rw [count, lookup_ofList]
    split
    · next hnone => exact hnone.symm
    · rfl
  entries_eq := by
    rw [entries_ofList, limit_ofList, total_ofList]
    simp [List.take_eq_take_iff]
  pushOnce_known d hknown := by rw [pushOnce_ofList, if_pos hknown]
  pushOnce_new d hnew := by
    rw [pushOnce_ofList, if_neg]
    rintro ⟨note, hnote, hkind⟩
    exact hnew note hnote hkind

/-- The counts do not depend on the limit. -/
theorem counts_ofList (m n : Nat) (notes : List Diagnostic) :
    (ofList m notes).counts = (ofList n notes).counts := by
  simp only [ofList, counts_pushAll]

end Diagnostics

end SqlDump
