import SqlDump.Proofs.Text.Items

/-!
# Lists written again

The items of a list, with a comma and a blank between them, are a list of the same items, and so are
some of them in their order: what a comma ended stands outside quotes and parentheses at its end, so
that it may stand before any other item. Only the last item may end within.

Main statements: `listed_items`, the items of a text can be a list; `items_join_listed`, a list of
them is read as the same items.
-/

namespace SqlDump.Text

variable {t u v : Text}

/-! ## Blanks at the end of a text -/

namespace Nesting

variable {n : Nesting}

theorem eq_of_isTop (h : n.isTop = true) : n = {} := by
  obtain ⟨quoting, depth⟩ := n
  obtain ⟨hquoting, hdepth⟩ := Bool.and_eq_true_iff.mp h
  rw [beq_iff_eq] at hquoting hdepth
  dsimp only at hquoting hdepth
  rw [hquoting, hdepth]

/-- Only quote marks open quotes. -/
def Marked (n : Nesting) : Prop :=
  ∀ quote escaped, n.quoting = .inside quote escaped → isQuoteMark quote = true

theorem Marked.step (h : n.Marked) (c : Char) : (n.step c).Marked := by
  intro quote escaped hquote
  obtain ⟨quoting, depth⟩ := n
  change quoting.step c = .inside quote escaped at hquote
  unfold Quoting.step at hquote
  split at hquote
  · split at hquote
    · next hmark =>
      cases hquote
      exact hmark
    · cases hquote
  · cases hquote
    exact h _ _ rfl
  · split at hquote
    · cases hquote
      exact h _ _ rfl
    · split at hquote
      · cases hquote
      · cases hquote
        exact h _ _ rfl

theorem marked_after (t : Text) : (after {} t).Marked := by
  have hafter (n : Nesting) (h : n.Marked) : (n.after t).Marked := by
    induction t generalizing n with
    | nil => exact h
    | cons c t ih => exact ih (n.step c) (h.step c)
  refine hafter {} ?_
  intro quote escaped hquote
  cases hquote

/-- A blank closes neither a quote nor a parenthesis. -/
theorem Marked.eq_of_step_blank (h : n.Marked) {c : Char} (hc : Unicode.isBlank c = true)
    (hstep : n.step c = {}) : n = {} := by
  have hplain : isQuoteMark c = false ∧ c ≠ '(' ∧ c ≠ ')' :=
    Unicode.of_isBlank (p := fun c => isQuoteMark c = false ∧ c ≠ '(' ∧ c ≠ ')') (by decide) hc
  obtain ⟨quoting, depth⟩ := n
  have hquoting : quoting.step c = .outside := congrArg Nesting.quoting hstep
  cases quoting with
  | outside =>
    have hdepth := congrArg Nesting.depth hstep
    simp only [Nesting.step, if_true, if_neg hplain.2.1, if_neg hplain.2.2] at hdepth
    rw [hdepth]
  | inside quote escaped =>
    -- The quote would be closed by a blank.
    have hmark := h quote escaped rfl
    cases escaped with
    | true => cases hquoting
    | false =>
      simp only [Quoting.step] at hquoting
      split at hquoting
      · cases hquoting
      · split at hquoting
        · next hquote =>
          rw [← hquote, hplain.1] at hmark
          cases hmark
        · cases hquoting

theorem Marked.eq_of_after_blank (h : n.Marked) (hv : isBlank v = true) (hafter : n.after v = {}) :
    n = {} := by
  induction v generalizing n with
  | nil => exact hafter
  | cons c v ih =>
    have hblank := List.all_eq_true.mp hv
    have hrest : isBlank v = true :=
      List.all_eq_true.mpr fun d hd => hblank d (List.mem_cons_of_mem c hd)
    exact h.eq_of_step_blank (hblank c List.mem_cons_self) (ih (h.step c) hrest hafter)

end Nesting

section Trim

variable {p : Char → Bool} (hp : ∀ c, Unicode.isBlank c = true → p c = false)

include hp

/-- Without the blanks around it a text hides no less. -/
theorem hides_trim (h : hides p {} t = true) : hides p {} (trim t) = true := by
  obtain ⟨lead, tail, hlead, -, ht⟩ := exists_trim t
  rw [ht, hides_append, hides_append, (Shields.of_blank hp hlead).closed] at h
  exact (Bool.and_eq_true_iff.mp (Bool.and_eq_true_iff.mp h).2).1

theorem Shields.trim (h : Shields p t) : Shields p (trim t) := by
  refine ⟨hides_trim hp h.hidden, ?_⟩
  obtain ⟨lead, tail, hlead, htail, ht⟩ := exists_trim t
  have hclosed := h.closed
  rw [ht, Nesting.after_append, Nesting.after_append, (of_blank hp hlead).closed] at hclosed
  exact (Nesting.marked_after _).eq_of_after_blank htail hclosed

end Trim

/-- Texts that can be a list: no comma shows in any, and all but the last are closed. -/
def Listed (ts : List Text) : Prop :=
  (∀ t ∈ ts, hides (· == ',') {} t = true) ∧ ts.Pairwise fun t _ => Shields (· == ',') t

theorem Listed.sublist {ts us : List Text} (h : Listed ts) (hsub : us.Sublist ts) : Listed us :=
  ⟨fun t ht => h.1 t (hsub.subset ht), h.2.sublist hsub⟩

theorem listed_splitTop (t : Text) : Listed (splitTop (· == ',') t) := by
  have hfrom (piece : Text) (hpiece : hides (· == ',') {} piece.reverse = true) :
      Listed (splitTopFrom (· == ',') (Nesting.after {} piece.reverse) [] piece t) := by
    induction t generalizing piece with
    | nil =>
      simp only [splitTopFrom, List.reverse_cons, List.reverse_nil, List.nil_append]
      exact ⟨fun u hu => List.mem_singleton.mp hu ▸ hpiece, List.pairwise_singleton _ _⟩
    | cons c t ih =>
      rw [splitTopFrom]
      split
      · next hsep =>
        obtain ⟨htop, hc⟩ := Bool.and_eq_true_iff.mp hsep
        have hclosed := Nesting.eq_of_isTop htop
        have hstep : Nesting.step {} c = {} := by
          rw [beq_iff_eq.mp hc]
          rfl
        obtain ⟨hhides, hpairs⟩ := ih [] rfl
        rw [splitTopFrom_done, hclosed, hstep]
        refine ⟨fun u hu => ?_, List.pairwise_cons.mpr ⟨fun u _ => ⟨hpiece, hclosed⟩, hpairs⟩⟩
        rcases List.mem_cons.mp hu with rfl | hu
        · exact hpiece
        · exact hhides u hu
      · next hsep =>
        have hnext := ih (c :: piece)
        rw [List.reverse_cons, Nesting.after_append] at hnext
        refine hnext ?_
        rw [hides_append, hpiece, hides, Bool.eq_false_iff.mpr hsep]
        rfl
  exact hfrom [] rfl

/-- The items of a text: each shows something, and no blanks are around it. -/
theorem mem_items {t item : Text} (h : item ∈ items t) : trim item = item ∧ item ≠ [] := by
  obtain ⟨hmem, hne⟩ := List.mem_filter.mp h
  obtain ⟨piece, -, rfl⟩ := List.mem_map.mp hmem
  refine ⟨trim_trim piece, fun hnil => ?_⟩
  rw [hnil] at hne
  cases hne

theorem listed_items (t : Text) : Listed (items t) := by
  obtain ⟨hhides, hclosed⟩ := listed_splitTop t
  have hblank (c : Char) (hc : Unicode.isBlank c = true) : (c == ',') = false :=
    comma_not_isBlank hc
  have htrimmed : Listed ((splitTop (· == ',') t).map trim) := by
    refine ⟨fun item hitem => ?_, List.pairwise_map.mpr (hclosed.imp fun h => h.trim hblank)⟩
    obtain ⟨piece, hpiece, rfl⟩ := List.mem_map.mp hitem
    exact hides_trim hblank (hhides piece hpiece)
  exact htrimmed.sublist List.filter_sublist

/-- Items with blanks behind the commas between them are the items of that list. -/
theorem items_join_listed {ts : List Text} (h : Listed ts)
    (hitem : ∀ t ∈ ts, trim t = t ∧ t ≠ []) : items (join ", " ts) = ts := by
  induction ts with
  | nil => rfl
  | cons t ts ih =>
    obtain ⟨htrim, hne⟩ := hitem t List.mem_cons_self
    have hsolid : (!(trim t).isEmpty) = true := by simp [htrim, hne]
    cases ts with
    | nil =>
      rw [join_singleton, items, splitTop_of_hidden (h.1 t List.mem_cons_self), List.map_singleton,
        List.filter_cons, if_pos hsolid, htrim]
      rfl
    | cons u ts =>
      have hshields : Shields (· == ',') t := List.rel_of_pairwise_cons h.2 List.mem_cons_self
      have hrest := ih (h.sublist (List.sublist_cons_self t (u :: ts))) fun w hw =>
        hitem w (List.mem_cons_of_mem t hw)
      have hsplit := splitTop_append_cons (c := ',') hshields rfl rfl (' ' :: join ", " (u :: ts))
      have hblank := items_blank_append (v := " ") rfl (join ", " (u :: ts))
      rw [hrest, items] at hblank
      rw [join_cons_cons, items]
      change ((splitTop (· == ',') (t ++ ',' :: ' ' :: join ", " (u :: ts))).map trim).filter _ = _
      rw [hsplit, List.map_cons, List.filter_cons, if_pos hsolid, htrim]
      exact congrArg (t :: ·) hblank

end SqlDump.Text
