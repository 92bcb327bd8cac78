import QueryExpr.Category

/-!
# Closed and consistent sets

Closing a set brings in the wider categories once and for all, and a set inside a
consistent one is consistent.

* `closure_closure`, `closure_mono`: closing is idempotent and monotone.
* `isConsistent_mono`: what holds less is consistent if what holds more is.
-/

namespace QueryExpr

namespace Categories

variable {s t u : Categories}

theorem has_closure (s : Categories) (c : Category) :
    s.closure.has c = (s.has c || c.narrower.any s.has) := by
  rw [closure, has_ofPred]

/-- What a narrower category of a narrower one brings is brought by the latter already. -/
theorem narrower_trans (c : Category) :
    ∀ d ∈ c.narrower, ∀ e ∈ d.narrower, e ∈ c.narrower := by
  cases c <;> decide

/-- **Closing a set twice is closing it once.** -/
@[simp] theorem closure_closure (s : Categories) : s.closure.closure = s.closure := by
  apply ext
  intro c
  rw [has_closure, Bool.eq_iff_iff, Bool.or_eq_true, List.any_eq_true]
  constructor
  · rintro (h | ⟨d, hd, h⟩)
    · exact h
    · rw [has_closure, Bool.or_eq_true, List.any_eq_true] at h ⊢
      right
      rcases h with h | ⟨e, he, h⟩
      · exact ⟨d, hd, h⟩
      · exact ⟨e, narrower_trans c d hd e he, h⟩
  · exact Or.inl

theorem closure_mono (h : s ⊆ t) : s.closure ⊆ t.closure := by
  intro c hc
  have hc : s.closure.has c = true := hc
  show t.closure.has c = true
  rw [has_closure, Bool.or_eq_true, List.any_eq_true] at hc ⊢
  rcases hc with hc | ⟨d, hd, hc⟩
  · exact Or.inl (h c hc)
  · exact Or.inr ⟨d, hd, h d hc⟩

/-- **A set inside a consistent one is consistent.** -/
theorem isConsistent_mono (h : s ⊆ t) (ht : t.isConsistent = true) : s.isConsistent = true := by
  rw [isConsistent, List.all_eq_true] at ht ⊢
  intro g hg
  have hle : g.countP s.closure.has ≤ g.countP t.closure.has :=
    List.countP_mono_left fun c _ hc => closure_mono h c hc
  rw [List.countP_eq_length_filter, List.countP_eq_length_filter] at hle
  have := ht g hg
  rw [decide_eq_true_eq] at this ⊢
  omega

/-- A set that holds a category holds the set of it alone. -/
theorem singleton_subset {c : Category} (h : s.has c = true) : ({c} : Categories) ⊆ s := by
  intro d hd
  have hd : ({c} : Categories).has d = true := hd
  rw [has_singleton, beq_iff_eq] at hd
  rw [hd]
  exact h

theorem union_subset (hs : s ⊆ u) (ht : t ⊆ u) : s ∪ t ⊆ u := by
  intro c hc
  have hc : (s ∪ t).has c = true := hc
  rw [has_union, Bool.or_eq_true] at hc
  exact hc.elim (hs c) (ht c)

theorem union_comm (s t : Categories) : s ∪ t = t ∪ s := by
  apply ext
  intro c
  rw [has_union, has_union, Bool.or_comm]

end Categories

end QueryExpr
