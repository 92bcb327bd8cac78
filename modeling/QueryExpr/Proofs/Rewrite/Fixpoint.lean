import QueryExpr.Proofs.Rewrite.Change

/-!
# Fixpoints

A run of passes ends with the first pass that changes nothing, and the limit decides only how long
it may look for one. Where the passes are those of rules and all trees on the way are exact, such a
pass has left its tree as it was. So it would change nothing again, and the outcome of a run is a
fixpoint of it.

* `Rule.sweep_of_unchanged`: a sweep of exact steps that changes nothing gives back its tree.
* `Rule.run_again`: **a run on the outcome of a run finds nothing more to do.**
* `Strategy.run_first_unchanged`: what a run gives, at every limit, of any strategy.
-/

namespace QueryExpr

open QueryExpr.Expr

namespace Rule

variable {rules : List Rule} {e : Expr} {limit k : Nat} {f : Fixpoint}

/-- A sweep of exact steps that reports no change gives back its tree, and so does the next one. -/
theorem sweep_of_unchanged (h : StaysExact rules (handed rules e))
    (hc : (sweep rules e).changed = false) : sweep rules e = ⟨e, false⟩ := by
  have hkeeps : (sweep rules e).expr = e := keeps_of_staysExact h hc
  have heta : sweep rules e = ⟨(sweep rules e).expr, (sweep rules e).changed⟩ := rfl
  rw [heta, hkeeps, hc]

/-- The trees that the passes of rules lead to. -/
theorem treeAfter_bottomUp (rules : List Rule) (e : Expr) (k : Nat) :
    Strategy.treeAfter (.bottomUp (.first rules)) e k = .ok (after rules k e) :=
  Strategy.treeAfter_of_total (bottomUp_after rules · e) k

/-- Each pass of rules is a sweep of the tree that the ones before it lead to. -/
theorem passAfter_bottomUp (rules : List Rule) (e : Expr) (k : Nat) :
    Strategy.passAfter (.bottomUp (.first rules)) e k = .ok (sweep rules (after rules k e)) := by
  rw [Strategy.passAfter_eq (treeAfter_bottomUp rules e k), bottomUp_first]

/-- **A run on the outcome of a run finds nothing more to do**, if the steps of the passes are
exact. -/
theorem run_again (h : ∀ k < max limit 1, StaysExact rules (handed rules (after rules k e)))
    (hf : Strategy.run (.bottomUp (.first rules)) limit e = .ok f) (again : Nat) :
    Strategy.run (.bottomUp (.first rules)) again f.expr = .ok ⟨f.expr, false, 1⟩ := by
  obtain ⟨k, hk, -, t, hpass, rfl⟩ := Strategy.run_succeeds_iff.mp hf
  rw [passAfter_bottomUp, Except.ok.injEq] at hpass
  -- the last pass of the run has left its tree as it was
  have hstill : sweep rules (after rules k e) = ⟨after rules k e, false⟩ :=
    sweep_of_unchanged (h k hk) (by rw [hpass])
  rw [hstill, Rewritten.mk.injEq] at hpass
  obtain ⟨rfl, -⟩ := hpass
  refine Strategy.run_of_unchanged (by omega) (fun j hj => absurd hj (Nat.not_lt_zero j)) ?_
  rw [passAfter_bottomUp]
  exact congrArg Except.ok hstill

theorem keepsExact_shrink : shrink.KeepsExact := by
  intro e new _ h
  unfold shrink at h
  dsimp only at h
  split at h
  · split at h
    · cases h
      rfl
    · cases h
  · cases h

end Rule

namespace Strategy

/-- **A run gives what its first pass without a change gives**, and a limit only cuts it off. Of any
strategy, a run succeeds exactly if some pass up to the limit reports no change and all passes
before it report one; a pass that fails before that is what the run fails with, and otherwise it
fails with the tree after as many passes as the limit allows, of which there is always one. So a
higher limit gives the same, where there was a result. The outcome of the passes of rules is a
fixpoint of them, if no floating number and no decimal comes up on the way. -/
theorem run_first_unchanged (s : Strategy) (e : Expr) (limit : Nat) :
    (∀ f, s.run limit e = .ok f ↔ ∃ k < max limit 1, (∀ j < k, s.Changes e j) ∧
      ∃ t, s.passAfter e k = .ok ⟨t, false⟩ ∧ f = ⟨t, k != 0, k + 1⟩) ∧
    (∀ err, s.run limit e = .error err ↔
      (∃ k < max limit 1, (∀ j < k, s.Changes e j) ∧ s.passAfter e k = .error err) ∨
      ((∀ k < max limit 1, s.Changes e k) ∧
        ∃ t, s.treeAfter e (max limit 1) = .ok t ∧ err = .nonTerminating (max limit 1) t)) ∧
    (∀ f higher, s.run limit e = .ok f → limit ≤ higher → s.run higher e = .ok f) ∧
    ∀ rules, s = .bottomUp (.first rules) →
      (∀ k < max limit 1, Rule.StaysExact rules (Rule.handed rules (Rule.after rules k e))) →
      ∀ f again, s.run limit e = .ok f → s.run again f.expr = .ok ⟨f.expr, false, 1⟩ := by
  refine ⟨fun f => run_succeeds_iff, fun err => run_fails_iff,
    fun f higher hf hle => run_mono hf hle, ?_⟩
  rintro rules rfl hexact f again hf
  exact Rule.run_again hexact hf again

/-- Two is taken down to zero in two passes, and the third one finds nothing more. -/
theorem run_first_unchanged_shrinking :
    ∃ s : Strategy, s = .bottomUp (.first [.shrink]) ∧
      s.run 3 (.int64 2) = .ok ⟨.int64 0, true, 3⟩ ∧
      s.run 100 (.int64 2) = .ok ⟨.int64 0, true, 3⟩ ∧
      s.run 2 (.int64 2) = .error (.nonTerminating 2 (.int64 0)) ∧
      s.run 1 (.int64 0) = .ok ⟨.int64 0, false, 1⟩ := by
  obtain ⟨s, hs⟩ : ∃ s : Strategy, s = .bottomUp (.first [.shrink]) := ⟨_, rfl⟩
  have hpass : ∀ k, s.passAfter (.int64 2) k =
      .ok (Rule.sweep [.shrink] (Rule.after [.shrink] k (.int64 2))) :=
    hs ▸ Rule.passAfter_bottomUp _ _
  have hchanges : ∀ k < 2, s.Changes (.int64 2) k := by
    intro k hk
    match k, hk with
    | 0, _ => exact ⟨.int64 1, (hpass 0).trans rfl⟩
    | 1, _ => exact ⟨.int64 0, (hpass 1).trans rfl⟩
  have hrun : s.run 3 (.int64 2) = .ok ⟨.int64 0, true, 3⟩ :=
    ((run_first_unchanged s (.int64 2) 3).1 _).mpr
      ⟨2, by decide, hchanges, .int64 0, (hpass 2).trans rfl, rfl⟩
  have htree : s.treeAfter (.int64 2) 2 = .ok (.int64 0) := by
    rw [hs]
    exact (Rule.treeAfter_bottomUp _ _ 2).trans rfl
  have hexact : ∀ rule ∈ [Rule.shrink], rule.KeepsExact := by
    intro rule hrule
    rw [List.mem_singleton.mp hrule]
    exact Rule.keepsExact_shrink
  refine ⟨s, hs, hrun, ?_, ?_, ?_⟩
  · exact (run_first_unchanged s (.int64 2) 3).2.2.1 _ 100 hrun (by decide)
  · exact ((run_first_unchanged s (.int64 2) 2).2.1 _).mpr
      (.inr ⟨hchanges, .int64 0, htree, rfl⟩)
  · exact (run_first_unchanged s (.int64 2) 3).2.2.2 [.shrink] hs
      (fun k _ => Rule.staysExact_after hexact rfl k) _ 1 hrun

end Strategy

end QueryExpr
