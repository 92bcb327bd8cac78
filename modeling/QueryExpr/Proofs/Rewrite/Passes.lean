import Mathlib.Data.Nat.Find
import QueryExpr.Rewrite.Strategy

/-!
# Runs of passes

A strategy is repeated until a pass reports that it changed nothing. The passes are numbered from
zero, and each is made of the tree that the one before it left. A pass may fail; then there is no
tree left for another one.

* `treeAfter`, `passAfter`: the tree before a pass, and what the pass gives.
* `runPasses_changed`: passes that all change something leave the rest of a run to their last tree.
* `run_succeeds_iff`: **a run succeeds with the first pass that reports no change.**
* `run_fails_iff`: it fails with the first pass that fails, and for want of passes exactly if
  every pass up to the limit reports a change.
* `run_eq_ok_iff`, `run_eq_error_iff`: the same where no pass fails.
-/

namespace QueryExpr

namespace Strategy

variable {s : Strategy} {e t : Expr} {r : Rewritten} {limit higher n k : Nat} {f : Fixpoint}
  {err : Error}

/-- The tree after a number of passes, whatever they report. -/
def treeAfter (s : Strategy) (e : Expr) : Nat → Except Error Expr
  | 0 => .ok e
  | k + 1 => do
    let t ← treeAfter s e k
    let r ← s t
    return r.expr

/-- What the pass after a number of others gives. -/
def passAfter (s : Strategy) (e : Expr) (k : Nat) : Except Error Rewritten := do
  let t ← s.treeAfter e k
  s t

/-- The pass after a number of others reports a change. -/
def Changes (s : Strategy) (e : Expr) (k : Nat) : Prop := ∃ t, s.passAfter e k = .ok ⟨t, true⟩

theorem passAfter_eq (h : s.treeAfter e k = .ok t) : s.passAfter e k = s t := by
  rw [passAfter, h]
  rfl

/-- A pass is made of a tree. -/
theorem passAfter_eq_ok (h : s.passAfter e k = .ok r) :
    ∃ t, s.treeAfter e k = .ok t ∧ s t = .ok r := Error.bind_ok h

/-- A pass leaves a tree for the next one. -/
theorem treeAfter_succ (h : s.passAfter e k = .ok r) : s.treeAfter e (k + 1) = .ok r.expr := by
  obtain ⟨t, ht, hr⟩ := passAfter_eq_ok h
  rw [treeAfter, ht]
  show (do let r ← s t; return r.expr) = Except.ok r.expr
  rw [hr]
  rfl

/-- Passes that all change something leave a tree. -/
theorem exists_treeAfter (h : ∀ j < n, s.Changes e j) : ∃ t, s.treeAfter e n = .ok t := by
  cases n with
  | zero => exact ⟨e, rfl⟩
  | succ n =>
    obtain ⟨t, ht⟩ := h n (Nat.lt_succ_self n)
    exact ⟨t, treeAfter_succ ht⟩

/-! ## Step by step -/

/-- **Passes that all change something leave the rest of the run** to the last of their trees. -/
theorem runPasses_changed (h : ∀ j < n, s.Changes e j) (ht : s.treeAfter e n = .ok t)
    (left done : Nat) : s.runPasses (n + left) done e = s.runPasses left (done + n) t := by
  induction n generalizing t left with
  | zero =>
    cases ht
    rw [Nat.zero_add, Nat.add_zero]
  | succ n ih =>
    obtain ⟨t', hpass⟩ := h n (Nat.lt_succ_self n)
    obtain ⟨t₀, ht₀, hs⟩ := passAfter_eq_ok hpass
    -- the tree that this pass leaves is the last one
    have hlast := treeAfter_succ hpass
    rw [ht, Except.ok.injEq] at hlast
    have hbefore : ∀ j < n, s.Changes e j := fun j hj => h j (Nat.lt_succ_of_lt hj)
    rw [show n + 1 + left = n + (left + 1) by omega, ih hbefore ht₀, runPasses_succ hs, if_pos rfl,
      Nat.add_assoc, hlast]

/-- After passes that all change something, a pass that changes nothing ends the run. -/
theorem run_of_unchanged (hk : k < max limit 1) (h : ∀ j < k, s.Changes e j)
    (hlast : s.passAfter e k = .ok ⟨t, false⟩) : s.run limit e = .ok ⟨t, k != 0, k + 1⟩ := by
  obtain ⟨left, hleft⟩ : ∃ left, max limit 1 = k + (left + 1) := ⟨max limit 1 - k - 1, by omega⟩
  obtain ⟨t₀, ht₀, hs⟩ := passAfter_eq_ok hlast
  rw [run, hleft, runPasses_changed h ht₀, Nat.zero_add, runPasses_succ hs,
    if_neg Bool.false_ne_true]

/-- After passes that all change something, a pass that fails ends the run. -/
theorem run_of_failed (hk : k < max limit 1) (h : ∀ j < k, s.Changes e j)
    (hlast : s.passAfter e k = .error err) : s.run limit e = .error err := by
  obtain ⟨left, hleft⟩ : ∃ left, max limit 1 = k + (left + 1) := ⟨max limit 1 - k - 1, by omega⟩
  obtain ⟨t₀, ht₀⟩ := exists_treeAfter h
  have hs : s t₀ = .error err := by rw [← passAfter_eq ht₀, hlast]
  rw [run, hleft, runPasses_changed h ht₀, runPasses, hs]

/-- A run fails when every pass up to the limit changes something. -/
theorem run_of_changed (h : ∀ j < max limit 1, s.Changes e j)
    (ht : s.treeAfter e (max limit 1) = .ok t) :
    s.run limit e = .error (.nonTerminating (max limit 1) t) := by
  rw [run, ← Nat.add_zero (max limit 1), runPasses_changed h ht, runPasses_zero, Nat.zero_add,
    Nat.add_zero]

/-! ## The outcome -/

/-- Some number below `n` is the first without the property, or all of them have it. -/
theorem first_without_or_all (P : Nat → Prop) (n : Nat) :
    (∃ k < n, ¬ P k ∧ ∀ j < k, P j) ∨ ∀ k < n, P k := by
  classical
  by_cases hstop : ∃ k, k < n ∧ ¬ P k
  · obtain ⟨hk, hnot⟩ := Nat.find_spec hstop
    refine .inl ⟨_, hk, hnot, fun j hj => ?_⟩
    have hmin := Nat.find_min hstop hj
    rw [not_and, not_not] at hmin
    exact hmin (Nat.lt_trans hj hk)
  · refine .inr fun k hk => ?_
    by_contra hnot
    exact hstop ⟨k, hk, hnot⟩

/-- **How a run ends**: at the first pass that changes nothing or fails, or for want of passes. -/
theorem run_cases (s : Strategy) (e : Expr) (limit : Nat) :
    (∃ k < max limit 1, (∀ j < k, s.Changes e j) ∧
      ((∃ t, s.passAfter e k = .ok ⟨t, false⟩) ∨ ∃ err, s.passAfter e k = .error err)) ∨
    ((∀ k < max limit 1, s.Changes e k) ∧ ∃ t, s.treeAfter e (max limit 1) = .ok t) := by
  rcases first_without_or_all (s.Changes e) (max limit 1) with ⟨k, hk, hnot, hbefore⟩ | hall
  · refine .inl ⟨k, hk, hbefore, ?_⟩
    cases hpass : s.passAfter e k with
    | error err => exact .inr ⟨err, rfl⟩
    | ok r =>
      obtain ⟨t, changed⟩ := r
      cases changed with
      | true => exact absurd ⟨t, hpass⟩ hnot
      | false => exact .inl ⟨t, rfl⟩
  · exact .inr ⟨hall, exists_treeAfter hall⟩

/-- **A run succeeds with the first pass that changes nothing.** -/
theorem run_succeeds_iff :
    s.run limit e = .ok f ↔ ∃ k < max limit 1, (∀ j < k, s.Changes e j) ∧
      ∃ t, s.passAfter e k = .ok ⟨t, false⟩ ∧ f = ⟨t, k != 0, k + 1⟩ := by
  constructor
  · intro hf
    rcases run_cases s e limit with ⟨k, hk, hbefore, ⟨t, ht⟩ | ⟨err, herr⟩⟩ | ⟨hall, t, ht⟩
    · rw [run_of_unchanged hk hbefore ht, Except.ok.injEq] at hf
      exact ⟨k, hk, hbefore, t, ht, hf.symm⟩
    · rw [run_of_failed hk hbefore herr] at hf
      cases hf
    · rw [run_of_changed hall ht] at hf
      cases hf
  · rintro ⟨k, hk, hbefore, t, ht, rfl⟩
    exact run_of_unchanged hk hbefore ht

/-- **A run fails with the first pass that fails**, or because every pass up to the limit changes
something. -/
theorem run_fails_iff :
    s.run limit e = .error err ↔
      (∃ k < max limit 1, (∀ j < k, s.Changes e j) ∧ s.passAfter e k = .error err) ∨
      ((∀ k < max limit 1, s.Changes e k) ∧
        ∃ t, s.treeAfter e (max limit 1) = .ok t ∧ err = .nonTerminating (max limit 1) t) := by
  constructor
  · intro he
    rcases run_cases s e limit with ⟨k, hk, hbefore, ⟨t, ht⟩ | ⟨err', herr⟩⟩ | ⟨hall, t, ht⟩
    · rw [run_of_unchanged hk hbefore ht] at he
      cases he
    · rw [run_of_failed hk hbefore herr, Except.error.injEq] at he
      exact .inl ⟨k, hk, hbefore, he ▸ herr⟩
    · rw [run_of_changed hall ht, Except.error.injEq] at he
      exact .inr ⟨hall, t, ht, he.symm⟩
  · rintro (⟨k, hk, hbefore, herr⟩ | ⟨hall, t, ht, rfl⟩)
    · exact run_of_failed hk hbefore herr
    · exact run_of_changed hall ht

/-- **A higher limit does not alter what has succeeded.** -/
theorem run_mono (h : s.run limit e = .ok f) (hle : limit ≤ higher) : s.run higher e = .ok f := by
  obtain ⟨k, hk, hbefore, hlast⟩ := run_succeeds_iff.mp h
  exact run_succeeds_iff.mpr ⟨k, by omega, hbefore, hlast⟩

/-! ## Strategies that do not fail -/

section Total

variable {trees : Nat → Expr} {b : Nat → Bool}

theorem treeAfter_of_total (h : ∀ k, s (trees k) = .ok ⟨trees (k + 1), b k⟩) (k : Nat) :
    s.treeAfter (trees 0) k = .ok (trees k) := by
  induction k with
  | zero => rfl
  | succ k ih => exact treeAfter_succ ((passAfter_eq ih).trans (h k))

theorem passAfter_of_total (h : ∀ k, s (trees k) = .ok ⟨trees (k + 1), b k⟩) (k : Nat) :
    s.passAfter (trees 0) k = .ok ⟨trees (k + 1), b k⟩ :=
  (passAfter_eq (treeAfter_of_total h k)).trans (h k)

theorem changes_of_total (h : ∀ k, s (trees k) = .ok ⟨trees (k + 1), b k⟩) (k : Nat) :
    s.Changes (trees 0) k ↔ b k = true := by
  rw [Changes, passAfter_of_total h k]
  constructor
  · rintro ⟨t, ht⟩
    rw [Except.ok.injEq, Rewritten.mk.injEq] at ht
    exact ht.2
  · intro hb
    exact ⟨_, by rw [hb]⟩

/-- Where no pass fails, a run succeeds with the first pass that changes nothing. -/
theorem run_eq_ok_iff (h : ∀ k, s (trees k) = .ok ⟨trees (k + 1), b k⟩) :
    s.run limit (trees 0) = .ok f ↔
      ∃ k < max limit 1, b k = false ∧ (∀ j < k, b j = true) ∧
        f = ⟨trees (k + 1), k != 0, k + 1⟩ := by
  simp only [run_succeeds_iff, changes_of_total h, passAfter_of_total h]
  refine exists_congr fun k => and_congr_right fun _ => ?_
  constructor
  · rintro ⟨hbefore, t, ht, rfl⟩
    rw [Except.ok.injEq, Rewritten.mk.injEq] at ht
    exact ⟨ht.2, hbefore, by rw [ht.1]⟩
  · rintro ⟨hb, hbefore, rfl⟩
    exact ⟨hbefore, _, by rw [hb], rfl⟩

/-- Where no pass fails, a run fails exactly if every pass up to the limit changes something. -/
theorem run_eq_error_iff (h : ∀ k, s (trees k) = .ok ⟨trees (k + 1), b k⟩) :
    s.run limit (trees 0) = .error err ↔
      (∀ k < max limit 1, b k = true) ∧
        err = .nonTerminating (max limit 1) (trees (max limit 1)) := by
  simp only [run_fails_iff, changes_of_total h, passAfter_of_total h, treeAfter_of_total h]
  constructor
  · rintro (⟨k, -, -, herr⟩ | ⟨hall, t, ht, rfl⟩)
    · cases herr
    · cases ht
      exact ⟨hall, rfl⟩
  · rintro ⟨hall, rfl⟩
    exact .inr ⟨hall, _, rfl, rfl⟩

end Total

end Strategy

end QueryExpr
