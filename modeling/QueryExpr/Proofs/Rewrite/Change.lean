import Mathlib.Logic.Function.Iterate
import QueryExpr.Proofs.Expr.Exact
import QueryExpr.Proofs.Rewrite.BottomUp
import QueryExpr.Proofs.Rewrite.Passes
import QueryExpr.Rewrite.Simple

/-!
# What a pass reports

A pass reports a change as soon as one rule has made another expression of one node. It does
not look at the outcome: steps may undo one another, as when one rule puts a function around
another one and a second rule takes it off again. Such a pass is reported as a change although
it has made none, and repeated up to the limit.

Expressions are taken to be exact, so that sameness is equality.

* `handed`: the nodes that one sweep hands to the rules.
* `changed_iff_stirs`: a sweep reports a change exactly if a rule changes one of them.
* `keeps_of_staysExact`: a sweep that reports no change has made none.
* `pass_reports_steps`: **a pass reports its steps and not its outcome**, and so a run ends.
-/

namespace QueryExpr

namespace Production

open QueryExpr.Expr

theorem argsSame_iff_eq {as : List Expr} (h : allExact as = true) (bs : List Expr) :
    argsSame as bs = true ↔ as = bs := by
  induction as generalizing bs with
  | nil => cases bs <;> simp [argsSame]
  | cons a as ih =>
    rw [allExact, Bool.and_eq_true] at h
    cases bs with
    | nil => simp [argsSame]
    | cons b bs =>
      rw [argsSame, Bool.and_eq_true, sameShared_iff_eq h.1 b, ih h.2 bs, List.cons.injEq]

/-- **An exact expression counts as the one it replaces exactly if it is that one.** -/
theorem replacesSame_iff_eq {new : Expr} (h : new.isExact = true) (e : Expr) :
    replacesSame new e = true ↔ new = e := by
  cases new with
  | value v =>
    cases e with
    | value w =>
      have hv : v.isExact = true := h
      rw [replacesSame, Value.same, Value.sameBy_iff_eq hv w, value.injEq]
    | node g bs d => simp [replacesSame]
  | node f as c =>
    cases e with
    | value w => simp [replacesSame]
    | node g bs d =>
      have hargs : allExact as = true := h
      rw [replacesSame, Bool.and_eq_true, Bool.and_eq_true, beq_iff_eq, beq_iff_eq,
        argsSame_iff_eq hargs bs, node.injEq, and_assoc, and_comm (a := c = d)]

end Production

namespace Rule

open QueryExpr.Expr

variable {rules : List Rule} {e n : Expr} {limit k : Nat}

/-- A rule that applies changes a node exactly if it makes another expression of it. -/
theorem outcome_changed_iff {o : Operation} {args : List Expr} {c : Categories} {p : Production}
    (h : (p.outcome (.node o args c)).expr.isExact = true) :
    (p.outcome (.node o args c)).changed = true ↔
      (p.outcome (.node o args c)).expr ≠ .node o args c := by
  cases p with
  | keep => simp [Production.outcome, Production.keepsSame]
  | replace new =>
    have hnew : new.isExact = true := h
    simp only [Production.outcome, Bool.not_eq_true', Bool.eq_false_iff, ne_eq]
    rw [Production.replacesSame_iff_eq hnew]

theorem applyFirst_changed_iff {o : Operation} {args : List Expr} {c : Categories}
    (h : (applyFirst rules (.node o args c)).expr.isExact = true) :
    (applyFirst rules (.node o args c)).changed = true ↔
      (applyFirst rules (.node o args c)).expr ≠ .node o args c := by
  induction rules with
  | nil => simp [applyFirst]
  | cons rule rules ih =>
    rw [applyFirst] at h ⊢
    cases hp : rule.produce? (.node o args c) with
    | none =>
      rw [hp] at h
      exact ih h
    | some p =>
      rw [hp] at h
      exact outcome_changed_iff h

/-! ## Steps -/

/-- The node that is handed to the rules once its arguments are done. -/
def handover (rules : List Rule) (o : Operation) (args : List Expr) (c : Categories) : Expr :=
  if (sweepAll rules args).2 then .node o (sweepAll rules args).1 c else .node o args c

mutual

/-- The nodes that one sweep hands to the rules, in order. -/
def handed (rules : List Rule) : Expr → List Expr
  | .value _ => []
  | .node o args c => allHanded rules args ++ [handover rules o args c]

def allHanded (rules : List Rule) : List Expr → List Expr
  | [] => []
  | e :: rest => handed rules e ++ allHanded rules rest

end

theorem sweep_eq (o : Operation) (args : List Expr) (c : Categories) :
    sweep rules (.node o args c) =
      ⟨(applyFirst rules (handover rules o args c)).expr,
        (sweepAll rules args).2 || (applyFirst rules (handover rules o args c)).changed⟩ := rfl

theorem handover_eq_node (rules : List Rule) (o : Operation) (args : List Expr) (c : Categories) :
    ∃ args', handover rules o args c = .node o args' c := by
  unfold handover
  split
  · exact ⟨_, rfl⟩
  · exact ⟨_, rfl⟩

/-- Some rule makes another expression of a node that it is handed. -/
def Stirs (rules : List Rule) (ns : List Expr) : Prop := ∃ n ∈ ns, (applyFirst rules n).expr ≠ n

/-- The rules leave exact expressions of the nodes that they are handed. -/
def StaysExact (rules : List Rule) (ns : List Expr) : Prop :=
  ∀ n ∈ ns, (applyFirst rules n).expr.isExact = true

theorem stirs_append {ns ms : List Expr} : Stirs rules (ns ++ ms) ↔ Stirs rules ns ∨ Stirs rules ms := by
  simp only [Stirs, List.mem_append, or_and_right, exists_or]

theorem StaysExact.append {ns ms : List Expr} (h : StaysExact rules (ns ++ ms)) :
    StaysExact rules ns ∧ StaysExact rules ms :=
  ⟨fun n hn => h n (List.mem_append_left _ hn), fun n hn => h n (List.mem_append_right _ hn)⟩

theorem handover_changed_iff {o : Operation} {args : List Expr} {c : Categories}
    (h : StaysExact rules [handover rules o args c]) :
    (applyFirst rules (handover rules o args c)).changed = true ↔
      Stirs rules [handover rules o args c] := by
  have hexact := h _ (List.mem_singleton_self _)
  obtain ⟨args', he⟩ := handover_eq_node rules o args c
  simp only [Stirs, List.mem_singleton, exists_eq_left]
  rw [he] at hexact ⊢
  exact applyFirst_changed_iff hexact

mutual

/-- **A sweep reports a change exactly if some rule changes a node that it is handed**, be
the outcome another expression or not. -/
theorem changed_iff_stirs {e : Expr} (h : StaysExact rules (handed rules e)) :
    (sweep rules e).changed = true ↔ Stirs rules (handed rules e) := by
  match e with
  | .value v => simp [sweep, handed, Stirs]
  | .node o args c =>
    rw [handed] at h ⊢
    rw [sweep_eq, Bool.or_eq_true, changedAll_iff_stirs h.append.1, handover_changed_iff h.append.2,
      stirs_append]

theorem changedAll_iff_stirs {es : List Expr} (h : StaysExact rules (allHanded rules es)) :
    (sweepAll rules es).2 = true ↔ Stirs rules (allHanded rules es) := by
  match es with
  | [] => simp [sweepAll, allHanded, Stirs]
  | e :: rest =>
    rw [allHanded] at h ⊢
    rw [sweepAll, Bool.or_eq_true, changed_iff_stirs h.append.1, changedAll_iff_stirs h.append.2,
      stirs_append]

end

mutual

/-- **A sweep that reports no change has made none.** -/
theorem keeps_of_staysExact {e : Expr} (h : StaysExact rules (handed rules e)) : Keeps rules e := by
  match e with
  | .value v => exact fun _ => rfl
  | .node o args c =>
    rw [handed] at h
    intro hc
    rw [sweep_eq, Bool.or_eq_false_iff] at hc
    have hargs := sweepAll_of_unchanged h.append.1 hc.1
    have hnode : handover rules o args c = .node o args c := by
      rw [handover, hc.1, if_neg Bool.false_ne_true]
    have hstill : ¬ Stirs rules [handover rules o args c] := by
      rw [← handover_changed_iff h.append.2, hc.2]
      exact Bool.false_ne_true
    rw [sweep_eq]
    by_contra hne
    exact hstill ⟨_, List.mem_singleton_self _, by rwa [hnode] at hne ⊢⟩

theorem sweepAll_of_unchanged {es : List Expr} (h : StaysExact rules (allHanded rules es))
    (hc : (sweepAll rules es).2 = false) : (sweepAll rules es).1 = es := by
  match es with
  | [] => rfl
  | e :: rest =>
    rw [allHanded] at h
    rw [sweepAll, Bool.or_eq_false_iff] at hc
    rw [sweepAll, keeps_of_staysExact h.append.1 hc.1, sweepAll_of_unchanged h.append.2 hc.2]

end

/-! ## Exact productions -/

/-- The rule makes exact expressions of exact ones. -/
def KeepsExact (rule : Rule) : Prop :=
  ∀ e new, e.isExact = true → rule.produce? e = some (.replace new) → new.isExact = true

theorem isExact_applyFirst (hr : ∀ rule ∈ rules, rule.KeepsExact) (hn : n.isExact = true) :
    (applyFirst rules n).expr.isExact = true := by
  induction rules with
  | nil => exact hn
  | cons rule rules ih =>
    rw [applyFirst]
    cases hp : rule.produce? n with
    | none => exact ih fun other h => hr other (List.mem_cons_of_mem _ h)
    | some p =>
      cases p with
      | keep => exact hn
      | replace new => exact hr rule List.mem_cons_self n new hn hp

mutual

/-- Rules that keep expressions exact keep a sweep exact, all its steps included. -/
theorem isExact_sweep (hr : ∀ rule ∈ rules, rule.KeepsExact) {e : Expr} (he : e.isExact = true) :
    (sweep rules e).expr.isExact = true ∧ StaysExact rules (handed rules e) := by
  match e with
  | .value v => exact ⟨he, nofun⟩
  | .node o args c =>
    have hargs : allExact args = true := he
    obtain ⟨hswept, hsteps⟩ := isExact_sweepAll hr hargs
    have hnode : (handover rules o args c).isExact = true := by
      unfold handover
      split
      · exact hswept
      · exact he
    have hout := isExact_applyFirst hr hnode
    rw [sweep_eq, handed]
    refine ⟨hout, fun n hn => ?_⟩
    rcases List.mem_append.mp hn with hn | hn
    · exact hsteps n hn
    · rw [List.mem_singleton.mp hn]
      exact hout

theorem isExact_sweepAll (hr : ∀ rule ∈ rules, rule.KeepsExact) {es : List Expr}
    (he : allExact es = true) :
    allExact (sweepAll rules es).1 = true ∧ StaysExact rules (allHanded rules es) := by
  match es with
  | [] => exact ⟨rfl, nofun⟩
  | e :: rest =>
    rw [allExact, Bool.and_eq_true] at he
    obtain ⟨hfirst, hsteps⟩ := isExact_sweep hr he.1
    obtain ⟨hrest, hmore⟩ := isExact_sweepAll hr he.2
    rw [sweepAll, allHanded, allExact, Bool.and_eq_true]
    refine ⟨⟨hfirst, hrest⟩, fun n hn => ?_⟩
    exact (List.mem_append.mp hn).elim (hsteps n) (hmore n)

end

/-! ## Runs -/

/-- The expression after a number of sweeps. -/
def after (rules : List Rule) (k : Nat) (e : Expr) : Expr := (fun t => (sweep rules t).expr)^[k] e

theorem after_succ (rules : List Rule) (k : Nat) (e : Expr) :
    after rules (k + 1) e = (sweep rules (after rules k e)).expr :=
  Function.iterate_succ_apply' _ _ _

/-- **Where neither the expression nor a production of a rule holds floating numbers or
decimals**, all the steps of all sweeps are exact. -/
theorem staysExact_after (hr : ∀ rule ∈ rules, rule.KeepsExact) (he : e.isExact = true) (k : Nat) :
    StaysExact rules (handed rules (after rules k e)) := by
  have hexact : (after rules k e).isExact = true := by
    induction k with
    | zero => exact he
    | succ k ih =>
      rw [after_succ]
      exact (isExact_sweep hr ih).1
  exact (isExact_sweep hr hexact).2

/-- Some rule changes a node, and in the end the expression is what it was. -/
def Undone (rules : List Rule) (e : Expr) : Prop :=
  (sweep rules e).expr = e ∧ Stirs rules (handed rules e)

theorem changed_iff_differs {e : Expr} (h : StaysExact rules (handed rules e)) :
    (sweep rules e).changed = true ↔ (sweep rules e).expr ≠ e ∨ Undone rules e := by
  rw [Undone, ← changed_iff_stirs h]
  by_cases he : (sweep rules e).expr = e
  · simp [he]
  · have hc : (sweep rules e).changed = true := by
      rw [← Bool.not_eq_false]
      exact fun hc => he (keeps_of_staysExact h hc)
    simp [he, hc]

theorem bottomUp_first (rules : List Rule) (e : Expr) :
    Strategy.bottomUp (.first rules) e = .ok (sweep rules e) := by
  rw [Strategy.bottomUp_eq_descend, descend_first]

theorem bottomUp_after (rules : List Rule) (k : Nat) (e : Expr) :
    Strategy.bottomUp (.first rules) (after rules k e) =
      .ok ⟨after rules (k + 1) e, (sweep rules (after rules k e)).changed⟩ := by
  rw [bottomUp_first, after_succ]

/-- **A pass reports its steps and not its outcome.** Where all that the rules make is exact, a
pass reports a change exactly if it makes another expression or undoes its own steps. A run
succeeds with the first pass that does neither, and fails exactly if every pass up to the limit
does one or the other. -/
theorem pass_reports_steps {rules : List Rule} {e : Expr} {limit : Nat}
    (h : ∀ k < max limit 1, StaysExact rules (handed rules (after rules k e))) :
    (∀ k < max limit 1, ∃ r, Strategy.bottomUp (.first rules) (after rules k e) = .ok r ∧
      r.expr = after rules (k + 1) e ∧
      (r.changed = true ↔ r.expr ≠ after rules k e ∨ Undone rules (after rules k e))) ∧
    (∀ f, Strategy.run (.bottomUp (.first rules)) limit e = .ok f ↔
      ∃ k < max limit 1, (after rules (k + 1) e = after rules k e ∧ ¬ Undone rules (after rules k e)) ∧
        (∀ j < k, after rules (j + 1) e ≠ after rules j e ∨ Undone rules (after rules j e)) ∧
        f = ⟨after rules k e, k != 0, k + 1⟩) ∧
    (∀ err, Strategy.run (.bottomUp (.first rules)) limit e = .error err ↔
      (∀ k < max limit 1, after rules (k + 1) e ≠ after rules k e ∨ Undone rules (after rules k e)) ∧
        err = .nonTerminating (max limit 1) (after rules (max limit 1) e)) := by
  have hchanged : ∀ k < max limit 1, (sweep rules (after rules k e)).changed = true ↔
      after rules (k + 1) e ≠ after rules k e ∨ Undone rules (after rules k e) := by
    intro k hk
    rw [after_succ]
    exact changed_iff_differs (h k hk)
  have hstill : ∀ k < max limit 1, (sweep rules (after rules k e)).changed = false ↔
      after rules (k + 1) e = after rules k e ∧ ¬ Undone rules (after rules k e) := by
    intro k hk
    rw [← Bool.not_eq_true, hchanged k hk, not_or, not_not]
  refine ⟨fun k hk => ⟨_, bottomUp_after rules k e, rfl, hchanged k hk⟩, fun f => ?_, fun err => ?_⟩
  · refine (Strategy.run_eq_ok_iff (bottomUp_after rules · e)).trans (exists_congr fun k => ?_)
    refine and_congr_right fun hk => ?_
    rw [hstill k hk]
    refine and_congr_right fun hsame => and_congr ?_ (by rw [hsame.1])
    exact forall₂_congr fun j hj => hchanged j (Nat.lt_trans hj hk)
  · refine (Strategy.run_eq_error_iff (bottomUp_after rules · e)).trans (and_congr_left fun _ => ?_)
    exact forall₂_congr hchanged

theorem keepsExact_wrap (inner outer : String) : (wrap inner outer).KeepsExact := by
  intro e new he h
  unfold wrap at h
  dsimp only at h
  split at h
  · split at h
    · cases h
      simpa [Expr.function, make, isExact, allExact] using he
    · cases h
  · cases h

theorem keepsExact_peel (outer : String) : (peel outer).KeepsExact := by
  intro e new he h
  unfold peel at h
  dsimp only at h
  split at h
  · split at h
    · cases h
      simpa [isExact, allExact] using he
    · cases h
  · cases h

/-- Of `p(a())` the first rule makes `p(p(a()))` and the second one `p(a())` again: the pass
reports a change, and no limit is high enough. -/
theorem pass_reports_steps_undone :
    ∃ rules e, rules = [wrap "a" "p", peel "p"] ∧ e = Expr.function "p" [.function "a" [] ∅] ∅ ∧
      Strategy.bottomUp (.first rules) e = .ok ⟨e, true⟩ ∧
      ∀ limit, Strategy.run (.bottomUp (.first rules)) limit e =
        .error (.nonTerminating (max limit 1) e) := by
  obtain ⟨rules, hrules⟩ : ∃ rules, rules = [wrap "a" "p", peel "p"] := ⟨_, rfl⟩
  obtain ⟨e, he⟩ : ∃ e, e = Expr.function "p" [.function "a" [] ∅] ∅ := ⟨_, rfl⟩
  have hsame : (sweep rules e).expr = e := by rw [hrules, he]; rfl
  have hfixed : ∀ k, after rules k e = e := fun k => Function.iterate_fixed hsame k
  have hundone : Undone rules e := by
    refine ⟨hsame, .function "a" [] ∅, by rw [hrules, he]; exact List.mem_cons_self, fun h => ?_⟩
    rw [hrules] at h
    exact List.cons_ne_nil _ _ (congrArg Expr.args h)
  have hexact : ∀ rule ∈ rules, rule.KeepsExact := by
    intro rule h
    rw [hrules, List.mem_cons, List.mem_singleton] at h
    rcases h with rfl | rfl
    · exact keepsExact_wrap _ _
    · exact keepsExact_peel _
  have hreports := fun limit => @pass_reports_steps rules e limit fun k _ =>
    staysExact_after hexact (show e.isExact = true by rw [he]; rfl) k
  refine ⟨rules, e, hrules, he, ?_, fun limit => ?_⟩
  · obtain ⟨⟨e', changed⟩, hpass, heq, hc⟩ := (hreports 1).1 0 (by decide)
    have heq : e' = e := heq.trans (hfixed 1)
    have hc : changed = true := hc.mpr (.inr hundone)
    rw [heq, hc] at hpass
    exact hpass
  · refine ((hreports limit).2.2 _).mpr ⟨fun k _ => ?_, ?_⟩
    · rw [hfixed k]
      exact .inr hundone
    · rw [hfixed]

end Rule

end QueryExpr
