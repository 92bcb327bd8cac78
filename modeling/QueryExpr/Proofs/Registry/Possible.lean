import QueryExpr.Expr.Build
import QueryExpr.Proofs.Registry.Application

/-!
# Categories that a node can carry

Registration makes sure that some node could carry the category of an entry. It does not look
at the categories of a fixed result in this way: such a result only has to hold the one
category that the family of the operator asks for. So a node carries at most one category of
each exclusive group exactly if the result rule of its constructor says so
(`Constructor.isConsistent_build`), whatever its arguments are.

* `ReachableBy`: registries made by requests of which the granted ones meet a condition.
* `ReachableBy.constructors`: **the invariant of their entries**, if the condition is one on
  constructors. `ReachableBy.declaresPossible`: that possible results are declared.
* `apply_possible`: **which nodes carry a possible set**, and what follows for dispatch on them.
-/

namespace QueryExpr

open QueryExpr.Expr

/-- The set is closed and holds at most one category of each exclusive group. -/
structure Categories.IsPossible (s : Categories) : Prop where
  closed : s.closure = s
  consistent : s.isConsistent = true

theorem Categories.isConsistent_closure (s : Categories) :
    s.closure.isConsistent = s.isConsistent := by
  rw [isConsistent, isConsistent, closure_closure]

/-- Whether the nodes that are built by the rule carry a possible set. -/
def ResultRule.isPossible : ResultRule → Bool
  | numeric | boolean => true
  | fixed c => c.isConsistent

namespace Constructor

variable {c : Constructor} {args : List Expr}

theorem closure_build (c : Constructor) (args : List Expr) :
    (c.build args).categories.closure = (c.build args).categories :=
  Categories.closure_closure _

/-- **A node carries a possible set exactly if its result rule declares one**, whatever the
arguments are. -/
theorem isConsistent_build (c : Constructor) (args : List Expr) :
    (c.build args).categories.isConsistent = c.result.isPossible := by
  have hc : (c.build args).categories = (c.resultCategories (c.arrange args)).closure := rfl
  rw [hc, Categories.isConsistent_closure]
  cases hr : c.result with
  | numeric =>
    -- one of three shapes and one of four kinds, which exclude nothing of each other
    simp only [resultCategories, hr, ResultRule.isPossible]
    cases shapeOf (c.arrange args) <;>
      rcases Registry.numericKind_cases c.operation (c.arrange args) with hk | hk | hk | hk <;>
      rw [hk] <;> decide
  | boolean =>
    simp only [resultCategories, hr, ResultRule.isPossible]
    cases shapeOf (c.arrange args) <;> decide
  | fixed categories => simp only [resultCategories, hr, ResultRule.isPossible]

end Constructor

/-- The request asks for nodes that carry a possible set. -/
def Request.DeclaresPossible (q : Request) : Prop := q.constructor.result.isPossible = true

namespace Registry

variable {r : Registry} {o : Operator} {operands : List Expr} {e : Expr} {leaf : Expr → Prop}
  {P : Request → Prop}

/-! ## What requests declare -/

/-- Requests made the registry from the empty one or the standard one, and those that were
granted meet a condition. -/
inductive ReachableBy (P : Request → Prop) : Registry → Prop
  | empty : ReachableBy P empty
  | standard : ReachableBy P standard
  | after {r : Registry} (q : Request) (h : ReachableBy P r)
    (hq : ∀ r', q.attempt r = .ok r' → P q) : ReachableBy P (r.after q)

theorem ReachableBy.reachable (h : ReachableBy P r) : Reachable r := by
  induction h with
  | empty => exact .empty
  | standard => exact .standard
  | after q _ _ ih => exact .after q ih

/-- **What granted requests that meet the condition keep** is had by every registry they made. -/
theorem ReachableBy.invariant {I : Registry → Prop} (h : ReachableBy P r)
    (hkept : ∀ r r' q, P q → I r → q.attempt r = .ok r' → I r') (hempty : I Registry.empty)
    (hstandard : I Registry.standard) : I r := by
  induction h with
  | empty => exact hempty
  | standard => exact hstandard
  | @after r q _ hq ih =>
    unfold Registry.after
    cases ha : q.attempt r with
    | error err => exact ih
    | ok r' => exact hkept r r' q (hq r' ha) ih ha

section Constructors

variable {C : Constructor → Prop}

/-- What the standard constructors meet is met by all that the standard registry binds. -/
theorem standard_constructors (hswapped : ∀ c, C c → C c.swapped)
    (hstandard : ∀ o, C (standardConstructor o)) (o : Operator) (side : Side) :
    ∀ entry ∈ standard.entries o side, C entry.constructor := by
  intro entry hentry
  rw [standard_entries] at hentry
  cases side with
  | left =>
    rw [List.mem_singleton.1 hentry]
    exact hstandard o
  | right =>
    rw [standardEntries] at hentry
    split at hentry
    · rw [List.mem_singleton.1 hentry]
      exact hswapped _ (hstandard o)
    · cases hentry

/-- **The invariant**: a condition on constructors for which the order of operands does not matter
is met by all that is bound, if the standard ones and those that are granted meet it. -/
theorem ReachableBy.constructors (h : ReachableBy (fun q => C q.constructor) r)
    (hswapped : ∀ c, C c → C c.swapped) (hstandard : ∀ o, C (standardConstructor o)) :
    ∀ o side, ∀ entry ∈ r.entries o side, C entry.constructor := by
  refine h.invariant (I := fun r => ∀ o side, ∀ entry ∈ r.entries o side, C entry.constructor) ?_
    (fun _ _ _ hentry => nomatch hentry) (standard_constructors hswapped hstandard)
  intro r r' q hq hr ha o side entry hentry
  rcases mem_of_attempt ha hentry with hold | ⟨-, rfl⟩
  · exact hr o side entry hold
  · -- the entry that a request derives has its constructor with the operands exchanged
    unfold Request.entry
    split
    · exact hq
    · exact hswapped _ hq

end Constructors

/-- Every constructor of the registry builds nodes that carry a possible set. -/
def DeclaresPossible (r : Registry) : Prop :=
  ∀ o side, ∀ entry ∈ r.entries o side, entry.constructor.result.isPossible = true

/-- If what is granted declares possible results, all that is bound does. -/
theorem ReachableBy.declaresPossible (h : ReachableBy Request.DeclaresPossible r) :
    r.DeclaresPossible := by
  refine h.constructors (C := fun c => c.result.isPossible = true) (fun _ hc => hc) fun o => ?_
  cases o with
  | not => rfl
  | binary op => cases op <;> rfl

/-! ## What is built -/

/-- The set of a node that is built is closed, and it is possible exactly if the constructor that
the operands choose declares a possible one. -/
theorem consistent_apply_iff (h : r.apply o operands = .ok e) :
    e.categories.closure = e.categories ∧ ∃ c args, r.choose? o operands = some (c, args) ∧
      (e.categories.isConsistent = true ↔ c.result.isPossible = true) := by
  obtain ⟨-, c, args, hchoose, rfl⟩ := apply_eq_ok.1 h
  exact ⟨c.closure_build args, c, args, hchoose, by rw [c.isConsistent_build]⟩

theorem DeclaresPossible.apply (hr : r.DeclaresPossible) (h : r.apply o operands = .ok e) :
    e.categories.IsPossible := by
  obtain ⟨hclosed, c, args, hchoose, hiff⟩ := consistent_apply_iff h
  obtain ⟨o', side, -, entry, hentry, rfl⟩ := entry_of_choose? hchoose
  exact ⟨hclosed, hiff.2 (hr o' side entry hentry)⟩

/-- Trees over leaves that carry possible sets carry possible sets. -/
theorem DeclaresPossible.built (hr : r.DeclaresPossible)
    (hleaf : ∀ x, leaf x → x.categories.IsPossible) (h : Built r leaf e) :
    e.categories.IsPossible := by
  cases h with
  | leaf h => exact hleaf e h
  | @binary o left right _ _ _ h =>
    have happly : r.apply o [left, right] = .ok e := h
    exact hr.apply happly
  | @unary o operand _ _ h =>
    have happly : r.apply o [operand] = .ok e := h
    exact hr.apply happly

/-- What chooses operators carries a consistent set if the expression does. -/
theorem consistent_dispatchCategories (h : e.categories.isConsistent = true) :
    e.dispatchCategories.isConsistent = true := by
  cases e with
  | value v =>
    show (∅ : Categories).isConsistent = true
    decide
  | node o args c => exact h

/-- **Which nodes carry a possible set.** A node that a reachable registry builds carries a closed
set, which holds at most one category of each exclusive group exactly if the constructor that
its operands choose declares such a result. Registration does not ask for this. In a registry
where all that was granted declares possible results, every node carries a possible set, and so
on every tree over leaves with possible sets at most one entry is the most specific one. -/
theorem apply_possible (h : Reachable r) :
    (∀ o operands e, r.apply o operands = .ok e →
      e.categories.closure = e.categories ∧ ∃ c args, r.choose? o operands = some (c, args) ∧
        (e.categories.isConsistent = true ↔ c.result.isPossible = true)) ∧
    (ReachableBy Request.DeclaresPossible r →
      (∀ o operands e, r.apply o operands = .ok e → e.categories.IsPossible) ∧
      ∀ leaf : Expr → Prop, (∀ x, leaf x → x.categories.IsPossible) → ∀ e, Built r leaf e →
        e.categories.IsPossible ∧ ∀ o side d d',
          IsMostSpecific (r.entries o side) e.dispatchCategories d →
          IsMostSpecific (r.entries o side) e.dispatchCategories d' → d = d') := by
  refine ⟨fun o operands e => consistent_apply_iff, fun hby => ⟨?_, ?_⟩⟩
  · exact fun o operands e happly => hby.declaresPossible.apply happly
  · intro leaf hleaf e he
    have hpossible := hby.declaresPossible.built hleaf he
    refine ⟨hpossible, fun o side d d' hd hd' => ?_⟩
    exact (reachable_unambiguous h o side).eq_of_isMostSpecific
      (consistent_dispatchCategories hpossible.consistent) hd hd'

/-- A sum of integers of which the result is a number and a text at once. -/
def impossibleSum : Request :=
  ⟨.binary .add, .left, {.integer}, ⟨.function "f", .fixed (.ofList [.numeric, .string]), false⟩⟩

/-- The request is granted, and a sum of integers then carries two categories of one group. A sum
of the standard registry does not. -/
theorem apply_possible_sum :
    (∃ r, impossibleSum.attempt standard = .ok r) ∧
    (∃ e, (standard.after impossibleSum).apply (.binary .add)
        [scalar .int32 (.int 1), scalar .int32 (.int 2)] = .ok e ∧
      e.categories.isConsistent = false) ∧
    ∃ e, standard.apply (.binary .add) [scalar .int32 (.int 1), scalar .int32 (.int 2)] = .ok e ∧
      e.categories.IsPossible := by
  refine ⟨⟨_, rfl⟩, ?_, ?_⟩
  · have hsum : ∃ e, (standard.after impossibleSum).apply (.binary .add)
        [scalar .int32 (.int 1), scalar .int32 (.int 2)] = .ok e := ⟨_, rfl⟩
    obtain ⟨e, he⟩ := hsum
    obtain ⟨-, c, args, hc, hiff⟩ := (apply_possible (Reachable.standard.after _)).1 _ _ _ he
    have hchosen : (standard.after impossibleSum).choose? (.binary .add)
        [scalar .int32 (.int 1), scalar .int32 (.int 2)] =
        some (impossibleSum.constructor, [scalar .int32 (.int 1), scalar .int32 (.int 2)]) := rfl
    rw [hchosen] at hc
    cases hc
    refine ⟨e, he, ?_⟩
    rw [Bool.eq_false_iff, ne_eq, hiff]
    decide
  · have hsum : ∃ e, standard.apply (.binary .add)
        [scalar .int32 (.int 1), scalar .int32 (.int 2)] = .ok e := ⟨_, rfl⟩
    obtain ⟨e, he⟩ := hsum
    exact ⟨e, he, ((apply_possible .standard).2 .standard).1 _ _ _ he⟩

end Registry

end QueryExpr
