import Mathlib.Data.List.Chain
import Mathlib.Data.List.Nodup
import QueryExpr.Proofs.Expr.Parts

/-!
# Where things stand in an expression

A place is a way down from the top, argument by argument. Equal values and nodes may stand in many
places of an expression, and a node that is shared does: what a view meets are not nodes but what
stands at the places. In the order of places a node comes before its arguments, and what is to the
left of something, with all below it, comes before it.

* `mem_occurrences`: the occurrences of an expression are what stands at its places.
* `sorted_occurrences`: they are in the order of places, so each is there once.
* `isChain_places`: **the next place is an argument of the last one or of one above it.**
* `walk_eq`: **the walk meets the occurrences in order**, each at the depth of its place.
-/

namespace QueryExpr

namespace Expr

/-- A way down from the top of an expression: the argument to go into, again and again. -/
abbrev Place := List Nat

/-- What stands at a place. -/
def at? : Expr → Place → Option Expr
  | e, [] => some e
  | e, k :: below => e.args[k]?.bind fun arg => arg.at? below

theorem at?_append (e : Expr) (p q : Place) : e.at? (p ++ q) = (e.at? p).bind (·.at? q) := by
  induction p generalizing e with
  | nil => rfl
  | cons k below ih =>
    rw [List.cons_append, at?, at?, Option.bind_assoc]
    exact congrArg (e.args[k]?.bind ·) (funext ih)

/-! ## Occurrences -/

mutual

/-- Every value and node of an expression with its place, itself first, and then what is in its
arguments from left to right. -/
def occurrences : Expr → List (Place × Expr)
  | value v => [([], value v)]
  | node o args c => ([], node o args c) :: occurrencesFrom 0 args

/-- What is in the arguments from number `k` on. -/
def occurrencesFrom (k : Nat) : List Expr → List (Place × Expr)
  | [] => []
  | e :: rest => e.occurrences.map (fun x => (k :: x.1, x.2)) ++ occurrencesFrom (k + 1) rest

end

/-- The places of an expression, in the order of its occurrences. -/
def places (e : Expr) : List Place := e.occurrences.map Prod.fst

/-- The first occurrence is the expression itself; the others are in its arguments. -/
theorem occurrences_eq (e : Expr) : e.occurrences = ([], e) :: occurrencesFrom 0 e.args := by
  cases e with
  | value v => rw [occurrences, args, occurrencesFrom]
  | node o args c => rw [occurrences, Expr.args]

theorem mem_occurrencesFrom {k : Nat} {es : List Expr} {p : Place} {x : Expr} :
    (p, x) ∈ occurrencesFrom k es ↔
      ∃ i e q, es[i]? = some e ∧ (q, x) ∈ e.occurrences ∧ p = (k + i) :: q := by
  induction es generalizing k with
  | nil => simp [occurrencesFrom]
  | cons e rest ih =>
    rw [occurrencesFrom, List.mem_append, ih, List.mem_map]
    constructor
    · rintro (⟨⟨q, y⟩, hq, heq⟩ | ⟨i, f, q, hf, hq, rfl⟩)
      · cases heq
        exact ⟨0, e, q, rfl, hq, rfl⟩
      · exact ⟨i + 1, f, q, hf, hq, by rw [Nat.add_right_comm, Nat.add_assoc]⟩
    · rintro ⟨_ | i, f, q, hf, hq, rfl⟩
      · cases hf
        exact .inl ⟨(q, x), hq, rfl⟩
      · exact .inr ⟨i, f, q, hf, hq, by rw [Nat.add_right_comm, Nat.add_assoc]⟩

/-- **The occurrences are what stands at the places.** -/
theorem mem_occurrences {e x : Expr} {p : Place} :
    (p, x) ∈ e.occurrences ↔ e.at? p = some x := by
  induction e using Expr.induct generalizing p with
  | value v =>
    rw [occurrences, List.mem_singleton]
    cases p with
    | nil => simp [at?, eq_comm]
    | cons k below => simp [at?, args]
  | node o args c ih =>
    rw [occurrences, List.mem_cons, mem_occurrencesFrom]
    cases p with
    | nil => simp [at?, eq_comm]
    | cons k below =>
      simp only [at?, Expr.args, Option.bind_eq_some_iff, Prod.mk.injEq, List.cons.injEq,
        reduceCtorEq, false_and, false_or, Nat.zero_add]
      constructor
      · rintro ⟨i, arg, q, harg, hq, rfl, rfl⟩
        exact ⟨arg, harg, (ih arg (List.mem_of_getElem? harg)).mp hq⟩
      · rintro ⟨arg, harg, hx⟩
        exact ⟨k, arg, below, harg, (ih arg (List.mem_of_getElem? harg)).mpr hx, rfl, rfl⟩

theorem mem_places {e : Expr} {p : Place} : p ∈ e.places ↔ ∃ x, e.at? p = some x := by
  simp [places, mem_occurrences]

/-- Everything above a place is a place. -/
theorem mem_places_of_append {e : Expr} {p q : Place} (h : p ++ q ∈ e.places) : p ∈ e.places := by
  obtain ⟨x, hx⟩ := mem_places.mp h
  rw [at?_append, Option.bind_eq_some_iff] at hx
  obtain ⟨y, hy, -⟩ := hx
  exact mem_places.mpr ⟨y, hy⟩

/-! ## Order -/

/-- Occurrences in one argument come before those in the next one. -/
theorem sorted_occurrencesFrom {es : List Expr}
    (h : ∀ e ∈ es, e.occurrences.Pairwise fun x y => x.1 < y.1) (k : Nat) :
    (occurrencesFrom k es).Pairwise fun x y => x.1 < y.1 := by
  induction es generalizing k with
  | nil => rw [occurrencesFrom]; exact .nil
  | cons e rest ih =>
    obtain ⟨he, hrest⟩ := List.forall_mem_cons.mp h
    rw [occurrencesFrom, List.pairwise_append, List.pairwise_map]
    refine ⟨he.imp fun hlt => List.cons_lt_cons_iff.mpr (.inr ⟨rfl, hlt⟩), ih hrest (k + 1), ?_⟩
    rintro x hx ⟨p, y⟩ hy
    obtain ⟨x', -, rfl⟩ := List.mem_map.mp hx
    obtain ⟨i, f, q, -, -, rfl⟩ := mem_occurrencesFrom.mp hy
    exact List.cons_lt_cons_iff.mpr (.inl (by omega))

/-- **The occurrences are in the order of places.** -/
theorem sorted_occurrences (e : Expr) : e.occurrences.Pairwise fun x y => x.1 < y.1 := by
  induction e using Expr.induct with
  | value v => rw [occurrences]; exact List.pairwise_singleton _ _
  | node o args c ih =>
    rw [occurrences, List.pairwise_cons]
    refine ⟨?_, sorted_occurrencesFrom ih 0⟩
    rintro ⟨p, x⟩ hx
    obtain ⟨i, f, q, -, -, rfl⟩ := mem_occurrencesFrom.mp hx
    exact List.nil_lt_cons _ _

theorem sorted_places (e : Expr) : e.places.Pairwise (· < ·) := by
  rw [places, List.pairwise_map]
  exact sorted_occurrences e

/-- No place is there twice. -/
theorem nodup_places (e : Expr) : e.places.Nodup := (sorted_places e).nodup

/-- The next place is one argument down from the last one or from one above it. -/
def Follows (last next : Place) : Prop := ∃ above k, above <+: last ∧ next = above ++ [k]

/-- The first place in an argument follows any other place, and the rest goes on in it. -/
theorem isChain_occurrencesFrom {es : List Expr} (h : ∀ e ∈ es, List.IsChain Follows e.places)
    (k : Nat) (last : Place) :
    List.IsChain Follows (last :: (occurrencesFrom k es).map Prod.fst) := by
  induction es generalizing k last with
  | nil => rw [occurrencesFrom]; exact .singleton _
  | cons e rest ih =>
    obtain ⟨he, hrest⟩ := List.forall_mem_cons.mp h
    have hinner : List.IsChain Follows (e.places.map (k :: ·)) := by
      rw [List.isChain_map]
      refine he.imp ?_
      rintro q p ⟨above, j, habove, rfl⟩
      exact ⟨k :: above, j, List.cons_prefix_cons.mpr ⟨rfl, habove⟩, rfl⟩
    have hall : (occurrencesFrom k (e :: rest)).map Prod.fst =
        e.places.map (k :: ·) ++ (occurrencesFrom (k + 1) rest).map Prod.fst := by
      simp [occurrencesFrom, places]
    rw [hall, List.isChain_cons, List.isChain_append]
    refine ⟨?_, hinner, (ih hrest (k + 1) []).of_cons, ?_⟩
    · intro next hnext
      rw [places, occurrences_eq] at hnext
      cases hnext
      exact ⟨[], k, List.nil_prefix, rfl⟩
    · intro q _
      exact (List.isChain_cons.mp (ih hrest (k + 1) q)).1

/-- **Each place follows the one before it.** -/
theorem isChain_places (e : Expr) : List.IsChain Follows e.places := by
  induction e using Expr.induct with
  | value v => rw [places, occurrences]; exact .singleton _
  | node o args c ih =>
    rw [places, occurrences]
    exact isChain_occurrencesFrom ih 0 []

/-! ## Visits -/

theorem allVisitsFrom_eq_map {es : List Expr}
    (h : ∀ e ∈ es, ∀ depth,
      e.visitsFrom depth = e.occurrences.map fun x => (depth + x.1.length, x.2)) (depth k : Nat) :
    allVisitsFrom (depth + 1) es =
      (occurrencesFrom k es).map fun x => (depth + x.1.length, x.2) := by
  induction es generalizing k with
  | nil => rfl
  | cons e rest ih =>
    obtain ⟨he, hrest⟩ := List.forall_mem_cons.mp h
    rw [allVisitsFrom, occurrencesFrom, List.map_append, List.map_map, he, ih hrest (k + 1)]
    simp only [Function.comp_def, List.length_cons, Nat.add_assoc, Nat.add_comm 1]

/-- The visits are the occurrences, each at the depth of its place. -/
theorem visitsFrom_eq (depth : Nat) (e : Expr) :
    e.visitsFrom depth = e.occurrences.map fun x => (depth + x.1.length, x.2) := by
  induction e using Expr.induct generalizing depth with
  | value v => rfl
  | node o args c ih =>
    rw [visitsFrom, occurrences, List.map_cons, allVisitsFrom_eq_map ih depth 0]
    rfl

/-- The walk with a stack meets what is pending in the order of the recursion. -/
theorem walkFrom_eq (pending : List (Nat × Expr)) : walkFrom pending = visitsOf pending := by
  induction pending using walkFrom.induct with
  | case1 => rw [walkFrom]; rfl
  | case2 depth e pending ih => rw [walkFrom, visitsOf_cons, ih]

/-- **The walk meets the occurrences in order**, each at the depth of its place. -/
theorem walk_eq (e : Expr) : e.walk = e.occurrences.map fun x => (x.1.length, x.2) := by
  rw [walk, walkFrom_eq, visitsOf, List.flatMap_singleton, visitsFrom_eq]
  simp only [Nat.zero_add]

end Expr

end QueryExpr
