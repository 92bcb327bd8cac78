import QueryExpr.Proofs.Registry.Explicit
import QueryExpr.Proofs.Registry.Possible

/-!
# The right side mirrors the left one

A registration on the left side of a reversible operator leaves an entry on the same category on
the right side: the one derived from it, unless an explicit one is there. The two lists stay in
step through every history, and where nothing was bound to the right side explicitly, a right
operand chooses what the left list has for it, with the arguments exchanged. As a right operand is
also given first, the exchange is undone when the node is built: `5 - x` stays `5 - x`.

* `Mirrored`: the two lists of an operator in step. `mirrored_kept`: no request brings them out.
* `resolve?_mirrored`: what a right operand chooses if all that is bound there is derived.
* `right_mirrors_left`: the same of every reachable registry, with the nodes that follow.
-/

namespace QueryExpr

open QueryExpr.Expr

/-- The entry that is derived from one on the left side. -/
def Entry.mirror (e : Entry) : Entry := ⟨e.category, e.constructor.swapped, true⟩

namespace Registry

/-- The lists of the left and of the right side in step. -/
structure Mirrored (r : Registry) : Prop where
  explicit : ∀ o, ∀ e ∈ r.entries o .left, e.derived = false
  covered : ∀ o, o.isReversible = true → ∀ category,
    category ∈ (r.entries o .left).map Entry.category →
      category ∈ (r.entries o .right).map Entry.category
  derived : ∀ o, ∀ e ∈ r.entries o .right, e.derived = true →
    ∃ e', bound? (r.entries o .left) e.category = some e' ∧ e = e'.mirror
  absent : ∀ o, o.isReversible = false → r.entries o .right = []

variable {r r' : Registry} {q : Request} {o : Operator} {right node : Expr}

/-! ## Every history keeps the two sides in step -/

theorem mirrored_empty : Mirrored empty where
  explicit _ _ h := nomatch h
  covered _ _ _ h := nomatch h
  derived _ _ h := nomatch h
  absent _ _ := rfl

/-- What a request derives mirrors what it leaves on the left side. -/
theorem entry_right_of_attempt (h : q.attempt r = .ok r') (hq : q.side = .left) :
    ∃ e, bound? (r'.entries q.operator .left) q.category.closure = some e ∧
      q.entry .right = e.mirror := by
  have hi := (attempt_self h).2
  rw [Request.entry_self, hq] at hi
  rw [Request.entry_right hq]
  rcases bound?_of_insert hi rfl with ⟨hb, -⟩ | ⟨e, -, hb, hc⟩
  · exact ⟨_, hb, rfl⟩
  · -- an equal entry was there before
    have hcat := (bound?_some hb).2
    exact ⟨e, hb, by rw [Entry.mirror, hc, hcat]⟩

/-- **No request brings the two sides out of step.** -/
theorem mirrored_kept : Kept Mirrored := by
  intro r r' q hr ha
  obtain ⟨hs, hlists⟩ := attempt_eq_ok.mp ha
  constructor
  · exact Kept.explicit_left r r' q hr.explicit ha
  · intro o hrev category hleft
    rw [mem_category_attempt ha] at hleft ⊢
    -- what a request adds on the left side it adds on the right one too
    exact hleft.imp (fun h => ⟨⟨h.1.1, Or.inr ⟨rfl, hrev⟩⟩, h.2⟩) (hr.covered o hrev category)
  · intro o e he hd
    rcases mem_of_attempt ha he with he | ⟨⟨rfl, -⟩, rfl⟩
    · obtain ⟨e', hb, hmirror⟩ := hr.derived o e he hd
      have hexplicit : e'.derived = false := hr.explicit o e' (bound?_some hb).1
      exact ⟨e', Kept.explicit_bound o .left _ hexplicit r r' q hb ha, hmirror⟩
    · -- a derived entry comes from a request on the left side
      have hq : q.side = .left := by
        cases hside : q.side with
        | left => rfl
        | right =>
          rw [← hside, Request.entry_self] at hd
          cases hd
      rw [Request.entry_category]
      exact entry_right_of_attempt ha hq
  · intro o hrev
    rw [(hlists o .right).2, hr.absent o hrev]
    rintro ⟨rfl, hq | ⟨-, hrev'⟩⟩
    · rw [hs.1 hq.symm] at hrev
      cases hrev
    · rw [hrev'] at hrev
      cases hrev

/-- **The two sides are in step in every reachable registry.** -/
theorem Reachable.mirrored (h : Reachable r) : r.Mirrored :=
  h.invariant mirrored_kept mirrored_empty

/-! ## Where all on the right side is derived -/

/-- Without explicit requests for the right side all entries there are derived. -/
theorem derived_of_left (h : ReachableBy (fun q => q.side = .left) r) :
    ∀ o, ∀ e ∈ r.entries o .right, e.derived = true := by
  refine h.invariant (I := fun r => ∀ o, ∀ e ∈ r.entries o .right, e.derived = true) ?_
    (fun o e he => nomatch he) ?_
  · intro r r' q hq hr ha o e he
    rcases mem_of_attempt ha he with he | ⟨-, rfl⟩
    · exact hr o e he
    · rw [Request.entry_right hq]
  · intro o e he
    rw [standard_entries, standardEntries] at he
    split at he
    · rw [List.mem_singleton.mp he]
    · cases he

/-- If all on the right side is derived, it has the exchanged constructors of the left side. -/
theorem Mirrored.bound?_right (hm : r.Mirrored) (hrev : o.isReversible = true)
    (hd : ∀ e ∈ r.entries o .right, e.derived = true) (category : Categories) :
    (bound? (r.entries o .right) category).map Entry.constructor =
      ((bound? (r.entries o .left) category).map Entry.constructor).map Constructor.swapped := by
  cases hb : bound? (r.entries o .right) category with
  | some e =>
    obtain ⟨he, rfl⟩ := bound?_some hb
    obtain ⟨e', hb', hmirror⟩ := hm.derived o e he (hd e he)
    rw [hb', hmirror]
    rfl
  | none =>
    have hleft : bound? (r.entries o .left) category = none :=
      bound?_none.mpr fun h => bound?_none.mp hb (hm.covered o hrev category h)
    rw [hleft]
    rfl

/-- **A right operand chooses what a left one would**, with the arguments exchanged. -/
theorem resolve?_mirrored (h : ReachableBy (fun q => q.side = .left) r)
    (hrev : o.isReversible = true) {receiver : Categories} (hr : receiver.isConsistent = true) :
    r.resolve? o .right receiver = (r.resolve? o .left receiver).map Constructor.swapped :=
  resolve?_of_bindings h.reachable h.reachable hr
    (h.reachable.mirrored.bound?_right hrev (derived_of_left h o))

/-- Nothing is chosen by what carries no category. -/
theorem resolve?_empty (h : Reachable r) (o : Operator) (side : Side) :
    r.resolve? o side ∅ = none := by
  rw [resolve?_eq_none]
  intro e he hs
  refine ((reachable_unambiguous h o side).possible _ (List.mem_map_of_mem he)).1 ?_
  apply Categories.ext
  intro c
  cases hc : e.category.has c with
  | false => rw [Categories.has_empty]
  | true => exact (hs c hc).symm

theorem arity_of_isReversible (hrev : o.isReversible = true) : o.arity = 2 := by
  cases o with
  | binary op => rfl
  | not => cases hrev

/-- Exchanging the arguments of the exchanged constructor changes nothing. -/
theorem swapped_build (c : Constructor) (a b : Expr) : c.swapped.build [b, a] = c.build [a, b] := by
  obtain ⟨operation, result, swaps⟩ := c
  cases swaps <;> rfl

/-- **What a raw value and a node choose**: the left constructor for the categories of the node,
with the arguments exchanged twice. -/
theorem choose?_value (h : ReachableBy (fun q => q.side = .left) r) (hrev : o.isReversible = true)
    (hr : right.dispatchCategories.isConsistent = true) (v : Value) :
    r.choose? o [.value v, right] = (r.resolve? o .left right.dispatchCategories).map fun c =>
      (c.swapped, [right, .value v]) := by
  have hv : r.resolve? o .left (Expr.value v).dispatchCategories = none :=
    resolve?_empty h.reachable o .left
  rw [choose?, if_pos (arity_of_isReversible hrev)]
  simp only [hv]
  rw [resolveRight?, if_pos hrev, resolve?_mirrored h hrev hr, Option.map_map]
  rfl

/-- The arguments of what is built, in the order of the operands unless the constructor exchanges
them. -/
theorem args_build (c : Constructor) (a b : Expr) :
    (c.build [a, b]).args = if c.swaps then [b, a] else [a, b] := rfl

theorem dispatchCategories_of_node (h : node.isValue = false) :
    node.dispatchCategories = node.categories := by
  cases node with
  | value v => cases h
  | node operation args cs => rfl

/-- **What is built of a raw value and a node**: what the left constructor for the categories of the
node builds of the two as they are written. -/
theorem applyBinary_value (h : ReachableBy (fun q => q.side = .left) r)
    (hrev : o.isReversible = true) (hn : node.isValue = false)
    (hc : node.categories.isConsistent = true) (v : Value) (e : Expr) :
    r.applyBinary o (.value v) node = .ok e ↔
      (isLegalOperand o.family (.value v) = true ∧ isLegalOperand o.family node = true) ∧
      ∃ c, r.resolve? o .left node.categories = some c ∧ e = c.build [.value v, node] := by
  have hdispatch := dispatchCategories_of_node hn
  have hchoose := choose?_value h hrev (hdispatch ▸ hc) v
  have happly : r.applyBinary o (.value v) node = r.apply o [.value v, node] := rfl
  rw [happly, apply_eq_ok, hchoose, hdispatch, List.forall_mem_cons, List.forall_mem_singleton]
  refine and_congr_right fun _ => ⟨?_, ?_⟩
  · rintro ⟨c', args, hsome, rfl⟩
    obtain ⟨c, hresolved, hpair⟩ := Option.map_eq_some_iff.mp hsome
    cases hpair
    exact ⟨c, hresolved, swapped_build c _ _⟩
  · rintro ⟨c, hresolved, rfl⟩
    exact ⟨c.swapped, [node, .value v], by rw [hresolved]; rfl, (swapped_build c _ _).symm⟩

/-- **The right side mirrors the left one.** In a reachable registry every category on the left
side of a reversible operator is on its right side too, every derived entry there has the exchanged
constructor of the left entry on its category, and an operator that is not reversible has no entry
there. If the right side was never asked for, a raw value and a node are joined by the constructor
that the left list has for the node, and the node that is built has the two as they were written,
or exchanged if this constructor exchanges its arguments. -/
theorem right_mirrors_left (h : Reachable r) :
    (∀ o, o.isReversible = true → ∀ e ∈ r.entries o .left,
      ∃ e' ∈ r.entries o .right, e'.category = e.category) ∧
    (∀ o, ∀ e' ∈ r.entries o .right, e'.derived = true →
      ∃ e, bound? (r.entries o .left) e'.category = some e ∧
        e'.constructor = e.constructor.swapped) ∧
    (∀ o, o.isReversible = false → r.entries o .right = []) ∧
    (ReachableBy (fun q => q.side = .left) r → ∀ o v right, o.isReversible = true →
      right.isValue = false → right.categories.isConsistent = true →
      r.resolveRight? o right = (r.resolve? o .left right.categories).map Constructor.swapped ∧
      ∀ e, r.applyBinary o (.value v) right = .ok e ↔
        (isLegalOperand o.family (.value v) = true ∧ isLegalOperand o.family right = true) ∧
        ∃ c, r.resolve? o .left right.categories = some c ∧ e = c.build [.value v, right] ∧
          e.operation? = some c.operation ∧
          e.args = if c.swaps then [right, .value v] else [.value v, right]) := by
  have hm := h.mirrored
  refine ⟨fun o hrev e he => ?_, fun o e' he' hd => ?_, hm.absent, ?_⟩
  · exact List.mem_map.mp (hm.covered o hrev _ (List.mem_map_of_mem he))
  · obtain ⟨e, hb, rfl⟩ := hm.derived o e' he' hd
    exact ⟨e, hb, rfl⟩
  · intro hleft o v right hrev hnode hcons
    refine ⟨?_, fun e => ?_⟩
    · rw [resolveRight?, if_pos hrev, dispatchCategories_of_node hnode,
        resolve?_mirrored hleft hrev hcons]
    · rw [applyBinary_value hleft hrev hnode hcons]
      refine and_congr_right fun _ => exists_congr fun c => and_congr_right fun _ => ⟨?_, And.left⟩
      rintro rfl
      exact ⟨rfl, rfl, args_build c _ _⟩

/-- Subtraction of integers that takes its second argument away from its first one, and is given
them in the other order. -/
def subtractExchanged : Request :=
  ⟨.binary .subtract, .left, {.integer}, ⟨.binary .subtract, .numeric, true⟩⟩

/-- With this request granted, a raw five and an integer are exchanged; a raw five and a floating
number, for which the standard entry is chosen, stay as they are. -/
theorem right_mirrors_left_difference :
    (∃ e, (standard.after subtractExchanged).applyBinary (.binary .subtract) (.value (.int 5))
        (scalar .int32 (.int 3)) = .ok e ∧
      e.args = [scalar .int32 (.int 3), .value (.int 5)]) ∧
    ∃ e, (standard.after subtractExchanged).applyBinary (.binary .subtract) (.value (.int 5))
        (scalar .float64 .null) = .ok e ∧
      e.args = [.value (.int 5), scalar .float64 .null] := by
  have hr : Reachable (standard.after subtractExchanged) := .after _ .standard
  have hleft : ReachableBy (fun q => q.side = .left) (standard.after subtractExchanged) :=
    .after _ .standard fun _ _ => rfl
  have hmirror := (right_mirrors_left hr).2.2.2 hleft (.binary .subtract) (.int 5)
  refine ⟨⟨_, rfl, ?_⟩, ⟨_, rfl, ?_⟩⟩
  · obtain ⟨-, c, hc, -, -, hargs⟩ := ((hmirror (scalar .int32 (.int 3)) rfl rfl rfl).2 _).mp rfl
    cases hc
    exact hargs
  · obtain ⟨-, c, hc, -, -, hargs⟩ := ((hmirror (scalar .float64 .null) rfl rfl rfl).2 _).mp rfl
    cases hc
    exact hargs

end Registry

end QueryExpr
