import QueryExpr.Proofs.Rewrite.BottomUp

/-!
# The first stuck node

A node is ready if its arguments are all values: no rewrite below it is left to be done. A rewrite
that does not end in a value leaves a ready node to which no rule applies, and the error names the
one that a search with a stack comes to first. The search meets a node before its arguments, and yet
what it finds is the first ready node in the order in which a pass rewrites: no node stands in a
ready one, so the two orders agree on them.

* `stuckFrom_eq_find?`: the search finds the first ready node of the pending ones, in post-order.
* `exists_isReady`: **every node has a ready one at or below it.**
* `stuckNode?_eq_stuck?`: the search without a stack.
* `Compiler.compile_names_first`: **the error names the first ready node**, which there always is.
-/

namespace QueryExpr

namespace Expr

variable {e : Expr}

/-- A node whose arguments are all values. -/
def isReady : Expr → Bool
  | value _ => false
  | node _ args _ => args.all isValue

mutual

/-- All that stands in an expression in post-order: from left to right, and arguments before the
node that holds them. -/
def postorder : Expr → List Expr
  | value v => [value v]
  | node o args c => postorders args ++ [node o args c]

def postorders : List Expr → List Expr
  | [] => []
  | e :: rest => e.postorder ++ postorders rest

end

theorem postorders_append (es fs : List Expr) :
    postorders (es ++ fs) = postorders es ++ postorders fs := by
  induction es with
  | nil => rfl
  | cons e es ih => rw [List.cons_append, postorders, postorders, ih, List.append_assoc]

/-- Values are not searched any further. -/
theorem find?_postorders_of_values {es : List Expr} (h : es.all isValue = true) :
    (postorders es).find? isReady = none := by
  induction es with
  | nil => rfl
  | cons e es ih =>
    rw [List.all_cons, Bool.and_eq_true] at h
    obtain ⟨hvalue, hrest⟩ := h
    cases e with
    | node o args c => cases hvalue
    | value v => rw [postorders, List.find?_append, ih hrest]; rfl

/-- **The search finds the first ready node of what is pending, in post-order.** A node that is not
ready may be put behind its arguments, since it is passed over in either place. -/
theorem stuckFrom_eq_find? (pending : List Expr) :
    stuckFrom pending = (postorders pending).find? isReady := by
  induction pending using stuckFrom.induct with
  | case1 => rw [stuckFrom]; rfl
  | case2 v pending ih =>
    rw [stuckFrom, ih, postorders, List.find?_append]
    rfl
  | case3 o args c pending hready =>
    have hfound : (postorder (.node o args c)).find? isReady = some (.node o args c) := by
      rw [postorder, List.find?_append, find?_postorders_of_values hready, Option.none_or,
        List.find?_singleton]
      exact if_pos hready
    rw [stuckFrom, if_pos hready, postorders, List.find?_append, hfound]
    rfl
  | case4 o args c pending hready ih =>
    have hpassed : [Expr.node o args c].find? isReady = none := by
      rw [List.find?_singleton]
      exact if_neg hready
    rw [stuckFrom, if_neg hready, ih, postorders_append, postorders, postorder]
    simp only [List.find?_append, hpassed, Option.or_none]

theorem stuckNode?_eq_find? (e : Expr) : e.stuckNode? = e.postorder.find? isReady := by
  rw [stuckNode?, stuckFrom_eq_find?, postorders, postorders, List.append_nil]

theorem mem_postorders {x : Expr} {es : List Expr} :
    x ∈ postorders es ↔ ∃ e ∈ es, x ∈ e.postorder := by
  induction es with
  | nil => simp [postorders]
  | cons e es ih => simp [postorders, ih]

/-- **Every node has a ready one at or below it**: going down through nodes ends at one. -/
theorem exists_isReady (h : e.isValue = false) : ∃ x ∈ e.postorder, x.isReady = true := by
  induction e using Expr.induct with
  | value v => cases h
  | node o args c ih =>
    by_cases hready : args.all isValue = true
    · refine ⟨.node o args c, ?_, hready⟩
      rw [postorder]
      exact List.mem_append_right _ List.mem_cons_self
    · obtain ⟨arg, harg, hnode⟩ : ∃ arg ∈ args, arg.isValue = false := by simpa using hready
      obtain ⟨x, hx, hxready⟩ := ih arg harg hnode
      refine ⟨x, ?_, hxready⟩
      rw [postorder]
      exact List.mem_append_left _ (mem_postorders.mpr ⟨arg, harg, hx⟩)

/-! ## Without a stack -/

mutual

/-- The first node, from left to right, whose arguments are all values. -/
def stuck? : Expr → Option Expr
  | value _ => none
  | node o args c => if args.all isValue then some (node o args c) else anyStuck? args

def anyStuck? : List Expr → Option Expr
  | [] => none
  | e :: rest =>
    match e.stuck? with
    | some found => some found
    | none => anyStuck? rest

end

theorem stuckFrom_cons (e : Expr) (pending : List Expr) :
    stuckFrom (e :: pending) = e.stuckNode?.or (stuckFrom pending) := by
  rw [stuckNode?, stuckFrom_eq_find?, stuckFrom_eq_find?, stuckFrom_eq_find?, postorders,
    postorders, postorders, List.append_nil, List.find?_append]

mutual

/-- The search is a recursion on the expression. -/
theorem stuckNode?_eq_stuck? (e : Expr) : e.stuckNode? = e.stuck? := by
  match e with
  | .value v => rw [stuckNode?_value, stuck?]
  | .node o args c =>
    rw [stuckNode?, stuckFrom, stuck?, List.append_nil, stuckFrom_eq_anyStuck? args]

theorem stuckFrom_eq_anyStuck? (es : List Expr) : stuckFrom es = anyStuck? es := by
  match es with
  | [] => rw [stuckFrom, anyStuck?]
  | e :: rest =>
    rw [stuckFrom_cons, stuckNode?_eq_stuck? e, stuckFrom_eq_anyStuck? rest, anyStuck?]
    cases e.stuck? <;> rfl

end

/-! ## What is found -/

/-- **The node is the first one that is ready**: its arguments are all values, and no node that
comes before it in post-order is like that. -/
structure IsFirstReady (e : Expr) (o : Operation) (args : List Expr) (c : Categories) : Prop where
  ready : ∀ arg ∈ args, arg.isValue = true
  first : ∃ before after, e.postorder = before ++ node o args c :: after ∧
    ∀ x ∈ before, x.isReady = false

theorem isFirstReady_iff {o : Operation} {args : List Expr} {c : Categories} :
    IsFirstReady e o args c ↔ e.postorder.find? isReady = some (.node o args c) := by
  rw [List.find?_eq_some_iff_append]
  constructor
  · rintro ⟨hready, before, after, hsplit, hbefore⟩
    refine ⟨List.all_eq_true.mpr hready, before, after, hsplit, fun x hx => ?_⟩
    rw [hbefore x hx]
    rfl
  · rintro ⟨hready, before, after, hsplit, hbefore⟩
    refine ⟨List.all_eq_true.mp hready, before, after, hsplit, fun x hx => ?_⟩
    simpa using hbefore x hx

/-- What the search of a node finds is its first ready node. -/
theorem exists_stuckNode? (h : e.isValue = false) :
    ∃ o args c, e.stuckNode? = some (.node o args c) ∧ IsFirstReady e o args c := by
  have hsome : (e.postorder.find? isReady).isSome := by
    rw [List.find?_isSome]
    exact exists_isReady h
  obtain ⟨x, hx⟩ := Option.isSome_iff_exists.mp hsome
  cases x with
  | value v =>
    have hready : isReady (.value v) = true := List.find?_some hx
    cases hready
  | node o args c =>
    rw [stuckNode?_eq_find?]
    exact ⟨o, args, c, hx, isFirstReady_iff.mpr hx⟩

end Expr

namespace Compiler

open QueryExpr.Expr

/-- **Unresolved errors name the first stuck node.** The search of an expression that is no value
finds the first node in post-order whose arguments are all values. So whatever the rules are, where
a rewrite comes to rest and no value is left, the error is about that node of what is left: it gives
the operation and the categories of the arguments, in their order. -/
theorem compile_names_first :
    (∀ e : Expr, e.isValue = false →
      ∃ o args c, e.stuckNode? = some (.node o args c) ∧ IsFirstReady e o args c) ∧
    ∀ (compiler : Compiler) (e : Expr) (r : Fixpoint), compiler.rewrite e = .ok r →
      r.expr.isValue = false →
      ∃ o args c, IsFirstReady r.expr o args c ∧
        compiler.compile e = .error (.unresolved o.label (args.map categories)) := by
  refine ⟨fun e => exists_stuckNode?, ?_⟩
  intro compiler e r hrewrite hnode
  obtain ⟨o, args, c, hfound, hfirst⟩ := exists_stuckNode? hnode
  refine ⟨o, args, c, hfirst, ?_⟩
  rw [compile_of_node hrewrite hnode, unresolved, hfound]
  rfl

/-- Without rules, a call is left as it is. Of the calls in it two have no arguments but values;
the error names the one on the left, although it stands deeper and a value comes before it. -/
theorem compile_names_first_left :
    ∃ inner outer : Expr,
      inner = .node (.function "h") [.value (.bool true), .value .null] ∅ ∧
      outer = .node (.function "f")
        [.value (.int 1), .node (.function "g") [inner, .value (.int 2)] ∅,
          .node (.function "k") [] ∅] ∅ ∧
      outer.stuckNode? = some inner ∧
      (Compiler.mk [] 1).rewrite outer = .ok ⟨outer, false, 1⟩ ∧
      (Compiler.mk [] 1).compile outer =
        .error (.unresolved "h" [(Value.bool true).categories, Value.null.categories]) := by
  obtain ⟨inner, hinner⟩ : ∃ inner : Expr,
    inner = .node (.function "h") [.value (.bool true), .value .null] ∅ := ⟨_, rfl⟩
  obtain ⟨outer, houter⟩ : ∃ outer : Expr, outer = .node (.function "f")
    [.value (.int 1), .node (.function "g") [inner, .value (.int 2)] ∅,
      .node (.function "k") [] ∅] ∅ := ⟨_, rfl⟩
  have hnode : outer.isValue = false := by rw [houter]; rfl
  have hfind : outer.postorder.find? isReady = some inner := by
    rw [houter, hinner]
    rfl
  have hrewrite : (Compiler.mk [] 1).rewrite outer = .ok ⟨outer, false, 1⟩ := by
    rw [rewrite_of_unchanged (by rw [houter, hinner]; rfl), houter, hinner]
    rfl
  refine ⟨inner, outer, hinner, houter, ?_, hrewrite, ?_⟩
  · obtain ⟨o, args, c, hfound, hfirst⟩ := compile_names_first.1 outer hnode
    rw [hfound, ← isFirstReady_iff.mp hfirst, hfind]
  · obtain ⟨o, args, c, hfirst, hcompile⟩ :=
      compile_names_first.2 (Compiler.mk [] 1) outer ⟨outer, false, 1⟩ hrewrite hnode
    have hsame : some (Expr.node o args c) = some inner := by
      rw [← isFirstReady_iff.mp hfirst, hfind]
    rw [hinner] at hsame
    cases hsame
    exact hcompile

end Compiler

end QueryExpr
