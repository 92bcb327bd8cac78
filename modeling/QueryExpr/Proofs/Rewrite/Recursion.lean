import QueryExpr.Proofs.Rewrite.BottomUp
import QueryExpr.Rewrite.Walk

/-!
# The pass and the recursion it stands for

A bottom-up pass is described without a stack: a raw value stays as it is, and a node is rewritten
after its arguments, which are rewritten from left to right. Exactly one function goes by this
description. The walk that counts the arguments of its nodes is that function, and so is the pass.

* `Walk.ahead_eq`: what lies ahead of a walk is what lies ahead of it after one step.
* `Walk.run_eq_ahead`: so a walk ends with what the pass makes of the nodes on its stack.
* `bottomUp_recursion`: **the pass is the one function that goes by the recursion.**
-/

namespace QueryExpr

namespace Strategy

variable {s f : Strategy}

/-! ## The walk and the pass -/

/-- The node at hand as the pass keeps it: the arguments that are not counted are to do. -/
def HalfFilled.frame (h : HalfFilled) : Frame :=
  ⟨h.node, h.args.reverse, h.left h.args.length, h.changed⟩

/-- A node that another one was entered from, as the pass keeps it: that one is not to do again. -/
def HalfFilled.paused (h : HalfFilled) : Frame :=
  ⟨h.node, h.args.reverse, h.left (h.args.length + 1), h.changed⟩

theorem HalfFilled.frame_push (h : HalfFilled) (r : Rewritten) :
    (h.push r).frame = h.paused.push r.expr r.changed := by
  simp [frame, paused, push, left, Frame.push]

theorem HalfFilled.rebuilt_frame {h : HalfFilled} (hnext : h.next? = none) :
    h.frame = ⟨h.node, h.args.reverse, [], h.changed⟩ ∧
      Frame.rebuilt ⟨h.node, h.args.reverse, [], h.changed⟩ = h.rebuilt := by
  constructor
  · rw [frame, left_of_next?_eq_none hnext]
  · simp [Frame.rebuilt, rebuilt]

namespace Walk

/-- What the pass makes of the nodes on the stack of a walk. -/
def ahead (s : Strategy) (w : Walk) : Except Error Rewritten :=
  bottomUpFrom s w.current.frame (w.ancestors.map HalfFilled.paused)

/-- **What lies ahead of a walk is what lies ahead of it after one step**, or it is the end. -/
theorem ahead_eq (s : Strategy) (w : Walk) :
    w.ahead s =
      match w.next s with
      | .error err => .error err
      | .ok (.inr r) => .ok r
      | .ok (.inl w') => w'.ahead s := by
  obtain ⟨current, ancestors⟩ := w
  unfold next
  dsimp only
  cases hnext : current.next? with
  | some arg =>
    have htodo : current.frame =
        ⟨current.node, current.args.reverse, arg :: current.left (current.args.length + 1),
          current.changed⟩ := by
      rw [HalfFilled.frame, HalfFilled.left_of_next? hnext]
    cases arg with
    | value v =>
      have hpush : (current.push ⟨.value v, false⟩).frame =
          ⟨current.node, .value v :: current.args.reverse,
            current.left (current.args.length + 1), current.changed⟩ := by
        rw [HalfFilled.frame_push]
        simp [HalfFilled.paused, Frame.push]
      simp only [ahead, Expr.isValue, if_true, htodo, hpush]
      rw [bottomUpFrom]
    | node o args c =>
      -- the node that is entered leaves its holder behind, paused
      have henter : (HalfFilled.enter (.node o args c)).frame = .enter (.node o args c) := rfl
      simp only [ahead, Expr.isValue, Bool.false_eq_true, if_false, htodo, henter, List.map_cons]
      rw [bottomUpFrom]
      rfl
  | none =>
    obtain ⟨hframe, hrebuilt⟩ := HalfFilled.rebuilt_frame hnext
    simp only [ahead, hframe]
    rw [bottomUpFrom_nil, hrebuilt]
    cases s current.rebuilt with
    | error err => rfl
    | ok r =>
      cases ancestors with
      | nil => rfl
      | cons parent above =>
        -- what comes back is counted by the node that was paused
        simp only [List.map_cons, resume, HalfFilled.frame_push]

/-- **A walk ends with what lies ahead of it.** -/
theorem run_eq_ahead (s : Strategy) (w : Walk) : w.run s = w.ahead s := by
  rw [run, ahead_eq]
  split
  · next err h => rw [h]
  · next r h => rw [h]
  · next w' h =>
    have hless : w'.pending < w.pending := pending_next h
    rw [h]
    exact run_eq_ahead s w'
termination_by w.pending

end Walk

/-- **The walk that counts is the pass.** -/
theorem walk_eq_bottomUp (s : Strategy) : walk s = bottomUp s := by
  funext e
  unfold walk bottomUp
  split
  · rfl
  · exact Walk.run_eq_ahead s (.start e)

/-! ## The recursion -/

/-- **The description of a pass by recursion.** A raw value is returned unchanged. The arguments of
a node are rewritten from left to right, and the first error ends the pass. Then the strategy is
applied to the node, made anew with its new arguments if one of them changed, and otherwise to the
node itself. A change is reported if an argument or the strategy reported one. -/
structure GoesBottomUp (s f : Strategy) : Prop where
  value : ∀ v, f (.value v) = .ok ⟨.value v, false⟩
  node : ∀ o args c, f (.node o args c) = do
    let done ← args.mapM f
    let changed := done.any Rewritten.changed
    let r ← s (if changed then .node o (done.map Rewritten.expr) c else .node o args c)
    return ⟨r.expr, changed || r.changed⟩

/-- Where a function does on some expressions what the recursion does, it does so on their list. -/
theorem descendAll_eq_mapM {es : List Expr} (h : ∀ e ∈ es, f e = descend s e) :
    descendAll s es = (es.mapM f).map fun done =>
      (done.map Rewritten.expr, done.any Rewritten.changed) := by
  induction es with
  | nil => rfl
  | cons e rest ih =>
    have hrest : ∀ e ∈ rest, f e = descend s e := fun e he => h e (List.mem_cons_of_mem _ he)
    have hhead : f e = descend s e := h e List.mem_cons_self
    rw [descendAll, List.mapM_cons, hhead, ih hrest]
    cases descend s e with
    | error err => rfl
    | ok r => cases rest.mapM f <;> rfl

/-- The same of a node whose arguments they are. -/
theorem descend_node {args : List Expr} (h : ∀ e ∈ args, f e = descend s e) (o : Operation)
    (c : Categories) :
    descend s (.node o args c) = do
      let done ← args.mapM f
      let changed := done.any Rewritten.changed
      let r ← s (if changed then .node o (done.map Rewritten.expr) c else .node o args c)
      return ⟨r.expr, changed || r.changed⟩ := by
  rw [descend, descendAll_eq_mapM h]
  cases args.mapM f with
  | error err => rfl
  | ok done =>
    simp only [Except.map, bind, Except.bind]
    cases s (if done.any Rewritten.changed then .node o (done.map Rewritten.expr) c
      else .node o args c) <;> rfl

/-- **The description determines what becomes of an expression.** -/
theorem GoesBottomUp.eq_descend (h : GoesBottomUp s f) (e : Expr) : f e = descend s e := by
  induction e using Expr.induct with
  | value v => rw [h.value, descend]
  | node o args c ih => rw [h.node, descend_node ih]

theorem goesBottomUp_descend (s : Strategy) : GoesBottomUp s (descend s) where
  value v := by rw [descend]
  node o args c := descend_node (fun _ _ => rfl) o c

/-- **The pass is the one function that goes by the recursion**, whatever the strategy does and
whether it fails or not; and the walk that finds the next argument by counting is the pass. -/
theorem bottomUp_recursion (s : Strategy) :
    walk s = bottomUp s ∧ ∀ f, GoesBottomUp s f ↔ f = bottomUp s := by
  have hdescend : bottomUp s = descend s := funext (bottomUp_eq_descend s)
  refine ⟨walk_eq_bottomUp s, fun f => ⟨fun h => ?_, ?_⟩⟩
  · rw [hdescend]
    exact funext h.eq_descend
  · rintro rfl
    rw [hdescend]
    exact goesBottomUp_descend s

end Strategy

end QueryExpr
