import QueryExpr.Rewrite.Strategy

/-!
# A pass that counts

The bottom-up pass once more, as a walk step by step. The walk keeps the nodes it has entered on a
stack of its own, and each of them only with the arguments that are done: the next one to do is
found by counting these. A node that is entered stays uncounted in the node that holds it until it
comes back.

* `Walk.next`: one step, to another place of the walk or to its end.
* `Walk.pending_next`: a step leaves less to do, so that every walk comes to its end.
* `walk`: the pass.
-/

namespace QueryExpr

namespace Strategy

/-- A node whose arguments are being rewritten, with those that are done in their order. -/
structure HalfFilled where
  node : Expr
  args : List Expr
  changed : Bool

namespace HalfFilled

/-- A node of which nothing is done. -/
def enter (e : Expr) : HalfFilled := ⟨e, [], false⟩

/-- The next argument, if there is one. -/
def next? (h : HalfFilled) : Option Expr := h.node.args[h.args.length]?

/-- The node after one more argument is done. -/
def push (h : HalfFilled) (r : Rewritten) : HalfFilled :=
  { h with args := h.args ++ [r.expr], changed := h.changed || r.changed }

/-- The node with its rewritten arguments, or the node itself if none changed. -/
def rebuilt (h : HalfFilled) : Expr := if h.changed then h.node.withArgs h.args else h.node

/-- The arguments after the first `counted` ones. -/
def left (h : HalfFilled) (counted : Nat) : List Expr := h.node.args.drop counted

theorem left_of_next? {h : HalfFilled} {arg : Expr} (hnext : h.next? = some arg) :
    h.left h.args.length = arg :: h.left (h.args.length + 1) := by
  obtain ⟨hlt, harg⟩ := List.getElem?_eq_some_iff.mp hnext
  rw [left, List.drop_eq_getElem_cons hlt, harg]
  rfl

theorem left_of_next?_eq_none {h : HalfFilled} (hnext : h.next? = none) :
    h.left h.args.length = [] :=
  List.drop_eq_nil_of_le (List.getElem?_eq_none_iff.mp hnext)

/-- A bound on the steps that a node at hand takes. -/
def pending (h : HalfFilled) : Nat := works (h.left h.args.length) + 1

/-- A bound on the steps that a node takes after the one that was entered from it comes back. -/
def pendingAfter (h : HalfFilled) : Nat := works (h.left (h.args.length + 1)) + 1

/-- What comes back to a node is counted as done. -/
theorem pending_push (h : HalfFilled) (r : Rewritten) : (h.push r).pending = h.pendingAfter := by
  simp [pending, pendingAfter, push, left]

end HalfFilled

/-- Where a walk is: the node at hand, and those that hold it from the inside out. -/
structure Walk where
  current : HalfFilled
  ancestors : List HalfFilled

namespace Walk

/-- The walk at the top of an expression. -/
def start (e : Expr) : Walk := ⟨.enter e, []⟩

/-- One step of a walk, or its end. -/
def next (s : Strategy) (w : Walk) : Except Error (Walk ⊕ Rewritten) :=
  match w.current.next? with
  | some arg =>
    if arg.isValue then .ok (.inl { w with current := w.current.push ⟨arg, false⟩ })
    else .ok (.inl ⟨.enter arg, w.current :: w.ancestors⟩)
  | none =>
    match s w.current.rebuilt with
    | .error err => .error err
    | .ok r =>
      let r := ⟨r.expr, w.current.changed || r.changed⟩
      match w.ancestors with
      | [] => .ok (.inr r)
      | parent :: above => .ok (.inl ⟨parent.push r, above⟩)

/-- A bound on the steps that nodes take, the innermost first, after the one that was entered from
the first of them comes back. -/
def pendingAbove : List HalfFilled → Nat
  | [] => 0
  | parent :: above => parent.pendingAfter + pendingAbove above

/-- A bound on the steps that a walk takes. -/
def pending (w : Walk) : Nat := w.current.pending + pendingAbove w.ancestors

/-- **A step leaves less to do.** -/
theorem pending_next {s : Strategy} {w w' : Walk} (h : w.next s = .ok (.inl w')) :
    w'.pending < w.pending := by
  unfold next at h
  split at h
  · next arg hnext =>
    have hwork : w.current.pending = work arg + w.current.pendingAfter := by
      rw [HalfFilled.pending, HalfFilled.left_of_next? hnext, works, Nat.add_assoc]
      rfl
    split at h
    · -- a value is done at once
      cases h
      simp only [pending, HalfFilled.pending_push, hwork]
      cases arg <;> simp [work]
    · next hvalue =>
      -- a node has more work than its arguments together
      cases h
      cases arg with
      | value v => exact absurd rfl hvalue
      | node o args c =>
        have hfresh : (HalfFilled.enter (.node o args c)).pending = works args + 1 := rfl
        simp only [pending, pendingAbove, hwork, hfresh, work]
        omega
  · split at h
    · cases h
    · split at h
      · cases h
      · next parent above habove =>
        cases h
        simp only [pending, pendingAbove, habove, HalfFilled.pending_push]
        have hpos : 0 < w.current.pending := Nat.succ_pos _
        omega

/-- Goes on to the end of a walk. -/
def run (s : Strategy) (w : Walk) : Except Error Rewritten :=
  match _h : w.next s with
  | .error err => .error err
  | .ok (.inr r) => .ok r
  | .ok (.inl w') => run s w'
termination_by w.pending
decreasing_by exact pending_next _h

end Walk

/-- The bottom-up pass by a walk that counts. -/
def walk (s : Strategy) : Strategy := fun e =>
  if e.isValue then .ok ⟨e, false⟩ else (Walk.start e).run s

end Strategy

end QueryExpr
