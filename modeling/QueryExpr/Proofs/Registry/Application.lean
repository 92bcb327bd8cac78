import QueryExpr.Proofs.Registry.History
import QueryExpr.Proofs.Registry.Standard

/-!
# What an operator is applied by

An operator with one operand is applied by the constructor that the operand chooses. Of two
operands the left one chooses first, and the right one where the left has no entry; the
constructor takes the choosing operand first.

* `choose?`: the constructor that operands choose, with its arguments.
* `apply_eq_ok`: **an operator applies exactly if its operands are legal and choose one.**
* `entry_of_choose?`: what is chosen stands in the registry.
-/

namespace QueryExpr

namespace Registry

variable {r : Registry} {o : Operator} {operands args : List Expr} {e : Expr} {c : Constructor}

/-- The constructor that operands choose, and the arguments that it takes. -/
def choose? (r : Registry) (o : Operator) : List Expr → Option (Constructor × List Expr)
  | [x] =>
    if o.arity = 1 then (r.resolve? o .left x.dispatchCategories).map fun c => (c, [x]) else none
  | [left, right] =>
    if o.arity = 2 then
      match r.resolve? o .left left.dispatchCategories with
      | some c => some (c, [left, right])
      | none => (r.resolveRight? o right).map fun c => (c, [right, left])
    else none
  | _ => none

/-- Applying an operator builds what its operands choose. -/
theorem apply_eq (r : Registry) (o : Operator) (operands : List Expr) :
    r.apply o operands =
      match r.choose? o operands with
      | some (c, args) => construct o operands c args
      | none => .error (unsupported o operands) := by
  match operands with
  | [] | _ :: _ :: _ :: _ => rfl
  | [x] =>
    rw [apply, applyUnary, choose?]
    by_cases harity : o.arity = 1
    · rw [if_pos harity, if_neg (not_not_intro harity)]
      cases r.resolve? o .left x.dispatchCategories <;> rfl
    · rw [if_neg harity, if_pos harity]
  | [left, right] =>
    rw [apply, applyBinary, choose?]
    by_cases harity : o.arity = 2
    · rw [if_pos harity, if_neg (not_not_intro harity)]
      cases r.resolve? o .left left.dispatchCategories with
      | some c => rfl
      | none => cases r.resolveRight? o right <;> rfl
    · rw [if_neg harity, if_pos harity]

/-- **An operator applies exactly if** its operands are legal and choose a constructor, and it
gives the node that this one builds. -/
theorem apply_eq_ok :
    r.apply o operands = .ok e ↔ (∀ x ∈ operands, isLegalOperand o.family x = true) ∧
      ∃ c args, r.choose? o operands = some (c, args) ∧ e = c.build args := by
  rw [apply_eq]
  cases hchoose : r.choose? o operands with
  | none => simp
  | some chosen =>
    obtain ⟨c, args⟩ := chosen
    constructor
    · intro h
      obtain ⟨hlegal, rfl⟩ := construct_eq_ok h
      exact ⟨hlegal, c, args, rfl, rfl⟩
    · rintro ⟨hlegal, c', args', hsome, rfl⟩
      cases hsome
      exact construct_of_legal hlegal

/-- What is resolved stands among the entries. -/
theorem entry_of_resolve? {side : Side} {receiver : Categories}
    (h : r.resolve? o side receiver = some c) : ∃ entry ∈ r.entries o side, entry.constructor = c := by
  rw [resolve?_eq, Option.map_eq_some_iff] at h
  obtain ⟨entry, hentry, rfl⟩ := h
  exact ⟨entry, (isMostSpecific_of_mostSpecific? hentry).mem, rfl⟩

theorem entry_of_resolveRight? {right : Expr} (h : r.resolveRight? o right = some c) :
    ∃ o' side, (o' = o ∨ o.mirrored? = some o') ∧
      ∃ entry ∈ r.entries o' side, entry.constructor = c := by
  unfold resolveRight? at h
  split at h
  · exact ⟨o, .right, .inl rfl, entry_of_resolve? h⟩
  · obtain ⟨mirror, hmirror, h⟩ := Option.bind_eq_some_iff.1 h
    exact ⟨mirror, .left, .inr hmirror, entry_of_resolve? h⟩

/-- **What is chosen stands in the registry**, among the entries of the operator or of its mirror
image. -/
theorem entry_of_choose? (h : r.choose? o operands = some (c, args)) :
    ∃ o' side, (o' = o ∨ o.mirrored? = some o') ∧
      ∃ entry ∈ r.entries o' side, entry.constructor = c := by
  unfold choose? at h
  split at h
  · split at h
    · obtain ⟨c', hc, hsome⟩ := Option.map_eq_some_iff.1 h
      cases hsome
      exact ⟨o, .left, .inl rfl, entry_of_resolve? hc⟩
    · cases h
  · split at h
    · split at h
      · next c' hc =>
        cases h
        exact ⟨o, .left, .inl rfl, entry_of_resolve? hc⟩
      · obtain ⟨c', hc, hsome⟩ := Option.map_eq_some_iff.1 h
        cases hsome
        exact entry_of_resolveRight? hc
    · cases h
  · cases h

end Registry

end QueryExpr
