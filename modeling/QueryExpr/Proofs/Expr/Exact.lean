import QueryExpr.Expr

/-!
# Exact values and expressions

Sameness is not quite equality: floating numbers are the same when they compare as equal, and
decimals when their values are. Where neither occurs, sameness is equality.

* `Value.sameBy_iff_eq`, `Expr.sameBy_iff_eq`: exact values and expressions are the same as
  nothing but themselves, however floating numbers are compared.
* `Expr.sameShared_iff_eq`: the same for expressions that share nodes.
-/

namespace QueryExpr

namespace Value

mutual

/-- No floating number and no decimal stands in the value. -/
def isExact : Value → Bool
  | float _ | decimal _ => false
  | list items => allExact items
  | _ => true

def allExact : List Value → Bool
  | [] => true
  | v :: rest => v.isExact && allExact rest

end

variable {sameFloat : Float → Float → Bool}

mutual

/-- **Exact values are the same exactly if they are one value.** -/
theorem sameBy_iff_eq {v : Value} (h : v.isExact = true) (w : Value) :
    sameBy sameFloat v w = true ↔ v = w := by
  match v with
  | null => cases w <;> simp [sameBy]
  | bool a => cases w <;> simp [sameBy]
  | int a => cases w <;> simp [sameBy]
  | float x => cases h
  | decimal d => cases h
  | text s => cases w <;> simp [sameBy]
  | date d => cases w <;> simp [sameBy]
  | time t => cases w <;> simp [sameBy]
  | timestamp t => cases w <;> simp [sameBy]
  | list items =>
    cases w with
    | list others =>
      have hitems : allExact items = true := h
      rw [sameBy, allSameBy_iff_eq hitems others, list.injEq]
    | _ => simp [sameBy]
  | schema s => cases w <;> simp [sameBy]
  | fragment f => cases w <;> simp [sameBy]

theorem allSameBy_iff_eq {vs : List Value} (h : allExact vs = true) (ws : List Value) :
    allSameBy sameFloat vs ws = true ↔ vs = ws := by
  match vs, ws with
  | [], [] => simp [allSameBy]
  | [], w :: ws => simp [allSameBy]
  | v :: vs, [] => simp [allSameBy]
  | v :: vs, w :: ws =>
    rw [allExact, Bool.and_eq_true] at h
    rw [allSameBy, Bool.and_eq_true, sameBy_iff_eq h.1 w, allSameBy_iff_eq h.2 ws,
      List.cons.injEq]

end

end Value

namespace Expr

mutual

/-- No floating number and no decimal stands in the expression. -/
def isExact : Expr → Bool
  | value v => v.isExact
  | node _ args _ => allExact args

def allExact : List Expr → Bool
  | [] => true
  | e :: rest => e.isExact && allExact rest

end

variable {sameValue : Value → Value → Bool}

mutual

theorem sameBy_iff_eq (hv : ∀ v w : Value, v.isExact = true → (sameValue v w = true ↔ v = w))
    {a : Expr} (h : a.isExact = true) (b : Expr) : sameBy sameValue a b = true ↔ a = b := by
  match a, b with
  | value v, value w => rw [sameBy, hv v w h, value.injEq]
  | value v, node g bs d => simp [sameBy]
  | node f as c, value w => simp [sameBy]
  | node f as c, node g bs d =>
    have hargs : allExact as = true := h
    rw [sameBy, Bool.and_eq_true, Bool.and_eq_true, beq_iff_eq, beq_iff_eq,
      allSameBy_iff_eq hv hargs bs, node.injEq, and_assoc, and_comm (a := c = d)]

theorem allSameBy_iff_eq (hv : ∀ v w : Value, v.isExact = true → (sameValue v w = true ↔ v = w))
    {as : List Expr} (h : allExact as = true) (bs : List Expr) :
    allSameBy sameValue as bs = true ↔ as = bs := by
  match as, bs with
  | [], [] => simp [allSameBy]
  | [], b :: bs => simp [allSameBy]
  | a :: as, [] => simp [allSameBy]
  | a :: as, b :: bs =>
    rw [allExact, Bool.and_eq_true] at h
    rw [allSameBy, Bool.and_eq_true, sameBy_iff_eq hv h.1 b, allSameBy_iff_eq hv h.2 bs,
      List.cons.injEq]

end

theorem sameShared_iff_eq {a : Expr} (h : a.isExact = true) (b : Expr) :
    a.sameShared b = true ↔ a = b := by
  cases a with
  | value v =>
    cases b with
    | value w =>
      have hv : v.isExact = true := h
      rw [sameShared, Value.same, Value.sameBy_iff_eq hv w, value.injEq]
    | node g bs d => simp [sameShared, alike, sameBy]
  | node f as c => exact sameBy_iff_eq (fun _ w hv => Value.sameBy_iff_eq hv w) h b

end Expr

end QueryExpr
