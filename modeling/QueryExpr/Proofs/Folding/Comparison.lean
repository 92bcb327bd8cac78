import QueryExpr.Folding

/-!
# Comparisons turned round

A comparison of `a` with `b` and its mirror image of `b` with `a` have one outcome, because the
order of two values is turned round with them. That goes for values of every kind: for floating
numbers too, of which the one may be a NaN, and for numbers of two kinds, which are brought to one
kind in the same way from both sides.

* `Number.compareFloats_eq`: floating numbers are ordered as the numbers that their bits stand for.
* `Value.compare?_swap`: **the order of two values turned round.**
* `Value.foldBinary_mirrored`: a comparison and its mirror image fold to the same value.
-/

namespace QueryExpr

/-! ## Dates, times and decimals -/

theorem Date.compare_swap (a b : Date) : b.compare a = (a.compare b).swap := by
  rw [Date.compare, Date.compare, Ordering.swap_then, Ordering.swap_then,
    Std.OrientedOrd.eq_swap (a := b.year), Std.OrientedOrd.eq_swap (a := b.month),
    Std.OrientedOrd.eq_swap (a := b.day)]

theorem Time.compare_swap (a b : Time) : b.compare a = (a.compare b).swap := by
  rw [Time.compare, Time.compare, Ordering.swap_then, Ordering.swap_then, Ordering.swap_then,
    Std.OrientedOrd.eq_swap (a := b.hour), Std.OrientedOrd.eq_swap (a := b.minute),
    Std.OrientedOrd.eq_swap (a := b.second), Std.OrientedOrd.eq_swap (a := b.nanosecond)]

theorem Timestamp.compare_swap (a b : Timestamp) : b.compare a = (a.compare b).swap := by
  rw [Timestamp.compare, Timestamp.compare, Ordering.swap_then, Date.compare_swap a.date,
    Time.compare_swap a.time]

theorem Decimal.align_swap (a b : Decimal) : b.align a = ((a.align b).2, (a.align b).1) := by
  rw [Decimal.align, Decimal.align, Int.max_comm]

theorem Decimal.compare_swap (a b : Decimal) : b.compare a = (a.compare b).swap := by
  rw [Decimal.compare, Decimal.compare, Decimal.align_swap, Std.OrientedOrd.eq_swap]

/-! ## Numbers -/

namespace Number

open Float.Model

theorem unpacked_compare_swap (a b : UnpackedFloat) :
    b.compare a = (a.compare b).map Ordering.swap := by
  rcases a with s | _ | s | ⟨s, m, e, hm⟩ <;> rcases b with t | _ | t | ⟨t, n, f, hn⟩
  case infinity.infinity => cases s <;> cases t <;> rfl
  case finite.finite =>
    -- the sizes are compared if the signs are the same, and the other way round below zero
    have hsize : (Ord.compare f e).then (Ord.compare n m) =
        ((Ord.compare e f).then (Ord.compare m n)).swap := by
      rw [Ordering.swap_then, Std.OrientedOrd.eq_swap (a := f), Std.OrientedOrd.eq_swap (a := n)]
    cases s <;> cases t
    · exact congrArg (fun order => some order.swap) hsize
    · rfl
    · rfl
    · exact congrArg some hsize
  all_goals first | rfl | (cases s <;> rfl) | (cases t <;> rfl)

theorem float_lt_iff (a b : Float) :
    a < b ↔ a.toModel.unpack.compare b.toModel.unpack = some .lt := by
  have hlt : a < b ↔ decide (a.toModel < b.toModel) = true := Iff.rfl
  have hmodel : a.toModel < b.toModel ↔
      (a.toModel.unpack.compare b.toModel.unpack == some .lt) = true := Iff.rfl
  rw [hlt, decide_eq_true_iff, hmodel, beq_iff_eq]

theorem float_beq_iff (a b : Float) :
    (a == b) = true ↔ a.toModel.unpack.compare b.toModel.unpack = some .eq := by
  have hbeq : (a == b) = (a.toModel.unpack.compare b.toModel.unpack == some .eq) := rfl
  rw [hbeq, beq_iff_eq]

/-- **Floating numbers are ordered** as the numbers that their bits stand for. -/
theorem compareFloats_eq (a b : Float) :
    compareFloats a b = a.toModel.unpack.compare b.toModel.unpack := by
  unfold compareFloats
  simp only [float_lt_iff, float_beq_iff,
    unpacked_compare_swap a.toModel.unpack b.toModel.unpack]
  cases a.toModel.unpack.compare b.toModel.unpack with
  | none => rfl
  | some order => cases order <;> rfl

theorem compareFloats_swap (a b : Float) :
    compareFloats b a = (compareFloats a b).map Ordering.swap := by
  rw [compareFloats_eq, compareFloats_eq, unpacked_compare_swap]

/-- Two numbers are brought to the same kind from both sides. -/
theorem compare?_swap (a b : Number) : compare? b a = (compare? a b).map Ordering.swap := by
  have hints : ∀ m n : Int64, (some (Ord.compare n.toInt m.toInt) : Option Ordering) =
      (some (Ord.compare m.toInt n.toInt)).map Ordering.swap :=
    fun m n => congrArg some Std.OrientedOrd.eq_swap
  have hdecimals : ∀ d d' : Decimal,
      some (d'.compare d) = (some (d.compare d')).map Ordering.swap :=
    fun d d' => congrArg some (Decimal.compare_swap d d')
  cases a <;> cases b <;> first
    | exact hints _ _
    | exact hdecimals _ _
    | exact compareFloats_swap _ _

end Number

/-! ## Values -/

namespace Value

variable {op mirror : BinaryOp}

theorem compare?_of_numbers {a b : Value} {m n : Number} (ha : Number.ofValue? a = some m)
    (hb : Number.ofValue? b = some n) : compare? a b = Number.compare? m n := by
  cases a <;> cases ha <;> cases b <;> cases hb <;> rfl

/-- **The order of two values turned round.** -/
theorem compare?_swap (a b : Value) : compare? b a = (compare? a b).map Ordering.swap := by
  cases a <;> cases b
  case bool.bool a b => exact congrArg some Std.OrientedOrd.eq_swap
  case text.text a b => exact congrArg some Std.OrientedOrd.eq_swap
  case date.date a b => exact congrArg some (Date.compare_swap a b)
  case time.time a b => exact congrArg some (Time.compare_swap a b)
  case timestamp.timestamp a b => exact congrArg some (Timestamp.compare_swap a b)
  -- what is left are numbers, and values that have no order
  all_goals first
    | rfl
    | rw [compare?_of_numbers rfl rfl, compare?_of_numbers rfl rfl, Number.compare?_swap]

theorem decideComparison?_mirrored (h : op.mirrored? = some mirror) (order : Option Ordering) :
    decideComparison? mirror (order.map Ordering.swap) = decideComparison? op order := by
  cases op <;> cases h <;> rcases order with _ | _ | _ | _ <;> rfl

theorem areIdentical_comm (a b : Value) : areIdentical b a = areIdentical a b := by
  have horder : (b.compare? a == some .eq) = (a.compare? b == some .eq) := by
    rw [compare?_swap a b]
    rcases a.compare? b with _ | _ | _ | _ <;> rfl
  rw [areIdentical, areIdentical, Bool.or_comm, Bool.and_comm, horder]

/-- **A comparison and its mirror image** fold to the same value, or neither to any. -/
theorem foldBinary_mirrored (h : op.mirrored? = some mirror) (a b : Value) :
    foldBinary mirror b a = foldBinary op a b := by
  have hop : op.family = .comparison := BinaryOp.family_mirrored.mp (by rw [h]; rfl)
  have hmirror : mirror.family = .comparison :=
    BinaryOp.family_mirrored.mp (by rw [BinaryOp.mirrored_mirrored h]; rfl)
  have hidentical : mirror = .identical ↔ op = .identical := by
    cases op <;> cases h <;> decide
  rw [foldBinary, foldBinary, hop, hmirror]
  simp only [foldComparison, hidentical, areIdentical_comm a b, Bool.or_comm b.isNull,
    compare?_swap a b, decideComparison?_mirrored h]

end Value

end QueryExpr
