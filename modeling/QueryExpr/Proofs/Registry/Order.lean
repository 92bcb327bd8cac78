import QueryExpr.Proofs.Registry.Mirror

/-!
# The order of registrations does not matter

Two orders of the same requests may leave a list with its entries at other places, and an entry
derived in the one and explicit in the other. What is bound on each category is the same as long
as every request is granted in both: a granted request is bound for good, unless it asked for just
what the left side derives (`Honours`), and then a binding that differs from it goes back to
another of the requests, which was granted in both orders as well.

* `honours_of_attemptAll`: what is left of each of the requests after all of them.
* `bindings_of_perm`: **two orders bind the same constructors.**
* `dispatch_of_perm`: so they resolve and apply alike.
-/

namespace QueryExpr

open QueryExpr.Expr

namespace Registry

variable {r r' s s' : Registry} {q : Request} {qs qs' : List Request} {o : Operator} {side : Side}
  {e : Entry} {category : Categories} {c : Constructor} {operands : List Expr}

/-! ## Sequences of granted requests -/

theorem Reachable.attemptAll (hr : Reachable r) (h : r.attemptAll qs = .ok s) : Reachable s :=
  run_of_attemptAll h ▸ hr.run qs

/-- Every entry was there before or is made by one of the requests. -/
theorem mem_of_attemptAll (h : r.attemptAll qs = .ok s) (he : e ∈ s.entries o side) :
    e ∈ r.entries o side ∨ ∃ q ∈ qs, q.Concerns o side ∧ e = q.entry side := by
  induction qs generalizing r with
  | nil =>
    cases h
    exact Or.inl he
  | cons q qs ih =>
    obtain ⟨r', ha, h⟩ := attemptAll_cons h
    rcases ih h with he | ⟨q', hq', he⟩
    · rcases mem_of_attempt ha he with he | hq
      · exact Or.inl he
      · exact Or.inr ⟨q, List.mem_cons_self, hq⟩
    · exact Or.inr ⟨q', List.mem_cons_of_mem q hq', he⟩

/-- The categories of a list after granted requests are those it had and those asked for. -/
theorem mem_category_attemptAll (h : r.attemptAll qs = .ok s) :
    category ∈ (s.entries o side).map Entry.category ↔
      (∃ q ∈ qs, q.Concerns o side ∧ category = q.category.closure) ∨
        category ∈ (r.entries o side).map Entry.category := by
  induction qs generalizing r with
  | nil =>
    cases h
    simp
  | cons q qs ih =>
    obtain ⟨r', ha, h⟩ := attemptAll_cons h
    rw [ih h, mem_category_attempt ha, List.exists_mem_cons_iff]
    exact or_left_comm.trans or_assoc.symm

/-! ## What is left of a granted request -/

/-- The constructor is the exchanged one of the left entry on the category. -/
def IsMirror (r : Registry) (o : Operator) (category : Categories) (c : Constructor) : Prop :=
  ∃ e, bound? (r.entries o .left) category = some e ∧ c = e.constructor.swapped

/-- The request is bound explicitly, or it asks on the right side for what the left side derives
there, which need not be bound. -/
def Honours (r : Registry) (q : Request) : Prop :=
  (∃ e, r.binding? q = some e ∧ e.derived = false ∧ e.constructor = q.constructor) ∨
    q.side = .right ∧ r.IsMirror q.operator q.category.closure q.constructor

theorem honours_of_attempt (hr : Reachable r) (h : q.attempt r = .ok r') : r'.Honours q := by
  obtain ⟨e, hb, hc, hwas⟩ := binding_of_attempt hr h
  cases hd : e.derived with
  | false => exact Or.inl ⟨e, hb, hd, hc⟩
  | true =>
    -- what is derived there mirrors the left side
    have hside : q.side = .right := (hwas.mp hd).1
    rw [binding?, hside] at hb
    obtain ⟨he, hcat⟩ := bound?_some hb
    obtain ⟨e', hb', hmirror⟩ := (hr.attempt h).mirrored.derived _ e he hd
    rw [hcat] at hb'
    exact Or.inr ⟨hside, e', hb', by rw [← hc, hmirror, Entry.mirror]⟩

/-- Left entries stay, so what they derive stays the same. -/
theorem isMirror_kept (o : Operator) (category : Categories) (c : Constructor) :
    Kept fun r => r.Mirrored ∧ r.IsMirror o category c := by
  rintro r r' q ⟨hm, e, hb, hc⟩ ha
  have hd : e.derived = false := hm.explicit o e (bound?_some hb).1
  exact ⟨mirrored_kept r r' q hm ha, e, Kept.explicit_bound o .left _ hd r r' q hb ha, hc⟩

/-- **No request takes away what is left of a granted one.** -/
theorem honours_kept (q : Request) : Kept fun r => r.Mirrored ∧ r.Honours q := by
  rintro r r' q' ⟨hm, ⟨e, hb, hd, hc⟩ | ⟨hside, hmirror⟩⟩ ha
  · exact ⟨mirrored_kept r r' q' hm ha, Or.inl ⟨e, Kept.binding q hd r r' q' hb ha, hd, hc⟩⟩
  · obtain ⟨hm', hmirror'⟩ := isMirror_kept _ _ _ r r' q' ⟨hm, hmirror⟩ ha
    exact ⟨hm', Or.inr ⟨hside, hmirror'⟩⟩

/-- **What is left of each of the requests** when all of them are granted. -/
theorem honours_of_attemptAll (hr : Reachable r) (h : r.attemptAll qs = .ok s) :
    ∀ q ∈ qs, s.Honours q := by
  induction qs generalizing r with
  | nil => exact fun q hq => nomatch hq
  | cons q qs ih =>
    obtain ⟨r', ha, h⟩ := attemptAll_cons h
    have hr' : Reachable r' := hr.attempt ha
    refine List.forall_mem_cons.mpr ⟨?_, ih hr' h⟩
    exact ((honours_kept q).attemptAll ⟨hr'.mirrored, honours_of_attempt hr ha⟩ h).2

/-! ## Two orders -/

/-- The same requests are granted in two orders, and lead from one registry to two others. -/
structure Reordered (r s s' : Registry) (qs qs' : List Request) : Prop where
  start : Reachable r
  perm : qs'.Perm qs
  first : r.attemptAll qs = .ok s
  second : r.attemptAll qs' = .ok s'

theorem Reordered.symm (h : Reordered r s s' qs qs') : Reordered r s' s qs' qs :=
  ⟨h.start, h.perm.symm, h.second, h.first⟩

namespace Reordered

/-- An entry that one order has on a category, the other one has on it as well. -/
theorem isBound (h : Reordered r s s' qs qs') (hb : bound? (s.entries o side) category = some e) :
    ∃ e', bound? (s'.entries o side) category = some e' := by
  obtain ⟨he, rfl⟩ := bound?_some hb
  have hcat := (mem_category_attemptAll h.first).mp (List.mem_map_of_mem he)
  simp only [← h.perm.mem_iff] at hcat
  have hcat' := (mem_category_attemptAll h.second).mpr hcat
  exact Option.ne_none_iff_exists'.mp fun hnone => bound?_none.mp hnone hcat'

/-- **An explicit entry of one order** is an entry of the other, or one of its constructor is, or
it is derived from the left side of the other. -/
theorem explicit (h : Reordered r s s' qs qs')
    (hb : bound? (s.entries o side) category = some e) (hd : e.derived = false) :
    (∃ e', bound? (s'.entries o side) category = some e' ∧
      e'.constructor = e.constructor) ∨
    side = .right ∧ s'.IsMirror o category e.constructor := by
  obtain ⟨he, rfl⟩ := bound?_some hb
  rcases mem_of_attemptAll h.first he with hold | ⟨q, hq, hc, rfl⟩
  · -- it was there before, and explicit entries stay
    have hb := bound?_of_mem (reachable_unambiguous h.start o side).nodup hold
    exact Or.inl ⟨e, (Kept.explicit_bound o side _ hd).attemptAll hb h.second, rfl⟩
  · -- it is what a request asked for, which was granted in the other order too
    have hside : side = q.side := by
      by_contra hne
      rw [Request.entry, if_neg hne] at hd
      cases hd
    obtain ⟨rfl, -⟩ := hc
    subst hside
    rw [Request.entry_self]
    rcases honours_of_attemptAll h.start h.second q (h.perm.mem_iff.mpr hq) with
      ⟨e', hb', -, hc'⟩ | ⟨hside, hmirror⟩
    · exact Or.inl ⟨e', hb', hc'⟩
    · exact Or.inr ⟨hside, hmirror⟩

/-- On the left side two orders bind the same constructors. -/
theorem left (h : Reordered r s s' qs qs')
    (hb : bound? (s.entries o .left) category = some e) :
    ∃ e', bound? (s'.entries o .left) category = some e' ∧
      e'.constructor = e.constructor := by
  have hd := (h.start.attemptAll h.first).mirrored.explicit o e (bound?_some hb).1
  exact (h.explicit hb hd).resolve_right fun hright => nomatch hright.1

/-- So the left side derives the same in both orders. -/
theorem isMirror (h : Reordered r s s' qs qs') (hc : s.IsMirror o category c) :
    s'.IsMirror o category c := by
  obtain ⟨e, hb, rfl⟩ := hc
  obtain ⟨e', hb', hc'⟩ := h.left hb
  exact ⟨e', hb', by rw [hc']⟩

/-- On the right side two orders bind the same constructor, or what the one has is derived. -/
theorem right (h : Reordered r s s' qs qs') {e' : Entry}
    (hb : bound? (s.entries o .right) category = some e)
    (hb' : bound? (s'.entries o .right) category = some e') :
    e'.constructor = e.constructor ∨ s.IsMirror o category e.constructor := by
  cases hd : e.derived with
  | false =>
    rcases h.explicit hb hd with ⟨d, hbd, hc⟩ | ⟨-, hmirror⟩
    · rw [hb'] at hbd
      cases hbd
      exact Or.inl hc
    · exact Or.inr (h.symm.isMirror hmirror)
  | true =>
    obtain ⟨he, rfl⟩ := bound?_some hb
    obtain ⟨d, hbd, hmirror⟩ := (h.start.attemptAll h.first).mirrored.derived o e he hd
    exact Or.inr ⟨d, hbd, by rw [hmirror, Entry.mirror]⟩

theorem constructor_eq (h : Reordered r s s' qs qs') {e' : Entry}
    (hb : bound? (s.entries o side) category = some e)
    (hb' : bound? (s'.entries o side) category = some e') :
    e'.constructor = e.constructor := by
  cases side with
  | left =>
    obtain ⟨d, hbd, hc⟩ := h.left hb
    rw [hb'] at hbd
    cases hbd
    exact hc
  | right =>
    rcases h.right hb hb' with hc | ⟨d, hbd, hc⟩
    · exact hc
    · rcases h.symm.right hb' hb with hc' | hmirror'
      · exact hc'.symm
      · -- both are derived, from left entries with one constructor
        obtain ⟨d', hbd', hc'⟩ := h.symm.isMirror hmirror'
        rw [hbd] at hbd'
        cases hbd'
        rw [hc, hc']

end Reordered

/-- **Two orders bind the same constructors.** -/
theorem bindings_of_perm (h : Reordered r s s' qs qs') (o : Operator) (side : Side)
    (category : Categories) :
    (bound? (s'.entries o side) category).map Entry.constructor =
      (bound? (s.entries o side) category).map Entry.constructor := by
  cases hb : bound? (s.entries o side) category with
  | some e =>
    obtain ⟨e', hb'⟩ := h.isBound hb
    rw [hb', Option.map_some, Option.map_some, h.constructor_eq hb hb']
  | none =>
    cases hb' : bound? (s'.entries o side) category with
    | none => rfl
    | some e' =>
      obtain ⟨e, hb''⟩ := h.symm.isBound hb'
      rw [hb] at hb''
      cases hb''

/-! ## What follows for dispatch -/

/-- Operands that choose alike are joined alike. -/
theorem apply_congr (o : Operator) (h : ∀ x ∈ operands, ∀ o side,
    s'.resolve? o side x.dispatchCategories = s.resolve? o side x.dispatchCategories) :
    s'.apply o operands = s.apply o operands := by
  have hchoose : s'.choose? o operands = s.choose? o operands := by
    match operands with
    | [] | _ :: _ :: _ :: _ => rfl
    | [x] => rw [choose?, choose?, h x (by simp)]
    | [left, right] =>
      have hright : s'.resolveRight? o right = s.resolveRight? o right := by
        simp only [resolveRight?, h right (by simp)]
      rw [choose?, choose?, h left (by simp), hright]
  rw [apply_eq, apply_eq, hchoose]

/-- **The order of registrations does not matter.** If the same requests, each for the left or the
right side, are all granted in two orders, the two registries resolve alike for every consistent
receiver, and so apply every operator alike to operands with consistent categories. -/
theorem dispatch_of_perm (hr : Reachable r) (hp : qs'.Perm qs) (hs : r.attemptAll qs = .ok s)
    (hs' : r.attemptAll qs' = .ok s') :
    (∀ o side receiver, receiver.isConsistent = true →
      s'.resolve? o side receiver = s.resolve? o side receiver) ∧
    (∀ o left right, left.categories.isConsistent = true → right.categories.isConsistent = true →
      s'.applyBinary o left right = s.applyBinary o left right) ∧
    (∀ o operand, operand.categories.isConsistent = true →
      s'.applyUnary o operand = s.applyUnary o operand) := by
  have h : Reordered r s s' qs qs' := ⟨hr, hp, hs, hs'⟩
  have hresolve : ∀ o side receiver, receiver.isConsistent = true →
      s'.resolve? o side receiver = s.resolve? o side receiver := by
    intro o side receiver hcons
    have hbindings := bindings_of_perm h o side
    rw [resolve?_of_bindings (hr.attemptAll hs) (hr.attemptAll hs') hcons (f := id)
      fun category => by rw [hbindings, Option.map_id]; rfl, Option.map_id]
    rfl
  have hoperand : ∀ x : Expr, x.categories.isConsistent = true → ∀ o side,
      s'.resolve? o side x.dispatchCategories = s.resolve? o side x.dispatchCategories :=
    fun x hx o side => hresolve o side _ (consistent_dispatchCategories hx)
  refine ⟨hresolve, fun o left right hl hr => ?_, fun o operand hc => ?_⟩
  · show s'.apply o [left, right] = s.apply o [left, right]
    exact apply_congr o (List.forall_mem_cons.mpr
      ⟨hoperand left hl, List.forall_mem_singleton.mpr (hoperand right hr)⟩)
  · show s'.apply o [operand] = s.apply o [operand]
    exact apply_congr o (List.forall_mem_singleton.mpr (hoperand operand hc))

/-- The sum of a value and an integer, with the integer first. -/
def sumWithInteger : Request :=
  ⟨.binary .add, .right, {.integer}, standardConstructor (.binary .add)⟩

/-- A product of integers may be registered before or after the sum that takes the place of the form
derived from it; a raw seven and an integer make that sum in both cases. -/
theorem dispatch_of_perm_sum : ∃ s s',
    standard.attemptAll [productOfIntegers, sumWithInteger] = .ok s ∧
    standard.attemptAll [sumWithInteger, productOfIntegers] = .ok s' ∧
    (∀ o left right, left.categories.isConsistent = true → right.categories.isConsistent = true →
      s'.applyBinary o left right = s.applyBinary o left right) ∧
    ∃ e, s'.applyBinary (.binary .add) (.value (.int 7)) (scalar .int32 (.int 1)) = .ok e ∧
      e.args = [scalar .int32 (.int 1), .value (.int 7)] := by
  have hs : ∃ s, standard.attemptAll [productOfIntegers, sumWithInteger] = .ok s := ⟨_, rfl⟩
  have hs' : ∃ s', standard.attemptAll [sumWithInteger, productOfIntegers] = .ok s' := ⟨_, rfl⟩
  obtain ⟨s, hs⟩ := hs
  obtain ⟨s', hs'⟩ := hs'
  have hsame := (dispatch_of_perm .standard (List.Perm.swap _ _ []) hs hs').2.1
  refine ⟨s, s', hs, hs', hsame, ?_⟩
  rw [hsame _ _ _ rfl rfl]
  cases hs
  exact ⟨_, rfl, rfl⟩

end Registry

end QueryExpr
