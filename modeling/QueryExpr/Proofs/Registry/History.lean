import QueryExpr.Proofs.Registry.Slot
import QueryExpr.Registry.Dispatch

/-!
# Histories of registrations

A request asks to bind a constructor by the left operand or, for a reversible operator, by
the right one. A registry is reachable when requests made it, granted ones and refused ones,
from the empty registry or the standard one.

* `attempt_eq_ok`, `attempt_slot`: what a request does to the lists of entries.
* `Kept.run`, `Kept.attemptAll`, `Reachable.invariant`: what every request keeps is kept by all.
* `reachable_unambiguous`: no history opens a choice between two entries.
* `resolution_unambiguous`: what follows for resolution, in whatever order the entries stand.
-/

namespace QueryExpr

/-- A constructor to be bound to an operator, chosen by the operand on a side. -/
structure Request where
  operator : Operator
  side : Side
  category : Categories
  constructor : Constructor

namespace Request

variable {q : Request} {r r' : Registry} {err : Error}

/-- The registry with the request granted, or why it is refused. -/
def attempt (q : Request) (r : Registry) : Except Error Registry :=
  match q.side with
  | .left => r.register q.operator q.category q.constructor
  | .right => r.registerReflected q.operator q.category q.constructor

/-- The entry that the request makes on a side: the one it asks for, or the derived one. -/
def entry (q : Request) (side : Side) : Entry :=
  if side = q.side then ⟨q.category.closure, q.constructor, false⟩
  else ⟨q.category.closure, q.constructor.swapped, true⟩

@[simp] theorem entry_category (q : Request) (side : Side) :
    (q.entry side).category = q.category.closure := by
  unfold entry
  split <;> rfl

/-- On neither side does the entry of a request declare other results. -/
theorem result_entry (q : Request) (side : Side) :
    (q.entry side).constructor.result = q.constructor.result := by
  unfold entry
  split <;> rfl

/-- On neither side does the entry of a request build other nodes. -/
theorem operation_entry (q : Request) (side : Side) :
    (q.entry side).constructor.operation = q.constructor.operation := by
  unfold entry
  split <;> rfl

theorem entry_self (q : Request) : q.entry q.side = ⟨q.category.closure, q.constructor, false⟩ :=
  if_pos rfl

/-- The entry that a request for the left side derives on the right one. -/
theorem entry_right (hq : q.side = .left) :
    q.entry .right = ⟨q.category.closure, q.constructor.swapped, true⟩ :=
  if_neg (by rw [hq]; exact Side.noConfusion)

/-- The request adds an entry to the list of an operator and a side: to the one that it asks
for, and from the left side also to the one on the right side of a reversible operator. -/
def Concerns (q : Request) (o : Operator) (side : Side) : Prop :=
  q.operator = o ∧ (side = q.side ∨ side = .right ∧ o.isReversible = true)

/-- The request asks for an operator that is chosen by the operand on that side, and for a
category and a constructor that can be bound to it. -/
def IsSound (q : Request) : Prop :=
  (q.side = .right → q.operator.isReversible = true) ∧
    Registry.findFault? q.operator q.category.closure q.constructor = none

end Request

namespace Registry

variable {q : Request} {r r' : Registry} {o : Operator} {side : Side} {e new : Entry}
  {category : Categories} {c : Constructor} {es : List Entry} {err : Error}

/-! ## One request -/

theorem place_eq_ok : r.place o side new = .ok es ↔ insert new (r.entries o side) = .ok es := by
  unfold place
  cases insert new (r.entries o side) with
  | error fault => simp [Except.mapError]
  | ok es' => simp [Except.mapError]

theorem check_eq_ok {u : Unit} (h : check o category c = .ok u) : findFault? o category c = none := by
  unfold check at h
  cases hf : findFault? o category c with
  | some fault => rw [hf] at h; cases h
  | none => rfl

theorem register_ok (h : r.register o category c = .ok r') :
    findFault? o category.closure c = none ∧
    ∃ left, insert ⟨category.closure, c, false⟩ (r.entries o .left) = .ok left ∧
      (o.isReversible = false ∧ r' = r.set o .left left ∨
        o.isReversible = true ∧
          ∃ right, insert ⟨category.closure, c.swapped, true⟩ (r.entries o .right) = .ok right ∧
            r' = (r.set o .left left).set o .right right) := by
  obtain ⟨u, hcheck, h⟩ := Error.bind_ok h
  obtain ⟨left, hleft, h⟩ := Error.bind_ok h
  refine ⟨check_eq_ok hcheck, left, place_eq_ok.mp hleft, ?_⟩
  cases hrev : o.isReversible with
  | false =>
    rw [hrev] at h
    cases h
    exact Or.inl ⟨rfl, rfl⟩
  | true =>
    rw [hrev, if_pos rfl] at h
    obtain ⟨right, hright, h⟩ := Error.bind_ok h
    cases h
    exact Or.inr ⟨rfl, right, place_eq_ok.mp hright, rfl⟩

theorem registerReflected_ok (h : r.registerReflected o category c = .ok r') :
    o.isReversible = true ∧ findFault? o category.closure c = none ∧
    ∃ right, insert ⟨category.closure, c, false⟩ (r.entries o .right) = .ok right ∧
      r' = r.set o .right right := by
  unfold registerReflected at h
  cases hrev : o.isReversible with
  | false => rw [hrev] at h; cases h
  | true =>
    rw [hrev] at h
    obtain ⟨u, hcheck, h⟩ := Error.bind_ok h
    obtain ⟨right, hright, h⟩ := Error.bind_ok h
    cases h
    exact ⟨rfl, check_eq_ok hcheck, right, place_eq_ok.mp hright, rfl⟩

/-- A sound request for the right side is granted if its entry can be added. -/
theorem registerReflected_of_insert (hrev : o.isReversible = true)
    (hf : findFault? o category.closure c = none)
    (h : insert ⟨category.closure, c, false⟩ (r.entries o .right) = .ok es) :
    r.registerReflected o category c = .ok (r.set o .right es) := by
  have hp := place_eq_ok.mpr h
  simp only [registerReflected, hrev, check, hf, hp]
  rfl

/-- A granted request is sound, and its entries are added to the lists that it concerns. -/
theorem attempt_ok (h : q.attempt r = .ok r') :
    q.IsSound ∧ ∀ o side,
      (q.Concerns o side → insert (q.entry side) (r.entries o side) = .ok (r'.entries o side)) ∧
      (¬ q.Concerns o side → r'.entries o side = r.entries o side) := by
  obtain ⟨o, qside, category, c⟩ := q
  cases qside with
  | left =>
    obtain ⟨hf, left, hleft, ⟨hrev, rfl⟩ | ⟨hrev, right, hright, rfl⟩⟩ := register_ok h
    · -- an operator that is not reversible only has entries on the left side
      refine ⟨⟨nofun, hf⟩, fun o' side => ⟨?_, fun hn => ?_⟩⟩
      · rintro ⟨rfl, rfl | ⟨-, hrev'⟩⟩
        · rw [entries_set_self]
          exact hleft
        · exact absurd hrev' (by rw [hrev]; exact Bool.false_ne_true)
      · rw [entries_set_of_ne]
        rintro ⟨rfl, rfl⟩
        exact hn ⟨rfl, Or.inl rfl⟩
    · refine ⟨⟨nofun, hf⟩, fun o' side => ⟨?_, fun hn => ?_⟩⟩
      · rintro ⟨rfl, -⟩
        cases side with
        | left =>
          rw [entries_set_of_ne _ _ (by simp), entries_set_self]
          exact hleft
        | right =>
          rw [entries_set_self]
          exact hright
      · rw [entries_set_of_ne, entries_set_of_ne]
        · rintro ⟨rfl, rfl⟩
          exact hn ⟨rfl, Or.inl rfl⟩
        · rintro ⟨rfl, rfl⟩
          exact hn ⟨rfl, Or.inr ⟨rfl, hrev⟩⟩
  | right =>
    obtain ⟨hrev, hf, right, hright, rfl⟩ := registerReflected_ok h
    refine ⟨⟨fun _ => hrev, hf⟩, fun o' side => ⟨?_, fun hn => ?_⟩⟩
    · rintro ⟨rfl, rfl | ⟨rfl, -⟩⟩ <;> rw [entries_set_self] <;> exact hright
    · rw [entries_set_of_ne]
      rintro ⟨rfl, rfl⟩
      exact hn ⟨rfl, Or.inl rfl⟩

/-- A sound request is granted if its entries can be added. -/
theorem attempt_of_insert (hs : q.IsSound)
    (h : ∀ side, q.Concerns q.operator side →
      ∃ es, insert (q.entry side) (r.entries q.operator side) = .ok es) :
    ∃ r', q.attempt r = .ok r' := by
  obtain ⟨o, qside, category, c⟩ := q
  obtain ⟨hside, hf⟩ := hs
  cases qside with
  | left =>
    obtain ⟨left, hleft⟩ := h .left ⟨rfl, Or.inl rfl⟩
    have hp : r.place o .left ⟨category.closure, c, false⟩ = .ok left := place_eq_ok.mpr hleft
    have hf : findFault? o category.closure c = none := hf
    cases hrev : o.isReversible with
    | false =>
      exact ⟨r.set o .left left, by simp only [Request.attempt, register, check, hf, hp, hrev]; rfl⟩
    | true =>
      obtain ⟨right, hright⟩ := h .right ⟨rfl, Or.inr ⟨rfl, hrev⟩⟩
      have hp' : r.place o .right ⟨category.closure, c.swapped, true⟩ = .ok right :=
        place_eq_ok.mpr hright
      exact ⟨(r.set o .left left).set o .right right, by
        simp only [Request.attempt, register, check, hf, hp, hp', hrev]; rfl⟩
  | right =>
    obtain ⟨right, hright⟩ := h .right ⟨rfl, Or.inl rfl⟩
    exact ⟨_, registerReflected_of_insert (hside rfl) hf hright⟩

/-- Registries with the same lists of entries are the same. -/
theorem eq_of_entries (h : ∀ o side, r.entries o side = r'.entries o side) : r = r' := by
  cases r
  cases r'
  exact congrArg Registry.mk (funext fun o => funext fun side => h o side)

/-- **What a request does**: it is granted if it is sound and its entries can be added to the lists
it concerns; every other list stays as it is. -/
theorem attempt_eq_ok :
    q.attempt r = .ok r' ↔ q.IsSound ∧ ∀ o side,
      (q.Concerns o side → insert (q.entry side) (r.entries o side) = .ok (r'.entries o side)) ∧
      (¬ q.Concerns o side → r'.entries o side = r.entries o side) := by
  refine ⟨attempt_ok, ?_⟩
  rintro ⟨hs, hlists⟩
  obtain ⟨s, hgranted⟩ := attempt_of_insert hs fun side hc => ⟨_, (hlists q.operator side).1 hc⟩
  have hlists' := (attempt_ok hgranted).2
  -- the lists of a granted request are determined
  have hsame : s = r' := by
    refine eq_of_entries fun o side => ?_
    by_cases hc : q.Concerns o side
    · exact Except.ok.inj (((hlists' o side).1 hc).symm.trans ((hlists o side).1 hc))
    · rw [(hlists' o side).2 hc, (hlists o side).2 hc]
  rw [hgranted, hsame]

/-- **A granted request adds its entries** to the list it asks for and, from the left side,
to the list of the right side; every other list stays as it is. -/
theorem attempt_slot (h : q.attempt r = .ok r') (o : Operator) (side : Side) :
    r'.entries o side = r.entries o side ∨
      q.operator = o ∧ (side = .left → q.side = .left) ∧
        insert (q.entry side) (r.entries o side) = .ok (r'.entries o side) := by
  have hlists := (attempt_eq_ok.mp h).2 o side
  by_cases hc : q.Concerns o side
  · refine Or.inr ⟨hc.1, ?_, hlists.1 hc⟩
    rintro rfl
    exact hc.2.elim Eq.symm fun h => nomatch h.1
  · exact Or.inl (hlists.2 hc)

/-- **Every entry after a granted request** was there before, or is the one that the request adds to
this list. -/
theorem mem_of_attempt (h : q.attempt r = .ok r') (he : e ∈ r'.entries o side) :
    e ∈ r.entries o side ∨ q.Concerns o side ∧ e = q.entry side := by
  obtain ⟨hin, hout⟩ := (attempt_eq_ok.mp h).2 o side
  by_cases hc : q.Concerns o side
  · rcases mem_of_insert (hin hc) he with hnew | hold
    · exact Or.inr ⟨hc, hnew⟩
    · exact Or.inl hold
  · rw [hout hc] at he
    exact Or.inl he

/-- A granted request was sound, and its own entry could be added. -/
theorem attempt_self (h : q.attempt r = .ok r') :
    q.IsSound ∧ insert (q.entry q.side) (r.entries q.operator q.side) =
      .ok (r'.entries q.operator q.side) := by
  obtain ⟨hs, hlists⟩ := attempt_eq_ok.mp h
  exact ⟨hs, (hlists _ _).1 ⟨rfl, Or.inl rfl⟩⟩

/-- **A granted request is granted again**, and changes nothing then. -/
theorem attempt_again (h : q.attempt r = .ok r') : q.attempt r' = .ok r' := by
  obtain ⟨hs, hlists⟩ := attempt_eq_ok.mp h
  exact attempt_eq_ok.mpr ⟨hs, fun o side =>
    ⟨fun hc => insert_again ((hlists o side).1 hc), fun _ => rfl⟩⟩

/-- Of the lists of entries a granted request changes only those of its operator. -/
theorem entries_of_attempt (h : q.attempt r = .ok r') (ho : o ≠ q.operator) (side : Side) :
    r'.entries o side = r.entries o side :=
  ((attempt_eq_ok.mp h).2 o side).2 fun hc => ho hc.1.symm

/-- **The categories of a list after a granted request**: its own, and the one asked for if the
request adds to this list. -/
theorem mem_category_attempt (h : q.attempt r = .ok r') (o : Operator)
    (side : Side) :
    category ∈ (r'.entries o side).map Entry.category ↔
      (q.Concerns o side ∧ category = q.category.closure) ∨
        category ∈ (r.entries o side).map Entry.category := by
  obtain ⟨hin, hout⟩ := (attempt_eq_ok.mp h).2 o side
  by_cases hc : q.Concerns o side
  · rw [mem_category_insert (hin hc), Request.entry_category]
    exact ⟨fun hm => hm.imp_left fun hm => ⟨hc, hm⟩, fun hm => hm.imp_left And.right⟩
  · rw [hout hc]
    exact ⟨Or.inr, fun hm => hm.resolve_left fun hm => hc hm.1⟩

theorem findFault?_none (h : findFault? o category c = none) :
    category ≠ ∅ ∧ category.isConsistent = true := by
  unfold findFault? at h
  by_cases hc : category = ∅ ∨ category.isConsistent = false
  · rw [if_pos hc] at h
    cases h
  · exact ⟨fun he => hc (Or.inl he), by simpa using fun hi => hc (Or.inr hi)⟩

/-! ## Sequences of requests -/

variable {s : Registry} {qs : List Request}

/-- The registry after a request; a refused one changes nothing. -/
def after (r : Registry) (q : Request) : Registry :=
  match q.attempt r with
  | .ok r' => r'
  | .error _ => r

/-- The registry after a list of requests. -/
def run (r : Registry) (qs : List Request) : Registry := qs.foldl after r

/-- Requests made the registry from the empty one or the standard one. -/
inductive Reachable : Registry → Prop
  | empty : Reachable empty
  | standard : Reachable standard
  | after {r : Registry} (q : Request) (h : Reachable r) : Reachable (r.after q)

theorem Reachable.attempt (hr : Reachable r) (h : q.attempt r = .ok r') : Reachable r' := by
  have hafter : r.after q = r' := by rw [Registry.after, h]
  exact hafter ▸ hr.after q

theorem Reachable.run {r : Registry} (h : Reachable r) (qs : List Request) :
    Reachable (r.run qs) := by
  induction qs generalizing r with
  | nil => exact h
  | cons q rest ih => exact ih (h.after q)

/-- A property that no granted request takes away. -/
def Kept (P : Registry → Prop) : Prop :=
  ∀ (r r' : Registry) (q : Request), P r → q.attempt r = .ok r' → P r'

/-- What granted requests keep is kept by every request. -/
theorem Kept.after {P : Registry → Prop} (hkept : Kept P) (q : Request) (h : P r) :
    P (r.after q) := by
  unfold Registry.after
  cases ha : q.attempt r with
  | error err => exact h
  | ok r' => exact hkept r r' q h ha

/-- **What granted requests keep is kept by every list of requests.** -/
theorem Kept.run {P : Registry → Prop} (hkept : Kept P) (h : P r) (qs : List Request) :
    P (r.run qs) := by
  induction qs generalizing r with
  | nil => exact h
  | cons q rest ih => exact ih (hkept.after q h)

/-- The registry after requests that are all granted, or why the first other one is refused. -/
def attemptAll (r : Registry) (qs : List Request) : Except Error Registry :=
  qs.foldlM (fun r q => q.attempt r) r

theorem attemptAll_cons (h : r.attemptAll (q :: qs) = .ok s) :
    ∃ r', q.attempt r = .ok r' ∧ r'.attemptAll qs = .ok s := by
  rw [attemptAll, List.foldlM_cons] at h
  exact Error.bind_ok h

/-- Requests that are all granted are a run. -/
theorem run_of_attemptAll (h : r.attemptAll qs = .ok s) : r.run qs = s := by
  induction qs generalizing r with
  | nil =>
    cases h
    rfl
  | cons q qs ih =>
    obtain ⟨r', ha, h⟩ := attemptAll_cons h
    rw [run, List.foldl_cons, after, ha]
    exact ih h

theorem Kept.attemptAll {P : Registry → Prop} (hkept : Kept P) (hr : P r)
    (h : r.attemptAll qs = .ok s) : P s :=
  run_of_attemptAll h ▸ hkept.run hr qs

/-- What the standard registry is made with: a request for each operator, on the category that its
operands carry anyway. -/
def standardRequest (o : Operator) : Request :=
  ⟨o, .left, {requiredOperand o.family}, standardConstructor o⟩

/-- The standard registry has what the empty one has, if granted requests keep it. -/
theorem Kept.standard {P : Registry → Prop} (hkept : Kept P) (hempty : P Registry.empty) :
    P Registry.standard := by
  unfold Registry.standard
  cases h : registerStandard Registry.empty with
  | error err => exact hempty
  | ok r =>
    -- a standard entry is asked for like any other
    have hall : Registry.empty.attemptAll (Operator.all.map standardRequest) = .ok r := by
      rw [Registry.attemptAll, List.foldlM_map]
      exact h
    exact hkept.attemptAll hempty hall

/-- **What the empty registry has and granted requests keep** is had by every reachable one. -/
theorem Reachable.invariant {P : Registry → Prop} (h : Reachable r) (hkept : Kept P)
    (hempty : P Registry.empty) : P r := by
  induction h with
  | empty => exact hempty
  | standard => exact hkept.standard hempty
  | after q _ ih => exact hkept.after q ih

/-! ## No choice is ever open -/

/-- A granted request opens no choice between two entries of a list. -/
theorem unambiguous_kept :
    Kept fun r => ∀ o side, Unambiguous ((r.entries o side).map Entry.category) := by
  intro r r' q hr ha o side
  rcases attempt_slot ha o side with hs | ⟨-, -, hs⟩
  · rw [hs]
    exact hr o side
  · obtain ⟨hne, hcons⟩ := findFault?_none (attempt_self ha).1.2
    refine insert_unambiguous (hr o side) ?_ ?_ ?_ hs
    · rw [Request.entry_category, Categories.closure_closure]
    · rw [Request.entry_category]
      exact hne
    · rw [Request.entry_category]
      exact hcons

/-- **No history opens a choice** between two entries of a list. -/
theorem reachable_unambiguous (h : Reachable r) (o : Operator) (side : Side) :
    Unambiguous ((r.entries o side).map Entry.category) :=
  h.invariant unambiguous_kept (fun _ _ => Unambiguous.nil) o side

/-- Which entry suits best does not depend on the order of the entries. -/
theorem IsMostSpecific.perm {receiver : Categories} {e : Entry} {es' : List Entry} (hp : es'.Perm es) :
    IsMostSpecific es' receiver e ↔ IsMostSpecific es receiver e := by
  constructor
  · intro h
    exact ⟨hp.mem_iff.mp h.mem, h.suits, fun d hd => h.greatest d (hp.mem_iff.mpr hd)⟩
  · intro h
    exact ⟨hp.mem_iff.mpr h.mem, h.suits, fun d hd => h.greatest d (hp.mem_iff.mp hd)⟩

theorem resolve?_eq (r : Registry) (o : Operator) (side : Side) (receiver : Categories) :
    r.resolve? o side receiver =
      (mostSpecific? (suitable (r.entries o side) receiver)).map Entry.constructor := rfl

/-- **Resolution depends on the binding of each category only**, not on where its entry stands or
whether it was derived. -/
theorem resolve?_of_bindings {o' : Operator} {side' : Side} {receiver : Categories}
    {f : Constructor → Constructor} (hr : Reachable r) (hr' : Reachable r')
    (hcons : receiver.isConsistent = true)
    (h : ∀ category, (bound? (r'.entries o' side') category).map Entry.constructor =
      ((bound? (r.entries o side) category).map Entry.constructor).map f) :
    r'.resolve? o' side' receiver = (r.resolve? o side receiver).map f :=
  mostSpecific?_of_bindings (reachable_unambiguous hr o side) (reachable_unambiguous hr' o' side')
    hcons h

/-- Nothing is resolved exactly when no entry is on a category the receiver carries. -/
theorem resolve?_eq_none {receiver : Categories} :
    r.resolve? o side receiver = none ↔ ∀ e ∈ r.entries o side, ¬ e.category ⊆ receiver := by
  rw [resolve?_eq, Option.map_eq_none_iff]
  constructor
  · intro h e he hs
    have := mostSpecific?_suitable_isSome he hs
    rw [h] at this
    cases this
  · intro h
    cases hm : mostSpecific? (suitable (r.entries o side) receiver) with
    | none => rfl
    | some e =>
      have he := isMostSpecific_of_mostSpecific? hm
      exact absurd he.suits (h e he.mem)

/-- **Resolution is never ambiguous.** In a reachable registry every category of a list is
closed, not empty and consistent, and stands there once. At most one of the entries on
categories that a consistent receiver carries is the most specific, and it is the one that
is resolved, in whatever order the entries stand. -/
theorem resolution_unambiguous (h : Reachable r) (o : Operator) (side : Side) :
    (∀ e ∈ r.entries o side, e.category.closure = e.category ∧ e.category ≠ ∅ ∧
      e.category.isConsistent = true) ∧
    ((r.entries o side).map Entry.category).Nodup ∧
    ∀ receiver : Categories, receiver.isConsistent = true →
      (∀ d e, IsMostSpecific (r.entries o side) receiver d →
        IsMostSpecific (r.entries o side) receiver e → d = e) ∧
      ∀ r' : Registry, (r'.entries o side).Perm (r.entries o side) →
        (∀ c, r'.resolve? o side receiver = some c ↔
          ∃ e, IsMostSpecific (r.entries o side) receiver e ∧ e.constructor = c) ∧
        (r'.resolve? o side receiver = none ↔
          ∀ e ∈ r.entries o side, ¬ e.category ⊆ receiver) := by
  have hu := reachable_unambiguous h o side
  refine ⟨?_, hu.nodup, ?_⟩
  · intro e he
    have hc : e.category ∈ (r.entries o side).map Entry.category := List.mem_map_of_mem he
    exact ⟨hu.closed _ hc, hu.possible _ hc⟩
  · intro receiver hr
    refine ⟨fun d e hd he => hu.eq_of_isMostSpecific hr hd he, fun r' hp => ⟨fun c => ?_, ?_⟩⟩
    · have hu' : Unambiguous ((r'.entries o side).map Entry.category) :=
        hu.perm (hp.map Entry.category)
      rw [resolve?_eq, Option.map_eq_some_iff]
      constructor
      · rintro ⟨e, he, rfl⟩
        exact ⟨e, (IsMostSpecific.perm hp).mp ((mostSpecific?_eq_some hu' hr).mp he), rfl⟩
      · rintro ⟨e, he, rfl⟩
        exact ⟨e, (mostSpecific?_eq_some hu' hr).mpr ((IsMostSpecific.perm hp).mpr he), rfl⟩
    · rw [resolve?_eq_none]
      exact ⟨fun hn e he => hn e (hp.mem_iff.mpr he), fun hn e he => hn e (hp.mem_iff.mp he)⟩

/-- The sum of two integers asked for as a product. -/
def productOfIntegers : Request :=
  ⟨.binary .add, .left, {.integer}, ⟨.binary .multiply, .numeric, false⟩⟩

/-- An integer has the numeric and the integer entry to choose from, also in a registry
whose entries stand in the opposite order; it takes the one for integers. -/
theorem resolution_unambiguous_integers :
    Reachable (standard.after productOfIntegers) ∧
    (resolve? ⟨fun o side => ((standard.after productOfIntegers).entries o side).reverse⟩
      (.binary .add) .left (Categories.ofList [.value, .scalar, .numeric, .integer])) =
        some productOfIntegers.constructor := by
  have hr : Reachable (standard.after productOfIntegers) := Reachable.standard.after _
  have hu := (resolution_unambiguous hr (.binary .add) .left).2.2
    (Categories.ofList [.value, .scalar, .numeric, .integer]) (by decide)
  have hp := List.reverse_perm ((standard.after productOfIntegers).entries (.binary .add) .left)
  refine ⟨hr, ((hu.2 ⟨fun o side => ((standard.after productOfIntegers).entries o side).reverse⟩
    hp).1 _).mpr ?_⟩
  exact ((hu.2 _ (List.Perm.refl _)).1 _).mp rfl

end Registry

end QueryExpr
