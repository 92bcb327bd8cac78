import QueryExpr.Proofs.Registry.History
import QueryExpr.Registry.InPlace

/-!
# Registrations are granted as a whole or not at all

A registration in place decides where both of its entries are to go before it writes the first
one. So it does what a registration does that gives a new registry, and what is refused leaves the
registry as it was, also if only the second entry is refused.

* `insert_eq_placement`: deciding and then writing is adding.
* `perform_eq`: **a registration in place is the registration**, and refused it writes nothing.
* `registration_atomic`: what a registration changes, and that it changes nothing twice.
-/

namespace QueryExpr

namespace Registry

variable {q : Request} {r r' : Registry} {o : Operator} {side : Side} {new : Entry}
  {category : Categories} {c : Constructor} {es : List Entry} {err : Error} {p : Placement}
  {fault : RegistrationFault}

/-! ## One list -/

theorem set_findIdx {e : Entry} (hb : bound? es new.category = some e) :
    es.set (es.findIdx (·.category = new.category)) new = replace new es := by
  induction es with
  | nil => cases hb
  | cons d rest ih =>
    rw [bound?_cons] at hb
    rw [replace, List.findIdx_cons]
    by_cases hc : d.category = new.category
    · simp [hc]
    · rw [if_neg hc] at hb
      simp [hc, ih hb]

/-- **Deciding and then writing is adding.** -/
theorem insert_eq_placement (new : Entry) (es : List Entry) :
    insert new es = (placement new es).map fun p => p.carryOut new es := by
  unfold insert placement
  dsimp only
  rw [← List.find?_eq_getElem?_findIdx]
  cases hb : es.find? (·.category = new.category) with
  | some e =>
    dsimp only
    by_cases hc : e.constructor = new.constructor
    · rw [if_pos hc, if_pos hc]
      rfl
    · rw [if_neg hc, if_neg hc]
      split
      · rw [← set_findIdx hb]
        rfl
      · split <;> rfl
  | none =>
    dsimp only
    cases es.find? (isRival new.category) <;> rfl

theorem place_of_placement (h : placement new (r.entries o side) = .ok p) :
    r.place o side new = .ok (p.carryOut new (r.entries o side)) := by
  rw [place, insert_eq_placement, h]
  rfl

theorem place_of_placement_error (h : placement new (r.entries o side) = .error fault) :
    r.place o side new = .error (.registration (sideWord o side) new.category fault) := by
  rw [place, insert_eq_placement, h]
  rfl

/-! ## Work in place -/

namespace InPlace

variable {α β : Type} {work : InPlace α} {f : α → InPlace β} {a : α}

theorem runOn_bind_ok (h : work.runOn r = (.ok a, r')) :
    (work >>= f).runOn r = (f a).runOn r' := by
  have h : (work.run.run r : Id _) = (.ok a, r') := h
  simp only [runOn, ExceptT.run_bind, StateT.run_bind, h]
  rfl

theorem runOn_bind_error (h : work.runOn r = (.error err, r')) :
    (work >>= f).runOn r = (.error err, r') := by
  have h : (work.run.run r : Id _) = (.error err, r') := h
  simp only [runOn, ExceptT.run_bind, StateT.run_bind, h]
  rfl

theorem runOn_map_ok (g : α → β) (h : work.runOn r = (.ok a, r')) :
    (g <$> work).runOn r = (.ok (g a), r') := by
  rw [map_eq_pure_bind, runOn_bind_ok h]
  rfl

theorem runOn_map_error (g : α → β) (h : work.runOn r = (.error err, r')) :
    (g <$> work).runOn r = (.error err, r') := by
  rw [map_eq_pure_bind, runOn_bind_error h]

end InPlace

open InPlace

/-- Deciding where an entry is to go writes nothing. -/
theorem runOn_decidePlacement (o : Operator) (side : Side) (new : Entry) (r : Registry) :
    (decidePlacement o side new).runOn r =
      ((placement new (r.entries o side)).mapError
        (.registration (sideWord o side) new.category), r) := by
  have hget : runOn get r = (.ok r, r) := rfl
  unfold decidePlacement
  rw [runOn_bind_ok hget]
  cases placement new (r.entries o side) <;> rfl

theorem runOn_decidePlacement_ok (h : placement new (r.entries o side) = .ok p) :
    (decidePlacement o side new).runOn r = (.ok p, r) := by
  rw [runOn_decidePlacement, h]
  rfl

theorem runOn_decidePlacement_error (h : placement new (r.entries o side) = .error fault) :
    (decidePlacement o side new).runOn r =
      (.error (.registration (sideWord o side) new.category fault), r) := by
  rw [runOn_decidePlacement, h]
  rfl

/-- Writing an entry cannot fail. -/
theorem runOn_write (o : Operator) (side : Side) (new : Entry) (p : Placement) (r : Registry) :
    (write o side new p).runOn r = (.ok (), r.set o side (p.carryOut new (r.entries o side))) := rfl

theorem runOn_check (o : Operator) (category : Categories) (c : Constructor) (r : Registry) :
    runOn (liftM (check o category c)) r = (check o category c, r) := by
  cases check o category c <;> rfl

/-- The outcome of a registration in place: the new registry, or the old one and an error. -/
def settle (r : Registry) : Except Error Registry → Except Error Unit × Registry
  | .ok r' => (.ok (), r')
  | .error err => (.error err, r)

/-- **A registration in place** writes what a registration gives, and nothing if it is refused. -/
theorem runOn_registerInPlace (o : Operator) (category : Categories) (c : Constructor)
    (r : Registry) :
    (registerInPlace o category c).runOn r = settle r (r.register o category c) := by
  unfold registerInPlace register
  dsimp only
  have hcheck := runOn_check o category.closure c r
  cases hc : check o category.closure c with
  | error err =>
    rw [hc] at hcheck
    exact runOn_bind_error hcheck
  | ok u =>
    rw [hc] at hcheck
    rw [runOn_bind_ok hcheck]
    cases hleft : placement ⟨category.closure, c, false⟩ (r.entries o .left) with
    | error fault =>
      rw [runOn_bind_error (runOn_decidePlacement_error hleft), place_of_placement_error hleft]
      rfl
    | ok p =>
      rw [runOn_bind_ok (runOn_decidePlacement_ok hleft), place_of_placement hleft]
      cases hrev : o.isReversible with
      | false => rfl
      | true =>
        rw [if_pos rfl]
        cases hright : placement ⟨category.closure, c.swapped, true⟩ (r.entries o .right) with
        | error fault =>
          -- the left entry is still to be written
          rw [runOn_bind_error (runOn_map_error some (runOn_decidePlacement_error hright)),
            place_of_placement_error hright]
          rfl
        | ok p' =>
          rw [runOn_bind_ok (runOn_map_ok some (runOn_decidePlacement_ok hright)),
            place_of_placement hright, runOn_bind_ok (runOn_write ..)]
          -- the left entry is written by now, but not to the list that the right one was decided on
          have hother : (r.set o .left (p.carryOut ⟨category.closure, c, false⟩
              (r.entries o .left))).entries o .right = r.entries o .right :=
            entries_set_of_ne r _ (by simp)
          refine (runOn_write ..).trans ?_
          rw [hother]
          rfl

theorem runOn_registerReflectedInPlace (o : Operator) (category : Categories) (c : Constructor)
    (r : Registry) :
    (registerReflectedInPlace o category c).runOn r =
      settle r (r.registerReflected o category c) := by
  unfold registerReflectedInPlace registerReflected
  dsimp only
  cases hrev : o.isReversible with
  | false => rfl
  | true =>
    have hcheck := runOn_check o category.closure c r
    cases hc : check o category.closure c with
    | error err =>
      rw [hc] at hcheck
      exact runOn_bind_error hcheck
    | ok u =>
      rw [hc] at hcheck
      refine (runOn_bind_ok hcheck).trans ?_
      cases hright : placement ⟨category.closure, c, false⟩ (r.entries o .right) with
      | error fault =>
        rw [runOn_bind_error (runOn_decidePlacement_error hright), place_of_placement_error hright]
        rfl
      | ok p =>
        rw [runOn_bind_ok (runOn_decidePlacement_ok hright), place_of_placement hright]
        rfl

end Registry

/-- Carries out a request in place. -/
def Request.perform (q : Request) (r : Registry) : Except Error Unit × Registry :=
  match q.side with
  | .left => (Registry.registerInPlace q.operator q.category q.constructor).runOn r
  | .right => (Registry.registerReflectedInPlace q.operator q.category q.constructor).runOn r

namespace Registry

variable {q : Request} {r r' : Registry} {err : Error}

/-! ## Requests in place -/

/-- **A request in place** writes what the request gives, and nothing if it is refused. -/
theorem perform_eq (q : Request) (r : Registry) : q.perform r = settle r (q.attempt r) := by
  unfold Request.perform Request.attempt
  cases q.side with
  | left => exact runOn_registerInPlace ..
  | right => exact runOn_registerReflectedInPlace ..

theorem perform_eq_ok : q.perform r = (.ok (), r') ↔ q.attempt r = .ok r' := by
  rw [perform_eq]
  cases q.attempt r <;> simp [settle]

theorem perform_eq_error : q.perform r = (.error err, r') ↔ q.attempt r = .error err ∧ r' = r := by
  rw [perform_eq]
  cases q.attempt r <;> simp [settle, eq_comm]

/-- **A registration is granted as a whole or not at all**, and once granted it is granted again.
If it fails, the registry is as before. If it succeeds, only lists of its operator change, and in
these no category is lost and the one asked for is found; the same registration then succeeds and
leaves the registry as it is. -/
theorem registration_atomic (q : Request) (r : Registry) :
    (∀ err r', q.perform r = (.error err, r') → r' = r) ∧
    (∀ r', q.perform r = (.ok (), r') →
      (∀ o side, o ≠ q.operator → r'.entries o side = r.entries o side) ∧
      (∀ o side category, category ∈ (r.entries o side).map Entry.category →
        category ∈ (r'.entries o side).map Entry.category) ∧
      q.category.closure ∈ (r'.entries q.operator q.side).map Entry.category ∧
      q.perform r' = (.ok (), r')) := by
  refine ⟨fun err r' h => (perform_eq_error.mp h).2, fun r' h => ?_⟩
  have hgranted : q.attempt r = .ok r' := perform_eq_ok.mp h
  refine ⟨fun o side ho => entries_of_attempt hgranted ho side,
    fun o side category hc => ?_, ?_, ?_⟩
  · exact (mem_category_attempt hgranted o side).mpr (Or.inr hc)
  · exact (mem_category_attempt hgranted _ _).mpr (Or.inl ⟨⟨rfl, Or.inl rfl⟩, rfl⟩)
  · exact perform_eq_ok.mpr (attempt_again hgranted)

/-- The sum of two columns of numbers, chosen by the right one. -/
def sumOfColumns : Request :=
  ⟨.binary .add, .right, .ofList [.column, .numeric], standardConstructor (.binary .add)⟩

/-- A product of integers finds its category free on the left side. On the right side, where its
exchanged form would be derived, the sum of columns is a rival, so nothing is written at all. -/
theorem registration_atomic_rival :
    placement (productOfIntegers.entry .left)
      ((standard.after sumOfColumns).entries (.binary .add) .left) = .ok .append ∧
    productOfIntegers.perform (standard.after sumOfColumns) =
      (.error (.registration "radd" (Categories.closure {.integer})
        (.ambiguous (Categories.ofList [.column, .numeric]).closure)),
        standard.after sumOfColumns) := by
  refine ⟨rfl, Prod.ext rfl ?_⟩
  exact (registration_atomic productOfIntegers (standard.after sumOfColumns)).1 _ _
    (Prod.ext rfl rfl)

end Registry

end QueryExpr
