import QueryExpr.Proofs.Registry.History

/-!
# How long an explicit binding lasts

A granted request finds its category bound to its constructor afterwards. The binding is
explicit unless an equal derived entry was there before, which stays derived. An explicit
binding lasts through every further request; a derived one gives way to the next request
on its category that asks for something else.

* `Kept.explicit_bound`, `refused_of_explicit`: an explicit entry stays, and refuses all others.
* `binding_of_attempt`: what a granted request leaves behind.
* `lasts_iff_not_derived`: exactly when a granted request is bound for good.
-/

namespace QueryExpr

namespace Registry

variable {q q' : Request} {r r' : Registry} {o : Operator} {side : Side} {new e : Entry}
  {category : Categories} {c : Constructor} {es es' : List Entry} {err : Error}
  {fault : RegistrationFault}

/-- The entry that stands where the request asks for one. -/
def binding? (r : Registry) (q : Request) : Option Entry :=
  bound? (r.entries q.operator q.side) q.category.closure

/-- The two requests ask for the same operator and side on the same closed category. -/
structure Rivals (q q' : Request) : Prop where
  operator : q'.operator = q.operator
  side : q'.side = q.side
  category : q'.category.closure = q.category.closure

theorem Rivals.binding? (h : Rivals q q') (r : Registry) : r.binding? q' = r.binding? q := by
  rw [Registry.binding?, Registry.binding?, h.operator, h.side, h.category]

/-! ## Refused requests -/

theorem place_eq_error (h : r.place o side new = .error err) :
    ∃ fault, err = .registration (sideWord o side) new.category fault := by
  unfold place at h
  cases hi : insert new (r.entries o side) with
  | error fault =>
    rw [hi] at h
    cases h
    exact ⟨fault, rfl⟩
  | ok es =>
    rw [hi] at h
    cases h

theorem check_eq_error (h : check o category c = .error err) :
    ∃ fault, err = .registration o.word category fault := by
  unfold check at h
  cases hf : findFault? o category c with
  | some fault =>
    rw [hf] at h
    cases h
    exact ⟨fault, rfl⟩
  | none =>
    rw [hf] at h
    cases h

/-- **Every refusal is about the registration**, and names the closed category. -/
theorem attempt_error (h : q.attempt r = .error err) :
    ∃ word fault, err = .registration word q.category.closure fault := by
  obtain ⟨o, side, category, c⟩ := q
  cases side with
  | left =>
    rcases Error.bind_error h with h | ⟨u, -, h⟩
    · obtain ⟨fault, rfl⟩ := check_eq_error h
      exact ⟨_, fault, rfl⟩
    · rcases Error.bind_error h with h | ⟨left, -, h⟩
      · obtain ⟨fault, rfl⟩ := place_eq_error h
        exact ⟨_, fault, rfl⟩
      · cases hrev : o.isReversible with
        | false => rw [hrev] at h; cases h
        | true =>
          rw [hrev, if_pos rfl] at h
          rcases Error.bind_error h with h | ⟨right, -, h⟩
          · obtain ⟨fault, rfl⟩ := place_eq_error h
            exact ⟨_, fault, rfl⟩
          · cases h
  | right =>
    have h : r.registerReflected o category c = .error err := h
    unfold registerReflected at h
    cases hrev : o.isReversible with
    | false =>
      rw [hrev] at h
      cases h
      exact ⟨_, _, rfl⟩
    | true =>
      rw [hrev] at h
      rcases Error.bind_error h with h | ⟨u, -, h⟩
      · obtain ⟨fault, rfl⟩ := check_eq_error h
        exact ⟨_, fault, rfl⟩
      · rcases Error.bind_error h with h | ⟨right, -, h⟩
        · obtain ⟨fault, rfl⟩ := place_eq_error h
          exact ⟨_, fault, rfl⟩
        · cases h

/-- A sound request is refused for what keeps its own entry out. -/
theorem attempt_of_insert_error (hs : q.IsSound)
    (h : insert (q.entry q.side) (r.entries q.operator q.side) = .error fault) :
    q.attempt r = .error (.registration (sideWord q.operator q.side) q.category.closure fault) := by
  have hc : check q.operator q.category.closure q.constructor = .ok () := by
    unfold check
    rw [hs.2]
  have hp : r.place q.operator q.side ⟨q.category.closure, q.constructor, false⟩ =
      .error (.registration (sideWord q.operator q.side) q.category.closure fault) := by
    rw [Request.entry_self] at h
    rw [place, h]
    rfl
  unfold Request.attempt
  cases hside : q.side with
  | left =>
    rw [hside] at hp
    simp only [register, hc, hp]
    rfl
  | right =>
    rw [hside] at hp
    simp only [registerReflected, hs.1 hside, hc, hp]
    rfl

/-! ## Explicit entries stay -/

/-- Nothing is ever derived on the left side. -/
theorem Kept.explicit_left : Kept fun r => ∀ o, ∀ e ∈ r.entries o .left, e.derived = false := by
  intro r r' q hr ha o e he
  rcases mem_of_attempt ha he with he | ⟨⟨-, hside | ⟨hside, -⟩⟩, rfl⟩
  · exact hr o e he
  · rw [hside, Request.entry_self]
  · cases hside

/-- **A granted request keeps an explicit entry where it is.** -/
theorem Kept.explicit_bound (o : Operator) (side : Side) (category : Categories)
    (hd : e.derived = false) : Kept fun r => bound? (r.entries o side) category = some e := by
  intro r r' q hb ha
  rcases attempt_slot ha o side with hs | ⟨-, -, hs⟩
  · rw [hs]
    exact hb
  · exact bound?_insert_of_explicit hs hb hd

theorem Kept.binding (q : Request) (hd : e.derived = false) :
    Kept fun r => r.binding? q = some e :=
  Kept.explicit_bound q.operator q.side q.category.closure hd

/-- An explicit entry keeps out the entry of a rival with another constructor. -/
theorem insert_rival (hb : r.binding? q = some e) (hd : e.derived = false) (hq : Rivals q q')
    (hc : e.constructor ≠ q'.constructor) :
    insert (q'.entry q'.side) (r.entries q'.operator q'.side) =
      .error (.alreadyBound e.constructor.operation) := by
  rw [← hq.binding? r] at hb
  rw [Request.entry_self]
  exact insert_of_explicit hb hd rfl hc

/-- **An explicit entry refuses every rival that asks for another constructor**, a sound one
because of what is bound. -/
theorem refused_of_explicit (hb : r.binding? q = some e) (hd : e.derived = false)
    (hq : Rivals q q') (hc : e.constructor ≠ q'.constructor) :
    ∃ word fault, q'.attempt r = .error (.registration word q.category.closure fault) ∧
      (q'.IsSound → word = sideWord q.operator q.side ∧
        fault = .alreadyBound e.constructor.operation) := by
  have hi := insert_rival hb hd hq hc
  by_cases hs : q'.IsSound
  · have ha := attempt_of_insert_error hs hi
    rw [hq.operator, hq.side, hq.category] at ha
    exact ⟨_, _, ha, fun _ => ⟨rfl, rfl⟩⟩
  · -- whatever else is wrong with the rival may be reported first
    cases ha : q'.attempt r with
    | error err =>
      obtain ⟨word, fault, rfl⟩ := attempt_error ha
      exact ⟨word, fault, by rw [hq.category], fun h => absurd h hs⟩
    | ok r' => exact absurd (attempt_self ha).1 hs

/-! ## What a granted request leaves behind -/

/-- An equal entry was derived from the left side before the request. -/
def WasDerived (r : Registry) (q : Request) : Prop :=
  q.side = .right ∧ ∃ e, r.binding? q = some e ∧ e.derived = true ∧ e.constructor = q.constructor

/-- **A granted request is bound**, by an explicit entry unless an equal one was derived. -/
theorem binding_of_attempt (hr : Reachable r) (h : q.attempt r = .ok r') :
    ∃ e, r'.binding? q = some e ∧ e.constructor = q.constructor ∧
      (e.derived = true ↔ WasDerived r q) := by
  have hi := (attempt_self h).2
  rw [Request.entry_self] at hi
  rcases bound?_of_insert hi rfl with ⟨hb', hother⟩ | ⟨e, hb, hb', hc⟩
  · refine ⟨_, hb', rfl, nofun, ?_⟩
    rintro ⟨-, d, hbd, -, hcd⟩
    exact absurd hcd (hother d hbd)
  · refine ⟨e, hb', hc, ?_, ?_⟩
    · -- on the left side nothing is derived
      intro hd
      refine ⟨?_, e, hb, hd, hc⟩
      cases hside : q.side with
      | right => rfl
      | left =>
        rw [hside] at hb
        have := hr.invariant Kept.explicit_left (fun o e he => by cases he) _ e (bound?_some hb).1
        rw [hd] at this
        cases this
    · rintro ⟨-, d, hbd, hd, -⟩
      rw [Registry.binding?] at hbd
      rw [hb] at hbd
      cases hbd
      exact hd

/-- After any further requests the category is bound to the constructor of the request, and
every rival that asks for another one is refused, a sound one because of what is bound. -/
def Lasts (r : Registry) (q : Request) : Prop :=
  ∀ qs : List Request,
    (∃ e, (r.run qs).binding? q = some e ∧ e.constructor = q.constructor) ∧
    ∀ q', Rivals q q' → q'.constructor ≠ q.constructor →
      ∃ word fault, q'.attempt (r.run qs) = .error (.registration word q.category.closure fault) ∧
        (q'.IsSound → word = sideWord q.operator q.side ∧
          fault = .alreadyBound q.constructor.operation)

theorem lasts_of_explicit (hb : r.binding? q = some e) (hc : e.constructor = q.constructor)
    (hd : e.derived = false) : Lasts r q := by
  intro qs
  have hb' : (r.run qs).binding? q = some e := (Kept.binding q hd).run hb qs
  refine ⟨⟨e, hb', hc⟩, fun q' hq hne => ?_⟩
  rw [← hc] at hne ⊢
  exact refused_of_explicit hb' hd hq (Ne.symm hne)

/-- A derived entry gives way to a sound rival that asks for another constructor. -/
theorem replaced_of_derived (hb : r.binding? q = some e) (hd : e.derived = true)
    (hside : q.side = .right) (hq : Rivals q q') (hs : q'.IsSound)
    (hc : e.constructor ≠ q'.constructor) :
    ∃ r', q'.attempt r = .ok r' ∧
      r'.binding? q = some ⟨q.category.closure, q'.constructor, false⟩ := by
  rw [← hq.binding? r] at hb
  have hside' : q'.side = .right := hq.side.trans hside
  have hb : bound? (r.entries q'.operator .right) q'.category.closure = some e := by
    rw [← hside']
    exact hb
  have hi : insert ⟨q'.category.closure, q'.constructor, false⟩ (r.entries q'.operator .right) =
      .ok (replace ⟨q'.category.closure, q'.constructor, false⟩ (r.entries q'.operator .right)) :=
    insert_of_derived hb hd rfl hc
  have ha : q'.attempt r = .ok (r.set q'.operator .right
      (replace ⟨q'.category.closure, q'.constructor, false⟩ (r.entries q'.operator .right))) := by
    unfold Request.attempt
    rw [hside']
    exact registerReflected_of_insert (hs.1 hside') hs.2 hi
  refine ⟨_, ha, ?_⟩
  rw [← hq.binding?, Registry.binding?, hside', entries_set_self, ← hq.category]
  exact bound?_replace_self hb

theorem swapped_ne (c : Constructor) : c.swapped ≠ c := by
  intro h
  have := congrArg Constructor.swaps h
  simp [Constructor.swapped] at this

/-- **When a granted request is bound for good**: always, unless it asks on the right side for
just the constructor that was derived there. Then the entry stays derived, and any sound
rival that asks for another constructor replaces it. -/
theorem lasts_iff_not_derived (hr : Reachable r) (h : q.attempt r = .ok r') :
    (∃ e, r'.binding? q = some e ∧ e.constructor = q.constructor) ∧
    (Lasts r' q ↔ ¬ WasDerived r q) ∧
    (WasDerived r q → ∀ q', Rivals q q' → q'.IsSound → q'.constructor ≠ q.constructor →
      ∃ r'', q'.attempt r' = .ok r'' ∧
        r''.binding? q = some ⟨q.category.closure, q'.constructor, false⟩) := by
  obtain ⟨e, hb, hc, hd⟩ := binding_of_attempt hr h
  have hreplaced : WasDerived r q → ∀ q', Rivals q q' → q'.IsSound →
      q'.constructor ≠ q.constructor → ∃ r'', q'.attempt r' = .ok r'' ∧
        r''.binding? q = some ⟨q.category.closure, q'.constructor, false⟩ := by
    intro hw q' hq hs hne
    refine replaced_of_derived hb (hd.mpr hw) hw.1 hq hs ?_
    rw [hc]
    exact Ne.symm hne
  refine ⟨⟨e, hb, hc⟩, ⟨?_, ?_⟩, hreplaced⟩
  · intro hl hw
    -- the same operation on exchanged arguments is a sound rival
    have hq : Rivals q { q with constructor := q.constructor.swapped } := ⟨rfl, rfl, rfl⟩
    have hs : Request.IsSound { q with constructor := q.constructor.swapped } := (attempt_self h).1
    obtain ⟨r'', ha, -⟩ := hreplaced hw _ hq hs (swapped_ne _)
    obtain ⟨word, fault, he, -⟩ := (hl []).2 _ hq (swapped_ne _)
    have he : Request.attempt { q with constructor := q.constructor.swapped } r' = _ := he
    rw [ha] at he
    cases he
  · intro hw
    refine lasts_of_explicit hb hc ?_
    rwa [← Bool.not_eq_true, hd]

/-- The derived form of the sum, asked for explicitly. -/
def sumAgain : Request :=
  ⟨.binary .add, .right, {.numeric}, (standardConstructor (.binary .add)).swapped⟩

/-- The standard registry grants the derived form of the sum, and the binding does not last. -/
theorem lasts_iff_not_derived_sum : ∃ r, sumAgain.attempt standard = .ok r ∧ ¬ Lasts r sumAgain := by
  have hok : (sumAgain.attempt standard).isOk = true := rfl
  cases h : sumAgain.attempt standard with
  | error err => rw [h] at hok; cases hok
  | ok r =>
    refine ⟨r, rfl, fun hl => ?_⟩
    exact (lasts_iff_not_derived Reachable.standard h).2.1.mp hl ⟨rfl, _, rfl, rfl, rfl⟩

end Registry

end QueryExpr
