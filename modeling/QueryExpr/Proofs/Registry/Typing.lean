import QueryExpr.Expr.Build
import QueryExpr.Proofs.Registry.Application

/-!
# What operators take and give

Registration looks at a constructor before it binds it: its results have to carry the category
that the family of the operator gives, and if it builds the node of an operator, that one has to be
of the same family and to have as many operands. A comparison that its right operand chooses is
built by a constructor of its mirror image, which is of the same family and arity. So whichever way
an operator is applied, and whatever was registered before, the node that is built is one of its
family.

* `Constructor.Suits`: what a constructor has to have for an operator. `suits_of_findFault?`.
* `Reachable.suits`: **every entry suits the operator** in whose list it stands.
* `choose?_args`: the constructor that operands choose takes them all, in some order.
* `apply_well_typed`: **no reachable registry builds an ill-typed node.**
-/

namespace QueryExpr

open QueryExpr.Expr

namespace Constructor

variable {c : Constructor} {o : Operator} {args : List Expr}

/-- **The constructor fits an operator**: its results are of the operator's family, and so is its
operation if it is an operator itself, with as many operands. -/
structure Suits (c : Constructor) (o : Operator) : Prop where
  result : c.result.fits o.family = true
  operation : ∀ family arity, Registry.operationFamily? c.operation = some (family, arity) →
    family = o.family ∧ arity = o.arity

/-- What nothing is wrong with fits. -/
theorem suits_of_findFault? {category : Categories}
    (h : Registry.findFault? o category c = none) : c.Suits o := by
  unfold Registry.findFault? at h
  split at h
  · cases h
  · split at h
    · cases h
    · next hfits =>
      refine ⟨by simpa using hfits, fun family arity hoperation => ?_⟩
      rw [hoperation] at h
      dsimp only at h
      split at h
      · cases h
      · next harity =>
        split at h
        · cases h
        · next hfamily => exact ⟨not_not.mp hfamily, not_not.mp harity⟩

/-- **A node carries what its result rule declares**, whatever its arguments are. -/
theorem declared_subset_build (c : Constructor) (args : List Expr) :
    c.result.declared ⊆ (c.build args).categories := by
  have hc : (c.build args).categories = (c.resultCategories (c.arrange args)).closure := rfl
  rw [hc]
  cases hr : c.result with
  | numeric =>
    -- the number may be of a narrower kind, and that brings the wider one with it
    refine Categories.singleton_subset ?_
    simp only [resultCategories, hr]
    cases shapeOf (c.arrange args) <;>
      rcases Registry.numericKind_cases c.operation (c.arrange args) with hk | hk | hk | hk <;>
      rw [hk] <;> decide
  | boolean =>
    refine Categories.singleton_subset ?_
    simp only [resultCategories, hr]
    cases shapeOf (c.arrange args) <;> decide
  | fixed categories =>
    simp only [resultCategories, hr]
    exact fun _ h => h

/-- A constructor that fits builds nodes of the category that the operator gives. -/
theorem Suits.required (h : c.Suits o) (args : List Expr) :
    (c.build args).categories.has (ResultRule.required o.family) = true :=
  c.declared_subset_build args _ h.result

theorem arrange_perm (c : Constructor) (args : List Expr) : (c.arrange args).Perm args := by
  unfold arrange
  split
  · next a b =>
    split
    · exact .swap a b []
    · exact .refl _
  · exact .refl _

end Constructor

namespace Registry

variable {r r' : Registry} {q : Request} {o o' : Operator} {operands args : List Expr} {e : Expr}
  {c : Constructor}

/-! ## What is registered -/

/-- No request brings in an entry that does not suit its operator. -/
theorem suits_kept :
    Kept fun r => ∀ o side, ∀ entry ∈ r.entries o side, entry.constructor.Suits o := by
  intro r r' q hr ha o side entry hentry
  rcases mem_of_attempt ha hentry with hold | ⟨⟨rfl, -⟩, rfl⟩
  · exact hr o side entry hold
  · -- a derived entry has the operation and the results of the one that is asked for
    have hsuits : q.constructor.Suits q.operator :=
      Constructor.suits_of_findFault? (attempt_self ha).1.2
    constructor
    · rw [Request.result_entry]
      exact hsuits.result
    · rw [Request.operation_entry]
      exact hsuits.operation

/-- **Every entry of a reachable registry suits the operator** in whose list it stands. -/
theorem Reachable.suits (h : Reachable r) (o : Operator) (side : Side) :
    ∀ entry ∈ r.entries o side, entry.constructor.Suits o :=
  h.invariant suits_kept (fun _ _ _ hentry => nomatch hentry) o side

/-! ## What is chosen -/

/-- The mirror image of a comparison takes as much of the same. -/
theorem suits_of_mirrored (h : o.mirrored? = some o') (hc : c.Suits o') : c.Suits o := by
  cases o with
  | not => cases h
  | binary k =>
    obtain ⟨op, hop, rfl⟩ := Option.map_eq_some_iff.mp h
    have hfamily : (Operator.binary k).family = (Operator.binary op).family :=
      family_of_mirrored hop
    constructor
    · rw [hfamily]
      exact hc.result
    · rw [hfamily]
      exact hc.operation

/-- Whatever operands choose suits the operator that they choose it for. -/
theorem Reachable.suits_choose? (hr : Reachable r) (h : r.choose? o operands = some (c, args)) :
    c.Suits o := by
  obtain ⟨o', side, ho, entry, hentry, rfl⟩ := entry_of_choose? h
  have hsuits := hr.suits o' side entry hentry
  rcases ho with rfl | hmirror
  · exact hsuits
  · exact suits_of_mirrored hmirror hsuits

/-- **The constructor that operands choose takes them all**, and there are as many as the operator
has. -/
theorem choose?_args (h : r.choose? o operands = some (c, args)) :
    args.Perm operands ∧ operands.length = o.arity := by
  unfold choose? at h
  split at h
  · split at h
    · next harity =>
      obtain ⟨c', -, hsome⟩ := Option.map_eq_some_iff.mp h
      cases hsome
      exact ⟨.refl _, harity.symm⟩
    · cases h
  · next left right =>
    split at h
    · next harity =>
      split at h
      · cases h
        exact ⟨.refl _, harity.symm⟩
      · obtain ⟨c', -, hsome⟩ := Option.map_eq_some_iff.mp h
        cases hsome
        exact ⟨.swap left right [], harity.symm⟩
    · cases h
  · cases h

/-! ## What is built -/

/-- **The node is one that the operator may give for the operands**: they are legal, the node holds
them and nothing else, it is a number if the operator is one of arithmetic and a truth value
otherwise, and if it is the node of an operator, that one is of the same family and has its number
of operands. -/
structure IsTypedNode (o : Operator) (operands : List Expr) (e : Expr) : Prop where
  legal : ∀ x ∈ operands, x = .value .null ∨ requiredOperand o.family ∈ x.categories
  args : e.args.Perm operands
  numeric : o.family = .arithmetic → Category.numeric ∈ e.categories
  boolean : o.family ≠ .arithmetic → Category.boolean ∈ e.categories
  binary : ∀ op, e.operation? = some (.binary op) → op.family = o.family ∧ e.args.length = 2
  negation : e.operation? = some .not → o.family = .logical ∧ e.args.length = 1

/-- A constructor that suits an operator builds typed nodes of legal operands. -/
theorem isTypedNode_build (hc : c.Suits o)
    (hlegal : ∀ x ∈ operands, isLegalOperand o.family x = true) (hargs : args.Perm operands)
    (harity : operands.length = o.arity) : IsTypedNode o operands (c.build args) := by
  have hheld : (c.build args).args.Perm operands := (c.arrange_perm args).trans hargs
  have hlength : (c.build args).args.length = o.arity := by rw [hheld.length_eq, harity]
  have hoperation : (c.build args).operation? = some c.operation := rfl
  refine ⟨fun x hx => (isLegalOperand_iff _ x).mp (hlegal x hx), hheld, fun hfamily => ?_,
    fun hfamily => ?_, fun op hop => ?_, fun hnot => ?_⟩
  · have hrequired := hc.required args
    rw [hfamily] at hrequired
    exact hrequired
  · have hrequired := hc.required args
    cases hf : o.family with
    | arithmetic => exact absurd hf hfamily
    | comparison | logical =>
      rw [hf] at hrequired
      exact hrequired
  · rw [hoperation] at hop
    obtain ⟨hfamily, htwo⟩ := hc.operation op.family 2 (by rw [Option.some.inj hop]; rfl)
    exact ⟨hfamily, hlength.trans htwo.symm⟩
  · rw [hoperation] at hnot
    obtain ⟨hfamily, hone⟩ := hc.operation .logical 1 (by rw [Option.some.inj hnot]; rfl)
    exact ⟨hfamily.symm, hlength.trans hone.symm⟩

/-- **No reachable registry builds an ill-typed node**, whatever was registered before: whichever of
its operands chooses the constructor, an operator takes what its family asks for, and the node
that is built is one of its family. -/
theorem apply_well_typed (h : Reachable r) (o : Operator) :
    (∀ left right e, r.applyBinary o left right = .ok e → IsTypedNode o [left, right] e) ∧
    (∀ operand e, r.applyUnary o operand = .ok e → IsTypedNode o [operand] e) ∧
    ∀ operands e, r.apply o operands = .ok e → IsTypedNode o operands e := by
  have hall : ∀ operands e, r.apply o operands = .ok e → IsTypedNode o operands e := by
    intro operands e happly
    obtain ⟨hlegal, c, args, hchoose, rfl⟩ := apply_eq_ok.mp happly
    obtain ⟨hargs, harity⟩ := choose?_args hchoose
    exact isTypedNode_build (h.suits_choose? hchoose) hlegal hargs harity
  exact ⟨fun left right e => hall [left, right] e, fun operand e => hall [operand] e, hall⟩

/-- A request for `greater` on integers to be a function, which asks nothing of its mirror image
`less`. -/
def greaterByFunction : Request :=
  ⟨.binary .greater, .left, {.integer}, ⟨.function "exceeds", .fixed (.ofList [.boolean]), false⟩⟩

/-- A raw five is less than an integer by the function that is bound to the mirror image; the node
is a truth value, and holds both. -/
theorem apply_well_typed_mirrored :
    ∃ e, (standard.after greaterByFunction).applyBinary (.binary .less) (.value (.int 5))
        (scalar .int32 (.int 2)) = .ok e ∧
      e.operation? = some (.function "exceeds") ∧ Category.boolean ∈ e.categories ∧
      e.args.Perm [.value (.int 5), scalar .int32 (.int 2)] := by
  have hr : Reachable (standard.after greaterByFunction) := .after _ .standard
  have hbuilt : ∃ e, (standard.after greaterByFunction).applyBinary (.binary .less) (.value (.int 5))
      (scalar .int32 (.int 2)) = .ok e ∧ e.operation? = some (.function "exceeds") := ⟨_, rfl, rfl⟩
  obtain ⟨e, he, hoperation⟩ := hbuilt
  have htyped := (apply_well_typed hr (.binary .less)).1 _ _ e he
  exact ⟨e, he, hoperation, htyped.boolean (by decide), htyped.args⟩

end Registry

end QueryExpr
