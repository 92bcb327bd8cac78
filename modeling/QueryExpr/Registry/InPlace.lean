import QueryExpr.Registry

/-!
# Registration in place

The registry as something that a registration changes while it goes on. Nothing is taken back: what
has been written when a registration fails stays written. So a registration first decides where
each of its entries is to go, which may fail, and writes them only after that, which may not.

* `placement`: where a list admits an entry, or why it does not.
* `registerInPlace`, `registerReflectedInPlace`: the steps of a registration, in their order.
-/

namespace QueryExpr

/-- What to do with an entry that a list admits. -/
inductive Placement where
  /-- Its category is new, so it comes last. -/
  | append
  /-- It takes the place of the entry at an index. -/
  | replaceAt (index : Nat)
  /-- The list has an equal constructor, or one that comes before this one. -/
  | keep
  deriving DecidableEq, Repr

/-- The list with the entry where it is to go. -/
def Placement.carryOut (p : Placement) (new : Entry) (entries : List Entry) : List Entry :=
  match p with
  | append => entries ++ [new]
  | replaceAt index => entries.set index new
  | keep => entries

namespace Registry

/-- Where a list admits an entry, or why it does not. -/
def placement (new : Entry) (entries : List Entry) : Except RegistrationFault Placement :=
  let index := entries.findIdx (·.category = new.category)
  match entries[index]? with
  | some current =>
    if current.constructor = new.constructor then .ok .keep
    else if current.derived && !new.derived then .ok (.replaceAt index)
    else if !current.derived && new.derived then .ok .keep
    else .error (.alreadyBound current.constructor.operation)
  | none =>
    match entries.find? (isRival new.category) with
    | some rival => .error (.ambiguous rival.category)
    | none => .ok .append

/-- Work on a registry that is changed while it goes on. -/
abbrev InPlace (α : Type) := ExceptT Error (StateM Registry) α

/-- The outcome of the work on a registry, and the registry as the work leaves it. -/
def InPlace.runOn {α : Type} (work : InPlace α) (r : Registry) : Except Error α × Registry :=
  work.run.run r

/-- Decides where an entry is to go, and writes nothing. -/
def decidePlacement (o : Operator) (side : Side) (new : Entry) : InPlace Placement := do
  match placement new ((← get).entries o side) with
  | .ok p => return p
  | .error fault => throw (.registration (sideWord o side) new.category fault)

/-- Writes an entry where it is to go. -/
def write (o : Operator) (side : Side) (new : Entry) (p : Placement) : InPlace Unit :=
  modify fun r => r.set o side (p.carryOut new (r.entries o side))

/-- Binds a constructor to an operator, and on the right side too if it is reversible. -/
def registerInPlace (o : Operator) (category : Categories) (c : Constructor) : InPlace Unit := do
  let category := category.closure
  check o category c
  let left : Entry := ⟨category, c, false⟩
  let right : Entry := ⟨category, c.swapped, true⟩
  let leftPlacement ← decidePlacement o .left left
  let rightPlacement? ←
    if o.isReversible then some <$> decidePlacement o .right right else pure none
  write o .left left leftPlacement
  match rightPlacement? with
  | some rightPlacement => write o .right right rightPlacement
  | none => pure ()

/-- Binds a constructor to an operator for its right operand. -/
def registerReflectedInPlace (o : Operator) (category : Categories) (c : Constructor) :
    InPlace Unit := do
  let category := category.closure
  if o.isReversible = false then throw (.registration o.word category .notReversible)
  check o category c
  let right : Entry := ⟨category, c, false⟩
  write o .right right (← decidePlacement o .right right)

end Registry

end QueryExpr
