import QueryExpr.Error

/-!
# The operator registry

A registry binds operators to constructors, each for the receivers that carry a category.
An operator may be chosen by its left operand or, when it is reversible, by its right one:
these are the two sides, and each pair of operator and side has its own list of entries.

Of the entries whose category a receiver carries the most specific one is taken. An entry
that would leave the choice open is refused when it is registered: no two entries of a list
have categories that one thing could carry and that are equally specific. Registering on
the left side of a reversible operator also derives an entry on the right side, which takes
the operands in the other order and gives way to an explicit one.

* `entries_set_self`, `entries_set_of_ne`: setting one list changes that list alone.
-/

namespace QueryExpr

/-- By which operand an operator is chosen. -/
inductive Side where
  | left
  | right
  deriving DecidableEq, Repr

/-- A constructor bound to a category of receivers. -/
structure Entry where
  category : Categories
  constructor : Constructor
  /-- Whether the entry was derived from one on the left side. -/
  derived : Bool
  deriving DecidableEq, Repr

/-- The entries of each operator on each side. -/
structure Registry where
  entries : Operator → Side → List Entry

namespace Registry

/-- The registry without entries. -/
def empty : Registry := ⟨fun _ _ => []⟩

/-- The registry with one list of entries exchanged. -/
def set (r : Registry) (o : Operator) (side : Side) (entries : List Entry) : Registry :=
  ⟨fun o' side' => if o' = o ∧ side' = side then entries else r.entries o' side'⟩

@[simp] theorem entries_set_self (r : Registry) (o : Operator) (side : Side) (es : List Entry) :
    (r.set o side es).entries o side = es := by simp [set]

theorem entries_set_of_ne (r : Registry) {o o' : Operator} {side side' : Side} (es : List Entry)
    (h : ¬ (o' = o ∧ side' = side)) : (r.set o side es).entries o' side' = r.entries o' side' := by
  simp [set, h]

/-! ## Registration -/

/-- Whether some node could carry both categories, which are equally specific. -/
def isRival (category : Categories) (e : Entry) : Bool :=
  e.category.specificity == category.specificity && (e.category ∪ category).isConsistent

/-- The entry in place of the one on the same category. -/
def replace (new : Entry) : List Entry → List Entry
  | [] => []
  | e :: rest => if e.category = new.category then new :: rest else e :: replace new rest

/-- Adds an entry to a list. On a category that is taken, an equal constructor changes
nothing, an explicit entry replaces a derived one, and a derived entry gives way. -/
def insert (new : Entry) (entries : List Entry) : Except RegistrationFault (List Entry) :=
  match entries.find? (·.category = new.category) with
  | some current =>
    -- an equal constructor stays as it is, derived or not
    if current.constructor = new.constructor then .ok entries
    else if current.derived && !new.derived then .ok (replace new entries)
    else if !current.derived && new.derived then .ok entries
    else .error (.alreadyBound current.constructor.operation)
  | none =>
    match entries.find? (isRival new.category) with
    | some rival => .error (.ambiguous rival.category)
    | none => .ok (entries ++ [new])

/-- The family of an operation that is an operator, with its number of operands. -/
def operationFamily? : Operation → Option (Family × Nat)
  | .binary op => some (op.family, 2)
  | .not => some (.logical, 1)
  | _ => none

/-- What is wrong with binding a constructor to an operator on a closed category. -/
def findFault? (o : Operator) (category : Categories) (c : Constructor) : Option RegistrationFault :=
  if category = ∅ ∨ category.isConsistent = false then some .impossibleCategory
  else if c.result.fits o.family = false then some (.wrongResult o.family c.result)
  else
    match operationFamily? c.operation with
    | some (family, arity) =>
      if arity ≠ o.arity then some (.wrongArity o)
      else if family ≠ o.family then some (.foreignOperation c.operation)
      else none
    | none => none

/-- The word for an operator chosen by the operand on a side. -/
def sideWord (o : Operator) : Side → String
  | .left => o.word
  | .right => o.reflectedWord

/-- Adds an entry to the list of an operator and side. -/
def place (r : Registry) (o : Operator) (side : Side) (new : Entry) : Except Error (List Entry) :=
  (insert new (r.entries o side)).mapError (.registration (sideWord o side) new.category)

/-- Refuses a constructor that cannot be bound to an operator. -/
def check (o : Operator) (category : Categories) (c : Constructor) : Except Error Unit :=
  match findFault? o category c with
  | some fault => .error (.registration o.word category fault)
  | none => .ok ()

/-- Binds a constructor to an operator for the receivers that carry a category. A reversible
operator is also bound on the right side, with its operands exchanged. Nothing changes
unless both entries can be added. -/
def register (r : Registry) (o : Operator) (category : Categories) (c : Constructor) :
    Except Error Registry := do
  let category := category.closure
  check o category c
  let left ← r.place o .left ⟨category, c, false⟩
  if o.isReversible then
    let right ← r.place o .right ⟨category, c.swapped, true⟩
    return (r.set o .left left).set o .right right
  else return r.set o .left left

/-- Binds a constructor to an operator for the right operands that carry a category. The
constructor is given the right operand first. -/
def registerReflected (r : Registry) (o : Operator) (category : Categories) (c : Constructor) :
    Except Error Registry := do
  let category := category.closure
  if o.isReversible = false then throw (.registration o.word category .notReversible)
  check o category c
  let right ← r.place o .right ⟨category, c, false⟩
  return r.set o .right right

/-- Whether an operator is bound on the left side to exactly this category. -/
def isRegistered (r : Registry) (o : Operator) (category : Categories) : Bool :=
  (r.entries o .left).any fun e => e.category = category.closure

/-! ## Resolution -/

/-- The most specific of the entries, the last one if there are several. -/
def mostSpecific? (entries : List Entry) : Option Entry :=
  entries.foldl (fun best e => match best with
    | some b => if e.category.specificity < b.category.specificity then some b else some e
    | none => some e) none

/-- The constructor for a receiver that carries the given categories. -/
def resolve? (r : Registry) (o : Operator) (side : Side) (receiver : Categories) :
    Option Constructor :=
  (mostSpecific? ((r.entries o side).filter fun e => receiver.covers e.category)).map
    Entry.constructor

end Registry

end QueryExpr
