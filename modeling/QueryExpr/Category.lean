/-!
# Categories

Every expression carries a set of categories that says what its value is: a table or a
value, a scalar or a column, and of which kind. A narrower category brings the wider
ones with it (`closure`): an integer is numeric, and a numeric thing is a value. Some
categories exclude each other (`exclusiveGroups`); a set is consistent when its closure
holds at most one of each group. The more categories the closure holds, the more
specific the set is.

* `ext`: two sets with the same members are equal.
-/

namespace QueryExpr

/-- What a value can be, from the widest notions to the narrowest. -/
inductive Category where
  | value
  | table
  | scalar
  | column
  | numeric
  | boolean
  | integer
  | floating
  | decimal
  | string
  | temporal
  | date
  | time
  | timestamp
  | pseudoColumn
  deriving DecidableEq, Repr

namespace Category

/-- Every category, in the order in which sets list them. -/
def all : List Category :=
  [value, table, scalar, column, numeric, boolean, integer, floating, decimal, string,
    temporal, date, time, timestamp, pseudoColumn]

theorem mem_all (c : Category) : c ∈ all := by cases c <;> decide

/-- The place of a category in `all`. -/
def index : Category → Nat
  | value => 0
  | table => 1
  | scalar => 2
  | column => 3
  | numeric => 4
  | boolean => 5
  | integer => 6
  | floating => 7
  | decimal => 8
  | string => 9
  | temporal => 10
  | date => 11
  | time => 12
  | timestamp => 13
  | pseudoColumn => 14

def name : Category → String
  | value => "Value"
  | table => "Table"
  | scalar => "Scalar"
  | column => "Column"
  | numeric => "Numeric"
  | boolean => "Boolean"
  | integer => "Integer"
  | floating => "Floating"
  | decimal => "Decimal"
  | string => "String"
  | temporal => "Temporal"
  | date => "Date"
  | time => "Time"
  | timestamp => "Timestamp"
  | pseudoColumn => "PseudoColumn"

/-- The category of a given name. -/
def ofName? (s : String) : Option Category := all.find? (·.name == s)

/-- The categories that bring `c` with them. -/
def narrower : Category → List Category
  | value => [scalar, column, numeric, boolean, integer, floating, decimal, string, temporal,
      date, time, timestamp, pseudoColumn]
  | column => [pseudoColumn]
  | numeric => [integer, floating, decimal]
  | temporal => [date, time, timestamp]
  | _ => []

/-- The groups of which a thing can be at most one. -/
def exclusiveGroups : List (List Category) :=
  [[value, table], [scalar, column], [numeric, boolean, string, temporal],
    [integer, floating, decimal], [date, time, timestamp]]

end Category

/-- A set of categories, one bit each. -/
structure Categories where
  bits : BitVec 15
  deriving DecidableEq, Repr

namespace Categories

/-- Whether the set holds `c`. -/
def has (s : Categories) (c : Category) : Bool := s.bits.getLsbD c.index

instance : Membership Category Categories := ⟨fun s c => s.has c = true⟩

instance (c : Category) (s : Categories) : Decidable (c ∈ s) :=
  inferInstanceAs (Decidable (s.has c = true))

/-- The categories that pass a test. -/
def ofPred (p : Category → Bool) : Categories :=
  ⟨Category.all.foldr (fun c acc => ((BitVec.ofBool (p c)).setWidth 15 <<< c.index) ||| acc) 0#15⟩

@[simp] theorem has_ofPred (p : Category → Bool) (c : Category) : (ofPred p).has c = p c := by
  cases c <;> simp [ofPred, has, Category.all, Category.index]

@[ext] theorem ext {s t : Categories} (h : ∀ c, s.has c = t.has c) : s = t := by
  obtain ⟨s⟩ := s
  obtain ⟨t⟩ := t
  congr 1
  apply BitVec.eq_of_getLsbD_eq
  intro i hi
  have hc : ∃ c : Category, c.index = i := by
    match i, hi with
    | 0, _ => exact ⟨.value, rfl⟩
    | 1, _ => exact ⟨.table, rfl⟩
    | 2, _ => exact ⟨.scalar, rfl⟩
    | 3, _ => exact ⟨.column, rfl⟩
    | 4, _ => exact ⟨.numeric, rfl⟩
    | 5, _ => exact ⟨.boolean, rfl⟩
    | 6, _ => exact ⟨.integer, rfl⟩
    | 7, _ => exact ⟨.floating, rfl⟩
    | 8, _ => exact ⟨.decimal, rfl⟩
    | 9, _ => exact ⟨.string, rfl⟩
    | 10, _ => exact ⟨.temporal, rfl⟩
    | 11, _ => exact ⟨.date, rfl⟩
    | 12, _ => exact ⟨.time, rfl⟩
    | 13, _ => exact ⟨.timestamp, rfl⟩
    | 14, _ => exact ⟨.pseudoColumn, rfl⟩
    | n + 15, h => omega
  obtain ⟨c, rfl⟩ := hc
  exact h c

/-- The set of the given categories. -/
def ofList (cs : List Category) : Categories := ofPred (cs.contains ·)

instance : EmptyCollection Categories := ⟨⟨0⟩⟩

instance : Singleton Category Categories := ⟨fun c => ofPred (· == c)⟩

instance : Union Categories := ⟨fun s t => ⟨s.bits ||| t.bits⟩⟩

/-- Inclusion of one set in another. -/
instance : HasSubset Categories := ⟨fun s t => ∀ c, c ∈ s → c ∈ t⟩

@[simp] theorem has_empty (c : Category) : (∅ : Categories).has c = false := by
  simp [has, EmptyCollection.emptyCollection]

@[simp] theorem has_union (s t : Categories) (c : Category) :
    (s ∪ t).has c = (s.has c || t.has c) := by
  simp [has, Union.union]

@[simp] theorem has_singleton (c d : Category) : ({c} : Categories).has d = (d == c) := by
  simp [Singleton.singleton]

/-- Whether `s` holds all of `t`. -/
def covers (s t : Categories) : Bool := s.bits &&& t.bits == t.bits

/-- The members of a set, in the order of `Category.all`. -/
def toList (s : Categories) : List Category := Category.all.filter s.has

theorem covers_iff {s t : Categories} : s.covers t = true ↔ t ⊆ s := by
  constructor
  · intro h c hc
    have hb : (s.bits &&& t.bits).getLsbD c.index = t.bits.getLsbD c.index := by
      rw [eq_of_beq h]
    have ht : t.bits.getLsbD c.index = true := hc
    rw [BitVec.getLsbD_and, ht, Bool.and_true] at hb
    exact hb
  · intro h
    have he : (⟨s.bits &&& t.bits⟩ : Categories) = t := by
      apply ext
      intro c
      have := h c
      show (s.bits &&& t.bits).getLsbD c.index = t.bits.getLsbD c.index
      rw [BitVec.getLsbD_and]
      cases ht : t.bits.getLsbD c.index with
      | false => simp
      | true =>
        have hs : s.bits.getLsbD c.index = true := this ht
        simp [hs]
    simp only [covers, beq_iff_eq]
    exact congrArg Categories.bits he

/-- A set together with every wider category its members bring. -/
def closure (s : Categories) : Categories :=
  ofPred fun c => s.has c || c.narrower.any s.has

/-- At most one category of each exclusive group is in the closure. -/
def isConsistent (s : Categories) : Bool :=
  Category.exclusiveGroups.all fun g => (g.filter s.closure.has).length ≤ 1

/-- How many categories the closure holds. -/
def specificity (s : Categories) : Nat := s.closure.toList.length

/-- The names of the members. -/
def names (s : Categories) : List String := s.toList.map Category.name

/-- The members joined by bars, or `None` for the empty set. -/
def text (s : Categories) : String :=
  if s.toList.isEmpty then "None" else "|".intercalate s.names

end Categories

/-- Whether a value stands alone or once per row. -/
inductive Shape where
  | scalar
  | column
  deriving DecidableEq, Repr

namespace Shape

def category : Shape → Category
  | scalar => .scalar
  | column => .column

def name (s : Shape) : String := s.category.name

end Shape

/-- The shape a set names; a set that names both is a column. -/
def Categories.shape? (s : Categories) : Option Shape :=
  if Category.column ∈ s then some .column
  else if Category.scalar ∈ s then some .scalar
  else none

end QueryExpr
