import Mathlib.Logic.Relation
import QueryExpr.Proofs.Expr.Occurrences

/-!
# The graph of a drawing

A drawing gets an expression as a list of visits with their depths. That is enough to know the tree:
the places of the occurrences can be told from it. A drawing numbers the visits, and it keeps the
numbers on the way from the last visit up to the top, its lineage. What is visited next stands one
argument below something on this way, and its depth says below which.

* `edges_dotLinesFrom`: the edges from the middle of a walk on.
* `edges_dotLines`: **every place but the top one has an edge from the place above it.**
* `exists_parent`, `reached_of_lt`: so the graph is a tree.
-/

namespace QueryExpr

namespace Expr

variable {e : Expr} {p q : Place} {i j : Nat}

/-! ## Lines -/

namespace DotLine

/-- The number of a vertex and what it stands for. -/
def vertex? : DotLine → Option (Nat × Expr)
  | vertex id e => some (id, e)
  | edge _ _ => none

/-- The ends of an edge. -/
def edge? : DotLine → Option (Nat × Nat)
  | vertex _ _ => none
  | edge parent child => some (parent, child)

end DotLine

/-- The vertices of a drawing, as its lines give them. -/
def vertices (lines : List DotLine) : List (Nat × Expr) := lines.filterMap DotLine.vertex?

/-- The edges of a drawing, as its lines give them. -/
def edges (lines : List DotLine) : List (Nat × Nat) := lines.filterMap DotLine.edge?

theorem vertices_map_edge (parents : List Nat) (child : Nat) :
    vertices (parents.map (.edge · child)) = [] := by
  simp [vertices, DotLine.vertex?]

/-- The visits are the vertices, numbered as they come. -/
theorem vertices_dotLinesFrom (id : Nat) (ancestors : List Nat) (visits : List (Nat × Expr)) :
    vertices (dotLinesFrom id ancestors visits) =
      (visits.zipIdx id).map fun visit => (visit.2, visit.1.2) := by
  induction visits generalizing id ancestors with
  | nil => rfl
  | cons visit rest ih =>
    obtain ⟨depth, e⟩ := visit
    have hnone := vertices_map_edge (ancestors.drop (ancestors.length - depth)).head?.toList id
    unfold vertices at ih hnone ⊢
    rw [dotLinesFrom, List.cons_append, List.filterMap_cons, List.filterMap_append, hnone, ih,
      List.zipIdx_cons, List.map_cons]
    rfl

/-! ## Lineages -/

variable {number : Place → Nat}

/-- The numbers of a place and of all above it, from the inside out. The place is read from its
end. -/
def lineage (number : Place → Nat) : Place → List Nat
  | [] => [number []]
  | k :: up => number (k :: up).reverse :: lineage number up

theorem length_lineage (number : Place → Nat) (up : Place) :
    (lineage number up).length = up.length + 1 := by
  induction up with
  | nil => rfl
  | cons k up ih => rw [lineage, List.length_cons, ih, List.length_cons]

theorem head?_lineage (number : Place → Nat) (up : Place) :
    (lineage number up).head? = some (number up.reverse) := by
  cases up <;> rfl

/-- Going up leaves the lineage of what is above. -/
theorem drop_lineage (number : Place → Nat) (below up : Place) :
    (lineage number (below ++ up)).drop below.length = lineage number up := by
  induction below with
  | nil => rfl
  | cons k below ih => rw [List.cons_append, lineage, List.length_cons, List.drop_succ_cons, ih]

/-- **The lineage of a place above the last one is what a drawing leaves of the last lineage** at
the depth of an argument of it. -/
theorem drop_lineage_of_prefix (number : Place → Nat) {above last : Place} (h : above <+: last)
    (k : Nat) :
    (lineage number last.reverse).drop
        ((lineage number last.reverse).length - (above ++ [k]).length) =
      lineage number above.reverse := by
  obtain ⟨below, rfl⟩ := h
  have hlength : (lineage number (above ++ below).reverse).length - (above ++ [k]).length =
      below.reverse.length := by
    rw [length_lineage]
    simp only [List.length_reverse, List.length_append, List.length_singleton]
    omega
  rw [hlength, List.reverse_append]
  exact drop_lineage number below.reverse above.reverse

/-- **The edges from the middle of a walk on**, where the numbers to come are those of the places to
come: there is one to each place, from the place above it. -/
theorem edges_dotLinesFrom {last : Place} {id : Nat} {ahead : List (Place × Expr)}
    (hchain : List.IsChain Follows (last :: ahead.map Prod.fst))
    (hnumber : (ahead.map Prod.fst).map number = List.range' id ahead.length) :
    edges (dotLinesFrom id (lineage number last.reverse)
        (ahead.map fun x => (x.1.length, x.2))) =
      (ahead.map Prod.fst).map fun p => (number p.dropLast, number p) := by
  induction ahead generalizing last id with
  | nil => rfl
  | cons x ahead ih =>
    obtain ⟨p, e⟩ := x
    simp only [List.map_cons, List.length_cons, List.range'_succ, List.cons.injEq] at hnumber
    obtain ⟨hid, hrest⟩ := hnumber
    obtain ⟨⟨above, k, habove, rfl⟩, hchain⟩ := List.isChain_cons_cons.mp hchain
    have hleft := drop_lineage_of_prefix number habove k
    have hlineage : id :: lineage number above.reverse = lineage number (above ++ [k]).reverse := by
      rw [List.reverse_append, List.reverse_singleton, List.singleton_append, lineage,
        List.reverse_cons, List.reverse_reverse, hid]
    have hlines : edges (dotLinesFrom id (lineage number last.reverse)
        (((above ++ [k]).length, e) :: ahead.map fun x => (x.1.length, x.2))) =
        (number above, id) :: edges (dotLinesFrom (id + 1) (lineage number (above ++ [k]).reverse)
          (ahead.map fun x => (x.1.length, x.2))) := by
      rw [dotLinesFrom]
      simp only [hleft, head?_lineage, List.reverse_reverse, hlineage]
      rfl
    rw [List.map_cons, hlines, ih hchain hrest, List.map_cons, List.map_cons, List.dropLast_concat,
      hid]

/-- Where no place is there twice, the places are numbered as they come. -/
theorem map_idxOf_places (e : Expr) :
    e.places.map (e.places.idxOf ·) = List.range' 0 e.places.length := by
  refine List.ext_getElem (by simp) fun i hi _ => ?_
  rw [List.getElem_map, (nodup_places e).idxOf_getElem, List.getElem_range']
  omega

theorem places_eq (e : Expr) : e.places = [] :: e.places.tail := by
  rw [places, occurrences_eq]
  rfl

/-- **Every place but the top one has an edge from the place above it**, and these are all. -/
theorem edges_dotLines (e : Expr) :
    edges e.dotLines =
      e.places.tail.map fun p => (e.places.idxOf p.dropLast, e.places.idxOf p) := by
  have htail : e.places.tail = (occurrencesFrom 0 e.args).map Prod.fst := by
    rw [places, occurrences_eq]
    rfl
  have hzero : e.places.idxOf [] = 0 := by
    rw [places_eq]
    exact List.idxOf_cons_self
  have hchain : List.IsChain Follows ([] :: (occurrencesFrom 0 e.args).map Prod.fst) := by
    rw [← htail, ← places_eq]
    exact isChain_places e
  have hnumber : ((occurrencesFrom 0 e.args).map Prod.fst).map (e.places.idxOf ·) =
      List.range' 1 (occurrencesFrom 0 e.args).length := by
    have hlength : e.places.length = (occurrencesFrom 0 e.args).length + 1 := by
      rw [places_eq, htail, List.length_cons, List.length_map]
    rw [← htail, List.map_tail, map_idxOf_places, List.tail_range', hlength, Nat.add_sub_cancel]
  have hlines : edges e.dotLines = edges (dotLinesFrom 1 (lineage (e.places.idxOf ·) [])
      ((occurrencesFrom 0 e.args).map fun x => (x.1.length, x.2))) := by
    rw [dotLines, walk_eq, occurrences_eq, List.map_cons, dotLinesFrom, lineage, hzero]
    rfl
  rw [hlines, htail]
  exact edges_dotLinesFrom hchain hnumber

/-! ## The tree -/

theorem idxOf_of_getElem? (h : e.places[i]? = some p) : e.places.idxOf p = i := by
  obtain ⟨hi, rfl⟩ := List.getElem?_eq_some_iff.mp h
  exact (nodup_places e).idxOf_getElem i hi

theorem getElem?_inj (hi : e.places[i]? = some p) (hj : e.places[j]? = some p) : i = j := by
  rw [← idxOf_of_getElem? hi, ← idxOf_of_getElem? hj]

/-- All places but the top one come after it. -/
theorem mem_tail_places : p ∈ e.places.tail ↔ p ∈ e.places ∧ p ≠ [] := by
  have hnodup := nodup_places e
  rw [places_eq, List.nodup_cons] at hnodup
  constructor
  · intro hp
    refine ⟨List.mem_of_mem_tail hp, ?_⟩
    rintro rfl
    exact hnodup.1 hp
  · rintro ⟨hp, hne⟩
    rw [places_eq, List.mem_cons] at hp
    exact hp.resolve_left hne

/-- **An edge goes from a place to one argument down from it.** -/
theorem mem_edges_dotLines :
    (i, j) ∈ edges e.dotLines ↔
      ∃ p k, e.places[i]? = some p ∧ e.places[j]? = some (p ++ [k]) := by
  rw [edges_dotLines, List.mem_map]
  constructor
  · rintro ⟨p, hp, heq⟩
    obtain ⟨hmem, hne⟩ := mem_tail_places.mp hp
    rw [Prod.mk.injEq] at heq
    obtain ⟨rfl, rfl⟩ := heq
    obtain ⟨above, k, rfl⟩ : ∃ above k, p = above ++ [k] :=
      ⟨p.dropLast, p.getLast hne, (List.dropLast_concat_getLast hne).symm⟩
    rw [List.dropLast_concat]
    exact ⟨above, k, List.getElem?_idxOf (mem_places_of_append hmem), List.getElem?_idxOf hmem⟩
  · rintro ⟨p, k, hi, hj⟩
    refine ⟨p ++ [k], mem_tail_places.mpr ⟨List.mem_of_getElem? hj, by simp⟩, ?_⟩
    rw [List.dropLast_concat, idxOf_of_getElem? hi, idxOf_of_getElem? hj]

theorem nodup_edges_dotLines (e : Expr) : (edges e.dotLines).Nodup := by
  rw [edges_dotLines]
  refine List.Nodup.map_on ?_ ((nodup_places e).sublist (List.tail_sublist _))
  intro p hp q _ heq
  have hindex : e.places.idxOf p = e.places.idxOf q := congrArg Prod.snd heq
  exact (List.idxOf_inj (mem_tail_places.mp hp).1).mp hindex

theorem lt_append_singleton (p : Place) (k : Nat) : p < p ++ [k] := by
  induction p with
  | nil => exact List.nil_lt_cons k []
  | cons a p ih => exact List.cons_lt_cons_iff.mpr (.inr ⟨rfl, ih⟩)

/-- Numbers are in the order of places. -/
theorem lt_of_places_lt (hi : e.places[i]? = some p) (hj : e.places[j]? = some q) (h : p < q) :
    i < j := by
  by_contra hle
  obtain ⟨hil, hip⟩ := List.getElem?_eq_some_iff.mp hi
  obtain ⟨hjl, hjq⟩ := List.getElem?_eq_some_iff.mp hj
  rcases Nat.lt_or_ge j i with hlt | hge
  · have hqp := List.pairwise_iff_getElem.mp (sorted_places e) j i hjl hil hlt
    rw [hip, hjq] at hqp
    exact List.lt_asymm h hqp
  · have heq : i = j := by omega
    subst heq
    rw [hi] at hj
    cases hj
    exact List.lt_irrefl p h

/-- Everything but the top is below one thing, which has a lower number. -/
theorem exists_parent (hpos : 0 < j) (hj : j < e.places.length) :
    ∃ i < j, (i, j) ∈ edges e.dotLines ∧ ∀ i', (i', j) ∈ edges e.dotLines → i' = i := by
  obtain ⟨p, hp⟩ : ∃ p, e.places[j]? = some p := ⟨_, List.getElem?_eq_getElem hj⟩
  have hne : p ≠ [] := by
    rintro rfl
    have hfirst : e.places[0]? = some [] := by
      rw [places_eq]
      rfl
    have hzero := getElem?_inj hp hfirst
    omega
  obtain ⟨above, k, rfl⟩ : ∃ above k, p = above ++ [k] :=
    ⟨p.dropLast, p.getLast hne, (List.dropLast_concat_getLast hne).symm⟩
  obtain ⟨i, hi⟩ : ∃ i, e.places[i]? = some above :=
    List.mem_iff_getElem?.mp (mem_places_of_append (List.mem_of_getElem? hp))
  refine ⟨i, lt_of_places_lt hi hp (lt_append_singleton above k),
    mem_edges_dotLines.mpr ⟨above, k, hi, hp⟩, ?_⟩
  intro i' hi'
  obtain ⟨above', k', habove', hp'⟩ := mem_edges_dotLines.mp hi'
  rw [hp, Option.some.injEq] at hp'
  obtain ⟨rfl, -⟩ := List.append_inj' hp' rfl
  exact getElem?_inj habove' hi

/-- The top is not below anything. -/
theorem not_mem_edges_top (i : Nat) : (i, 0) ∉ edges e.dotLines := by
  intro hi
  obtain ⟨p, k, -, htop⟩ := mem_edges_dotLines.mp hi
  rw [places_eq] at htop
  simp at htop

/-- **Everything is at or below the top**, since going up lowers the number. -/
theorem reached_of_lt (hj : j < e.places.length) :
    Relation.ReflTransGen (fun i j => (i, j) ∈ edges e.dotLines) 0 j := by
  induction j using Nat.strongRecOn with
  | ind j ih =>
    rcases Nat.eq_zero_or_pos j with rfl | hpos
    · exact .refl
    · obtain ⟨i, hlt, hedge, -⟩ := exists_parent hpos hj
      exact (ih i hlt (by omega)).tail hedge

end Expr

end QueryExpr
