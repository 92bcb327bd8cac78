import QueryExpr.Proofs.Expr.Drawing
import QueryExpr.Proofs.Token.Numeral

/-!
# Views are views of the tree

A drawing is a text. Each of its lines stands for a vertex or for an edge, and which of them can be
read from the line: the numbers in it end where a blank or a semicolon follows, and no label breaks
a line. So the graph can be read from the text, and it is the tree of the expression.

* `edgeLine_inj`, `eq_of_vertexLine_eq`, `vertexLine_ne_edgeLine`: what lines can be told apart by.
* `nodup_map_content`: no line is there twice.
* `draws_lines`: **the text draws the tree.**
* `views_exact`: **the views describe exactly the tree.**
-/

namespace QueryExpr

namespace Expr

variable {e x y : Expr} {i j id id' : Nat}

/-! ## Lines -/

/-- The line for a vertex: its number, what it stands for, and its shape. -/
def vertexLine (id : Nat) (x : Expr) : String :=
  "  n" ++ toString id ++ " [label=" ++ Text.quoted x.label ++ ", shape=" ++
    (if x.isValue then "box" else "ellipse") ++ "];"

/-- The line for an edge: from which vertex it goes, and to which. -/
def edgeLine (parent child : Nat) : String :=
  "  n" ++ toString parent ++ " -> n" ++ toString child ++ ";"

/-- What a line of a drawing reads, without its end. -/
def DotLine.content : DotLine → String
  | vertex id x => vertexLine id x
  | edge parent child => edgeLine parent child

theorem DotLine.text_eq (line : DotLine) : line.text = line.content ++ "\n" := by
  cases line with
  | vertex id x =>
    simp only [text, content, vertexLine, String.append_assoc]
    rfl
  | edge parent child =>
    simp only [text, content, edgeLine, String.append_assoc]
    rfl

/-! ## Reading lines -/

/-- A number is read to its end: what follows it is no digit. -/
theorem number_append_inj {n m : Nat} {s t : List Char} (hs : ∀ c ∈ s.head?, c.isDigit = false)
    (ht : ∀ c ∈ t.head?, c.isDigit = false)
    (h : Nat.toDigits 10 n ++ s = Nat.toDigits 10 m ++ t) : n = m ∧ s = t := by
  obtain ⟨hn, hns⟩ := Token.takeWhile_append (Token.isDigits_toDigits n).2 hs
  obtain ⟨hm, hmt⟩ := Token.takeWhile_append (Token.isDigits_toDigits m).2 ht
  have hdigits : Nat.toDigits 10 n = Nat.toDigits 10 m := by rw [← hn, h, hm]
  refine ⟨?_, by rw [← hns, h, hmt]⟩
  rw [← Token.digitsValue_toDigits n, hdigits, Token.digitsValue_toDigits]

/-- After the number of a vertex comes its label. -/
theorem toList_vertexLine (id : Nat) (x : Expr) :
    ∃ rest, (vertexLine id x).toList =
      ' ' :: ' ' :: 'n' :: (Nat.toDigits 10 id ++ ' ' :: '[' :: rest) := by
  refine ⟨"label=".toList ++ (Text.quoted x.label).toList ++ ", shape=".toList ++
    (if x.isValue then "box" else "ellipse").toList ++ "];".toList, ?_⟩
  simp [vertexLine]

/-- After the number from which an edge goes comes an arrow. -/
theorem toList_edgeLine (parent child : Nat) :
    (edgeLine parent child).toList = ' ' :: ' ' :: 'n' :: (Nat.toDigits 10 parent ++
      ' ' :: '-' :: '>' :: ' ' :: 'n' :: (Nat.toDigits 10 child ++ [';'])) := by
  simp [edgeLine]

theorem eq_of_vertexLine_eq (h : vertexLine id x = vertexLine id' y) : id = id' := by
  obtain ⟨s, hs⟩ := toList_vertexLine id x
  obtain ⟨t, ht⟩ := toList_vertexLine id' y
  have hlist := congrArg String.toList h
  simp only [hs, ht, List.cons.injEq, true_and] at hlist
  exact (number_append_inj (by simp) (by simp) hlist).1

theorem edgeLine_inj {i' j' : Nat} (h : edgeLine i j = edgeLine i' j') : i = i' ∧ j = j' := by
  have hlist := congrArg String.toList h
  simp only [toList_edgeLine, List.cons.injEq, true_and] at hlist
  obtain ⟨hparent, hrest⟩ := number_append_inj (by simp) (by simp) hlist
  simp only [List.cons.injEq, true_and] at hrest
  exact ⟨hparent, (number_append_inj (by simp) (by simp) hrest).1⟩

theorem vertexLine_ne_edgeLine : vertexLine id x ≠ edgeLine i j := by
  intro h
  obtain ⟨rest, hrest⟩ := toList_vertexLine id x
  have hlist := congrArg String.toList h
  simp only [hrest, toList_edgeLine, List.cons.injEq, true_and] at hlist
  have hafter := (number_append_inj (by simp) (by simp) hlist).2
  simp at hafter

theorem newline_not_mem_toDigits {base : Nat} (hbase : 1 < base) (n : Nat) :
    '\n' ∉ Nat.toDigits base n := by
  induction n using Nat.strongRecOn with
  | ind n ih =>
    rw [Nat.toDigits_eq_if hbase]
    split
    · simp
    · have hless : n / base < n := Nat.div_lt_self (by omega) hbase
      simpa using ih _ hless

theorem newline_not_mem_escape (c : Char) : '\n' ∉ (Text.escape c).toList := by
  unfold Text.escape
  split_ifs with h₀ h₁ h₂ hnewline h₃ h₄ hhidden
  · decide
  · decide
  · decide
  · decide
  · decide
  · decide
  · have hdigits : '\n' ∉ Nat.toDigits 16 c.toNat := newline_not_mem_toDigits (by decide) c.toNat
    simpa [Text.numberEscape] using hdigits
  · simpa using fun h : '\n' = c => hnewline h.symm

/-- What is quoted stands on one line. -/
theorem newline_not_mem_quoted (s : String) : '\n' ∉ (Text.quoted s).toList := by
  have hescapes : ∀ c ∈ s.toList, '\n' ∉ (Text.escape c).toList := fun c _ =>
    newline_not_mem_escape c
  simpa [Text.quoted] using hescapes

/-- **A line of a drawing is one line of its text**, whatever stands in the labels. -/
theorem newline_not_mem_content (line : DotLine) : '\n' ∉ line.content.toList := by
  cases line with
  | vertex id x =>
    have hid : '\n' ∉ Nat.toDigits 10 id := newline_not_mem_toDigits (by decide) id
    have hlabel := newline_not_mem_quoted x.label
    cases hvalue : x.isValue <;> simp [DotLine.content, vertexLine, hvalue, hid, hlabel]
  | edge parent child =>
    have hparent : '\n' ∉ Nat.toDigits 10 parent := newline_not_mem_toDigits (by decide) parent
    have hchild : '\n' ∉ Nat.toDigits 10 child := newline_not_mem_toDigits (by decide) child
    simp [DotLine.content, edgeLine, hparent, hchild]

/-! ## The lines of a drawing -/

variable {lines : List DotLine}

/-- An edge has its line exactly if it is drawn. -/
theorem edgeLine_mem_content :
    edgeLine i j ∈ lines.map DotLine.content ↔ (i, j) ∈ edges lines := by
  rw [List.mem_map, edges, List.mem_filterMap]
  constructor
  · rintro ⟨line, hline, heq⟩
    refine ⟨line, hline, ?_⟩
    cases line with
    | vertex id x => exact absurd heq vertexLine_ne_edgeLine
    | edge parent child =>
      obtain ⟨rfl, rfl⟩ := edgeLine_inj heq
      rfl
  · rintro ⟨line, hline, heq⟩
    cases line with
    | vertex id x => cases heq
    | edge parent child =>
      cases heq
      exact ⟨_, hline, rfl⟩

/-- The lines of the vertices come in the order of the vertices. -/
theorem map_vertexLine_sublist (lines : List DotLine) :
    ((vertices lines).map fun v => vertexLine v.1 v.2).Sublist (lines.map DotLine.content) := by
  induction lines with
  | nil => exact .slnil
  | cons line lines ih =>
    cases line with
    | vertex id x => exact ih.cons_cons _
    | edge parent child => exact ih.cons _

/-- **No line is there twice**, if no number and no edge is. -/
theorem nodup_map_content (hvertices : ((vertices lines).map Prod.fst).Nodup)
    (hedges : (edges lines).Nodup) : (lines.map DotLine.content).Nodup := by
  induction lines with
  | nil => exact List.nodup_nil
  | cons line lines ih =>
    rw [List.map_cons, List.nodup_cons]
    cases line with
    | vertex id x =>
      have hcons : vertices (.vertex id x :: lines) = (id, x) :: vertices lines := rfl
      rw [hcons, List.map_cons, List.nodup_cons] at hvertices
      refine ⟨fun hmem => hvertices.1 ?_, ih hvertices.2 hedges⟩
      obtain ⟨line, hline, heq⟩ := List.mem_map.mp hmem
      cases line with
      | vertex id' y =>
        obtain rfl := eq_of_vertexLine_eq heq
        exact List.mem_map.mpr ⟨(id', y), List.mem_filterMap.mpr ⟨_, hline, rfl⟩, rfl⟩
      | edge parent child => exact absurd heq.symm vertexLine_ne_edgeLine
    | edge parent child =>
      have hcons : edges (.edge parent child :: lines) = (parent, child) :: edges lines := rfl
      rw [hcons, List.nodup_cons] at hedges
      exact ⟨fun hmem => hedges.1 (edgeLine_mem_content.mp hmem), ih hvertices hedges.2⟩

/-! ## The tree -/

/-- **The places are those of an expression in pre-order**: all of them, a node before what is in
its arguments and these from left to right, so that each is there once. -/
structure InPreorder (e : Expr) (places : List Place) : Prop where
  mem_iff : ∀ p, p ∈ places ↔ ∃ x, e.at? p = some x
  sorted : places.Pairwise (· < ·)

theorem inPreorder_places (e : Expr) : InPreorder e e.places :=
  ⟨fun _ => mem_places, sorted_places e⟩

/-- **The lines draw the tree of an expression**: there is one for each visit, numbered as they
come, and one for each argument of each node, from the number of the node to that of the argument.
With the number zero for the top the edges are those of a tree. -/
structure Draws (e : Expr) (lines : List String) : Prop where
  vertices : (e.walk.zipIdx.map fun visit => vertexLine visit.2 visit.1.2).Sublist lines
  edge_iff : ∀ i j, edgeLine i j ∈ lines ↔
    ∃ p k, e.places[i]? = some p ∧ e.places[j]? = some (p ++ [k])
  /-- There are no other lines. -/
  only : ∀ line ∈ lines, (∃ i j, line = edgeLine i j) ∨
    ∃ i depth x, e.walk[i]? = some (depth, x) ∧ line = vertexLine i x
  /-- No line is there twice. -/
  once : lines.Nodup
  /-- The top is not below anything. -/
  top : ∀ i, edgeLine i 0 ∉ lines
  /-- Everything else is below one thing. -/
  parent : ∀ j, 0 < j → j < e.places.length →
    ∃ i < j, edgeLine i j ∈ lines ∧ ∀ i', edgeLine i' j ∈ lines → i' = i
  /-- Everything is at or below the top. -/
  reached : ∀ j < e.places.length, Relation.ReflTransGen (fun i j => edgeLine i j ∈ lines) 0 j

theorem vertices_dotLines (e : Expr) :
    vertices e.dotLines = e.walk.zipIdx.map fun visit => (visit.2, visit.1.2) :=
  vertices_dotLinesFrom 0 [] e.walk

/-- **The text draws the tree.** -/
theorem draws_lines (e : Expr) : Draws e (e.dotLines.map DotLine.content) where
  vertices := by
    have h := map_vertexLine_sublist e.dotLines
    rw [vertices_dotLines, List.map_map] at h
    exact h
  edge_iff _ _ := edgeLine_mem_content.trans mem_edges_dotLines
  only := by
    intro content hcontent
    obtain ⟨line, hline, rfl⟩ := List.mem_map.mp hcontent
    cases line with
    | edge parent child => exact .inl ⟨parent, child, rfl⟩
    | vertex id x =>
      have hmem : (id, x) ∈ Expr.vertices e.dotLines :=
        List.mem_filterMap.mpr ⟨.vertex id x, hline, rfl⟩
      rw [vertices_dotLines, List.mem_map] at hmem
      obtain ⟨⟨⟨depth, y⟩, i⟩, hvisit, heq⟩ := hmem
      cases heq
      exact .inr ⟨i, depth, y, List.mem_zipIdx_iff_getElem?.mp hvisit, rfl⟩
  once := by
    refine nodup_map_content ?_ (nodup_edges_dotLines e)
    have hnumbers : (Expr.vertices e.dotLines).map Prod.fst = e.walk.zipIdx.map Prod.snd := by
      rw [vertices_dotLines, List.map_map]
      rfl
    rw [hnumbers, List.zipIdx_map_snd]
    exact List.nodup_range'
  top i h := not_mem_edges_top i (edgeLine_mem_content.mp h)
  parent := by
    simp only [edgeLine_mem_content]
    exact fun _ => exists_parent
  reached := by
    simp only [edgeLine_mem_content]
    exact fun _ => reached_of_lt

/-! ## All views -/

/-- The nodes that are counted are those that stand at places. -/
theorem nodeCount_eq (e : Expr) :
    e.nodeCount = e.places.countP fun p => (e.at? p).any fun x => !x.isValue := by
  rw [nodeCount, walk_eq, List.countP_map, places, List.countP_map]
  refine List.countP_congr ?_
  rintro ⟨p, x⟩ hx
  simp only [Function.comp_apply, mem_occurrences.mp hx, Option.any_some]

/-- What the walk meets is what stands at the places, at their depth. -/
theorem map_some_walk (e : Expr) :
    e.walk.map some = e.places.map fun p => (e.at? p).map fun x => (p.length, x) := by
  rw [walk_eq, places, List.map_map, List.map_map]
  refine List.map_congr_left ?_
  rintro ⟨p, x⟩ hx
  simp only [Function.comp_apply, mem_occurrences.mp hx, Option.map_some]

/-- **The views describe exactly the tree.** The walk meets what stands at the places of an
expression: all of them, each once and in pre-order, at the depth that the place has. The nodes
among these are counted. The lines of a drawing, between its first and its last one, are a vertex
for each visit, numbered as they come, and an edge for each argument of each node, from the number
of the node to that of the argument. There are no other lines and none is there twice, and the graph
is the tree below number zero. -/
theorem views_exact (e : Expr) :
    InPreorder e e.places ∧
    e.walk.map some = e.places.map (fun p => (e.at? p).map fun x => (p.length, x)) ∧
    e.nodeCount = (e.places.countP fun p => (e.at? p).any fun x => !x.isValue) ∧
    ∃ lines : List String, Draws e lines ∧ (∀ line ∈ lines, '\n' ∉ line.toList) ∧
      e.dot = "digraph expression \x7b\n" ++ String.join (lines.map (· ++ "\n")) ++ "\x7d\n" := by
  have htext : e.dotLines.map DotLine.text = (e.dotLines.map DotLine.content).map (· ++ "\n") := by
    have hends : DotLine.text = (· ++ "\n") ∘ DotLine.content := funext DotLine.text_eq
    rw [List.map_map, hends]
  refine ⟨inPreorder_places e, map_some_walk e, nodeCount_eq e, _, draws_lines e, ?_, ?_⟩
  · intro content hcontent
    obtain ⟨line, -, rfl⟩ := List.mem_map.mp hcontent
    exact newline_not_mem_content line
  · rw [← htext]
    rfl

end Expr

end QueryExpr
