import Mathlib.Data.List.Nodup
import QueryExpr.Proofs.Category
import QueryExpr.Registry

/-!
# One list of entries

What adding an entry does to a list, and which lists leave no choice open. Both only look
at the categories of the entries and at the entry found on a category.

* `insert_cases`: an entry is dropped, takes the place of a derived one, or comes last.
* `insert_again`, `mem_category_insert`: what a list is like once an entry was added.
* `Unambiguous`, `insert_unambiguous`: adding an entry opens no choice between two.
* `Unambiguous.eq_of_isMostSpecific`: at most one entry suits a receiver best.
* `mostSpecific?_eq_some`: the fold over the entries finds an entry that suits best.
* `mostSpecific?_of_bindings`: which one it finds depends on the binding of each category only.
-/

namespace QueryExpr

namespace Registry

variable {new e : Entry} {es es' : List Entry} {category receiver : Categories}

/-- The entry of a list on exactly this category. -/
def bound? (es : List Entry) (category : Categories) : Option Entry :=
  es.find? (·.category = category)

theorem bound?_some (h : bound? es category = some e) : e ∈ es ∧ e.category = category :=
  ⟨List.mem_of_find?_eq_some h, by simpa using List.find?_some h⟩

theorem bound?_none : bound? es category = none ↔ category ∉ es.map Entry.category := by
  simp [bound?]

/-- An entry of a list without two entries on one category is the one on its category. -/
theorem bound?_of_mem (hn : (es.map Entry.category).Nodup) (he : e ∈ es) :
    bound? es e.category = some e := by
  cases hb : bound? es e.category with
  | none => exact absurd (List.mem_map_of_mem he) (bound?_none.mp hb)
  | some d =>
    obtain ⟨hd, hc⟩ := bound?_some hb
    rw [List.inj_on_of_nodup_map hn hd he hc]

/-! ## Adding an entry -/

/-- **What adding an entry can do**: it changes nothing, because the category has an equal
constructor or an explicit one comes first; it replaces a derived entry; or it is appended,
because its category is new and has no rival. -/
theorem insert_cases (h : insert new es = .ok es') :
    (∃ e, bound? es new.category = some e ∧ es' = es ∧
      (e.constructor = new.constructor ∨ e.derived = false ∧ new.derived = true)) ∨
    (∃ e, bound? es new.category = some e ∧ es' = replace new es ∧
      e.constructor ≠ new.constructor ∧ e.derived = true ∧ new.derived = false) ∨
    (bound? es new.category = none ∧ es' = es ++ [new] ∧
      ∀ e ∈ es, isRival new.category e = false) := by
  unfold insert at h
  cases hb : bound? es new.category with
  | some e =>
    have hf : es.find? (·.category = new.category) = some e := hb
    simp only [hf] at h
    by_cases hc : e.constructor = new.constructor
    · rw [if_pos hc] at h
      cases h
      exact Or.inl ⟨e, rfl, rfl, Or.inl hc⟩
    · rw [if_neg hc] at h
      cases hd : e.derived <;> cases hn : new.derived <;> simp [hd, hn] at h
      · exact Or.inl ⟨e, rfl, h.symm, Or.inr ⟨hd, rfl⟩⟩
      · exact Or.inr (Or.inl ⟨e, rfl, h.symm, hc, hd, rfl⟩)
  | none =>
    have hf : es.find? (·.category = new.category) = none := hb
    simp only [hf] at h
    cases hr : es.find? (isRival new.category) with
    | some rival =>
      -- a rival keeps the entry out
      simp [hr] at h
    | none =>
      simp only [hr] at h
      cases h
      refine Or.inr (Or.inr ⟨rfl, rfl, fun e he => ?_⟩)
      simpa using List.find?_eq_none.mp hr e he

/-- An explicit entry refuses another explicit one. -/
theorem insert_of_explicit (hb : bound? es new.category = some e) (hd : e.derived = false)
    (hn : new.derived = false) (hc : e.constructor ≠ new.constructor) :
    insert new es = .error (.alreadyBound e.constructor.operation) := by
  have hf : es.find? (·.category = new.category) = some e := hb
  simp [insert, hf, hc, hd, hn]

/-- A derived entry is replaced by an explicit one with another constructor. -/
theorem insert_of_derived (hb : bound? es new.category = some e) (hd : e.derived = true)
    (hn : new.derived = false) (hc : e.constructor ≠ new.constructor) :
    insert new es = .ok (replace new es) := by
  have hf : es.find? (·.category = new.category) = some e := hb
  simp [insert, hf, hc, hd, hn]

/-- An entry on a category that has an equal constructor changes nothing. -/
theorem insert_of_equal (hb : bound? es new.category = some e)
    (hc : e.constructor = new.constructor) : insert new es = .ok es := by
  have hf : es.find? (·.category = new.category) = some e := hb
  simp [insert, hf, hc]

@[simp] theorem map_category_replace (new : Entry) (es : List Entry) :
    (replace new es).map Entry.category = es.map Entry.category := by
  induction es with
  | nil => rfl
  | cons e rest ih =>
    rw [replace]
    by_cases hc : e.category = new.category
    · rw [if_pos hc, List.map_cons, List.map_cons, hc]
    · rw [if_neg hc, List.map_cons, List.map_cons, ih]

theorem mem_replace (h : e ∈ replace new es) : e = new ∨ e ∈ es := by
  induction es with
  | nil => cases h
  | cons d rest ih =>
    rw [replace] at h
    by_cases hc : d.category = new.category
    · rw [if_pos hc, List.mem_cons] at h
      exact h.imp_right (List.mem_cons_of_mem d)
    · rw [if_neg hc, List.mem_cons] at h
      rcases h with rfl | h
      · exact Or.inr List.mem_cons_self
      · exact (ih h).imp_right (List.mem_cons_of_mem d)

theorem mem_of_insert (h : insert new es = .ok es') (he : e ∈ es') : e = new ∨ e ∈ es := by
  rcases insert_cases h with ⟨-, -, rfl, -⟩ | ⟨-, -, rfl, -⟩ | ⟨-, rfl, -⟩
  · exact Or.inr he
  · exact mem_replace he
  · rcases List.mem_append.mp he with he | he
    · exact Or.inr he
    · exact Or.inl (List.mem_singleton.mp he)

theorem bound?_cons (d : Entry) (es : List Entry) (category : Categories) :
    bound? (d :: es) category = if d.category = category then some d else bound? es category := by
  by_cases hc : d.category = category <;> simp [bound?, hc]

theorem bound?_replace_self (hb : bound? es new.category = some e) :
    bound? (replace new es) new.category = some new := by
  induction es with
  | nil => cases hb
  | cons d rest ih =>
    rw [bound?_cons] at hb
    rw [replace]
    by_cases hc : d.category = new.category
    · rw [if_pos hc, bound?_cons, if_pos rfl]
    · rw [if_neg hc] at hb ⊢
      rw [bound?_cons, if_neg hc, ih hb]

theorem bound?_replace_of_ne (hc : category ≠ new.category) :
    bound? (replace new es) category = bound? es category := by
  induction es with
  | nil => rfl
  | cons d rest ih =>
    rw [replace]
    by_cases hd : d.category = new.category
    · rw [if_pos hd, bound?_cons, bound?_cons, if_neg (Ne.symm hc), if_neg]
      exact fun hdc => hc (hdc.symm.trans hd)
    · rw [if_neg hd, bound?_cons, bound?_cons, ih]

theorem bound?_append_of_some (hb : bound? es category = some e) :
    bound? (es ++ [new]) category = some e := by
  have hf : es.find? (·.category = category) = some e := hb
  simp [bound?, List.find?_append, hf]

theorem bound?_append_self (hb : bound? es new.category = none) :
    bound? (es ++ [new]) new.category = some new := by
  have hf : es.find? (·.category = new.category) = none := hb
  simp [bound?, List.find?_append, hf]

/-- **Adding an entry again changes nothing.** -/
theorem insert_again (h : insert new es = .ok es') : insert new es' = .ok es' := by
  rcases insert_cases h with ⟨e, -, rfl, -⟩ | ⟨e, hb, rfl, -⟩ | ⟨hb, rfl, -⟩
  · exact h
  · exact insert_of_equal (bound?_replace_self hb) rfl
  · exact insert_of_equal (bound?_append_self hb) rfl

/-- **The categories of a list after an entry was added** are its own and that of the entry. -/
theorem mem_category_insert (h : insert new es = .ok es') :
    category ∈ es'.map Entry.category ↔
      category = new.category ∨ category ∈ es.map Entry.category := by
  have hmem : ∀ {e}, bound? es new.category = some e → new.category ∈ es.map Entry.category :=
    fun hb => (bound?_some hb).2 ▸ List.mem_map_of_mem (bound?_some hb).1
  rcases insert_cases h with ⟨e, hb, rfl, -⟩ | ⟨e, hb, rfl, -⟩ | ⟨-, rfl, -⟩
  · exact ⟨Or.inr, fun hc => hc.elim (fun hc => hc ▸ hmem hb) id⟩
  · rw [map_category_replace]
    exact ⟨Or.inr, fun hc => hc.elim (fun hc => hc ▸ hmem hb) id⟩
  · rw [List.map_append, List.mem_append, List.map_singleton, List.mem_singleton, or_comm]

/-- **What adding an explicit entry leaves on its category**: that entry, if none with its
constructor was there, and otherwise the entry that was. -/
theorem bound?_of_insert (h : insert new es = .ok es') (hn : new.derived = false) :
    (bound? es' new.category = some new ∧
      ∀ e, bound? es new.category = some e → e.constructor ≠ new.constructor) ∨
    ∃ e, bound? es new.category = some e ∧ bound? es' new.category = some e ∧
      e.constructor = new.constructor := by
  rcases insert_cases h with ⟨e, hb, rfl, hc⟩ | ⟨e, hb, rfl, hc, -⟩ | ⟨hb, rfl, -⟩
  · -- an explicit entry gives way to none but an equal one
    refine Or.inr ⟨e, hb, hb, hc.resolve_right ?_⟩
    rintro ⟨-, hd⟩
    rw [hn] at hd
    cases hd
  · refine Or.inl ⟨bound?_replace_self hb, ?_⟩
    intro d hd
    rw [hb] at hd
    cases hd
    exact hc
  · refine Or.inl ⟨bound?_append_self hb, ?_⟩
    intro d hd
    rw [hb] at hd
    cases hd

/-- An explicit entry stays when anything else is added. -/
theorem bound?_insert_of_explicit (h : insert new es = .ok es') (hb : bound? es category = some e)
    (hd : e.derived = false) : bound? es' category = some e := by
  rcases insert_cases h with ⟨d, -, rfl, -⟩ | ⟨d, hbd, rfl, -, hdd, -⟩ | ⟨-, rfl, -⟩
  · exact hb
  · -- only derived entries are replaced, so this one is on another category
    rw [bound?_replace_of_ne, hb]
    rintro rfl
    rw [hb] at hbd
    cases hbd
    rw [hd] at hdd
    cases hdd
  · exact bound?_append_of_some hb

/-! ## Lists that leave no choice open -/

/-- Categories of entries, none twice, that a node could carry; two of them that one thing
could carry are not equally specific. -/
structure Unambiguous (categories : List Categories) : Prop where
  closed : ∀ c ∈ categories, c.closure = c
  possible : ∀ c ∈ categories, c ≠ ∅ ∧ c.isConsistent = true
  nodup : categories.Nodup
  apart : ∀ c ∈ categories, ∀ d ∈ categories, c.specificity = d.specificity →
    (c ∪ d).isConsistent = true → c = d

theorem Unambiguous.nil : Unambiguous [] where
  closed := by simp
  possible := by simp
  nodup := List.nodup_nil
  apart := by simp

/-- The order of the categories does not matter. -/
theorem Unambiguous.perm {cs ds : List Categories} (h : Unambiguous cs) (hp : ds.Perm cs) :
    Unambiguous ds where
  closed c hc := h.closed c (hp.mem_iff.mp hc)
  possible c hc := h.possible c (hp.mem_iff.mp hc)
  nodup := hp.nodup_iff.mpr h.nodup
  apart c hc d hd := h.apart c (hp.mem_iff.mp hc) d (hp.mem_iff.mp hd)

/-- A category without a rival may come last. -/
theorem Unambiguous.append {categories : List Categories} {new : Categories}
    (h : Unambiguous categories) (hclosed : new.closure = new) (hne : new ≠ ∅)
    (hcons : new.isConsistent = true) (hnew : new ∉ categories)
    (hrival : ∀ c ∈ categories, c.specificity = new.specificity → (c ∪ new).isConsistent = false) :
    Unambiguous (categories ++ [new]) where
  closed := by
    intro c hc
    rcases List.mem_append.mp hc with hc | hc
    · exact h.closed c hc
    · rw [List.mem_singleton.mp hc, hclosed]
  possible := by
    intro c hc
    rcases List.mem_append.mp hc with hc | hc
    · exact h.possible c hc
    · rw [List.mem_singleton.mp hc]
      exact ⟨hne, hcons⟩
  nodup := by
    rw [List.nodup_append]
    refine ⟨h.nodup, List.nodup_singleton new, ?_⟩
    intro c hc d hd
    rw [List.mem_singleton.mp hd]
    rintro rfl
    exact hnew hc
  apart := by
    intro c hc d hd hs hu
    rcases List.mem_append.mp hc with hc | hc <;> rcases List.mem_append.mp hd with hd | hd
    · exact h.apart c hc d hd hs hu
    · -- one of the two is the new one, and it has no rival among the others
      rw [List.mem_singleton.mp hd] at hs hu
      rw [hrival c hc hs] at hu
      cases hu
    · rw [List.mem_singleton.mp hc] at hs hu
      rw [Categories.union_comm, hrival d hd hs.symm] at hu
      cases hu
    · rw [List.mem_singleton.mp hc, List.mem_singleton.mp hd]

/-- **Adding an entry opens no choice.** -/
theorem insert_unambiguous (hu : Unambiguous (es.map Entry.category))
    (hclosed : new.category.closure = new.category) (hne : new.category ≠ ∅)
    (hcons : new.category.isConsistent = true) (h : insert new es = .ok es') :
    Unambiguous (es'.map Entry.category) := by
  rcases insert_cases h with ⟨e, -, rfl, -⟩ | ⟨e, -, rfl, -⟩ | ⟨hb, rfl, hr⟩
  · exact hu
  · rw [map_category_replace]
    exact hu
  · rw [List.map_append]
    refine hu.append hclosed hne hcons (bound?_none.mp hb) ?_
    intro c hc hs
    obtain ⟨e, he, rfl⟩ := List.mem_map.mp hc
    have := hr e he
    rw [isRival, Bool.and_eq_false_iff] at this
    refine this.resolve_left ?_
    rw [hs, beq_self_eq_true]
    exact Bool.noConfusion

/-! ## The entry that suits best -/

/-- The entry is on a category the receiver carries, and no other such is more specific. -/
structure IsMostSpecific (es : List Entry) (receiver : Categories) (e : Entry) : Prop where
  mem : e ∈ es
  suits : e.category ⊆ receiver
  greatest : ∀ d ∈ es, d.category ⊆ receiver → d.category.specificity ≤ e.category.specificity

/-- **No two entries suit a receiver best**: both categories are parts of what it carries,
so together they are consistent. -/
theorem Unambiguous.eq_of_isMostSpecific {d : Entry} (hu : Unambiguous (es.map Entry.category))
    (hr : receiver.isConsistent = true) (hd : IsMostSpecific es receiver d)
    (he : IsMostSpecific es receiver e) : d = e := by
  have hs : d.category.specificity = e.category.specificity :=
    Nat.le_antisymm (he.greatest d hd.mem hd.suits) (hd.greatest e he.mem he.suits)
  have hcons : (d.category ∪ e.category).isConsistent = true :=
    Categories.isConsistent_mono (Categories.union_subset hd.suits he.suits) hr
  have hc := hu.apart _ (List.mem_map_of_mem hd.mem) _ (List.mem_map_of_mem he.mem) hs hcons
  exact List.inj_on_of_nodup_map hu.nodup hd.mem he.mem hc

/-- The step of `mostSpecific?`: the better of two entries, the later one if they are equal. -/
def better (best e : Entry) : Entry :=
  if e.category.specificity < best.category.specificity then best else e

theorem mostSpecific?_cons (e : Entry) (es : List Entry) :
    mostSpecific? (e :: es) = some (es.foldl better e) := by
  rw [mostSpecific?, List.foldl_cons]
  refine List.foldl_hom some fun b d => ?_
  simp only [better]
  split <;> rfl

theorem foldl_better (es : List Entry) (b : Entry) :
    (es.foldl better b = b ∨ es.foldl better b ∈ es) ∧
      b.category.specificity ≤ (es.foldl better b).category.specificity ∧
      ∀ e ∈ es, e.category.specificity ≤ (es.foldl better b).category.specificity := by
  induction es generalizing b with
  | nil => exact ⟨Or.inl rfl, Nat.le_refl _, by simp⟩
  | cons d rest ih =>
    obtain ⟨hmem, hb, hrest⟩ := ih (better b d)
    rw [List.foldl_cons]
    have hstep : (better b d = b ∨ better b d = d) ∧
        b.category.specificity ≤ (better b d).category.specificity ∧
        d.category.specificity ≤ (better b d).category.specificity := by
      unfold better
      by_cases hs : d.category.specificity < b.category.specificity
      · rw [if_pos hs]
        exact ⟨Or.inl rfl, Nat.le_refl _, Nat.le_of_lt hs⟩
      · rw [if_neg hs]
        exact ⟨Or.inr rfl, Nat.le_of_not_lt hs, Nat.le_refl _⟩
    refine ⟨?_, Nat.le_trans hstep.2.1 hb, ?_⟩
    · rcases hmem with hmem | hmem
      · rw [hmem]
        exact hstep.1.imp_right fun h => by rw [h]; exact List.mem_cons_self
      · exact Or.inr (List.mem_cons_of_mem d hmem)
    · intro e he
      rcases List.mem_cons.mp he with rfl | he
      · exact Nat.le_trans hstep.2.2 hb
      · exact hrest e he

/-- The entries on categories the receiver carries. -/
def suitable (es : List Entry) (receiver : Categories) : List Entry :=
  es.filter fun e => receiver.covers e.category

theorem mem_suitable : e ∈ suitable es receiver ↔ e ∈ es ∧ e.category ⊆ receiver := by
  rw [suitable, List.mem_filter, Categories.covers_iff]

/-- **The fold finds an entry that suits best.** -/
theorem isMostSpecific_of_mostSpecific? (h : mostSpecific? (suitable es receiver) = some e) :
    IsMostSpecific es receiver e := by
  cases hs : suitable es receiver with
  | nil => rw [hs] at h; cases h
  | cons d rest =>
    rw [hs, mostSpecific?_cons] at h
    obtain ⟨hmem, hd, hrest⟩ := foldl_better rest d
    rw [Option.some.inj h] at hmem hd hrest
    have he : e ∈ suitable es receiver := by
      rw [hs, List.mem_cons]
      exact hmem
    rw [mem_suitable] at he
    refine ⟨he.1, he.2, ?_⟩
    intro f hf hsub
    have hf : f ∈ suitable es receiver := mem_suitable.mpr ⟨hf, hsub⟩
    rw [hs, List.mem_cons] at hf
    rcases hf with rfl | hf
    · exact hd
    · exact hrest f hf

/-- The fold finds an entry as soon as one is on a category the receiver carries. -/
theorem mostSpecific?_suitable_isSome (he : e ∈ es) (hs : e.category ⊆ receiver) :
    (mostSpecific? (suitable es receiver)).isSome = true := by
  have hm : e ∈ suitable es receiver := mem_suitable.mpr ⟨he, hs⟩
  cases hl : suitable es receiver with
  | nil => rw [hl] at hm; cases hm
  | cons d rest => rw [mostSpecific?_cons]; rfl

/-- Where no choice is open, the fold finds an entry exactly when that one suits best. -/
theorem mostSpecific?_eq_some (hu : Unambiguous (es.map Entry.category))
    (hr : receiver.isConsistent = true) :
    mostSpecific? (suitable es receiver) = some e ↔ IsMostSpecific es receiver e := by
  refine ⟨isMostSpecific_of_mostSpecific?, fun he => ?_⟩
  obtain ⟨d, hd⟩ := Option.isSome_iff_exists.mp (mostSpecific?_suitable_isSome he.mem he.suits)
  rw [hd, hu.eq_of_isMostSpecific hr (isMostSpecific_of_mostSpecific? hd) he]

/-- **Only what a list has on each category counts**: if another list has the same up to a change of
the constructors, the entries that suit a receiver best are the same up to that change. -/
theorem mostSpecific?_of_bindings {f : Constructor → Constructor}
    (hu : Unambiguous (es.map Entry.category)) (hu' : Unambiguous (es'.map Entry.category))
    (hr : receiver.isConsistent = true)
    (h : ∀ category, (bound? es' category).map Entry.constructor =
      ((bound? es category).map Entry.constructor).map f) :
    (mostSpecific? (suitable es' receiver)).map Entry.constructor =
      ((mostSpecific? (suitable es receiver)).map Entry.constructor).map f := by
  -- so both lists have the same categories
  have hcats : ∀ category, category ∈ es'.map Entry.category ↔ category ∈ es.map Entry.category := by
    intro category
    rw [← not_iff_not, ← bound?_none, ← bound?_none, ← Option.map_eq_none_iff, h,
      Option.map_eq_none_iff, Option.map_eq_none_iff]
  cases hm : mostSpecific? (suitable es receiver) with
  | some e =>
    have he := isMostSpecific_of_mostSpecific? hm
    have hb := h e.category
    rw [bound?_of_mem hu.nodup he.mem] at hb
    obtain ⟨e', hb', hc⟩ := Option.map_eq_some_iff.mp hb
    obtain ⟨hmem, hcat⟩ := bound?_some hb'
    have he' : IsMostSpecific es' receiver e' := by
      refine ⟨hmem, hcat ▸ he.suits, fun d' hd' hsuits => ?_⟩
      obtain ⟨d, hd, hdcat⟩ := List.mem_map.mp ((hcats d'.category).mp (List.mem_map_of_mem hd'))
      rw [hcat, ← hdcat]
      exact he.greatest d hd (hdcat ▸ hsuits)
    rw [(mostSpecific?_eq_some hu' hr).mpr he', Option.map_some, hc]
    rfl
  | none =>
    cases hm' : mostSpecific? (suitable es' receiver) with
    | none => rfl
    | some e' =>
      have he' := isMostSpecific_of_mostSpecific? hm'
      obtain ⟨e, he, hcat⟩ := List.mem_map.mp ((hcats e'.category).mp (List.mem_map_of_mem he'.mem))
      have := mostSpecific?_suitable_isSome he (hcat ▸ he'.suits)
      rw [hm] at this
      cases this

end Registry

end QueryExpr
