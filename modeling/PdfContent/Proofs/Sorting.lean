import Mathlib.Order.Compare
import PdfContent.Layout.ReadingOrder

/-!
# Sorting by any comparison

What sorting by halving and merging gives, by how much is known of the comparison. Whatever it
answers, the result is a rearrangement; if nothing compares less than what stands before it, nothing
is moved; if the comparison is a total preorder, the result is in order, and what compares equal
keeps its order. By the last two properties there is only one such rearrangement
(`eq_of_filter_same`).

A comparison of each element with those before it is all that sorting asks for, so `map_sortBy`
needs no more of two comparisons than that they agree there.
-/

namespace PdfContent

variable {α β : Type} {compare : α → α → Ordering} {items : List α}

theorem sortBy_of_short (short : items.length ≤ 1) : sortBy compare items = items := by
  rw [sortBy, if_pos short]

theorem sortBy_of_long (long : ¬items.length ≤ 1) :
    sortBy compare items =
      (sortBy compare (items.take (items.length / 2))).merge
        (sortBy compare (items.drop (items.length / 2))) fun a b => compare b a != .lt := by
  rw [sortBy, if_neg long]

/-- Nothing is lost and nothing is there twice, whatever the comparison answers. -/
theorem sortBy_perm (compare : α → α → Ordering) (items : List α) :
    (sortBy compare items).Perm items := by
  fun_induction sortBy compare items with
  | case1 => exact .refl _
  | case2 items _ front back =>
      refine (List.merge_perm_append _).trans ((front.append back).trans ?_)
      rw [List.take_append_drop]

theorem mem_sortBy {a : α} : a ∈ sortBy compare items ↔ a ∈ items :=
  (sortBy_perm compare items).mem_iff

theorem sortBy_eq_nil_iff : sortBy compare items = [] ↔ items = [] := by
  rw [← List.length_eq_zero_iff, (sortBy_perm compare items).length_eq, List.length_eq_zero_iff]

/-- Each element of the front half stands before each one of the back half. -/
theorem pairwise_halves {R : α → α → Prop} (pairwise : items.Pairwise R) (n : Nat) :
    (items.take n).Pairwise R ∧ (items.drop n).Pairwise R ∧
      ∀ a ∈ items.take n, ∀ b ∈ items.drop n, R a b := by
  rwa [← List.pairwise_append, List.take_append_drop]

theorem sortBy_of_inOrder (inOrder : items.Pairwise fun a b => compare b a ≠ .lt) :
    sortBy compare items = items := by
  fun_induction sortBy compare items with
  | case1 => rfl
  | case2 items _ front back =>
      obtain ⟨first, second, between⟩ := pairwise_halves inOrder (items.length / 2)
      rw [front first, back second, List.merge_of_le, List.take_append_drop]
      intro a b before after
      simpa using between a before b after

/-- Elements may be replaced before sorting or after it, if that does not change how each compares
with those before it. -/
theorem map_sortBy (f : α → β) {compare' : β → β → Ordering}
    (same : items.Pairwise fun a b => compare b a = compare' (f b) (f a)) :
    (sortBy compare items).map f = sortBy compare' (items.map f) := by
  fun_induction sortBy compare items with
  | case1 items short => rw [sortBy_of_short (by simpa using short)]
  | case2 items long front back =>
      obtain ⟨first, second, between⟩ := pairwise_halves same (items.length / 2)
      have mapped : ¬(items.map f).length ≤ 1 := by simpa using long
      rw [sortBy_of_long mapped, List.length_map,
        ← List.map_take, ← List.map_drop, ← front first, ← back second]
      refine List.map_merge fun a before b after => ?_
      rw [between a (mem_sortBy.mp before) b (mem_sortBy.mp after)]

theorem sortBy_congr {compare' : α → α → Ordering}
    (same : items.Pairwise fun a b => compare b a = compare' b a) :
    sortBy compare items = sortBy compare' items := by
  simpa using map_sortBy id same

/-! ### Total preorders -/

section Preorder

variable [Std.TransCmp compare]

theorem ne_lt_eq_isLE (a b : α) : (compare b a != .lt) = (compare a b).isLE := by
  have swapped : compare b a = (compare a b).swap := Std.OrientedCmp.eq_swap
  rw [swapped]
  cases compare a b <;> rfl

theorem eq_of_isLE_of_isLE {a b : α} (below : (compare a b).isLE) (above : (compare b a).isLE) :
    compare a b = .eq := by
  have swapped : compare b a = (compare a b).swap := Std.OrientedCmp.eq_swap
  rw [swapped] at above
  cases compared : compare a b <;> simp_all

/-- The first element of a list in order comes before all of its elements. -/
theorem isLE_of_mem_cons {a b : α} (inOrder : (a :: items).Pairwise fun a b => (compare a b).isLE)
    (among : b ∈ a :: items) : (compare a b).isLE := by
  rcases List.mem_cons.mp among with rfl | among
  · exact Std.ReflCmp.isLE_rfl
  · exact List.rel_of_pairwise_cons inOrder among

theorem pairwise_sortBy (items : List α) :
    (sortBy compare items).Pairwise fun a b => (compare a b).isLE := by
  fun_induction sortBy compare items with
  | case1 items short =>
      match items, short with
      | [], _ => exact .nil
      | [a], _ => exact List.pairwise_singleton ..
  | case2 items _ front back =>
      simp only [ne_lt_eq_isLE]
      refine List.pairwise_merge (fun a b c => Std.TransCmp.isLE_trans) (fun a b => ?_) _ _ front back
      rw [← ne_lt_eq_isLE b a]
      cases compare a b <;> rfl

/-- What is kept of a merge has what is kept of the first list in front, if all that is kept
compares equal. -/
theorem filter_merge {front : List α} (inOrder : front.Pairwise fun a b => (compare a b).isLE)
    (back : List α) (a : α) :
    (front.merge back fun a b => compare b a != .lt).filter (compare a · == .eq) =
      front.filter (compare a · == .eq) ++ back.filter (compare a · == .eq) := by
  induction front generalizing back with
  | nil => simp
  | cons x front ih =>
      induction back with
      | nil => simp
      | cons y back ih' =>
          rw [List.cons_merge_cons]
          split
          next =>
            rw [List.filter_cons, ih inOrder.of_cons, List.filter_cons (x := x)]
            split <;> rfl
          next less =>
            have less : compare y x = .lt := by simpa using less
            rw [List.filter_cons, ih', List.filter_cons (x := y)]
            split
            next equal =>
              -- all of the front compares greater than `y`, so none of it is kept
              have none : (x :: front).filter (compare a · == .eq) = [] := by
                rw [List.filter_eq_nil_iff]
                intro z among
                have equal : compare a y = .eq := by simpa using equal
                have greater : compare y z = .lt :=
                  Std.TransCmp.lt_of_lt_of_isLE less (isLE_of_mem_cons inOrder among)
                have same : compare a z = compare y z := Std.TransCmp.congr_left equal
                simp [same, greater]
              rw [none]
              rfl
            next => rfl

/-- What compares equal keeps its order. -/
theorem filter_sortBy (items : List α) (a : α) :
    (sortBy compare items).filter (compare a · == .eq) = items.filter (compare a · == .eq) := by
  fun_induction sortBy compare items with
  | case1 => rfl
  | case2 items _ front back =>
      rw [filter_merge (pairwise_sortBy _), front, back, ← List.filter_append,
        List.take_append_drop]

theorem mem_of_filter_same {first second : List α}
    (same : ∀ a, first.filter (compare a · == .eq) = second.filter (compare a · == .eq)) {a : α}
    (among : a ∈ first) : a ∈ second := by
  have kept : a ∈ first.filter (compare a · == .eq) :=
    List.mem_filter.mpr ⟨among, by simp [Std.ReflCmp.compare_self]⟩
  rw [same] at kept
  exact (List.mem_filter.mp kept).1

/-- Two lists in order that have the same elements, those that compare equal in the same order, are
the same. -/
theorem eq_of_filter_same {first second : List α}
    (inOrder : first.Pairwise fun a b => (compare a b).isLE)
    (inOrder' : second.Pairwise fun a b => (compare a b).isLE)
    (same : ∀ a, first.filter (compare a · == .eq) = second.filter (compare a · == .eq)) :
    first = second := by
  induction first generalizing second with
  | nil =>
      cases second with
      | nil => rfl
      | cons b second => cases mem_of_filter_same (fun a => (same a).symm) (List.mem_cons_self ..)
  | cons a first ih =>
      cases second with
      | nil => cases mem_of_filter_same same (List.mem_cons_self ..)
      | cons b second =>
          have among := mem_of_filter_same same (List.mem_cons_self ..)
          have among' := mem_of_filter_same (fun a => (same a).symm) (List.mem_cons_self ..)
          have equal : compare a b = .eq :=
            eq_of_isLE_of_isLE (isLE_of_mem_cons inOrder among') (isLE_of_mem_cons inOrder' among)
          obtain rfl : a = b := by
            have heads := same a
            rw [List.filter_cons_of_pos (by simp [Std.ReflCmp.compare_self]),
              List.filter_cons_of_pos (by simp [equal])] at heads
            exact (List.cons.inj heads).1
          have tails (c : α) : first.filter (compare c · == .eq) =
              second.filter (compare c · == .eq) := by
            have all := same c
            rw [List.filter_cons, List.filter_cons] at all
            split at all
            · exact (List.cons.inj all).2
            · exact all
          rw [ih inOrder.of_cons inOrder'.of_cons tails]

end Preorder

/-! ### Total preorders of the elements -/

section Elements

/-- Sorting looks at nothing but the elements. -/
theorem map_sortBy_attach (compare : α → α → Ordering) (items : List α) :
    (sortBy (fun a b : {a // a ∈ items} => compare a b) items.attach).map Subtype.val =
      sortBy compare items := by
  rw [map_sortBy Subtype.val (List.pairwise_of_forall fun a b => rfl), List.attach_map_subtype_val]

theorem pairwise_sortBy_of_elements
    (preorder : Std.TransCmp fun a b : {a // a ∈ items} => compare a b) :
    (sortBy compare items).Pairwise fun a b => compare a b ≠ .gt := by
  rw [← map_sortBy_attach, List.pairwise_map]
  refine (pairwise_sortBy items.attach).imp fun inOrder => ?_
  rwa [Ordering.isLE_iff_ne_gt] at inOrder

theorem filter_sortBy_of_elements
    (preorder : Std.TransCmp fun a b : {a // a ∈ items} => compare a b) {a : α}
    (among : a ∈ items) :
    (sortBy compare items).filter (compare a · == .eq) = items.filter (compare a · == .eq) := by
  let p : α → Bool := fun b => compare a b == .eq
  let inside : {a // a ∈ items} → {a // a ∈ items} → Ordering := fun a b => compare a b
  have kept : (sortBy inside items.attach).filter (inside ⟨a, among⟩ · == .eq) =
      items.attach.filter (inside ⟨a, among⟩ · == .eq) := filter_sortBy ..
  calc (sortBy compare items).filter p
      = ((sortBy inside items.attach).map Subtype.val).filter p := by rw [map_sortBy_attach]
    _ = ((sortBy inside items.attach).filter (p ∘ Subtype.val)).map Subtype.val := List.filter_map
    _ = (items.attach.filter (p ∘ Subtype.val)).map Subtype.val :=
        congrArg (List.map Subtype.val) kept
    _ = (items.attach.map Subtype.val).filter p := List.filter_map.symm
    _ = items.filter p := by rw [List.attach_map_subtype_val]

end Elements

/-! ### Comparisons that change their mind -/

section Stateful

variable {ρ : Type}

/-- Merges by a comparison whose answers may depend on what it was asked before. -/
def mergeM (compare : α → α → StateM ρ Ordering) : List α → List α → StateM ρ (List α)
  | [], back => pure back
  | front, [] => pure front
  | a :: front, b :: back => do
    if (← compare b a) == .lt then return b :: (← mergeM compare (a :: front) back)
    else return a :: (← mergeM compare front (b :: back))
termination_by front back => front.length + back.length

/-- Sorts by such a comparison: the front half first, then the back half, then both together. -/
def sortByM (compare : α → α → StateM ρ Ordering) (items : List α) : StateM ρ (List α) :=
  if items.length ≤ 1 then pure items
  else do
    let front ← sortByM compare (items.take (items.length / 2))
    let back ← sortByM compare (items.drop (items.length / 2))
    mergeM compare front back
termination_by items.length
decreasing_by
  · simp
    omega
  · simp
    omega

theorem mergeM_pure (compare : α → α → Ordering) (front back : List α) :
    mergeM (fun a b => pure (compare a b)) front back =
      (pure (front.merge back fun a b => compare b a != .lt) : StateM ρ (List α)) := by
  fun_induction mergeM (fun a b => (pure (compare a b) : StateM ρ Ordering)) front back with
  | case1 => simp
  | case2 => simp
  | case3 a front b back ih ih' =>
      rw [List.cons_merge_cons, pure_bind]
      cases compared : compare b a <;> simp_all

/-- A comparison that does not is one of these. -/
theorem sortByM_pure (compare : α → α → Ordering) (items : List α) :
    sortByM (fun a b => pure (compare a b)) items =
      (pure (sortBy compare items) : StateM ρ (List α)) := by
  fun_induction sortBy compare items with
  | case1 items short => rw [sortByM, if_pos short]
  | case2 items long front back =>
      rw [sortByM, if_neg long, front, back]
      simp only [pure_bind, mergeM_pure]

theorem mergeM_perm (compare : α → α → StateM ρ Ordering) (front back : List α) (r : ρ) :
    ((mergeM compare front back).run r).1.Perm (front ++ back) := by
  fun_induction mergeM compare front back generalizing r with
  | case1 => exact .refl _
  | case2 =>
      rw [List.append_nil]
      exact .refl _
  | case3 a front b back later earlier =>
      obtain ⟨answer, r', asked⟩ : ∃ answer r', (compare b a).run r = (answer, r') := ⟨_, _, rfl⟩
      rw [StateT.run_bind, asked]
      change ((ite (answer == .lt) _ _ : StateM ρ (List α)).run r').1.Perm _
      split
      · exact ((later r').cons b).trans List.perm_middle.symm
      · exact (earlier r').cons a

/-- Nothing is lost and nothing is there twice even then. -/
theorem sortByM_perm (compare : α → α → StateM ρ Ordering) (items : List α) (r : ρ) :
    ((sortByM compare items).run r).1.Perm items := by
  fun_induction sortByM compare items generalizing r with
  | case1 => exact .refl _
  | case2 items _ front back =>
      let first := (sortByM compare (items.take (items.length / 2))).run r
      refine (mergeM_perm compare ..).trans (((front r).append (back first.2)).trans ?_)
      rw [List.take_append_drop]

end Stateful

end PdfContent
