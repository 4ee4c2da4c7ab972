import Mathlib.Data.List.Chain
import PdfContent.Layout.TextPosition
import PdfContent.Proofs.Sorting
import PdfContent.Scalar.Whole

/-!
# Text put together from pieces

Text in a given order is the pieces one after another with a separator between neighbours. Which
separators may occur is read off the neighbours: `separated_joinText` needs to know no more than
those. Together with sorting by any comparison this says that sorting pieces and joining them loses
and repeats none, for every tolerance and also where the pieces have no sensible order.
-/

namespace PdfContent

/-- Pieces one after another, with one of the separators between neighbours. -/
inductive Separated (separators : List String) : List String → String → Prop
  | nil : Separated separators [] ""
  | single (piece : String) : Separated separators [piece] piece
  | cons {separator next text : String} {pieces : List String} (piece : String) :
      separator ∈ separators → Separated separators (next :: pieces) text →
      Separated separators (piece :: next :: pieces) (piece ++ separator ++ text)

namespace PlacedText

variable {K : Type} [Scalar K] {tolerance : K} {s t : PlacedText K}

/-- No line is broken between two pieces on one line that run in one direction. -/
theorem separator_of_sameLine (direction : s.direction = t.direction)
    (together : sameLine tolerance s t) : separator tolerance s t ∈ ["", " "] := by
  rw [separator, if_pos (by simp [direction, together])]
  split <;> simp

theorem separator_of_not_sameLine (apart : ¬sameLine tolerance s t) :
    separator tolerance s t = "\n" := by
  rw [separator, if_neg (by simp [apart])]

theorem separator_mem (tolerance : K) (s t : PlacedText K) :
    separator tolerance s t ∈ ["", " ", "\n"] := by
  rw [separator]
  split
  · split <;> simp
  · simp

theorem joinText_singleton (tolerance : K) (s : PlacedText K) : joinText tolerance [s] = s.text := by
  rw [joinText, textAfter, String.append_empty]

theorem joinText_cons_cons (tolerance : K) (s t : PlacedText K) (rest : List (PlacedText K)) :
    joinText tolerance (s :: t :: rest) =
      s.text ++ separator tolerance s t ++ joinText tolerance (t :: rest) := by
  simp only [joinText, textAfter, String.append_assoc]

/-- Text comes from the pieces and what goes between neighbours, and from nothing else. -/
theorem joinText_map {f : PlacedText K → PlacedText K} {pieces : List (PlacedText K)}
    (sameText : ∀ t ∈ pieces, (f t).text = t.text)
    (sameSeparator : ∀ s ∈ pieces, ∀ t ∈ pieces,
      separator tolerance (f s) (f t) = separator tolerance s t) :
    joinText tolerance (pieces.map f) = joinText tolerance pieces := by
  induction pieces with
  | nil => rfl
  | cons s pieces ih =>
      have here : s ∈ s :: pieces := List.mem_cons_self ..
      have later {t : PlacedText K} (among : t ∈ pieces) : t ∈ s :: pieces :=
        List.mem_cons_of_mem s among
      have ih := ih (fun t among => sameText t (later among))
        fun a among b among' => sameSeparator a (later among) b (later among')
      cases pieces with
      | nil => rw [List.map_singleton, joinText_singleton, joinText_singleton, sameText s here]
      | cons t rest =>
          rw [List.map_cons, List.map_cons, joinText_cons_cons, joinText_cons_cons, ← List.map_cons,
            ih, sameText s here, sameSeparator s here t (later (List.mem_cons_self ..))]

/-- Joined pieces are separated by what goes between neighbours. -/
theorem separated_joinText {separators : List String} {pieces : List (PlacedText K)}
    (neighbours : pieces.IsChain fun s t => separator tolerance s t ∈ separators) :
    Separated separators (pieces.map text) (joinText tolerance pieces) := by
  induction pieces with
  | nil => exact .nil
  | cons s pieces ih =>
      cases pieces with
      | nil =>
          rw [joinText_singleton]
          exact .single s.text
      | cons t rest =>
          obtain ⟨allowed, neighbours⟩ := List.isChain_cons_cons.mp neighbours
          rw [joinText_cons_cons]
          exact .cons s.text allowed (ih neighbours)

theorem joinText_append {front : List (PlacedText K)} (last : front.getLast? = some s)
    (t : PlacedText K) (rest : List (PlacedText K)) :
    joinText tolerance (front ++ t :: rest) =
      joinText tolerance front ++ separator tolerance s t ++ joinText tolerance (t :: rest) := by
  induction front with
  | nil => cases last
  | cons a front ih =>
      cases front with
      | nil =>
          obtain rfl : a = s := by simpa using last
          rw [List.singleton_append, joinText_cons_cons, joinText_singleton]
      | cons b front =>
          rw [List.getLast?_cons_cons] at last
          rw [List.cons_append, List.cons_append, joinText_cons_cons, joinText_cons_cons,
            ← List.cons_append, ih last]
          simp only [String.append_assoc]

/-- Lines of pieces are broken just between them, if no line is empty and none goes on. -/
theorem separated_joinText_flatten {lines : List (List (PlacedText K))}
    (nonempty : ∀ line ∈ lines, line ≠ [])
    (breaks : lines.Pairwise fun upper lower => ∀ s ∈ upper, ∀ t ∈ lower,
      separator tolerance s t = "\n") :
    Separated ["\n"] (lines.map (joinText tolerance)) (joinText tolerance lines.flatten) := by
  induction lines with
  | nil => exact .nil
  | cons line lines ih =>
      obtain ⟨first, breaks⟩ := List.pairwise_cons.mp breaks
      have joined := ih (fun m among => nonempty m (List.mem_cons_of_mem line among)) breaks
      cases lines with
      | nil =>
          rw [List.flatten_singleton]
          exact .single _
      | cons next lines =>
          obtain ⟨t, rest, rfl⟩ :=
            List.exists_cons_of_ne_nil (nonempty next (List.mem_cons_of_mem _ (List.mem_cons_self ..)))
          have last := List.getLast?_eq_some_getLast (nonempty line (List.mem_cons_self ..))
          have broken := first _ (List.mem_cons_self ..) _ (List.mem_of_getLast? last) t
            (List.mem_cons_self ..)
          rw [List.flatten_cons, List.flatten_cons, List.cons_append, joinText_append last, broken,
            ← List.cons_append, ← List.flatten_cons]
          exact .cons _ (List.mem_singleton.mpr rfl) joined

end PlacedText

namespace TextPosition

variable {K σ : Type} [Scalar K]

/-- The piece of text by itself, as that of a glyph of which nothing else is known. -/
def ofPlaced (t : PlacedText K) : TextPosition K σ :=
  { t with
    glyph := {
      code := 0, text := none, font := .fallback, fontName := none, fontSize := 1,
      horizontalScale := 1, glyphMatrix := .identity, renderingMatrix := .identity,
      textMatrix := .identity, ctm := .identity, displacement := ⟨0, 0⟩, advance := 0,
      mode := .fill } }

theorem separated_joinText {tolerance : K} {separators : List String}
    {pieces : List (TextPosition K σ)}
    (neighbours : pieces.Pairwise fun s t =>
      PlacedText.separator tolerance s.toPlacedText t.toPlacedText ∈ separators) :
    Separated separators (pieces.map fun t => t.text) (joinText tolerance pieces) := by
  have joined := PlacedText.separated_joinText (List.pairwise_map.mpr neighbours).isChain
  rwa [List.map_map] at joined

theorem separated_joinText_flatten {tolerance : K} {lines : List (List (TextPosition K σ))}
    (nonempty : ∀ line ∈ lines, line ≠ [])
    (breaks : lines.Pairwise fun upper lower => ∀ s ∈ upper, ∀ t ∈ lower,
      PlacedText.separator tolerance s.toPlacedText t.toPlacedText = "\n") :
    Separated ["\n"] (lines.map (joinText tolerance)) (joinText tolerance lines.flatten) := by
  let placed := lines.map (List.map toPlacedText)
  have joined : Separated ["\n"] (placed.map (PlacedText.joinText tolerance))
      (PlacedText.joinText tolerance placed.flatten) :=
    PlacedText.separated_joinText_flatten (by simpa [placed] using nonempty)
      (by simpa [placed, List.pairwise_map] using breaks)
  rwa [List.map_map, ← List.map_flatten] at joined

end TextPosition

/-- Sorting gives a rearrangement, whatever the comparison, and even if its answers depend on what
it was asked before; it changes nothing where nothing compares less than what stands before it; and
a total preorder of the elements gives their stable sort. So text in reading order has each piece
once, with nothing, a space or a line break between neighbours. -/
theorem sortBy_stable_joinText_separated (K σ : Type) [Scalar K] :
    (∀ (α : Type) (compare : α → α → Ordering) (items : List α),
      (sortBy compare items).Perm items ∧
      ((items.Pairwise fun a b => compare b a ≠ .lt) → sortBy compare items = items) ∧
      ((Std.TransCmp fun a b : {a // a ∈ items} => compare a b) →
        ((sortBy compare items).Pairwise fun a b => compare a b ≠ .gt) ∧
        ∀ a ∈ items, (sortBy compare items).filter (compare a · == .eq) =
          items.filter (compare a · == .eq))) ∧
    (∀ (α ρ : Type) (compare : α → α → StateM ρ Ordering) (items : List α) (r : ρ),
      ((sortByM compare items).run r).1.Perm items) ∧
    (∀ (α ρ : Type) (compare : α → α → Ordering) (items : List α),
      (sortByM (fun a b => pure (compare a b)) items : StateM ρ (List α)) =
        pure (sortBy compare items)) ∧
    ∀ (tolerance : K) (positions : List (TextPosition K σ)),
      let sorted := TextPosition.inReadingOrder tolerance positions
      sorted.Perm positions ∧
        Separated ["", " ", "\n"] (sorted.map fun t => t.text)
          (TextPosition.joinText tolerance sorted) := by
  refine ⟨?_, fun α ρ => sortByM_perm, fun α ρ => sortByM_pure, ?_⟩
  · intro α compare items
    refine ⟨sortBy_perm compare items, sortBy_of_inOrder, ?_⟩
    intro preorder
    constructor
    · exact pairwise_sortBy_of_elements preorder
    · intro a among
      exact filter_sortBy_of_elements preorder among
  · intro tolerance positions sorted
    constructor
    · exact sortBy_perm _ positions
    · apply TextPosition.separated_joinText
      apply List.pairwise_of_forall
      intro s t
      exact PlacedText.separator_mem tolerance s.toPlacedText t.toPlacedText

/-- Pairs that are compared by their first entries, with ties, and pairs that are in order. -/
theorem sortBy_stable_joinText_separated_ties :
    let byFirst : Nat × Nat → Nat × Nat → Ordering := compareOn Prod.fst
    let items := [(3, 0), (1, 1), (3, 2), (1, 3)]
    (sortBy byFirst items).filter (byFirst (3, 0) · == .eq) = [(3, 0), (3, 2)] ∧
      sortBy byFirst [(1, 1), (1, 3), (3, 0)] = [(1, 1), (1, 3), (3, 0)] := by
  intro byFirst items
  have keep := (sortBy_stable_joinText_separated Int Unit).1 (Nat × Nat) byFirst
  constructor
  · have preorder : Std.TransCmp fun a b : {a // a ∈ items} => byFirst a b :=
      inferInstanceAs (Std.TransCmp (compareOn fun a : {a // a ∈ items} => a.1.1))
    obtain ⟨-, -, stable⟩ := keep items
    exact (stable preorder).2 (3, 0) (by decide)
  · obtain ⟨-, unchanged, -⟩ := keep [(1, 1), (1, 3), (3, 0)]
    exact unchanged (by decide)

end PdfContent
