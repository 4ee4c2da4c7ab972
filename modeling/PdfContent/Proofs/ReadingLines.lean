import PdfContent.Proofs.ExactArithmetic
import PdfContent.Proofs.TextAssembly

/-!
# Reading order on pages with separate lines

Where text stands in lines that the comparison can tell apart, reading order is what it should be:
line by line from the top, and along each line. The comparison is no preorder in general, and here it
need not even give that a piece is on one line with itself. So it is replaced by another one, which
compares the numbers of lines first. Sorting cannot tell the two apart, since it never
compares an element with itself, and the other one is a total preorder. Its stable sort is known:
there is only one list in order in which ties keep their order, and the lines, each sorted by
itself, are one.
-/

namespace PdfContent

/-! ### Elements in rows -/

section Rows

variable {α : Type} {rows : List (List α)}

/-- Rows without common elements can be numbered from the top. -/
theorem exists_row (disjoint : rows.Pairwise List.Disjoint) :
    ∃ row : α → Nat, (∀ l ∈ rows, ∀ a ∈ l, ∀ b ∈ l, row a = row b) ∧
      rows.Pairwise fun upper lower => ∀ a ∈ upper, ∀ b ∈ lower, row a < row b := by
  classical
  induction rows with
  | nil => exact ⟨fun _ => 0, by simp, .nil⟩
  | cons l rows ih =>
      obtain ⟨apart, disjoint⟩ := List.pairwise_cons.mp disjoint
      obtain ⟨row, same, above⟩ := ih disjoint
      have later {m : List α} (among : m ∈ rows) {a : α} (inside : a ∈ m) : a ∉ l :=
        fun inside' => apart m among inside' inside
      refine ⟨fun a => if a ∈ l then 0 else row a + 1, ?_, List.pairwise_cons.mpr ⟨?_, ?_⟩⟩
      · intro m among a inside b inside'
        rcases List.mem_cons.mp among with rfl | among
        · simp [inside, inside']
        · simp [later among inside, later among inside', same m among a inside b inside']
      · intro m among a inside b inside'
        simp [inside, later among inside']
      · refine above.imp_of_mem fun {upper lower} among among' below a inside b inside' => ?_
        simp [later among inside, later among' inside', below a inside b inside']

variable {row : α → Nat}

/-- What has some number is one of the rows, if there is anything. -/
theorem filter_flatten_rows (same : ∀ l ∈ rows, ∀ a ∈ l, ∀ b ∈ l, row a = row b)
    (above : rows.Pairwise fun upper lower => ∀ a ∈ upper, ∀ b ∈ lower, row a < row b) (n : Nat) :
    rows.flatten.filter (row · == n) = [] ∨ rows.flatten.filter (row · == n) ∈ rows := by
  induction rows with
  | nil => exact .inl rfl
  | cons l rows ih =>
      obtain ⟨first, above⟩ := List.pairwise_cons.mp above
      rw [List.flatten_cons, List.filter_append]
      by_cases found : ∃ a ∈ l, row a = n
      · obtain ⟨a, inside, rfl⟩ := found
        have whole : l.filter (row · == row a) = l := by
          rw [List.filter_eq_self]
          intro b inside'
          simpa using same l (List.mem_cons_self ..) b inside' a inside
        have nothing : rows.flatten.filter (row · == row a) = [] := by
          rw [List.filter_eq_nil_iff]
          intro b later
          obtain ⟨m, among, inside'⟩ := List.mem_flatten.mp later
          simpa using (first m among a inside b inside').ne'
        rw [whole, nothing, List.append_nil]
        exact .inr (List.mem_cons_self ..)
      · have nothing : l.filter (row · == n) = [] := by
          rw [List.filter_eq_nil_iff]
          intro a inside
          simpa using fun same => found ⟨a, inside, same⟩
        rw [nothing, List.nil_append]
        exact (ih (fun m among => same m (List.mem_cons_of_mem l among)) above).imp_right
          (List.mem_cons_of_mem l)

/-- Elements that are put into rows in their order are in the same order in the rows and before. -/
theorem filter_flatten_eq {items : List α} (perm : rows.flatten.Perm items)
    (inOrder : ∀ l ∈ rows, l.Sublist items)
    (same : ∀ l ∈ rows, ∀ a ∈ l, ∀ b ∈ l, row a = row b)
    (above : rows.Pairwise fun upper lower => ∀ a ∈ upper, ∀ b ∈ lower, row a < row b) (n : Nat) :
    rows.flatten.filter (row · == n) = items.filter (row · == n) := by
  have within : (rows.flatten.filter (row · == n)).Sublist items := by
    rcases filter_flatten_rows same above n with nothing | found
    · rw [nothing]
      exact List.nil_sublist _
    · exact inOrder _ found
  have kept := within.filter (row · == n)
  simp only [List.filter_filter, Bool.and_self] at kept
  exact kept.eq_of_length (perm.filter _).length_eq

end Rows

/-! ### Pieces on one line and on different lines -/

namespace PlacedText

variable {K : Type} [ExactScalar K] {tolerance : K} {s t : PlacedText K}

theorem sameLine_comm (tolerance : K) (s t : PlacedText K) :
    sameLine tolerance s t = sameLine tolerance t s := by
  simp only [sameLine, ExactScalar.abs_eq, abs_sub_comm t.adjustedY]
  exact Bool.or_right_comm ..

theorem readingOrder_of_direction (direction : s.direction = t.direction) :
    readingOrder tolerance s t =
      if sameLine tolerance s t then compare s.adjustedX t.adjustedX
      else if s.adjustedY < t.adjustedY then .lt
      else .gt := by
  have self : compare t.direction t.direction = .eq := Std.ReflCmp.compare_self
  rw [readingOrder, direction, self, Ordering.then, ExactScalar.totalCompare_eq]

/-- Pieces on one line are read from left to right. -/
theorem readingOrder_of_sameLine (direction : s.direction = t.direction)
    (together : sameLine tolerance s t) :
    readingOrder tolerance s t = compare s.adjustedX t.adjustedX := by
  rw [readingOrder_of_direction direction, if_pos together]

/-- Of two pieces on different lines the upper one is read first. -/
theorem readingOrder_of_above (direction : s.direction = t.direction)
    (apart : ¬sameLine tolerance s t) (above : s.adjustedY < t.adjustedY) :
    readingOrder tolerance s t = .lt ∧ readingOrder tolerance t s = .gt := by
  rw [readingOrder_of_direction direction, readingOrder_of_direction direction.symm,
    sameLine_comm tolerance t, if_neg apart, if_neg apart, if_pos above, if_neg above.not_gt]
  exact ⟨rfl, rfl⟩

end PlacedText

/-! ### Text in lines -/

namespace TextPosition

variable {K σ : Type} [ExactScalar K] {tolerance : K} {positions : List (TextPosition K σ)}
  {lines : List (List (TextPosition K σ))}

/-- The pieces, which run in one direction, stand in lines from the top, in any order. Two pieces
are on one line just where the comparison says so, and each baseline of a line is above those of
later ones. -/
structure InLines (tolerance : K) (positions : List (TextPosition K σ))
    (lines : List (List (TextPosition K σ))) : Prop where
  perm : lines.flatten.Perm positions
  inOrder : ∀ line ∈ lines, line.Sublist positions
  nonempty : ∀ line ∈ lines, line ≠ []
  direction : ∃ degrees, ∀ t ∈ positions, t.direction = degrees
  together : ∀ line ∈ lines, line.Pairwise fun s t =>
    PlacedText.sameLine tolerance s.toPlacedText t.toPlacedText
  apart : lines.Pairwise fun upper lower => ∀ s ∈ upper, ∀ t ∈ lower,
    ¬PlacedText.sameLine tolerance s.toPlacedText t.toPlacedText ∧ s.adjustedY < t.adjustedY

/-- The pieces of a line from left to right, those that start at one place in the given order. -/
structure Along (line sorted : List (TextPosition K σ)) : Prop where
  perm : sorted.Perm line
  inOrder : sorted.Pairwise fun s t => s.adjustedX ≤ t.adjustedX
  ties : ∀ s ∈ line, sorted.filter (fun t => t.adjustedX = s.adjustedX) =
    line.filter (fun t => t.adjustedX = s.adjustedX)

/-- Which of two pieces starts further to the left. -/
def compareX : TextPosition K σ → TextPosition K σ → Ordering := compareOn fun t => t.adjustedX

instance : Std.TransCmp (compareX (K := K) (σ := σ)) := inferInstanceAs (Std.TransCmp (compareOn _))

theorem compareX_beq_eq (s t : TextPosition K σ) :
    (compareX s t == .eq) = decide (t.adjustedX = s.adjustedX) := by
  rw [Bool.eq_iff_iff, beq_iff_eq, decide_eq_true_iff, compareX, compareOn, compare_eq_iff_eq, eq_comm]

theorem isLE_compareX {s t : TextPosition K σ} :
    (compareX s t).isLE ↔ s.adjustedX ≤ t.adjustedX := by
  rw [compareX, compareOn]
  exact Std.LawfulBCmp.isLE_iff_le

theorem along_sortBy (line : List (TextPosition K σ)) : Along line (sortBy compareX line) where
  perm := sortBy_perm compareX line
  inOrder := (pairwise_sortBy line).imp fun inOrder => isLE_compareX.mp inOrder
  ties s _ := by
    have kept : (sortBy compareX line).filter (compareX s · == .eq) =
        line.filter (compareX s · == .eq) := filter_sortBy line s
    simpa only [compareX_beq_eq] using kept

/-- Compares the numbers of lines first, and then along the line. -/
def compareRows (row : TextPosition K σ → Nat) : TextPosition K σ → TextPosition K σ → Ordering :=
  compareLex (compareOn row) compareX

instance (row : TextPosition K σ → Nat) : Std.TransCmp (compareRows row) :=
  inferInstanceAs (Std.TransCmp (compareLex (compareOn row) (compareOn _)))

section Rows

variable {row : TextPosition K σ → Nat} {s t : TextPosition K σ}

theorem compareRows_of_eq (same : row s = row t) : compareRows row s t = compareX s t := by
  rw [compareRows, compareLex, compareOn, compare_eq_iff_eq.mpr same, Ordering.then]

theorem compareRows_of_lt (above : row s < row t) :
    compareRows row s t = .lt ∧ compareRows row t s = .gt := by
  rw [compareRows, compareLex, compareLex, compareOn, compareOn, compare_lt_iff_lt.mpr above,
    compare_gt_iff_gt.mpr above]
  exact ⟨rfl, rfl⟩

/-- What compares equal to a piece is on its line and at the same distance from the left. -/
theorem filter_compareRows (s : TextPosition K σ) (pieces : List (TextPosition K σ)) :
    pieces.filter (compareRows row s · == .eq) =
      (pieces.filter (compareX s · == .eq)).filter (row · == row s) := by
  rw [List.filter_filter]
  congr 1
  funext t
  rcases lt_trichotomy (row s) (row t) with above | same | below
  · simp [compareRows_of_lt above, above.ne']
  · simp [compareRows_of_eq same, same]
  · simp [compareRows_of_lt below, below.ne]

/-- Lines that are each sorted along themselves are in the order of rows. -/
theorem pairwise_sorted_rows (same : ∀ line ∈ lines, ∀ s ∈ line, ∀ t ∈ line, row s = row t)
    (above : lines.Pairwise fun upper lower => ∀ s ∈ upper, ∀ t ∈ lower, row s < row t) :
    (lines.map (sortBy compareX)).flatten.Pairwise fun s t => (compareRows row s t).isLE := by
  refine List.pairwise_flatten.mpr ⟨fun sorted among => ?_, List.pairwise_map.mpr ?_⟩
  · obtain ⟨line, among', rfl⟩ := List.mem_map.mp among
    refine (pairwise_sortBy line).imp_of_mem fun {s t} inside inside' inOrder => ?_
    rwa [compareRows_of_eq (same line among' s (mem_sortBy.mp inside) t (mem_sortBy.mp inside'))]
  · refine above.imp fun below s inside t inside' => ?_
    rw [(compareRows_of_lt (below s (mem_sortBy.mp inside) t (mem_sortBy.mp inside'))).1]
    rfl

theorem filter_sorted_rows (lines : List (List (TextPosition K σ))) (s : TextPosition K σ) :
    (lines.map (sortBy compareX)).flatten.filter (compareX s · == .eq) =
      lines.flatten.filter (compareX s · == .eq) := by
  induction lines with
  | nil => rfl
  | cons line lines ih =>
      rw [List.map_cons, List.flatten_cons, List.flatten_cons, List.filter_append,
        List.filter_append, filter_sortBy, ih]

end Rows

namespace InLines

theorem disjoint (inLines : InLines tolerance positions lines) : lines.Pairwise List.Disjoint :=
  inLines.apart.imp fun apart s inside inside' => lt_irrefl _ (apart s inside s inside').2

theorem direction_eq (inLines : InLines tolerance positions lines)
    {line line' : List (TextPosition K σ)} (among : line ∈ lines) (among' : line' ∈ lines)
    {s t : TextPosition K σ} (inside : s ∈ line) (inside' : t ∈ line') :
    s.direction = t.direction := by
  obtain ⟨degrees, direction⟩ := inLines.direction
  rw [direction s ((inLines.inOrder line among).subset inside),
    direction t ((inLines.inOrder line' among').subset inside')]

/-- Reading order compares pieces like rows do. -/
theorem readingOrder_eq (inLines : InLines tolerance positions lines)
    {row : TextPosition K σ → Nat}
    (same : ∀ line ∈ lines, ∀ s ∈ line, ∀ t ∈ line, row s = row t)
    (above : lines.Pairwise fun upper lower => ∀ s ∈ upper, ∀ t ∈ lower, row s < row t) :
    positions.Pairwise fun s t =>
      PlacedText.readingOrder tolerance t.toPlacedText s.toPlacedText = compareRows row t s := by
  let Agree (s t : TextPosition K σ) : Prop :=
    PlacedText.readingOrder tolerance s.toPlacedText t.toPlacedText = compareRows row s t
  have both : positions.Pairwise fun s t => Agree s t ∧ Agree t s := by
    refine (inLines.perm.pairwise_iff fun agree => agree.symm).mp ?_
    refine List.pairwise_flatten.mpr ⟨fun line among => ?_, ?_⟩
    · refine (inLines.together line among).imp_of_mem fun {s t} inside inside' together => ?_
      have direction := inLines.direction_eq among among inside inside'
      have row := same line among s inside t inside'
      constructor
      · exact (PlacedText.readingOrder_of_sameLine direction together).trans
          (compareRows_of_eq row).symm
      · rw [PlacedText.sameLine_comm] at together
        exact (PlacedText.readingOrder_of_sameLine direction.symm together).trans
          (compareRows_of_eq row.symm).symm
    · refine (inLines.apart.and above).imp_of_mem fun among among' below s inside t inside' => ?_
      have direction := inLines.direction_eq among among' inside inside'
      obtain ⟨apart, higher⟩ := below.1 s inside t inside'
      obtain ⟨first, last⟩ := PlacedText.readingOrder_of_above direction apart higher
      obtain ⟨first', last'⟩ := compareRows_of_lt (below.2 s inside t inside')
      exact ⟨first.trans first'.symm, last.trans last'.symm⟩
  exact both.imp fun agree => agree.2

/-- The lines from the top, each sorted along itself. -/
theorem inReadingOrder_eq (inLines : InLines tolerance positions lines) :
    inReadingOrder tolerance positions = (lines.map (sortBy compareX)).flatten := by
  obtain ⟨row, same, above⟩ := exists_row inLines.disjoint
  rw [inReadingOrder, sortBy_congr (inLines.readingOrder_eq same above)]
  refine eq_of_filter_same (pairwise_sortBy positions) (pairwise_sorted_rows same above) fun s => ?_
  have order := filter_flatten_eq inLines.perm inLines.inOrder same above (row s)
  rw [filter_sortBy, filter_compareRows, filter_compareRows, filter_sorted_rows,
    List.filter_comm, ← order, List.filter_comm]

end InLines

/-- On a page whose lines are separate, reading order is line by line from the top, and within each
line from left to right, pieces that start at one place in the given order. The text has a line
break just between the lines. -/
theorem inReadingOrder_of_inLines (inLines : InLines tolerance positions lines) :
    ∃ sorted : List (List (TextPosition K σ)), List.Forall₂ Along lines sorted ∧
      inReadingOrder tolerance positions = sorted.flatten ∧
      Separated ["\n"] (sorted.map (joinText tolerance))
        (joinText tolerance (inReadingOrder tolerance positions)) ∧
      ∀ line ∈ sorted, Separated ["", " "] (line.map fun t => t.text) (joinText tolerance line) := by
  have order := inLines.inReadingOrder_eq
  refine ⟨lines.map (sortBy compareX), ?_, order, ?_, fun sorted among => ?_⟩
  · exact List.forall₂_map_right_iff.mpr (List.forall₂_same.mpr fun line _ => along_sortBy line)
  · rw [order]
    refine separated_joinText_flatten ?_ (List.pairwise_map.mpr ?_)
    · intro sorted among
      obtain ⟨line, among', rfl⟩ := List.mem_map.mp among
      exact fun empty => inLines.nonempty line among' (sortBy_eq_nil_iff.mp empty)
    · refine inLines.apart.imp fun apart s inside t inside' => ?_
      exact PlacedText.separator_of_not_sameLine
        (apart s (mem_sortBy.mp inside) t (mem_sortBy.mp inside')).1
  · obtain ⟨line, among', rfl⟩ := List.mem_map.mp among
    have together := ((sortBy_perm compareX line).pairwise_iff fun {s t} together => by
      rwa [PlacedText.sameLine_comm]).mpr (inLines.together line among')
    refine separated_joinText (together.imp_of_mem fun inside inside' together => ?_)
    exact PlacedText.separator_of_sameLine
      (inLines.direction_eq among' among' (mem_sortBy.mp inside) (mem_sortBy.mp inside')) together

/-- Two lines in the order in which they were shown: a piece of the lower one, the upper one with its
first two pieces exchanged, and a second piece at the place of the first one. -/
theorem inReadingOrder_of_inLines_shuffled :
    let piece (text : String) (x y : Int) : TextPosition Int Unit := ofPlaced {
      text, matrix := ⟨10, 0, 0, 10, x, y⟩, stop := ⟨x + 5, y⟩, height := 7, spaceWidth := 2,
      pageWidth := 612, pageHeight := 792, pageRotation := 0 }
    let a := piece "a" 10 700
    let b := piece "b" 20 700
    let c := piece "c" 30 701
    let d := piece "d" 10 680
    let e := piece "e" 10 680
    InLines 1 [d, b, a, c, e] [[b, a, c], [d, e]] ∧
      ∃ sorted, List.Forall₂ Along [[b, a, c], [d, e]] sorted ∧
        inReadingOrder 1 [d, b, a, c, e] = sorted.flatten ∧
        Separated ["\n"] (sorted.map (joinText 1)) (joinText 1 (inReadingOrder 1 [d, b, a, c, e])) ∧
        ∀ line ∈ sorted, Separated ["", " "] (line.map fun t => t.text) (joinText 1 line) := by
  intro piece a b c d e
  have inLines : InLines 1 [d, b, a, c, e] [[b, a, c], [d, e]] := {
    perm := List.perm_middle
    inOrder := by
      simp only [List.forall_mem_cons, List.not_mem_nil, false_imp_iff, implies_true, and_true]
      exact ⟨.cons _ (.cons_cons _ (.cons_cons _ (.cons_cons _ (.cons _ .slnil)))),
        .cons_cons _ (.cons _ (.cons _ (.cons _ (.cons_cons _ .slnil))))⟩
    nonempty := by simp
    direction := ⟨0, by simp only [List.forall_mem_cons]; decide⟩
    together := by
      simp only [List.forall_mem_cons, List.pairwise_cons]
      decide
    apart := by
      simp only [List.forall_mem_cons, List.pairwise_cons]
      decide }
  exact ⟨inLines, inReadingOrder_of_inLines inLines⟩

end TextPosition

end PdfContent
