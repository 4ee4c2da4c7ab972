import PdfContent.Content.Bytes

/-!
# Access by index

A list can be read by index and in slices. An access outside of the list is an error here, so that
what is read by index says in its result whether it has stayed within bounds.

`At` relates a place in bytes to what stands there up to the end. It takes a reader that counts
positions to one that takes bytes off the front of what is left.
-/

namespace PdfContent

variable {α : Type}

/-- An access outside of a list: what was asked for, and how long the list is. -/
structure OutOfRange where
  start : Nat
  stop : Nat
  length : Nat
  deriving DecidableEq, Repr

/-- The element at an index. -/
def elementAt (items : List α) (index : Nat) : Except OutOfRange α :=
  match items[index]? with
  | some a => .ok a
  | none => .error ⟨index, index + 1, items.length⟩

/-- The element in front of an index. -/
def elementBefore (items : List α) : (index : Nat) → Except OutOfRange α
  | 0 => .error ⟨0, 0, items.length⟩
  | index + 1 => elementAt items index

/-- The elements from `start` up to `stop`. -/
def slice (items : List α) (start stop : Nat) : Except OutOfRange (List α) :=
  if start ≤ stop ∧ stop ≤ items.length then .ok ((items.take stop).drop start)
  else .error ⟨start, stop, items.length⟩

theorem elementAt_of_getElem? {items : List α} {index : Nat} {a : α}
    (there : items[index]? = some a) : elementAt items index = .ok a := by
  rw [elementAt, there]

theorem slice_of_le {items : List α} {start stop : Nat} (ordered : start ≤ stop)
    (within : stop ≤ items.length) :
    slice items start stop = .ok ((items.take stop).drop start) := by
  rw [slice, if_pos ⟨ordered, within⟩]

theorem slice_take {items : List α} {stop : Nat} (within : stop ≤ items.length) :
    slice items 0 stop = .ok (items.take stop) := slice_of_le (Nat.zero_le _) within

theorem slice_drop {items : List α} {start : Nat} (within : start ≤ items.length) :
    slice items start items.length = .ok (items.drop start) := by
  rw [slice_of_le within (Nat.le_refl _), List.take_length]

theorem length_of_slice {items part : List α} {start stop : Nat}
    (cut : slice items start stop = .ok part) : part.length = stop - start := by
  rw [slice] at cut
  split at cut
  next within =>
    cases cut
    rw [List.length_drop, List.length_take, Nat.min_eq_left within.2]
  next => cases cut

/-- A place in bytes, and what stands there up to the end. -/
structure At (s : Bytes) (pos : Nat) (rest : Bytes) : Prop where
  le : pos ≤ s.length
  drop : s.drop pos = rest

namespace At

variable {s rest : Bytes} {pos : Nat} {b : UInt8}

theorem start (s : Bytes) : At s 0 s := ⟨Nat.zero_le _, rfl⟩

theorem length (here : At s pos rest) : pos + rest.length = s.length := by
  obtain ⟨le, rfl⟩ := here
  rw [List.length_drop]
  omega

/-- What is left says how far a place is from the end. -/
theorem left (here : At s pos rest) : s.length - pos = rest.length := by
  have := here.length
  omega

theorem get (here : At s pos (b :: rest)) : s[pos]? = some b := by
  rw [← List.head?_drop, here.drop]
  rfl

theorem get_nil (here : At s pos []) : s[pos]? = none := by
  rw [← List.head?_drop, here.drop]
  rfl

theorem get? (here : At s pos rest) : s[pos]? = rest.head? := by
  rw [← List.head?_drop, here.drop]

theorem skip (here : At s pos rest) {n : Nat} (within : n ≤ rest.length) :
    At s (pos + n) (rest.drop n) := by
  have := here.length
  refine ⟨by omega, ?_⟩
  rw [← here.drop, List.drop_drop]

theorem next (here : At s pos (b :: rest)) : At s (pos + 1) rest :=
  here.skip (n := 1) (Nat.le_add_left 1 _)

theorem elementAt (here : At s pos (b :: rest)) : elementAt s pos = .ok b :=
  elementAt_of_getElem? here.get

theorem slice (here : At s pos rest) {n : Nat} (within : n ≤ rest.length) :
    slice s pos (pos + n) = .ok (rest.take n) := by
  have := here.length
  rw [slice_of_le (by omega) (by omega), List.drop_take, here.drop, Nat.add_sub_cancel_left]

/-- All bytes from a place on. -/
theorem slice_all (here : At s pos rest) : PdfContent.slice s pos s.length = .ok rest := by
  have all := here.slice (Nat.le_refl rest.length)
  rwa [here.length, List.take_length] at all

theorem pos_lt (here : At s pos (b :: rest)) : pos < s.length := by
  have := here.length
  simp only [List.length_cons] at this
  omega

theorem of_get (there : s[pos]? = some b) : At s pos (b :: s.drop (pos + 1)) := by
  obtain ⟨within, rfl⟩ := List.getElem?_eq_some_iff.mp there
  exact ⟨Nat.le_of_lt within, List.drop_eq_getElem_cons within⟩

theorem le_of_length_le {next : Nat} {after : Bytes} (here : At s pos rest)
    (there : At s next after) (shorter : after.length ≤ rest.length) : pos ≤ next := by
  have := here.length
  have := there.length
  omega

/-- With fewer bytes left a place is further on. -/
theorem lt_of_length_lt {next : Nat} {after : Bytes} (here : At s pos rest)
    (there : At s next after) (shorter : after.length < rest.length) : pos < next := by
  have := here.length
  have := there.length
  omega

end At

end PdfContent
