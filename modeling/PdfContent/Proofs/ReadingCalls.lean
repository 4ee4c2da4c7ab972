import PdfContent.Proofs.ReadingLoops

/-!
# Reading call by call

A `Reader` is called for one token after another, and remembers where it is and whether it has
failed. Its calls give the tokens of the content in order, then the error that ended them if there
is one, and then nothing. Each token takes it further on, so that there are no more tokens than
bytes.
-/

namespace PdfContent

variable {K : Type}

namespace Content

namespace TokenStream

/-- What reading gives call by call: the tokens and the error that ended them, each with the number
of bytes that are left after it. -/
def items (t : TokenStream K) (size : Nat) : List (Except ContentError (Token K) × Nat) :=
  t.tokens.map (fun read => (.ok read.1, read.2)) ++
    t.fault.toList.map fun fault => (.error (fault.error size), fault.stopLeft)

/-- What there is to give comes to a token first, then to the error at the end, then to nothing. -/
theorem items_cases (t : TokenStream K) (size n : Nat) :
    (n < t.tokens.length ∧ ∃ token left, (t.items size)[n]? = some (.ok token, left)) ∨
      (n = t.tokens.length ∧ (t.items size).length = n + 1 ∧
        ∃ e left, (t.items size)[n]? = some (.error e, left)) ∨
      (t.tokens.length ≤ n ∧ (t.items size).length ≤ n) := by
  obtain ⟨tokens, fault⟩ := t
  by_cases early : n < tokens.length
  · refine .inl ⟨early, ?_⟩
    simp [items, List.getElem?_append_left, early]
  cases fault with
  | none =>
      refine .inr (.inr ⟨Nat.le_of_not_lt early, ?_⟩)
      simpa [items] using early
  | some fault =>
      by_cases last : n = tokens.length
      · refine .inr (.inl ⟨last, ?_⟩)
        simp [items, last]
      · refine .inr (.inr ⟨Nat.le_of_not_lt early, ?_⟩)
        simp only [items, List.length_append, List.length_map, Option.toList_some,
          List.length_singleton]
        omega

variable [Scalar K] {s : Bytes}

theorem ofBytes_of_fault {fault : Fault} (read : Content.next (K := K) s = .error fault) :
    ofBytes (K := K) s = ⟨[], some fault⟩ := by
  rw [ofBytes.eq_def]
  split
  next read' => cases read'.symm.trans read; rfl
  next read' => cases read'.symm.trans read
  next read' => cases read'.symm.trans read

theorem items_of_token {token : Token K} {after : Bytes}
    (read : Content.next s = .ok (some (token, after))) (size : Nat) :
    (ofBytes (K := K) s).items size = (.ok token, after.length) :: (ofBytes after).items size := by
  rw [ofBytes_of_token read]
  rfl

/-- Every token has a byte of its own. -/
theorem length_values_le (s : Bytes) : (ofBytes (K := K) s).values.length ≤ s.length := by
  induction size : s.length using Nat.strongRecOn generalizing s with
  | ind n ih =>
  cases read : Content.next (K := K) s with
  | error fault =>
      rw [ofBytes_of_fault read]
      exact Nat.zero_le _
  | ok result =>
      cases result with
      | none =>
          rw [ofBytes_of_nothing read]
          exact Nat.zero_le _
      | some next =>
          obtain ⟨token, after⟩ := next
          have shorter := length_of_next read
          have later := ih _ (size ▸ shorter) after rfl
          rw [ofBytes_of_token read]
          simp only [values, List.map_cons, List.length_cons, List.length_map] at later ⊢
          omega

end TokenStream

/-- Content that is read call by call: where reading is, and whether a fault has ended it. -/
structure Reader where
  input : Bytes
  position : Nat
  failed : Bool

namespace Reader

variable [Scalar K]

def ofBytes (input : Bytes) : Reader := ⟨input, 0, false⟩

def left (r : Reader) : Bytes := r.input.drop r.position

/-- The reader where some number of bytes is left. -/
def moveTo (r : Reader) (left : Nat) : Reader := { r with position := r.input.length - left }

/-- One call: the next token or the error that ends reading, and nothing at the end. -/
def next (r : Reader) : Option (Except ContentError (Token K)) × Reader :=
  if r.failed then (none, r)
  else
    match Content.next (K := K) r.left with
    | .ok none => (none, r.moveTo 0)
    | .ok (some (token, after)) => (some (.ok token), r.moveTo after.length)
    | .error fault =>
      (some (.error (fault.error r.input.length)), { r.moveTo fault.stopLeft with failed := true })

/-- The reader after a number of calls. -/
def after (K : Type) [Scalar K] (r : Reader) : Nat → Reader
  | 0 => r
  | n + 1 => ((r.next (K := K)).2).after K n

/-- What the call after a number of calls gives. -/
def call (K : Type) [Scalar K] (r : Reader) (n : Nat) : Option (Except ContentError (Token K)) :=
  (r.after K n).next.1

/-- The reader gives nothing any more. -/
def Exhausted (r : Reader) : Prop := r.failed ∨ r.left = []

/-- Reading has not gone beyond the end. -/
def Within (r : Reader) : Prop := r.position ≤ r.input.length

variable {r : Reader}

theorem length_left (r : Reader) : r.left.length = r.input.length - r.position :=
  List.length_drop ..

theorem left_moveTo {rest : Bytes} (suffix : rest <:+ r.left) :
    (r.moveTo rest.length).left = rest := by
  have within : rest <:+ r.input := suffix.trans (List.drop_suffix _ _)
  exact (List.suffix_iff_eq_drop.mp within).symm

theorem Within.moveTo (r : Reader) (left : Nat) : (r.moveTo left).Within := Nat.sub_le _ _

theorem next_of_exhausted (exhausted : r.Exhausted) :
    (r.next (K := K)).1 = none ∧ (r.next (K := K)).2.Exhausted := by
  unfold next
  split
  next failed => exact ⟨rfl, .inl failed⟩
  next open_ =>
    have nothing : r.left = [] := exhausted.resolve_left open_
    rw [nothing, next_of_nothing skipBlank.eq_1]
    exact ⟨rfl, .inr (left_moveTo List.nil_suffix)⟩

/-- Once there is nothing more, every later call gives nothing. -/
theorem call_of_exhausted (exhausted : r.Exhausted) (n : Nat) : r.call K n = none := by
  induction n generalizing r with
  | zero => exact (next_of_exhausted exhausted).1
  | succ n ih => exact ih (next_of_exhausted (K := K) exhausted).2

/-- A call takes reading on, and further on if it gives a token. -/
theorem position_next (within : r.Within) :
    (r.next (K := K)).2.Within ∧ r.position ≤ (r.next (K := K)).2.position ∧
      ∀ token, (r.next (K := K)).1 = some (.ok token) →
        r.position < (r.next (K := K)).2.position := by
  have stops := next_stops (K := K) r.left
  have size := r.length_left
  unfold Within at within
  unfold next
  split
  · refine ⟨within, Nat.le_refl _, fun token given => ?_⟩
    cases given
  split
  next =>
    refine ⟨.moveTo _ _, ?_, fun token given => ?_⟩
    · simp only [moveTo]
      omega
    · cases given
  next token after read =>
    rw [read] at stops
    have shorter : after.length < r.left.length := stops.shorter
    refine ⟨.moveTo _ _, ?_, fun _ _ => ?_⟩ <;> simp only [moveTo] <;> omega
  next fault read =>
    rw [read] at stops
    have stopsWithin : fault.stopLeft ≤ r.left.length := stops
    refine ⟨Within.moveTo r fault.stopLeft, ?_, fun token given => ?_⟩
    · simp only [moveTo]
      omega
    · cases given

theorem input_next (r : Reader) : (r.next (K := K)).2.input = r.input := by
  unfold next
  split
  · rfl
  split <;> rfl

theorem input_after (r : Reader) (n : Nat) : (r.after K n).input = r.input := by
  induction n generalizing r with
  | zero => rfl
  | succ n ih => exact (ih _).trans (input_next r)

omit [Scalar K] in
theorem within_ofBytes (input : Bytes) : (ofBytes input).Within := Nat.zero_le _

theorem within_after (within : r.Within) (n : Nat) : (r.after K n).Within := by
  induction n generalizing r with
  | zero => exact within
  | succ n ih => exact ih (position_next within).1

theorem after_succ (r : Reader) (n : Nat) :
    r.after K (n + 1) = ((r.after K n).next (K := K)).2 := by
  induction n generalizing r with
  | zero => rfl
  | succ n ih => exact ih _

/-! Of the first call and of the ones after it, as long as no fault has ended reading. -/

section Open

variable (open_ : r.failed = false)

include open_

theorem next_of_end (read : Content.next (K := K) r.left = .ok none) :
    r.next (K := K) = (none, r.moveTo 0) := by
  rw [next, if_neg (by simp [open_]), read]

theorem next_of_token {token : Token K} {rest : Bytes}
    (read : Content.next r.left = .ok (some (token, rest))) :
    r.next = (some (.ok token), r.moveTo rest.length) := by
  rw [next, if_neg (by simp [open_]), read]

theorem next_of_fault {fault : Fault} (read : Content.next (K := K) r.left = .error fault) :
    r.next (K := K) = (some (.error (fault.error r.input.length)),
      { r.moveTo fault.stopLeft with failed := true }) := by
  rw [next, if_neg (by simp [open_]), read]

/-- Each call gives what there is to give and leaves reading after it, and then there is nothing. -/
theorem call_follows (n : Nat) :
    match ((TokenStream.ofBytes (K := K) r.left).items r.input.length)[n]? with
    | some (item, left) =>
      r.call K n = some item ∧ (r.after K (n + 1)).position = r.input.length - left
    | none => r.call K n = none := by
  have later (n : Nat) : r.call K (n + 1) = (r.next (K := K)).2.call K n ∧
      r.after K (n + 1) = (r.next (K := K)).2.after K n := ⟨rfl, rfl⟩
  induction n generalizing r with
  | zero =>
      rw [(later 0).2, after, call, after]
      cases read : Content.next (K := K) r.left with
      | error fault =>
          rw [next_of_fault open_ read, TokenStream.ofBytes_of_fault read]
          exact ⟨rfl, rfl⟩
      | ok result =>
          cases result with
          | none =>
              rw [next_of_end open_ read, TokenStream.ofBytes_of_nothing read]
              rfl
          | some next =>
              rw [next_of_token open_ read, TokenStream.items_of_token read]
              exact ⟨rfl, rfl⟩
  | succ n ih =>
      rw [(later n).1, (later (n + 1)).2]
      cases read : Content.next (K := K) r.left with
      | error fault =>
          rw [next_of_fault open_ read, TokenStream.ofBytes_of_fault read]
          exact call_of_exhausted (.inl rfl) n
      | ok result =>
          cases result with
          | none =>
              rw [next_of_end open_ read, TokenStream.ofBytes_of_nothing read]
              exact call_of_exhausted (.inr (left_moveTo List.nil_suffix)) n
          | some next =>
              obtain ⟨token, rest⟩ := next
              have stops := next_stops (K := K) r.left
              rw [read] at stops
              have ahead : Ahead r.left rest := stops
              have rest_items := ih (r := r.moveTo rest.length) open_ fun _ => ⟨rfl, rfl⟩
              rw [left_moveTo ahead.suffix] at rest_items
              rw [next_of_token open_ read, TokenStream.items_of_token read]
              exact rest_items

end Open

/-- What reading content call by call comes to. -/
structure Completes (K : Type) [Scalar K] (input : Bytes) : Prop where
  /-- The calls give the tokens in order and then the error that ends them, if there is one. -/
  given : ∀ n item left,
    ((TokenStream.ofBytes (K := K) input).items input.length)[n]? = some (item, left) →
    (ofBytes input).call K n = some item ∧
      ((ofBytes input).after K (n + 1)).position = input.length - left
  /-- Then they give nothing. -/
  nothing : ∀ n, ((TokenStream.ofBytes (K := K) input).items input.length).length ≤ n →
    (ofBytes input).call K n = none
  within : ∀ n, ((ofBytes input).after K n).position ≤ input.length
  onward : ∀ n, ((ofBytes input).after K n).position ≤ ((ofBytes input).after K (n + 1)).position
  /-- A call that gives a token takes reading further on. -/
  forward : ∀ n token, (ofBytes input).call K n = some (.ok token) →
    ((ofBytes input).after K n).position < ((ofBytes input).after K (n + 1)).position
  few : (TokenStream.ofBytes (K := K) input).values.length ≤ input.length
  /-- Some call gives no token, and no call after one that gives none gives anything. -/
  ends : ∃ n ≤ input.length, ∀ token, (ofBytes input).call K n ≠ some (.ok token)
  settled : ∀ n, (∀ token, (ofBytes input).call K n ≠ some (.ok token)) →
    ∀ later, n < later → (ofBytes input).call K later = none

theorem call_eq (input : Bytes) (n : Nat) :
    (ofBytes input).call K n =
      (((TokenStream.ofBytes (K := K) input).items input.length)[n]?).map Prod.fst := by
  have follows := call_follows (K := K) (r := ofBytes input) rfl n
  split at follows
  next found => exact follows.1.trans (congrArg (Option.map Prod.fst) found).symm
  next found => exact follows.trans (congrArg (Option.map Prod.fst) found).symm

theorem completes (input : Bytes) : Completes K input where
  given n item left found := by
    have follows := call_follows (K := K) (r := ofBytes input) rfl n
    split at follows
    next found' =>
      cases found'.symm.trans found
      exact follows
    next found' => cases found'.symm.trans found
  nothing n late := by
    rw [call_eq, List.getElem?_eq_none late]
    rfl
  within n := by
    have within := within_after (K := K) (within_ofBytes input) n
    rwa [Within, input_after] at within
  onward n := by
    rw [after_succ]
    exact (position_next (within_after (within_ofBytes input) n)).2.1
  forward n token given := by
    rw [after_succ]
    exact (position_next (within_after (within_ofBytes input) n)).2.2 token given
  few := TokenStream.length_values_le input
  ends := by
    have few := TokenStream.length_values_le (K := K) input
    rw [TokenStream.values, List.length_map] at few
    refine ⟨_, few, fun token given => ?_⟩
    rw [call_eq] at given
    rcases (TokenStream.ofBytes (K := K) input).items_cases input.length _ with
      ⟨early, _⟩ | ⟨_, _, e, left, found⟩ | ⟨_, late⟩
    · exact Nat.lt_irrefl _ early
    · rw [found] at given
      cases given
    · rw [List.getElem?_eq_none late] at given
      cases given
  settled n last later further := by
    rw [call_eq] at last ⊢
    have late : ((TokenStream.ofBytes (K := K) input).items input.length).length ≤ later := by
      rcases (TokenStream.ofBytes (K := K) input).items_cases input.length n with
        ⟨_, token, left, found⟩ | ⟨_, length, _⟩ | ⟨_, late⟩
      · exact absurd (congrArg (Option.map Prod.fst) found) (last token)
      · omega
      · omega
    rw [List.getElem?_eq_none late]
    rfl

end Reader

/-- Reading content call by call comes to its end, since every loop takes something off in each
turn, whatever the bytes are. -/
theorem reading_progresses [Scalar K] (input : Bytes) : LoopsAdvance K ∧ Reader.Completes K input :=
  ⟨loopsAdvance, Reader.completes input⟩

end Content

end PdfContent
