import PdfContent.Proofs.IndexedReading

/-!
# Values by index

Values are read with a cursor as `Content.operand` reads them: one step after another, with a list
of the containers that are open. A step by index agrees with `Content.step`. How far that one comes
is known, and so the steps by index take the cursor further on and the loop around them ends.
-/

-- The equations that matches are given below serve their termination proofs.
set_option linter.unusedVariables false

namespace PdfContent.Content

variable {K : Type}

/-- Where a step of the value reader leads: on with the containers that are open, or to a value. -/
inductive Reached (K : Type)
  | next (stack : List (Container K))
  | done (value : Option (Operand K))

/-- Hands a value, or the absence of one, to the innermost container. -/
def handOver (value : Option (Operand K)) : List (Container K) → Reached K
  | [] => .done value
  | .array startLeft items :: outer => .next (.array startLeft (items ++ value.toList) :: outer)
  | .dictionary startLeft entries :: outer => .next (.dictionary startLeft entries :: outer)
  | .entry startLeft entries key :: outer =>
    .next (.dictionary startLeft (value.elim entries (entries.insert key)) :: outer)

/-- What a step gives, with what it leaves. -/
def Step.reached : Step K → Except Fault (Reached K × Bytes)
  | .next stack rest => .ok (.next stack, rest)
  | .done value rest => .ok (.done value, rest)
  | .fail fault => .error fault

theorem reached_supply (value : Option (Operand K)) (stack : List (Container K)) (rest : Bytes) :
    (supply value stack rest).reached = .ok (handOver value stack, rest) := by
  match stack with
  | [] => rfl
  | .array startLeft items :: outer => rfl
  | .dictionary startLeft entries :: outer => rfl
  | .entry startLeft entries key :: outer => cases value <;> rfl

theorem rest_of_reached {step : Step K} {reached : Reached K} {rest : Bytes}
    (same : step.reached = .ok (reached, rest)) : step.rest = rest := by
  cases step <;> cases same <;> rfl

namespace Indexed

variable (s : Bytes) [Scalar K]

/-! ### Values -/

/-- What starts at the cursor, where byte `b` is and a value may stand. -/
def item (stack : List (Container K)) (b : UInt8) (pos : Nat) : Except Halt (Reached K × Nat) :=
  if b == 0x28 then
    match literal? s 0 (pos + 1) with
    | some (value, after) => .ok (handOver (some (.literal value)) stack, after)
    | none => .error (.fault ⟨.literalString, s.length - pos, 0⟩)
  else if b == 0x3C then
    if s[pos + 1]? == some 0x3C then .ok (.next (.dictionary (s.length - pos) [] :: stack), pos + 2)
    else do
      let (value, after) ← hexString s (pos + 1)
      return (handOver (some (.hexadecimal value)) stack, after)
  else if b == 0x5B then .ok (.next (.array (s.length - pos) [] :: stack), pos + 1)
  else if b == 0x2F then do
    let (text, after) ← name s (pos + 1)
    return (handOver (some (.name text)) stack, after)
  else if startsNumber b then do
    let (value, after) ← number s pos
    return (handOver value stack, after)
  else if isRegular b then do
    let (text, after) ← word s pos
    return (handOver (some (constant (Text.decodeUtf8 text))) stack, after)
  else .ok (handOver none stack, pos + 1)

/-- One step at the cursor, where byte `b` is. -/
def step (stack : List (Container K)) (b : UInt8) (pos : Nat) : Except Halt (Reached K × Nat) :=
  match stack with
  | .array _ items :: outer =>
    if b == 0x5D then .ok (handOver (some (.array items)) outer, pos + 1) else item s stack b pos
  | .dictionary startLeft entries :: outer =>
    if b == 0x3E && s[pos + 1]? == some 0x3E then
      .ok (handOver (some (.dictionary entries)) outer, pos + 2)
    else if b == 0x2F then do
      let (key, after) ← name s (pos + 1)
      return (.next (.entry startLeft entries key :: outer), after)
    else item s stack b pos
  | _ => item s stack b pos

section

variable {s} {pos : Nat} {rest : Bytes} {b : UInt8}

/-- The word of a regular byte starts with it. -/
theorem word_eq_of_regular (regular : isRegular b) (here : At s pos (b :: rest)) :
    Agrees s (word s pos) (.ok (b :: Content.word rest, afterWord rest)) := by
  have read := word_eq here
  rwa [Content.word, afterWord, List.takeWhile_cons_of_pos regular,
    List.dropWhile_cons_of_pos regular] at read

theorem word_eq_of_not_regular (other : ¬isRegular b) (here : At s pos (b :: rest)) :
    Agrees s (word s pos) (.ok ([], b :: rest)) := by
  have read := word_eq here
  rwa [Content.word, afterWord, List.takeWhile_cons_of_neg other,
    List.dropWhile_cons_of_neg other] at read

theorem item_eq (stack : List (Container K)) (here : At s pos (b :: rest)) :
    Agrees s (item s stack b pos) (Content.item stack b rest).reached := by
  have left : s.length - pos = rest.length + 1 := here.left
  unfold item Content.item
  rw [left]
  split
  · have same := literal?_eq 0 here.next
    generalize literal? s 0 (pos + 1) = read, Content.literal? 0 rest = read' at same ⊢
    cases same with
    | none => exact .fault _
    | @some x y same =>
        obtain ⟨value, after⟩ := x
        obtain ⟨rfl, there⟩ := same
        simp only [reached_supply]
        exact .ok _ there
  split
  · rw [here.next.get?]
    split
    next twice =>
      obtain ⟨after, rfl⟩ := List.head?_eq_some_iff.mp (eq_of_beq twice)
      exact .ok _ here.next.next
    next once =>
      split
      next => exact absurd rfl once
      next =>
        rw [reached_supply]
        exact (hexString_eq here.next).map fun value => handOver (some (.hexadecimal value)) stack
  split
  · exact .ok _ here.next
  split
  · rw [reached_supply]
    exact (name_eq here.next).map fun text => handOver (some (.name text)) stack
  split
  · rw [reached_supply]
    exact (number_eq here).map fun value => handOver value stack
  split
  next regular =>
    rw [reached_supply]
    exact (word_eq_of_regular regular here).map fun text =>
      handOver (some (constant (Text.decodeUtf8 text))) stack
  · rw [reached_supply]
    exact .ok _ here.next

theorem step_eq (stack : List (Container K)) (here : At s pos (b :: rest)) :
    Agrees s (step s stack b pos) (Content.step stack b rest).reached := by
  match stack with
  | [] => exact item_eq [] here
  | .entry startLeft entries key :: outer => exact item_eq _ here
  | .array startLeft items :: outer =>
      rw [step, Content.step]
      split
      · rw [reached_supply]
        exact .ok _ here.next
      · exact item_eq _ here
  | .dictionary startLeft entries :: outer =>
      rw [step, Content.step, here.next.get?]
      split
      next closes =>
        rw [Bool.and_eq_true] at closes
        obtain ⟨after, rfl⟩ := List.head?_eq_some_iff.mp (eq_of_beq closes.2)
        rw [reached_supply]
        exact .ok _ here.next.next
      split
      · exact (name_eq here.next).map fun key =>
          Reached.next (.entry startLeft entries key :: outer : List (Container K))
      · exact item_eq _ here

/-- A step takes the cursor further on. -/
theorem lt_of_step {stack : List (Container K)} {reached : Reached K} {after : Nat}
    (there : s[pos]? = some b) (stepped : step s stack b pos = .ok (reached, after)) :
    pos < after := by
  have here := At.of_get there
  have agrees := step_eq stack here
  rw [stepped] at agrees
  generalize given : (Content.step stack b (s.drop (pos + 1))).reached = result at agrees
  cases agrees with
  | ok _ next =>
      have shorter := length_step_le stack b (s.drop (pos + 1))
      rw [rest_of_reached given] at shorter
      exact here.lt_of_length_lt next (Nat.lt_succ_of_le shorter)

end

/-- Reads one value: its operand, or nothing where something was passed over, and the place after
it. -/
def operand (stack : List (Container K)) (pos : Nat) : Except Halt (Option (Operand K) × Nat) :=
  match there : s[skipBlank s pos]? with
  | none =>
    match stack with
    | [] => .ok (none, skipBlank s pos)
    | innermost :: _ => .error (.fault innermost.unclosed)
  | some b =>
    match stepped : step s stack b (skipBlank s pos) with
    | .error halt => .error halt
    | .ok (.next stack', after) => operand stack' after
    | .ok (.done value, after) => .ok (value, after)
termination_by s.length - pos
decreasing_by
  have reached := le_skipBlank s pos
  have within := (At.of_get there).pos_lt
  have further := lt_of_step there stepped
  omega

section

variable {s} {pos : Nat} {rest : Bytes} {b : UInt8}

theorem operand_of_nothing (stack : List (Container K)) (here : At s (skipBlank s pos) []) :
    operand s stack pos =
      match stack with
      | [] => .ok (none, skipBlank s pos)
      | innermost :: _ => .error (.fault innermost.unclosed) := by
  rw [operand.eq_def]
  split
  next => rfl
  next b there => cases here.get_nil.symm.trans there

theorem operand_of_byte (stack : List (Container K)) (here : At s (skipBlank s pos) (b :: rest)) :
    operand s stack pos =
      match step s stack b (skipBlank s pos) with
      | .error halt => .error halt
      | .ok (.next stack', after) => operand s stack' after
      | .ok (.done value, after) => .ok (value, after) := by
  rw [operand.eq_def]
  split
  next none => cases here.get.symm.trans none
  next b' there =>
    cases here.get.symm.trans there
    split
    next failed => rw [failed]
    next stepped => rw [stepped]
    next stepped => rw [stepped]

theorem operand_eq (stack : List (Container K)) (here : At s pos rest) :
    Agrees s (operand s stack pos) (Content.operand stack rest) := by
  have there := at_skipBlank here
  fun_induction Content.operand stack rest generalizing pos with
  | case1 rest nothing =>
      rw [nothing] at there
      rw [operand_of_nothing [] there]
      exact .ok none there
  | case2 rest nothing innermost outer =>
      rw [nothing] at there
      rw [operand_of_nothing _ there]
      exact .fault _
  | case3 stack rest b tail found stack' after stepped ih =>
      rw [found] at there
      have agrees := step_eq stack there
      rw [stepped] at agrees
      obtain ⟨next, same, place⟩ := agrees.exists_of_ok
      rw [operand_of_byte stack there, same]
      exact ih place (at_skipBlank place)
  | case4 stack rest b tail found value after stepped =>
      rw [found] at there
      have agrees := step_eq stack there
      rw [stepped] at agrees
      obtain ⟨next, same, place⟩ := agrees.exists_of_ok
      rw [operand_of_byte stack there, same]
      exact .ok value place
  | case5 stack rest b tail found fault stepped =>
      rw [found] at there
      have agrees := step_eq stack there
      rw [stepped] at agrees
      rw [operand_of_byte stack there, agrees.eq_of_error]
      exact .fault fault

theorem operand_of_ok {value : Option (Operand K)} {after : Bytes} (here : At s pos rest)
    (given : Content.operand [] rest = .ok (value, after)) :
    ∃ stop, operand s [] pos = .ok (value, stop) ∧ At s stop after := by
  have agrees := operand_eq (K := K) [] here
  rw [given] at agrees
  exact agrees.exists_of_ok

theorem operand_of_error {fault : Fault} (here : At s pos rest)
    (given : Content.operand (K := K) [] rest = .error fault) :
    operand (K := K) s [] pos = .error (.fault fault) := by
  have agrees := operand_eq (K := K) [] here
  rw [given] at agrees
  exact agrees.eq_of_error

/-- Reading a value where byte `b` is takes the cursor further on. -/
theorem lt_of_operand {value : Option (Operand K)} {after : Nat} (here : At s pos (b :: rest))
    (read : operand s [] pos = .ok (value, after)) : pos < after := by
  have agrees := operand_eq (K := K) [] here
  rw [read] at agrees
  generalize given : Content.operand (K := K) [] (b :: rest) = result at agrees
  cases agrees with
  | ok _ next => exact here.lt_of_length_lt next (length_of_operand_cons given)

/-- Reading a value does not take the cursor back. -/
theorem le_of_operand {value : Option (Operand K)} {after : Nat} (here : At s pos rest)
    (read : operand s [] pos = .ok (value, after)) : pos ≤ after := by
  cases rest with
  | cons b rest => exact Nat.le_of_lt (lt_of_operand here read)
  | nil =>
      have place := at_skipBlank here
      rw [Content.skipBlank] at place
      rw [operand_of_nothing [] place] at read
      cases read
      exact le_skipBlank s pos

theorem le_of_name {text : String} {after : Nat} (here : At s pos rest)
    (read : name s pos = .ok (text, after)) : pos ≤ after :=
  here.le_of_length_le ((name_eq here).place read) (length_afterWord_le rest)

/-- A word that is not empty takes the cursor further on. -/
theorem lt_of_word {text : Bytes} {after : Nat} (here : At s pos (b :: rest))
    (read : word s pos = .ok (text, after)) (some : ¬text.isEmpty) : pos < after := by
  by_cases regular : isRegular b
  · have there := (word_eq_of_regular regular here).place read
    exact here.lt_of_length_lt there (Nat.lt_succ_of_le (length_afterWord_le rest))
  · obtain ⟨next, same, _⟩ := (word_eq_of_not_regular regular here).exists_of_ok
    cases same.symm.trans read
    exact absurd rfl some

end

end Indexed

end PdfContent.Content
