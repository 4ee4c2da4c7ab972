import Mathlib.Data.List.Infix
import PdfContent.Proofs.Reading

/-!
# The loops of the reader take something off in each turn

What reading leaves of content is a part at its end. The loops for arrays, dictionaries, the
parameters of inline images and the bytes between tokens are taken apart into their turns: a turn
gives what the loop goes on with, and from where, or what the loop comes to. A turn after which the
loop goes on has taken something off, whatever the bytes are.

Open containers are kept in a list while reading, innermost first. `operand_append_stack` says that
this comes to reading each container by itself and giving it to the one around it.
-/

namespace PdfContent

variable {K : Type}

namespace Content

/-- The later bytes are what is left of the earlier ones when something of these has been read. -/
structure Ahead (earlier later : Bytes) : Prop where
  suffix : later <:+ earlier
  shorter : later.length < earlier.length

theorem Ahead.trans_suffix {s t u : Bytes} (ahead : Ahead s t) (suffix : u <:+ t) : Ahead s u where
  suffix := suffix.trans ahead.suffix
  shorter := Nat.lt_of_le_of_lt suffix.length_le ahead.shorter

theorem Ahead.of_suffix {s t u : Bytes} (ahead : Ahead t u) (suffix : t <:+ s) : Ahead s u where
  suffix := ahead.suffix.trans suffix
  shorter := Nat.lt_of_lt_of_le ahead.shorter suffix.length_le

theorem Ahead.trans {s t u : Bytes} (first : Ahead s t) (second : Ahead t u) : Ahead s u :=
  first.trans_suffix second.suffix

theorem ahead_cons {b : UInt8} {s t : Bytes} (suffix : t <:+ s) : Ahead (b :: s) t where
  suffix := suffix.trans (List.suffix_cons b s)
  shorter := Nat.lt_succ_of_le suffix.length_le

/-! ### Words, strings and numbers -/

theorem skipBlank_suffix (s : Bytes) : skipBlank s <:+ s := by
  fun_induction skipBlank s with
  | case1 => exact List.suffix_rfl
  | case2 b rest _ ih => exact ih.trans (List.suffix_cons b rest)
  | case3 b rest _ _ ih =>
      exact (ih.trans (List.dropWhile_suffix _)).trans (List.suffix_cons b rest)
  | case4 => exact List.suffix_rfl

theorem ahead_of_skipBlank {s rest : Bytes} {b : UInt8} (found : skipBlank s = b :: rest) :
    Ahead s rest := by
  have within : b :: rest <:+ s := found ▸ skipBlank_suffix s
  exact ⟨(List.suffix_cons b rest).trans within, length_of_skipBlank found⟩

theorem skipBlank_idem {s rest : Bytes} {b : UInt8} (found : skipBlank s = b :: rest) :
    skipBlank (b :: rest) = b :: rest := by
  fun_induction skipBlank s with
  | case1 => cases found
  | case2 _ _ _ ih => exact ih found
  | case3 _ _ _ _ ih => exact ih found
  | case4 c tail blank comment =>
      cases found
      rw [skipBlank, if_neg blank, if_neg comment]

theorem afterWord_suffix (s : Bytes) : afterWord s <:+ s := List.dropWhile_suffix _

theorem afterHex_suffix (s : Bytes) : afterHex s <:+ s :=
  (List.drop_suffix 1 _).trans (List.dropWhile_suffix _)

theorem octal_suffix (n limit : Nat) (s : Bytes) : (octal n limit s).2 <:+ s := by
  induction limit generalizing n s with
  | zero => simp [octal]
  | succ limit ih =>
      cases s with
      | nil => simp [octal]
      | cons b rest =>
          rw [octal]
          split
          · exact (ih _ _).trans (List.suffix_cons b rest)
          · exact List.suffix_rfl

theorem escape_suffix (b : UInt8) (rest : Bytes) : (escape b rest).2 <:+ rest := by
  fun_cases escape b rest with
  | case1 => exact List.suffix_cons _ _
  | case4 _ _ _ _ _ _ _ read =>
      have within := octal_suffix (b.toNat - 0x30) 2 rest
      rwa [read] at within
  | _ => exact List.suffix_rfl

theorem ahead_of_literal? {depth : Nat} {s value rest : Bytes}
    (read : literal? depth s = some (value, rest)) : Ahead s rest := by
  have mapped {f : Bytes × Bytes → Bytes} {o : Option (Bytes × Bytes)} {v r : Bytes}
      (given : (o.map fun x => (f x, x.2)) = some (v, r)) : ∃ u, o = some (u, r) := by
    obtain ⟨⟨u, r'⟩, found, same⟩ := Option.map_eq_some_iff.mp given
    cases same
    exact ⟨u, found⟩
  fun_induction literal? depth s generalizing value with
  | case1 => cases read
  | case2 depth b tail _ ih =>
      obtain ⟨u, found⟩ := mapped read
      exact ahead_cons (ih found).suffix
  | case3 b tail =>
      cases read
      exact ahead_cons List.suffix_rfl
  | case4 b tail _ _ depth ih =>
      obtain ⟨u, found⟩ := mapped read
      exact ahead_cons (ih found).suffix
  | case5 => cases read
  | case6 depth b _ _ _ c tail ih =>
      obtain ⟨u, found⟩ := mapped read
      have within := (ih found).suffix.trans (escape_suffix c tail)
      exact ahead_cons (within.trans (List.suffix_cons c tail))
  | case7 depth b tail _ _ _ ih =>
      obtain ⟨u, found⟩ := mapped read
      exact ahead_cons (ih found).suffix

theorem ahead_afterNumber {b : UInt8} (starts : startsNumber b) (rest : Bytes) :
    Ahead (b :: rest) (afterNumber (b :: rest)) :=
  ⟨List.drop_suffix _ _, length_afterNumber_lt starts rest⟩

/-! ### Operands -/

section Operands

variable [Scalar K] {stack : List (Container K)} {b : UInt8} {s rest : Bytes}

theorem item_suffix (stack : List (Container K)) (b : UInt8) (rest : Bytes) :
    (item stack b rest).rest <:+ rest := by
  unfold item
  split
  · split
    next read =>
      rw [rest_supply]
      exact (ahead_of_literal? read).suffix
    next => exact List.nil_suffix
  split
  · split
    next after => exact List.suffix_cons _ after
    next =>
      rw [rest_supply]
      exact afterHex_suffix rest
  split
  · exact List.suffix_rfl
  split
  · rw [rest_supply]
    exact afterWord_suffix rest
  split
  next starts =>
    rw [rest_supply]
    have ahead := ahead_afterNumber starts rest
    exact List.suffix_of_suffix_length_le ahead.suffix (List.suffix_cons b rest)
      (Nat.le_of_lt_succ ahead.shorter)
  split
  · rw [rest_supply]
    exact afterWord_suffix rest
  · rw [rest_supply]

theorem step_suffix (stack : List (Container K)) (b : UInt8) (rest : Bytes) :
    (step stack b rest).rest <:+ rest := by
  unfold step
  split
  · split
    · rw [rest_supply]
    · exact item_suffix _ b rest
  · split
    · rw [rest_supply]
      exact List.tail_suffix rest
    · split
      · exact afterWord_suffix rest
      · exact item_suffix _ b rest
  · exact item_suffix _ b rest

/-- A step under containers that are open around it: what is opened is opened inside of them, and a
value goes to the innermost of them. -/
def Step.inside (outer : List (Container K)) : Step K → Step K
  | .next stack rest => .next (stack ++ outer) rest
  | .done value rest => supply value outer rest
  | .fail fault => .fail fault

omit [Scalar K] in
theorem supply_append (value : Option (Operand K)) (stack outer : List (Container K))
    (rest : Bytes) :
    supply value (stack ++ outer) rest = (supply value stack rest).inside outer := by
  cases stack with
  | nil => rfl
  | cons innermost stack => cases innermost <;> rfl

theorem item_append (stack outer : List (Container K)) (b : UInt8) (rest : Bytes) :
    item (stack ++ outer) b rest = (item stack b rest).inside outer := by
  unfold item
  simp only [supply_append, apply_ite (Step.inside outer)]
  congr 1
  · split <;> rfl
  · congr 1
    split <;> rfl

theorem step_append (innermost : Container K) (stack outer : List (Container K)) (b : UInt8)
    (rest : Bytes) :
    step (innermost :: stack ++ outer) b rest =
      (step (innermost :: stack) b rest).inside outer := by
  have items := item_append (innermost :: stack) outer b rest
  cases innermost with
  | array startLeft values =>
      simp only [List.cons_append, step, apply_ite (Step.inside outer), supply_append] at items ⊢
      rw [items]
  | dictionary startLeft entries =>
      simp only [List.cons_append, step, apply_ite (Step.inside outer), supply_append] at items ⊢
      rw [items]
      rfl
  | entry startLeft entries key => exact items

omit [Scalar K] in
theorem exists_cons_of_supply {value : Option (Operand K)} {stack' : List (Container K)}
    {after : Bytes} (goesOn : supply value stack rest = .next stack' after) :
    ∃ innermost outer, stack' = innermost :: outer := by
  unfold supply at goesOn
  split at goesOn
  · cases goesOn
  all_goals
    cases goesOn
    exact ⟨_, _, rfl⟩

theorem exists_cons_of_item {stack' : List (Container K)} {after : Bytes}
    (goesOn : item stack b rest = .next stack' after) :
    ∃ innermost outer, stack' = innermost :: outer := by
  unfold item at goesOn
  repeat' split at goesOn
  all_goals
    first
    | exact exists_cons_of_supply goesOn
    | cases goesOn; exact ⟨_, _, rfl⟩
    | cases goesOn

/-- Reading goes on only inside of something. -/
theorem exists_cons_of_step {stack' : List (Container K)} {after : Bytes}
    (goesOn : step stack b rest = .next stack' after) :
    ∃ innermost outer, stack' = innermost :: outer := by
  unfold step at goesOn
  repeat' split at goesOn
  all_goals
    first
    | exact exists_cons_of_supply goesOn
    | exact exists_cons_of_item goesOn
    | cases goesOn; exact ⟨_, _, rfl⟩

/-- What is read inside a container goes on to the containers around it when it is closed. -/
theorem operand_append_stack (innermost : Container K) (stack outer : List (Container K))
    (s : Bytes) :
    operand (innermost :: stack ++ outer) s =
      (operand (innermost :: stack) s).bind fun read => (supply read.1 outer read.2).resume := by
  induction size : s.length using Nat.strongRecOn generalizing innermost stack s with
  | ind n ih =>
  cases found : skipBlank s with
  | nil => rw [operand_of_nothing found, operand_of_nothing found]; rfl
  | cons b rest =>
      rw [operand_of_skipBlank found, operand_of_skipBlank found, step_append]
      cases stepped : step (innermost :: stack) b rest with
      | next stack' after =>
          obtain ⟨innermost', outer', rfl⟩ := exists_cons_of_step stepped
          have within := step_suffix (innermost :: stack) b rest
          rw [stepped] at within
          have ahead := (ahead_of_skipBlank found).trans_suffix within
          exact ih _ (size ▸ ahead.shorter) innermost' outer' after rfl
      | done value after => rfl
      | fail fault => rfl

/-- A value inside a container is read as by itself and given to the container. -/
theorem operand_item (innermost : Container K) (found : skipBlank s = b :: rest) :
    (item [innermost] b rest).resume =
      (operand [] (b :: rest)).bind fun read => (supply read.1 [innermost] read.2).resume := by
  rw [operand_of_skipBlank (skipBlank_idem found)]
  change (item ([] ++ [innermost]) b rest).resume = (item (K := K) [] b rest).resume.bind _
  rw [item_append]
  cases read : item (K := K) [] b rest with
  | next stack after =>
      obtain ⟨inner, outer, rfl⟩ := exists_cons_of_item read
      exact operand_append_stack inner outer [innermost] after
  | done value after => rfl
  | fail fault => rfl

/-- Reading a value takes something off, also where the bytes are no value. -/
theorem operand_suffix {value : Option (Operand K)} {after : Bytes}
    (read : operand stack s = .ok (value, after)) : after <:+ s := by
  fun_induction operand stack s with
  | case1 s =>
      cases read
      exact List.nil_suffix
  | case2 => cases read
  | case3 stack s b rest found stack' rest' stepped ih =>
      have within := step_suffix stack b rest
      rw [stepped] at within
      exact (ih read).trans ((ahead_of_skipBlank found).trans_suffix within).suffix
  | case4 stack s b rest found value' rest' stepped =>
      cases read
      have within := step_suffix stack b rest
      rw [stepped] at within
      exact ((ahead_of_skipBlank found).trans_suffix within).suffix
  | case5 => cases read

theorem ahead_of_operand {value : Option (Operand K)} {after : Bytes}
    (read : operand stack (b :: s) = .ok (value, after)) : Ahead (b :: s) after :=
  ⟨operand_suffix read, length_of_operand_cons read⟩

end Operands

/-! ### Turns -/

/-- What a turn of a reading loop comes to: the loop goes on with some data and with what is left
then, or is done. -/
inductive Turn (ι ρ : Type)
  | again (data : ι) (rest : Bytes)
  | done (result : Except Fault ρ)

/-- A loop does what its turns say, and each turn after which it goes on has taken something off. -/
structure Turn.Drives {ι ρ : Type} (turn : ι → Bytes → Turn ι ρ)
    (loop : ι → Bytes → Except Fault ρ) : Prop where
  unfolds : ∀ data s, loop data s =
    match turn data s with
    | .again data rest => loop data rest
    | .done result => result
  advances : ∀ {data s data' rest}, turn data s = .again data' rest → Ahead s rest

/-- What holds of the result of every last turn holds of what the loop comes to, if it still holds
for more bytes. -/
theorem Turn.Drives.induction {ι ρ : Type} {turn : ι → Bytes → Turn ι ρ}
    {loop : ι → Bytes → Except Fault ρ} (drives : Turn.Drives turn loop)
    {P : Bytes → Except Fault ρ → Prop}
    (done : ∀ {data s result}, turn data s = .done result → P s result)
    (again : ∀ {s rest result}, Ahead s rest → P rest result → P s result) (data : ι) (s : Bytes) :
    P s (loop data s) := by
  induction size : s.length using Nat.strongRecOn generalizing data s with
  | ind n ih =>
  rw [drives.unfolds]
  split
  next data' rest goesOn =>
    have ahead := drives.advances goesOn
    exact again ahead (ih _ (size ▸ ahead.shorter) data' rest rfl)
  next result ends => exact done ends

section Turns

variable [Scalar K]

/-- What a turn comes to that reads a value by itself and goes on with the data that it makes. -/
def Turn.ofValue {ι ρ : Type} (data : Option (Operand K) → ι) (s : Bytes) : Turn ι ρ :=
  match operand [] s with
  | .ok (value, rest) => .again (data value) rest
  | .error fault => .done (.error fault)

theorem Turn.ahead_of_ofValue {ι ρ : Type} {data : Option (Operand K) → ι} {b : UInt8}
    {s t : Bytes} (within : b :: t <:+ s) {data' : ι} {rest : Bytes}
    (again : (ofValue data (b :: t) : Turn ι ρ) = .again data' rest) : Ahead s rest := by
  unfold ofValue at again
  split at again
  next read =>
    cases again
    exact (ahead_of_operand read).of_suffix within
  next => cases again

/-- A turn inside an array that holds some items. -/
def arrayTurn (startLeft : Nat) (items : List (Operand K)) (s : Bytes) :
    Turn (List (Operand K)) (Option (Operand K) × Bytes) :=
  match skipBlank s with
  | [] => .done (.error ⟨.array, startLeft, 0⟩)
  | b :: rest =>
    if b == 0x5D then .done (.ok (some (.array items), rest))
    else .ofValue (fun value => items ++ value.toList) (b :: rest)

/-- A turn inside a dictionary that holds some entries. What is no key is passed over. -/
def dictionaryTurn (startLeft : Nat) (entries : Dictionary K) (s : Bytes) :
    Turn (Dictionary K) (Option (Operand K) × Bytes) :=
  match skipBlank s with
  | [] => .done (.error ⟨.dictionary, startLeft, 0⟩)
  | b :: rest =>
    if b == 0x3E && rest.head? == some 0x3E then .done (.ok (some (.dictionary entries), rest.tail))
    else if b == 0x2F then
      match skipBlank (afterWord rest) with
      | [] => .done (.error ⟨.dictionary, startLeft, 0⟩)
      | c :: later =>
        .ofValue
          (fun
            | some value => entries.insert (nameText (word rest)) value
            | none => entries)
          (c :: later)
    else .ofValue (fun (_ : Option (Operand K)) => entries) (b :: rest)

theorem drives_array (startLeft : Nat) :
    Turn.Drives (arrayTurn (K := K) startLeft) fun items => operand [.array startLeft items] where
  unfolds items s := by
    unfold arrayTurn
    cases found : skipBlank s with
    | nil => rw [operand_of_nothing found]; rfl
    | cons b rest =>
        rw [operand_of_skipBlank found, step]
        dsimp only
        split
        · rfl
        · rw [operand_item _ found, Turn.ofValue]
          cases operand (K := K) [] (b :: rest) <;> rfl
  advances {items s items' rest} again := by
    have within := skipBlank_suffix s
    unfold arrayTurn at again
    split at again
    · cases again
    next b rest' found =>
      rw [found] at within
      split at again
      · cases again
      · exact Turn.ahead_of_ofValue within again

theorem drives_dictionary (startLeft : Nat) :
    Turn.Drives (dictionaryTurn (K := K) startLeft)
      fun entries => operand [.dictionary startLeft entries] where
  unfolds entries s := by
    unfold dictionaryTurn
    cases found : skipBlank s with
    | nil => rw [operand_of_nothing found]; rfl
    | cons b rest =>
        rw [operand_of_skipBlank found, step]
        dsimp only
        split
        · rfl
        split
        · rw [Step.resume]
          cases found' : skipBlank (afterWord rest) with
          | nil => rw [operand_of_nothing found']; rfl
          | cons c later =>
              rw [operand_of_skipBlank found']
              change (item [.entry startLeft entries _] c later).resume = _
              rw [operand_item _ found']
              dsimp only
              rw [Turn.ofValue]
              cases operand (K := K) [] (c :: later) <;> rfl
        · rw [operand_item _ found, Turn.ofValue]
          cases operand (K := K) [] (b :: rest) <;> rfl
  advances {entries s entries' rest} again := by
    have within := skipBlank_suffix s
    unfold dictionaryTurn at again
    split at again
    · cases again
    next b rest' found =>
      rw [found] at within
      split at again
      · cases again
      split at again
      · have later := skipBlank_suffix (afterWord rest')
        split at again
        · cases again
        next c tail found' =>
          rw [found'] at later
          have ahead := (ahead_of_skipBlank found).trans_suffix (afterWord_suffix rest')
          exact Turn.ahead_of_ofValue (later.trans ahead.suffix) again
      · exact Turn.ahead_of_ofValue within again

/-- A turn before the `ID` of an inline image with some parameters. -/
def parameterTurn (startLeft : Nat) (entries : Dictionary K) (s : Bytes) :
    Turn (Dictionary K) (Dictionary K × Bytes) :=
  match skipBlank s with
  | [] => .done (.error ⟨.inlineImage, startLeft, 0⟩)
  | b :: rest =>
    if b == 0x2F then
      .ofValue
        (fun
          | some value => entries.insert (nameText (word rest)) value
          | none => entries)
        (afterWord rest)
    else if isRegular b then
      if b :: word rest == [0x49, 0x44] then .done (.ok (entries, afterWord rest))
      else .again entries (afterWord rest)
    else .ofValue (fun (_ : Option (Operand K)) => entries) (b :: rest)

/-- What a printable word outside of all brackets comes to, given how many bytes were left where it
starts, and what follows it. -/
def readWord (text : String) (startLeft : Nat) (after : Bytes) :
    Except Fault (Option (Token K × Bytes)) :=
  match text with
  | "true" => .ok (some (.operand (.boolean true), after))
  | "false" => .ok (some (.operand (.boolean false), after))
  | "null" => .ok (some (.operand .null, after))
  | "BI" =>
    match inlineImage (K := K) startLeft after with
    | .error fault => .error fault
    | .ok (image, after) =>
      .ok (some (.operator ((Operator.plain "BI").withImage ⟨startLeft, image⟩), after))
  | keyword => .ok (some (.operator (.plain keyword), after))

/-- A turn between tokens: what starts no token is passed over. -/
def tokenTurn (_ : Unit) (s : Bytes) : Turn Unit (Option (Token K × Bytes)) :=
  match skipBlank s with
  | [] => .done (.ok none)
  | b :: rest =>
    if isStray b then .again () rest
    else if isRegular b && !startsNumber b then
      if !(b :: word rest).all isGraphic then .again () (afterWord rest)
      else .done (readWord (asciiText (b :: word rest)) (rest.length + 1) (afterWord rest))
    else
      match operand [] (b :: rest) with
      | .error fault => .done (.error fault)
      | .ok (some value, after) => .done (.ok (some (.operand value, after)))
      | .ok (none, after) => .again () after

theorem drives_parameters (startLeft : Nat) :
    Turn.Drives (parameterTurn (K := K) startLeft) (imageParameters startLeft) where
  unfolds entries s := by
    rw [imageParameters.eq_def, parameterTurn]
    split
    next found => simp only [found]
    next b rest found =>
      simp only [found]
      split
      · rw [Turn.ofValue]
        split <;> rename_i read <;> rw [read]
      · split
        · split <;> rfl
        · rw [Turn.ofValue]
          split <;> rename_i read <;> rw [read]
  advances {entries s entries' rest} again := by
    have within := skipBlank_suffix s
    unfold parameterTurn at again
    split at again
    · cases again
    next b rest' found =>
      have ahead := (ahead_of_skipBlank found).trans_suffix (afterWord_suffix rest')
      rw [found] at within
      split at again
      · unfold Turn.ofValue at again
        split at again
        next read =>
          cases again
          exact ahead.trans_suffix (operand_suffix read)
        next => cases again
      split at again
      · split at again
        · cases again
        · cases again
          exact ahead
      · exact Turn.ahead_of_ofValue within again

theorem drives_tokens : Turn.Drives (tokenTurn (K := K)) fun _ => next where
  unfolds _ s := by
    rw [next.eq_def, tokenTurn]
    split
    next found => simp only [found]
    next b rest found =>
      simp only [found]
      split
      · rfl
      split
      · split
        · rfl
        · rfl
      · split <;> rename_i read <;> rw [read]
  advances {_ s _ rest} again := by
    have within := skipBlank_suffix s
    unfold tokenTurn at again
    split at again
    · cases again
    next b rest' found =>
      have ahead := ahead_of_skipBlank found
      rw [found] at within
      split at again
      · cases again
        exact ahead
      split at again
      · split at again
        · cases again
          exact ahead.trans_suffix (afterWord_suffix rest')
        · cases again
      · split at again
        next => cases again
        next => cases again
        next read =>
          cases again
          exact (ahead_of_operand read).of_suffix within

end Turns

/-! ### Where reading stops -/

section Stops

variable [Scalar K] {stack : List (Container K)} {b : UInt8} {s rest : Bytes} {fault : Fault}

omit [Scalar K] in
theorem supply_ne_fail (value : Option (Operand K)) : supply value stack rest ≠ .fail fault := by
  intro failed
  unfold supply at failed
  split at failed <;> cases failed

theorem stopLeft_of_item (failed : item stack b rest = .fail fault) : fault.stopLeft = 0 := by
  unfold item at failed
  repeat' split at failed
  all_goals
    first
    | exact absurd failed (supply_ne_fail _)
    | cases failed; done
    | cases failed; rfl

theorem stopLeft_of_step (failed : step stack b rest = .fail fault) : fault.stopLeft = 0 := by
  unfold step at failed
  repeat' split at failed
  all_goals
    first
    | exact stopLeft_of_item failed
    | exact absurd failed (supply_ne_fail _)
    | cases failed

/-- An operand that does not end takes all bytes. -/
theorem stopLeft_of_operand (failed : operand stack s = .error fault) : fault.stopLeft = 0 := by
  fun_induction operand stack s with
  | case1 => cases failed
  | case2 s _ innermost _ =>
      cases failed
      cases innermost <;> rfl
  | case3 _ _ _ _ _ _ _ _ ih => exact ih failed
  | case4 => cases failed
  | case5 _ _ _ _ _ _ stepped =>
      cases failed
      exact stopLeft_of_step stepped

theorem Turn.stopLeft_of_ofValue {ι ρ : Type} {data : Option (Operand K) → ι}
    {result : Except Fault ρ}
    (done : (ofValue data s : Turn ι ρ) = .done result) :
    ∃ fault, result = .error fault ∧ fault.stopLeft ≤ 0 := by
  unfold ofValue at done
  split at done
  · cases done
  next failed =>
    cases done
    exact ⟨_, rfl, Nat.le_of_eq (stopLeft_of_operand failed)⟩

/-- Reading has got somewhere in the bytes: what is left is their end, or as many bytes are left at
a fault as there are at most. -/
def StopsIn {ρ : Type} (s : Bytes) : Except Fault (ρ × Bytes) → Prop
  | .ok (_, rest) => rest <:+ s
  | .error fault => fault.stopLeft ≤ s.length

theorem StopsIn.mono {ρ : Type} {s t : Bytes} {result : Except Fault (ρ × Bytes)}
    (stops : StopsIn t result) (suffix : t <:+ s) : StopsIn s result := by
  cases result with
  | ok read => exact List.IsSuffix.trans stops suffix
  | error fault => exact Nat.le_trans stops suffix.length_le

theorem imageParameters_stops (startLeft : Nat) (entries : Dictionary K) (s : Bytes) :
    StopsIn s (imageParameters startLeft entries s) := by
  refine (drives_parameters startLeft).induction (P := fun s result => StopsIn s result) ?_
    (fun ahead stops => stops.mono ahead.suffix) entries s
  intro entries s result done
  unfold parameterTurn at done
  split at done
  · cases done
    exact Nat.zero_le _
  next b rest found =>
    have ahead := (ahead_of_skipBlank found).trans_suffix (afterWord_suffix rest)
    split at done
    · obtain ⟨fault, rfl, stop⟩ := Turn.stopLeft_of_ofValue done
      exact Nat.le_trans stop (Nat.zero_le _)
    split at done
    · split at done
      · cases done
        exact ahead.suffix
      · cases done
    · obtain ⟨fault, rfl, stop⟩ := Turn.stopLeft_of_ofValue done
      exact Nat.le_trans stop (Nat.zero_le _)

theorem inlineImage_stops (startLeft : Nat) (s : Bytes) :
    StopsIn s (inlineImage (K := K) startLeft s) := by
  have stops := imageParameters_stops (K := K) startLeft [] s
  rw [inlineImage]
  cases read : imageParameters (K := K) startLeft [] s with
  | error fault =>
      rw [read] at stops
      exact stops
  | ok result =>
      obtain ⟨parameters, afterId⟩ := result
      rw [read] at stops
      simp only [bind, Except.bind]
      -- of what follows `ID` one blank may be left out, and the data is looked for in the rest
      cases afterId with
      | nil =>
          split
          · exact Nat.zero_le _
          · exact (List.drop_suffix _ _).trans List.nil_suffix
      | cons b after =>
          have data_suffix : (if isBlank b then after else b :: after) <:+ s := by
            split
            · exact (List.suffix_cons b after).trans stops
            · exact stops
          dsimp only
          split
          · exact data_suffix.length_le
          · exact (List.drop_suffix _ _).trans data_suffix

/-- A token has been read off the front of the bytes, or reading has got somewhere in them. -/
def TokenStopsIn (s : Bytes) : Except Fault (Option (Token K × Bytes)) → Prop
  | .ok none => True
  | .ok (some (_, after)) => Ahead s after
  | .error fault => fault.stopLeft ≤ s.length

omit [Scalar K] in
theorem TokenStopsIn.mono {s t : Bytes} {result : Except Fault (Option (Token K × Bytes))}
    (stops : TokenStopsIn t result) (ahead : Ahead s t) : TokenStopsIn s result := by
  cases result with
  | ok read =>
      cases read with
      | none => trivial
      | some token => exact ahead.trans stops
  | error fault => exact Nat.le_trans stops ahead.suffix.length_le

theorem readWord_stops (text : String) {s after : Bytes} (ahead : Ahead s after) (startLeft : Nat) :
    TokenStopsIn s (readWord (K := K) text startLeft after) := by
  unfold readWord
  split
  · exact ahead
  · exact ahead
  · exact ahead
  · have stops := inlineImage_stops (K := K) startLeft after
    split
    next failed =>
      rw [failed] at stops
      exact Nat.le_trans stops ahead.suffix.length_le
    next read =>
      rw [read] at stops
      exact ahead.trans_suffix stops
  · exact ahead

theorem next_stops (s : Bytes) : TokenStopsIn s (next (K := K) s) := by
  refine drives_tokens.induction (P := TokenStopsIn) ?_ (fun ahead stops => stops.mono ahead) () s
  intro _ s result done
  unfold tokenTurn at done
  split at done
  · cases done
    trivial
  next b rest found =>
    have ahead := (ahead_of_skipBlank found).trans_suffix (afterWord_suffix rest)
    have within : b :: rest <:+ s := found ▸ skipBlank_suffix s
    split at done
    · cases done
    split at done
    · split at done
      · cases done
      · cases done
        exact readWord_stops _ ahead _
    · split at done
      next failed =>
        cases done
        exact Nat.le_trans (Nat.le_of_eq (stopLeft_of_operand failed)) (Nat.zero_le _)
      next read =>
        cases done
        exact (ahead_of_operand read).of_suffix within
      next => cases done

end Stops

/-- The loops of the reader, and the calls they make, take something off whatever the bytes are. -/
structure LoopsAdvance (K : Type) [Scalar K] : Prop where
  /-- Reading a value takes something off, also where the bytes are no value. -/
  value : ∀ {b s value rest}, operand (K := K) [] (b :: s) = .ok (value, rest) → Ahead (b :: s) rest
  /-- Reading an array or a dictionary starts after its opening mark. -/
  openArray : ∀ rest,
    operand (K := K) [] (0x5B :: rest) = operand [.array (rest.length + 1) []] rest
  openDictionary : ∀ rest,
    operand (K := K) [] (0x3C :: 0x3C :: rest) = operand [.dictionary (rest.length + 2) []] rest
  array : ∀ startLeft,
    Turn.Drives (arrayTurn (K := K) startLeft) fun items => operand [.array startLeft items]
  dictionary : ∀ startLeft, Turn.Drives (dictionaryTurn (K := K) startLeft) fun entries =>
    operand [.dictionary startLeft entries]
  parameters : ∀ startLeft,
    Turn.Drives (parameterTurn (K := K) startLeft) (imageParameters startLeft)
  image : ∀ {startLeft s image rest},
    inlineImage (K := K) startLeft s = .ok (image, rest) → rest <:+ s
  tokens : Turn.Drives (tokenTurn (K := K)) fun _ => next

theorem loopsAdvance [Scalar K] : LoopsAdvance K where
  value := ahead_of_operand
  openArray rest := operand_eq_step rfl (by decide) rest
  openDictionary rest := operand_eq_step rfl (by decide) (0x3C :: rest)
  array := drives_array
  dictionary := drives_dictionary
  parameters := drives_parameters
  image {startLeft s image rest} read := by
    have stops := inlineImage_stops (K := K) startLeft s
    rwa [read] at stops
  tokens := drives_tokens

end Content

end PdfContent
