import PdfContent.Content.Literal

/-!
# Tokens from content

Reading goes forward only and never fails on a single odd byte: what cannot start a token is passed
over. The one kind of fault is content that ends inside something that was opened.

Nested arrays and dictionaries are read with a list of the containers that are open, innermost first.
Each step looks at one byte and either opens a container, closes one, or supplies a value to the
innermost one; every step consumes something, which is why reading ends.

Positions are kept as the number of bytes left, so that what stands before a piece of content cannot
influence how it is read.
-/

-- The equations that matches are given below serve their termination proofs.
set_option linter.unusedVariables false

namespace PdfContent.Content

/-- What the content ended in. -/
inductive Construct
  | literalString
  | array
  | dictionary
  | inlineImage
  deriving DecidableEq, Repr

/-- Content that ends inside a construct: how many bytes were left where the construct started, and
where reading stopped. -/
structure Fault where
  inside : Construct
  startLeft : Nat
  stopLeft : Nat
  deriving DecidableEq, Repr

/-- The fault as an error in content of the given size. -/
def Fault.error (size : Nat) (f : Fault) : ContentError :=
  let offset := size - f.startLeft
  match f.inside with
  | .literalString => .malformed offset "unterminated literal string"
  | .array => .malformed offset "unterminated array"
  | .dictionary => .malformed offset "unterminated dictionary"
  | .inlineImage => .unterminatedInlineImage offset

/-- An open container and what it holds so far. An `entry` is a dictionary that waits for the value of
a key. -/
inductive Container (K : Type)
  | array (startLeft : Nat) (items : List (Operand K))
  | dictionary (startLeft : Nat) (entries : Dictionary K)
  | entry (startLeft : Nat) (entries : Dictionary K) (key : String)

/-- The fault when the content ends inside the container. -/
def Container.unclosed {K : Type} : Container K → Fault
  | .array startLeft _ => ⟨.array, startLeft, 0⟩
  | .dictionary startLeft _ => ⟨.dictionary, startLeft, 0⟩
  | .entry startLeft _ _ => ⟨.dictionary, startLeft, 0⟩

/-- The outcome of one step. -/
inductive Step (K : Type)
  | next (stack : List (Container K)) (rest : Bytes)
  | done (value : Option (Operand K)) (rest : Bytes)
  | fail (fault : Fault)

variable {K : Type}

/-- Hands a value, or the absence of one, to the innermost container. -/
def supply (value : Option (Operand K)) (stack : List (Container K)) (rest : Bytes) : Step K :=
  match stack with
  | [] => .done value rest
  | .array startLeft items :: outer => .next (.array startLeft (items ++ value.toList) :: outer) rest
  | .dictionary startLeft entries :: outer => .next (.dictionary startLeft entries :: outer) rest
  | .entry startLeft entries key :: outer =>
    let entries := match value with
      | some v => entries.insert key v
      | none => entries
    .next (.dictionary startLeft entries :: outer) rest

/-- A word inside a container: a constant, or else a name without its slash. -/
def constant (text : String) : Operand K :=
  if text == "true" then .boolean true
  else if text == "false" then .boolean false
  else if text == "null" then .null
  else .name text

variable [Scalar K]

/-- What starts at byte `b` where a value may stand. -/
def item (stack : List (Container K)) (b : UInt8) (rest : Bytes) : Step K :=
  if b == 0x28 then
    match literal? 0 rest with
    | some (value, rest) => supply (some (.literal value)) stack rest
    | none => .fail ⟨.literalString, rest.length + 1, 0⟩
  else if b == 0x3C then
    match rest with
    | 0x3C :: after => .next (.dictionary (rest.length + 1) [] :: stack) after
    | _ => supply (some (.hexadecimal (hexString rest))) stack (afterHex rest)
  else if b == 0x5B then .next (.array (rest.length + 1) [] :: stack) rest
  else if b == 0x2F then supply (some (.name (nameText (word rest)))) stack (afterWord rest)
  else if startsNumber b then
    supply (numberValue? (numberText (b :: rest))) stack (afterNumber (b :: rest))
  else if isRegular b then
    supply (some (constant (Text.decodeUtf8 (b :: word rest)))) stack (afterWord rest)
  else supply none stack rest

/-- One step at byte `b`: a container's own closing mark or key, or else an item. -/
def step (stack : List (Container K)) (b : UInt8) (rest : Bytes) : Step K :=
  match stack with
  | .array _ items :: outer =>
    if b == 0x5D then supply (some (.array items)) outer rest else item stack b rest
  | .dictionary startLeft entries :: outer =>
    if b == 0x3E && rest.head? == some 0x3E then supply (some (.dictionary entries)) outer rest.tail
    else if b == 0x2F then .next (.entry startLeft entries (nameText (word rest)) :: outer) (afterWord rest)
    else item stack b rest
  | _ => item stack b rest

/-- What a step leaves unread. -/
def Step.rest : Step K → Bytes
  | .next _ rest => rest
  | .done _ rest => rest
  | .fail _ => []

omit [Scalar K] in
@[simp] theorem rest_supply (value : Option (Operand K)) (stack : List (Container K)) (rest : Bytes) :
    (supply value stack rest).rest = rest := by
  unfold supply; split <;> rfl

theorem length_item_le (stack : List (Container K)) (b : UInt8) (rest : Bytes) :
    (item stack b rest).rest.length ≤ rest.length := by
  unfold item
  split
  · split
    next h => simpa using Nat.le_of_lt (length_of_literal? h)
    next => simp [Step.rest]
  · split
    · split
      · simp [Step.rest]
      · simpa using length_afterHex_le rest
    · split
      · simp [Step.rest]
      · split
        · simpa using length_afterWord_le rest
        · split
          next h => simpa using Nat.le_of_lt_succ (length_afterNumber_lt h rest)
          next =>
            split
            · simpa using length_afterWord_le rest
            · simp

theorem length_step_le (stack : List (Container K)) (b : UInt8) (rest : Bytes) :
    (step stack b rest).rest.length ≤ rest.length := by
  unfold step
  split
  · split
    · simp
    · exact length_item_le _ b rest
  · split
    · simp
    · split
      · simpa [Step.rest] using length_afterWord_le rest
      · exact length_item_le _ b rest
  · exact length_item_le _ b rest

/-- Reads one value: its operand, or nothing where something was passed over, and what is left. -/
def operand (stack : List (Container K)) (s : Bytes) : Except Fault (Option (Operand K) × Bytes) :=
  match hs : skipBlank s with
  | [] =>
    match stack with
    | [] => .ok (none, [])
    | innermost :: _ => .error innermost.unclosed
  | b :: rest =>
    match h : step stack b rest with
    | .next stack' after => operand stack' after
    | .done value after => .ok (value, after)
    | .fail fault => .error fault
termination_by s.length
decreasing_by
  have h₁ := length_of_skipBlank hs
  have h₂ := length_step_le stack b rest
  rw [h] at h₂
  exact Nat.lt_of_le_of_lt h₂ h₁

/-- Reading a value consumes something unless there is nothing. -/
theorem length_of_operand {stack : List (Container K)} {s rest : Bytes} {value : Option (Operand K)}
    (h : operand stack s = .ok (value, rest)) : rest.length < s.length ∨ rest = [] := by
  fun_induction operand stack s with
  | case1 => simp at h; exact .inr h.2
  | case2 => simp at h
  | case3 stack s b rest' hs stack' rest'' hstep ih =>
    have h₁ := length_of_skipBlank hs
    have h₂ := length_step_le stack b rest'
    rw [hstep] at h₂
    have h₃ := Nat.lt_of_le_of_lt h₂ h₁
    exact (ih h).imp_left fun h => Nat.lt_trans h h₃
  | case4 stack s b rest' hs value' rest'' hstep =>
    have h₁ := length_of_skipBlank hs
    have h₂ := length_step_le stack b rest'
    rw [hstep] at h₂
    cases h
    exact .inl (Nat.lt_of_le_of_lt h₂ h₁)
  | case5 => simp at h

theorem length_of_operand_cons {stack : List (Container K)} {b : UInt8} {s rest : Bytes}
    {value : Option (Operand K)} (h : operand stack (b :: s) = .ok (value, rest)) :
    rest.length < s.length + 1 := by
  rcases length_of_operand h with h | h
  · simpa using h
  · simp [h]

/-- The text of bytes in the ASCII range. -/
def asciiText (s : Bytes) : String := String.ofList (s.map fun b => Char.ofNat b.toNat)

/-- The parameters of an inline image up to its `ID`, and what follows. Words that are no key are
passed over. -/
def imageParameters (startLeft : Nat) (entries : Dictionary K) (s : Bytes) :
    Except Fault (Dictionary K × Bytes) :=
  match hs : skipBlank s with
  | [] => .error ⟨.inlineImage, startLeft, 0⟩
  | b :: rest =>
    if b == 0x2F then
      match h : operand (K := K) [] (afterWord rest) with
      | .error fault => .error fault
      | .ok (some value, after) =>
        imageParameters startLeft (entries.insert (nameText (word rest)) value) after
      | .ok (none, after) => imageParameters startLeft entries after
    else if isRegular b then
      if b :: word rest == [0x49, 0x44] then .ok (entries, afterWord rest)
      else imageParameters startLeft entries (afterWord rest)
    else
      match h : operand (K := K) [] (b :: rest) with
      | .error fault => .error fault
      | .ok (_, after) => imageParameters startLeft entries after
termination_by s.length
decreasing_by
  all_goals
    have h₁ := length_of_skipBlank hs
    have h₂ := length_afterWord_le rest
  · have h₃ := length_of_operand h
    rcases h₃ with h₃ | h₃
    · omega
    · subst h₃; simp; omega
  · have h₃ := length_of_operand h
    rcases h₃ with h₃ | h₃
    · omega
    · subst h₃; simp; omega
  · omega
  · have h₃ := length_of_operand_cons h
    omega

/-- Where the data of an ASCII filter ends, as its own end mark says. -/
def asciiDataLength? : (filters : List String) → (data : Bytes) → Option Nat
  | filter :: _, data =>
    if filter == "AHx" || filter == "ASCIIHexDecode" then
      (data.findIdx? fun b => b == 0x3E).map fun i => i + 1
    else if filter == "A85" || filter == "ASCII85Decode" then tilde data
    else none
  | [], _ => none
where
  tilde : Bytes → Option Nat
    | 0x7E :: 0x3E :: _ => some 2
    | _ :: rest => (tilde rest).map fun n => n + 1
    | [] => none

/-- Whether an `EI` before these bytes can be the end of an image: a word ends there, and what follows
looks like content. -/
def endsImage (rest : Bytes) : Bool :=
  (match rest with
    | [] => true
    | b :: _ => isBlank b || isDelimiter b) && (rest.take 10).all isPlausible

/-- How many bytes stand before the `EI` that ends the image. It counts only at a boundary: at the
start, or after white space. -/
def endMarker? (boundary : Bool) : Bytes → Option Nat
  | [] => none
  | b :: rest =>
    match b, rest with
    | 0x45, 0x49 :: after =>
      if boundary && endsImage after then some 0
      else (endMarker? false rest).map fun n => n + 1
    | _, _ => (endMarker? (isBlank b) rest).map fun n => n + 1

/-- Drops one white-space byte at the end. -/
def dropLastBlank (data : Bytes) : Bytes :=
  if data.getLast?.any isBlank then data.dropLast else data

/-- The image between `BI` and `EI`, and what follows. -/
def inlineImage (startLeft : Nat) (s : Bytes) : Except Fault (InlineImage K × Bytes) := do
  let (parameters, afterId) ← imageParameters (K := K) startLeft [] s
  let data := match afterId with
    | b :: rest => if isBlank b then rest else afterId
    | [] => []
  let image : InlineImage K := ⟨parameters, []⟩
  let searchFrom := (asciiDataLength? image.filters data).getD 0
  match endMarker? true (data.drop searchFrom) with
  | none => .error ⟨.inlineImage, startLeft, data.length⟩
  | some n =>
    .ok ({ image with data := dropLastBlank (data.take (searchFrom + n)) }, data.drop (searchFrom + n + 2))

/-- A byte that only closes something, where nothing is open. -/
def isStray (b : UInt8) : Bool := b == 0x5D || b == 0x7B || b == 0x7D || b == 0x29 || b == 0x3E

/-- The next token and what follows it; none at the end. -/
def next (s : Bytes) : Except Fault (Option (Token K × Bytes)) :=
  match hs : skipBlank s with
  | [] => .ok none
  | b :: rest =>
    if isStray b then next rest
    else if isRegular b && !startsNumber b then
      let text := b :: word rest
      if !text.all isGraphic then next (afterWord rest)
      else
        match asciiText text with
        | "true" => .ok (some (.operand (.boolean true), afterWord rest))
        | "false" => .ok (some (.operand (.boolean false), afterWord rest))
        | "null" => .ok (some (.operand .null, afterWord rest))
        | "BI" =>
          match inlineImage (K := K) (rest.length + 1) (afterWord rest) with
          | .error fault => .error fault
          | .ok (image, after) =>
            .ok (some (.operator ((Operator.plain "BI").withImage ⟨rest.length + 1, image⟩), after))
        | keyword => .ok (some (.operator (Operator.plain keyword), afterWord rest))
    else
      match h : operand (K := K) [] (b :: rest) with
      | .error fault => .error fault
      | .ok (some value, after) => .ok (some (.operand value, after))
      | .ok (none, after) => next after
termination_by s.length
decreasing_by
  all_goals
    have h₁ := length_of_skipBlank hs
    have h₂ := length_afterWord_le rest
  · omega
  · omega
  · have h₃ := length_of_operand_cons h
    omega

end PdfContent.Content
