import PdfContent.Proofs.ClosingMarks

/-!
# What content opens, and whether it closes it again

Strings, arrays, dictionaries and inline images each have a mark that opens and one that closes
them. `Whole` tells what is read of bytes at whose start a value is written that is closed, together
with all that is opened inside of it. `Broken` tells of bytes that end before, and lists what has been
opened and not closed by then, innermost first. `Unclosed` says the same of whole content.

Arrays, dictionaries and the parameters of an image are read in the same way, one value after
another until the closing mark. So there is one rule each for the end of such a loop, for a value in it, and
for what is passed over; the loops differ in what they meet next.
-/

namespace PdfContent.Content

/-- What is opened by one mark and closed by another. -/
inductive Enclosure
  | literalString
  | hexString
  | array
  | dictionary
  | inlineImage
  deriving DecidableEq, Repr

/-- An enclosure that has been opened, and how many bytes were left where it starts. -/
structure Opening where
  enclosure : Enclosure
  startLeft : Nat
  deriving DecidableEq, Repr

/-- What is read value by value until a closing mark. -/
inductive Loop
  | items
  | entries
  | parameters
  deriving DecidableEq, Repr

/-- What a loop finds at the next place that is not passed over: nothing any more, its closing mark
and what follows that, the place of a value, after a key or without one, or a word that is none. -/
inductive Meeting
  | nothing
  | closing (rest : Bytes)
  | slot (key : Option String) (place : Bytes)
  | passing (rest : Bytes)

/-- The place of the value after a key that starts in front of these bytes. -/
def Meeting.ofKey (s : Bytes) : Meeting :=
  match skipBlank (afterWord s) with
  | [] => .nothing
  | b :: rest => .slot (some (nameText (word s))) (b :: rest)

namespace Loop

/-- An array is closed by `]`, a dictionary by `>>`, and the parameters of an image by `ID`. -/
def meets (l : Loop) (s : Bytes) : Meeting :=
  match skipBlank s with
  | [] => .nothing
  | b :: rest =>
    match l with
    | .items => if b = 0x5D then .closing rest else .slot none (b :: rest)
    | .entries =>
      if b = 0x3E ∧ rest.head? = some 0x3E then .closing rest.tail
      else if b = 0x2F then .ofKey rest
      else .slot none (b :: rest)
    | .parameters =>
      if b = 0x2F then .ofKey rest
      else if isRegular b then
        if b :: word rest = [0x49, 0x44] then .closing (afterWord rest)
        else .passing (afterWord rest)
      else .slot none (b :: rest)

variable (K : Type)

/-- What is collected. -/
abbrev Data : Loop → Type
  | .items => List (Operand K)
  | .entries => Dictionary K
  | .parameters => Dictionary K

variable {K}

/-- A value counts in a dictionary only after a key. -/
def add : (l : Loop) → l.Data K → (key : Option String) → Option (Operand K) → l.Data K
  | .items, values, _, value => values ++ value.toList
  | .entries, d, some key, some value => Dictionary.insert d key value
  | .entries, d, _, _ => d
  | .parameters, d, some key, some value => Dictionary.insert d key value
  | .parameters, d, _, _ => d

end Loop

/-- What stands next between tokens: nothing any more, a bracket that closes nothing, a word that is
no number, the word `BI` with the number of bytes that are left where it starts, or else a value. -/
inductive Place
  | nothing
  | stray (rest : Bytes)
  | keyword (text rest : Bytes)
  | image (startLeft : Nat) (rest : Bytes)
  | value (s : Bytes)

def Place.of (s : Bytes) : Place :=
  match skipBlank s with
  | [] => .nothing
  | b :: rest =>
    if isStray b then .stray rest
    else if isRegular b && !startsNumber b then
      if b :: word rest = [0x42, 0x49] then .image (rest.length + 1) (afterWord rest)
      else .keyword (b :: word rest) (afterWord rest)
    else .value (b :: rest)

/-- What is read: what stands in the place of a value, if that is one, or what a loop collects in
the end when it has some data already. -/
inductive Part (K : Type)
  | value (value : Option (Operand K))
  | loop (l : Loop) (before all : l.Data K)

section

variable (K : Type) [Scalar K]

/-- The bytes start with the part, up to the closing mark of each enclosure in it, and go on with
the second ones. -/
inductive Whole : Part K → Bytes → Bytes → Prop
  | literal {value text rest : Bytes} : LiteralText value text →
      Whole (.value (some (.literal value))) (0x28 :: text ++ 0x29 :: rest) rest
  | hexadecimal {digits rest : Bytes} : digits.head? ≠ some 0x3C → 0x3E ∉ digits →
      Whole (.value (some (.hexadecimal (pairDigits (digits.filterMap hexValue?)))))
        (0x3C :: digits ++ 0x3E :: rest) rest
  | array {values : List (Operand K)} {s rest : Bytes} : Whole (.loop .items [] values) s rest →
      Whole (.value (some (.array values))) (0x5B :: s) rest
  | dictionary {d : Dictionary K} {s rest : Bytes} : Whole (.loop .entries [] d) s rest →
      Whole (.value (some (.dictionary d))) (0x3C :: 0x3C :: s) rest
  | name (s : Bytes) :
      Whole (.value (some (.name (nameText (word s))))) (0x2F :: s) (afterWord s)
  | number {b : UInt8} (s : Bytes) : startsNumber b →
      Whole (.value (numberValue? (numberText (b :: s)))) (b :: s) (afterNumber (b :: s))
  | word {b : UInt8} (s : Bytes) : isRegular b → startsNumber b = false →
      Whole (.value (some (constant (Text.decodeUtf8 (b :: word s))))) (b :: s) (afterWord s)
  | stray {b : UInt8} (s : Bytes) : isStray b → Whole (.value none) (b :: s) s
  | closed {l : Loop} {data : l.Data K} {s rest : Bytes} : l.meets s = .closing rest →
      Whole (.loop l data data) s rest
  | passed {l : Loop} {before all : l.Data K} {s t rest : Bytes} : l.meets s = .passing t →
      Whole (.loop l before all) t rest → Whole (.loop l before all) s rest
  | filled {l : Loop} {before all : l.Data K} {key : Option String} {value : Option (Operand K)}
      {s t u rest : Bytes} : l.meets s = .slot key t → Whole (.value value) t u →
      Whole (.loop l (l.add before key value) all) u rest → Whole (.loop l before all) s rest

/-- The bytes end inside of a value, or of a loop, and some enclosures in it are not closed. -/
inductive Broken : Option Loop → Bytes → List Opening → Prop
  | literal {s : Bytes} : (∀ value text rest, LiteralText value text → s ≠ text ++ 0x29 :: rest) →
      Broken none (0x28 :: s) [⟨.literalString, s.length + 1⟩]
  | hexadecimal {s : Bytes} : s.head? ≠ some 0x3C → 0x3E ∉ s →
      Broken none (0x3C :: s) [⟨.hexString, s.length + 1⟩]
  | array {s : Bytes} {inner : List Opening} : Broken (some .items) s inner →
      Broken none (0x5B :: s) (inner ++ [⟨.array, s.length + 1⟩])
  | dictionary {s : Bytes} {inner : List Opening} : Broken (some .entries) s inner →
      Broken none (0x3C :: 0x3C :: s) (inner ++ [⟨.dictionary, s.length + 2⟩])
  | ends {l : Loop} {s : Bytes} : l.meets s = .nothing → Broken (some l) s []
  | passed {l : Loop} {s t : Bytes} {inner : List Opening} : l.meets s = .passing t →
      Broken (some l) t inner → Broken (some l) s inner
  | inside {l : Loop} {key : Option String} {s t : Bytes} {inner : List Opening} :
      l.meets s = .slot key t → Broken none t inner → Broken (some l) s inner
  | filled {l : Loop} {key : Option String} {value : Option (Operand K)} {s t u : Bytes}
      {inner : List Opening} : l.meets s = .slot key t → Whole K (.value value) t u →
      Broken (some l) u inner → Broken (some l) s inner

variable {K}

/-- The data of an image with these parameters, where the bytes follow `ID`: one byte of white space
is left out. -/
def imageData (afterId : Bytes) : Bytes :=
  match afterId with
  | b :: rest => if isBlank b then rest else afterId
  | [] => []

/-- How many bytes belong to the data whatever they are: none, or those up to an end mark. -/
def searchFrom (d : Dictionary K) (data : Bytes) : Nat :=
  (asciiDataLength? (InlineImage.filters ⟨d, []⟩) data).getD 0

/-- The bytes among which the end of the data is looked for. -/
def searched (d : Dictionary K) (data : Bytes) : Bytes := data.drop (searchFrom d data)

variable (K)

/-- Content ends while these enclosures are open, innermost first. -/
inductive Unclosed : Bytes → List Opening → Prop
  | nothing {s : Bytes} : Place.of s = .nothing → Unclosed s []
  | stray {s rest : Bytes} {left : List Opening} : Place.of s = .stray rest →
      Unclosed rest left → Unclosed s left
  | keyword {s text rest : Bytes} {left : List Opening} : Place.of s = .keyword text rest →
      Unclosed rest left → Unclosed s left
  | value {s t rest : Bytes} {value : Option (Operand K)} {left : List Opening} :
      Place.of s = .value t → Whole K (.value value) t rest → Unclosed rest left → Unclosed s left
  | insideValue {s t : Bytes} {left : List Opening} : Place.of s = .value t →
      Broken K none t left → Unclosed s left
  | image {startLeft : Nat} {s t afterId before rest : Bytes} {d : Dictionary K}
      {left : List Opening} : Place.of s = .image startLeft t →
      Whole K (.loop .parameters [] d) t afterId →
      FirstMark EndMark (searched d (imageData afterId)) before rest → Unclosed rest left →
      Unclosed s left
  | insideParameters {startLeft : Nat} {s t : Bytes} {inner : List Opening} :
      Place.of s = .image startLeft t → Broken K (some .parameters) t inner →
      Unclosed s (inner ++ [⟨.inlineImage, startLeft⟩])
  | insideData {startLeft : Nat} {s t afterId : Bytes} {d : Dictionary K} :
      Place.of s = .image startLeft t → Whole K (.loop .parameters [] d) t afterId →
      (∀ before after, searched d (imageData afterId) = before ++ 0x45 :: 0x49 :: after →
        ¬EndMark before after) →
      Unclosed s [⟨.inlineImage, startLeft⟩]

end

/-! ### The loops of the reader -/

section Loops

variable {K : Type} {b : UInt8} {s t rest : Bytes}

namespace Loop

/-- What reading gives at the closing mark. -/
abbrev Result (K : Type) : Loop → Type
  | .items => Option (Operand K)
  | .entries => Option (Operand K)
  | .parameters => Dictionary K

def result : (l : Loop) → l.Data K → l.Result K
  | .items, values => some (.array values)
  | .entries, d => some (.dictionary d)
  | .parameters, d => d

/-- The construct that the loop belongs to. -/
def construct : Loop → Construct
  | .items => .array
  | .entries => .dictionary
  | .parameters => .inlineImage

/-- The reader of the loop, for an enclosure that starts where so many bytes are left. -/
def read [Scalar K] (startLeft : Nat) :
    (l : Loop) → l.Data K → Bytes → Except Fault (l.Result K × Bytes)
  | .items, values, s => operand [.array startLeft values] s
  | .entries, d, s => operand [.dictionary startLeft d] s
  | .parameters, d, s => imageParameters startLeft d s

end Loop

theorem operand_skipBlank [Scalar K] (found : skipBlank s = b :: rest) :
    operand (K := K) [] (b :: rest) = operand [] s := by
  rw [operand_of_skipBlank found, operand_of_skipBlank (skipBlank_idem found)]

/-- A turn that reads a value comes to the value and the rest of the loop. -/
theorem Turn.run_ofValue [Scalar K] {ι ρ : Type} (data : Option (Operand K) → ι) (s : Bytes)
    (loop : ι → Bytes → Except Fault ρ) :
    (match Turn.ofValue data s with
      | .again d rest => loop d rest
      | .done result => result) = (operand [] s).bind fun r => loop (data r.1) r.2 := by
  rw [Turn.ofValue]
  cases operand (K := K) [] s <;> rfl

variable (K) in
/-- The loop does what it meets. -/
def Loop.Follows [Scalar K] (l : Loop) : Prop :=
  ∀ (startLeft : Nat) (data : l.Data K) (s : Bytes),
    l.read startLeft data s =
      match l.meets s with
      | .nothing => .error ⟨l.construct, startLeft, 0⟩
      | .closing rest => .ok (l.result data, rest)
      | .passing rest => l.read startLeft data rest
      | .slot key t =>
        (operand [] t).bind fun r => l.read startLeft (l.add data key r.1) r.2

theorem Loop.follows_items [Scalar K] : Loop.items.Follows K := by
  intro startLeft values s
  refine ((drives_array startLeft).unfolds values s).trans ?_
  rw [arrayTurn, meets]
  cases found : skipBlank s with
  | nil => rfl
  | cons b rest =>
      by_cases closing : b = 0x5D
      · simp only [closing]
        rfl
      · simp only [closing, beq_iff_eq, if_false]
        exact Turn.run_ofValue ..

theorem Loop.follows_entries [Scalar K] : Loop.entries.Follows K := by
  intro startLeft d s
  refine ((drives_dictionary startLeft).unfolds d s).trans ?_
  rw [dictionaryTurn, meets]
  cases found : skipBlank s with
  | nil => rfl
  | cons b rest =>
      by_cases closing : b = 0x3E ∧ rest.head? = some 0x3E
      · simp only [closing]
        rfl
      by_cases key : b = 0x2F
      · subst key
        dsimp only [Meeting.ofKey]
        cases found' : skipBlank (afterWord rest) with
        | nil => rfl
        | cons c later =>
            refine (Turn.run_ofValue ..).trans ?_
            congr 1
            funext r
            obtain ⟨value, after⟩ := r
            cases value <;> rfl
      · simp only [closing, key, beq_iff_eq, Bool.and_eq_true, if_false]
        exact Turn.run_ofValue ..

theorem imageParameters_nil [Scalar K] (startLeft : Nat) (d : Dictionary K) :
    imageParameters startLeft d [] = .error ⟨.inlineImage, startLeft, 0⟩ := by
  rw [(drives_parameters startLeft).unfolds, parameterTurn, skipBlank.eq_1]

theorem Loop.follows_parameters [Scalar K] : Loop.parameters.Follows K := by
  intro startLeft d s
  refine ((drives_parameters startLeft).unfolds d s).trans ?_
  rw [parameterTurn, meets]
  cases found : skipBlank s with
  | nil => rfl
  | cons b rest =>
      by_cases key : b = 0x2F
      · subst key
        dsimp only [Meeting.ofKey]
        refine (Turn.run_ofValue ..).trans ?_
        cases found' : skipBlank (afterWord rest) with
        | nil =>
            rw [operand_of_nothing found']
            exact imageParameters_nil startLeft d
        | cons c later =>
            rw [← operand_skipBlank found']
            congr 1
            funext r
            obtain ⟨value, after⟩ := r
            cases value <;> rfl
      by_cases regular : isRegular b
      · by_cases closing : b :: word rest = [0x49, 0x44]
        · simp only [key, regular, closing, beq_iff_eq, if_false, if_true]
          rfl
        · simp only [key, regular, closing, beq_iff_eq, if_false, if_true]
          rfl
      · simp only [key, regular, beq_iff_eq, if_false]
        exact Turn.run_ofValue ..

theorem Loop.read_eq [Scalar K] (startLeft : Nat) (l : Loop) (data : l.Data K) (s : Bytes) :
    l.read startLeft data s =
      match l.meets s with
      | .nothing => .error ⟨l.construct, startLeft, 0⟩
      | .closing rest => .ok (l.result data, rest)
      | .passing rest => l.read startLeft data rest
      | .slot key t =>
        (operand [] t).bind fun r => l.read startLeft (l.add data key r.1) r.2 := by
  cases l with
  | items => exact follows_items startLeft data s
  | entries => exact follows_entries startLeft data s
  | parameters => exact follows_parameters startLeft data s

end Loops

end PdfContent.Content
