import Mathlib.Data.List.Induction
import Mathlib.Data.Prod.Lex
import Mathlib.Order.WellFounded
import PdfContent.Document.ColorSpace
import PdfContent.Document.ObjectTable
import PdfContent.Document.Page
import PdfContent.Scalar.Whole

/-!
# Look-ups that go in circles

What a document has under a number may be any object, or nothing, so its objects may refer to each other
in circles, or in chains of any length or without an end. Four look-ups follow them: references to what they lead to, nodes of the page tree to those
above, colour spaces to the spaces they are built on, and objects to the parts of an operand. Each is
given here as a recursion that counts what it has followed, without a bound on the number of calls. A
recursion ends if no call is the start of endlessly many calls within each other; then its equations
have one solution, and that is the look-up of the library.
-/

namespace PdfContent

/-! ### Recursions -/

/-- What a call computes from the answers to the calls that it makes, and which those are. -/
structure Recursion (ι α : Type) where
  body : (ι → α) → ι → α
  /-- The first call is made in answering the second. -/
  Calls : ι → ι → Prop
  determined : ∀ {f g : ι → α} {x : ι}, (∀ y, Calls y x → f y = g y) → body f x = body g x

namespace Recursion

variable {ι α : Type} {r : Recursion ι α} {f g : ι → α}

/-- Answers that satisfy the equations of a recursion. -/
def Computes (r : Recursion ι α) (f : ι → α) : Prop := ∀ x, f x = r.body f x

/-- Calls within calls come to an end, so that there is an answer to each, and only one. -/
structure EndsWith (r : Recursion ι α) (f : ι → α) : Prop where
  ends : WellFounded r.Calls
  computes : r.Computes f
  only : ∀ g, r.Computes g → g = f

/-- Answers to calls that come to an end do not depend on anything else than the equations. -/
theorem Computes.unique (ends : WellFounded r.Calls) (first : r.Computes f) (second : r.Computes g) :
    f = g := by
  funext x
  induction x using ends.induction with
  | _ x ih => rw [first x, second x, r.determined ih]

theorem EndsWith.of_computes (ends : WellFounded r.Calls) (computes : r.Computes f) : r.EndsWith f :=
  ⟨ends, computes, fun _ other => other.unique ends computes⟩

/-- Calls that count up to a limit come to an end. -/
theorem wellFounded_of_counted {β : Type} {calls : Nat × β → Nat × β → Prop} (limit : Nat)
    (counted : ∀ {y x}, calls y x → x.1 < limit ∧ y.1 = x.1 + 1) : WellFounded calls := by
  have measured : Subrelation calls (InvImage (· < ·) fun x : Nat × β => limit - x.1) := by
    intro y x call
    obtain ⟨below, next⟩ := counted call
    simp only [InvImage]
    omega
  exact measured.wf (InvImage.wf _ Nat.lt_wfRel.wf)

end Recursion

namespace Document

variable {K : Type}

/-! ### References -/

/-- Following references, counted from the first one on. -/
def following (d : Document K) : Recursion (Nat × Object K) (Object K) where
  body call := fun (count, o) =>
    if count < 8 then
      match o with
      | .reference id =>
        match d.find id with
        | .ok next => call (count + 1, next)
        | .error _ => .null
      | o => o
    else o
  Calls := fun (count', next) (count, o) => count < 8 ∧ count' = count + 1 ∧
    ∃ id, o = .reference id ∧ d.find id = .ok next
  determined := by
    rintro f g ⟨count, o⟩ same
    dsimp only
    split
    next within =>
      cases o with
      | reference id =>
          dsimp only
          cases found : d.find id with
          | ok next => exact same _ ⟨within, rfl, id, rfl, found⟩
          | error => rfl
      | _ => rfl
    · rfl

theorem following_endsWith (d : Document K) :
    d.following.EndsWith fun (count, o) => d.resolveWithin (8 - count) o := by
  refine .of_computes (Recursion.wellFounded_of_counted 8 fun call => ⟨call.1, call.2.1⟩) ?_
  rintro ⟨count, o⟩
  simp only [following]
  split
  next within =>
    have left : 8 - count = 8 - (count + 1) + 1 := by omega
    rw [left]
    cases o <;> rfl
  next beyond =>
    have none_left : 8 - count = 0 := by omega
    rw [none_left]
    rfl

/-! ### The page tree -/

/-- Looking for an entry in a node and in those above it, counted from the first node on. -/
def ascending (d : Document K) (key : String) :
    Recursion (Nat × ObjectEntries K) (Except ReadError (Option (Object K))) where
  body call := fun (count, node) =>
    if count < 64 then
      match node.at? key with
      | some o => .ok (some (d.resolve o))
      | none =>
        match (node.at? "Parent").bind Object.reference? with
        | none => .ok none
        | some id =>
          match d.findDictionary id with
          | .ok parent => call (count + 1, parent)
          | .error e => .error (.parse ("invalid /Parent reference: " ++ e))
    else .error (.parse "page tree is too deep")
  Calls := fun (count', parent) (count, node) => count < 64 ∧ count' = count + 1 ∧
    ∃ id, (node.at? "Parent").bind Object.reference? = some id ∧ d.findDictionary id = .ok parent
  determined := by
    rintro f g ⟨count, node⟩ same
    dsimp only
    split
    next within =>
      cases node.at? key with
      | some o => rfl
      | none =>
          dsimp only
          cases above : (node.at? "Parent").bind Object.reference? with
          | none => rfl
          | some id =>
              dsimp only
              cases found : d.findDictionary id with
              | ok parent => exact same _ ⟨within, rfl, id, above, found⟩
              | error => rfl
    · rfl

theorem ascending_endsWith (d : Document K) (key : String) :
    (d.ascending key).EndsWith fun (count, node) => Page.inheritedFrom d key (64 - count) node := by
  refine .of_computes (Recursion.wellFounded_of_counted 64 fun call => ⟨call.1, call.2.1⟩) ?_
  rintro ⟨count, node⟩
  simp only [ascending]
  split
  next within =>
    have left : 64 - count = 64 - (count + 1) + 1 := by omega
    rw [left]
    rfl
  next beyond =>
    have none_left : 64 - count = 0 := by omega
    rw [none_left]
    rfl

end Document

/-! ### Colour spaces -/

/-- How many spaces a space consists of that are built on one another. -/
def ColorSpace.levels : ColorSpace → Nat
  | .iccBased _ alternate => alternate.levels + 1
  | .indexed base _ _ => base.levels + 1
  | .separation _ alternate => alternate.levels + 1
  | .deviceN _ alternate => alternate.levels + 1
  | .pattern (some underlying) => underlying.levels + 1
  | _ => 1

namespace Document

variable {K : Type} [Scalar K] {d : Document K} {scope : ObjectEntries K} {space : ColorSpace}

/-- Reading a colour space, with its depth in the one that was asked for. -/
def reading (d : Document K) (scope : ObjectEntries K) :
    Recursion (Nat × Object K) (Option ColorSpace) where
  body call := fun (depth, o) =>
    if 8 < depth then none
    else
      let inner := fun part => call (depth + 1, part)
      match d.resolve o with
      | .name bytes =>
        let name := Text.decodeUtf8 bytes
        (namedSpace? name).or ((d.resource? scope "ColorSpace" name).bind inner)
      | .array (family :: parameters) => do
        familySpace? d inner (← (d.resolve family).name?) parameters
      | _ => none
  Calls := fun (depth', _) (depth, _) => depth ≤ 8 ∧ depth' = depth + 1
  determined := by
    rintro f g ⟨depth, o⟩ same
    dsimp only
    split
    · rfl
    next within =>
      have inner : (fun part => f (depth + 1, part)) = fun part => g (depth + 1, part) :=
        funext fun part => same _ ⟨Nat.not_lt.mp within, rfl⟩
      rw [inner]

theorem reading_endsWith (d : Document K) (scope : ObjectEntries K) :
    (d.reading scope).EndsWith fun (depth, o) =>
      d.colorSpaceWithin scope (9 - depth) o := by
  refine .of_computes (Recursion.wellFounded_of_counted 9 fun ⟨within, next⟩ =>
    ⟨Nat.lt_succ_of_le within, next⟩) ?_
  rintro ⟨depth, o⟩
  simp only [reading]
  split
  next beyond =>
    have none_left : 9 - depth = 0 := by omega
    rw [none_left]
    rfl
  next within =>
    have left : 9 - depth = 9 - (depth + 1) + 1 := by omega
    rw [left]
    rfl

omit [Scalar K] in
theorem levels_of_namedSpace? {name : String} (known : namedSpace? name = some space) :
    space.levels = 1 := by
  unfold namedSpace? ColorSpace.ofDeviceName? at known
  split at known
  · cases known; rfl
  · cases known; rfl
  · cases known; rfl
  · split at known <;> cases known <;> rfl

theorem levels_profileSpace (count : Nat) : (profileSpace count).levels = 1 := by
  unfold profileSpace
  split <;> rfl

/-- A space of a family is built on one space at most. -/
theorem levels_of_familySpace? {inner : Object K → Option ColorSpace} {family : String}
    {parameters : List (Object K)} {n : Nat} (positive : 1 ≤ n)
    (below : ∀ o space, inner o = some space → space.levels ≤ n)
    (read : familySpace? d inner family parameters = some space) : space.levels ≤ n + 1 := by
  unfold familySpace? at read
  simp only [Option.bind_eq_bind, Option.pure_def] at read
  split at read <;> try simp only [Option.bind_eq_some_iff, Option.some.injEq] at read
  case h_1 =>
    obtain ⟨_, -, profile, -, rfl⟩ := read
    refine Nat.succ_le_succ ?_
    cases alternate : (profile.entries.at? "Alternate").bind inner with
    | none => exact (levels_profileSpace _).trans_le positive
    | some space =>
        obtain ⟨o, -, isSpace⟩ := Option.bind_eq_some_iff.mp alternate
        exact below o space isSpace
  case h_2 | h_3 =>
    obtain ⟨o, -, base, isBase, _, -, high, -, _, -, read⟩ := read
    obtain ⟨table, rfl⟩ : ∃ table, base.indexed (natural32 high) table = space := by
      split at read <;> obtain ⟨table, -, isSpace⟩ := Option.bind_eq_some_iff.mp read <;>
        exact ⟨table, Option.some.inj isSpace⟩
    exact Nat.succ_le_succ (below o base isBase)
  case h_4 | h_5 =>
    obtain ⟨_, -, _, -, o, -, alternate, isAlternate, rfl⟩ := read
    exact Nat.succ_le_succ (below o alternate isAlternate)
  case h_6 =>
    subst read
    cases underlying : parameters[0]?.bind inner with
    | none => exact positive.trans (Nat.le_succ n)
    | some space =>
        obtain ⟨o, -, isSpace⟩ := Option.bind_eq_some_iff.mp underlying
        exact Nat.succ_le_succ (below o space isSpace)
  case h_7 =>
    split at read
    · exact (levels_of_namedSpace? read).trans_le (Nat.succ_le_succ (Nat.zero_le n))
    · cases read

/-- A space that is read with less of the bound left is that much simpler. -/
theorem levels_le (bound : Nat) (o : Object K)
    (read : d.colorSpaceWithin scope bound o = some space) : space.levels ≤ bound + 1 := by
  induction bound generalizing o space with
  | zero => cases read
  | succ bound ih =>
      rw [colorSpaceWithin] at read
      split at read
      · rw [Option.or_eq_some_iff] at read
        obtain known | ⟨-, named⟩ := read
        · exact (levels_of_namedSpace? known).trans_le (Nat.succ_le_succ (Nat.zero_le _))
        · obtain ⟨part, -, isSpace⟩ := Option.bind_eq_some_iff.mp named
          exact (ih part isSpace).trans (Nat.le_succ _)
      · obtain ⟨family, -, isSpace⟩ := Option.bind_eq_some_iff.mp read
        exact levels_of_familySpace? (Nat.succ_le_succ (Nat.zero_le _)) (fun part _ => ih part) isSpace
      · cases read

end Document

/-! ### Operands -/

namespace Dictionary

variable {K : Type} {key : String}

theorem get?_insert (d : Dictionary K) (k : String) (value : Operand K) :
    (d.insert k value).get? key = if k = key then some value else d.get? key := by
  induction d with
  | nil =>
      by_cases same : k = key <;> simp [Dictionary.insert, get?, same]
  | cons entry rest ih =>
      have skip {k' : String} (v : Operand K) (tail : Dictionary K) : get? ((k', v) :: tail) key =
          if k' = key then some v else tail.get? key := by
        by_cases same : k' = key <;> simp [get?, same]
      obtain ⟨k', v⟩ := entry
      rw [Dictionary.insert]
      split
      next replaced =>
        obtain rfl : k = k' := by simpa using replaced
        rw [skip, skip]
        split <;> rfl
      next other =>
        have other : k ≠ k' := by simpa using other
        split
        · rw [skip]
        · rw [skip, skip, ih]
          by_cases found : k' = key
          · simp [found, found ▸ other]
          · simp [found]

/-- Of several entries with a key the last one stays. -/
theorem get?_ofList (entries : List (String × Operand K)) :
    (ofList entries).get? key =
      (entries.reverse.find? fun entry => entry.1 == key).map Prod.snd := by
  induction entries using List.reverseRecOn with
  | nil => rfl
  | append_singleton entries entry ih =>
      rw [ofList, List.foldl_append, List.foldl_cons, List.foldl_nil, get?_insert, ← ofList, ih,
        List.reverse_append, List.reverse_singleton, List.singleton_append, List.find?_cons]
      by_cases same : entry.1 = key
      · simp [same]
      · have other : (entry.1 == key) = false := beq_false_of_ne same
        rw [if_neg same, other]

end Dictionary

/-- From an array or a dictionary to one of its parts. -/
inductive Step
  | item (i : Nat)
  | entry (key : String)

def Operand.part? {K : Type} : Operand K → Step → Option (Operand K)
  | .array items, .item i => items[i]?
  | .dictionary entries, .entry key => Dictionary.get? entries key
  | _, _ => none

/-- What an operand has at the end of a path. -/
def Operand.at? {K : Type} (value : Operand K) : List Step → Option (Operand K)
  | [] => some value
  | step :: path => (value.part? step).bind fun part => part.at? path

namespace Object

variable {K : Type}

/-- The parts of an object that are objects, too. -/
def parts : Object K → List (Object K)
  | .array items => items
  | .dictionary entries => entries.map Prod.snd
  | .stream entries _ => entries.map Prod.snd
  | _ => []

/-- The part of an object that a part of its operand is made of. -/
def part? : Object K → Step → Option (Object K)
  | .array items, .item i => items[i]?
  | .dictionary entries, .entry key =>
    (entries.reverse.find? fun entry => Text.decodeUtf8 entry.1 == key).map Prod.snd
  | .stream entries _, .entry key =>
    (entries.reverse.find? fun entry => Text.decodeUtf8 entry.1 == key).map Prod.snd
  | _, _ => none

theorem mem_parts_of_part? {part o : Object K} {step : Step} (isPart : o.part? step = some part) :
    part ∈ o.parts := by
  have entry {entries : ObjectEntries K} {key : String}
      (isPart : (entries.reverse.find? fun entry => Text.decodeUtf8 entry.1 == key).map Prod.snd =
        some part) : part ∈ entries.map Prod.snd := by
    obtain ⟨entry, found, rfl⟩ := Option.map_eq_some_iff.mp isPart
    exact List.mem_map_of_mem (List.mem_reverse.mp (List.mem_of_find?_eq_some found))
  cases o with
  | array items =>
      cases step with
      | item i => exact List.mem_of_getElem? isPart
      | entry key => cases isPart
  | dictionary entries | stream entries =>
      cases step with
      | item i => cases isPart
      | entry key => exact entry isPart
  | _ => cases step <;> cases isPart

theorem sizeOf_lt_of_mem_parts {part o : Object K} (mem : part ∈ o.parts) :
    sizeOf part < sizeOf o := by
  have entry {entries : ObjectEntries K} (mem : part ∈ entries.map Prod.snd) :
      sizeOf part < sizeOf entries := by
    obtain ⟨⟨key, value⟩, isEntry, rfl⟩ := List.mem_map.mp mem
    have : sizeOf (key, value) < sizeOf entries := List.sizeOf_lt_of_mem isEntry
    rw [Prod.mk.sizeOf_spec] at this
    exact Nat.lt_of_le_of_lt (Nat.le_add_left ..) this
  cases o with
  | array items =>
      have : sizeOf part < sizeOf items := List.sizeOf_lt_of_mem mem
      rw [Object.array.sizeOf_spec]
      omega
  | dictionary entries =>
      have := entry mem
      rw [Object.dictionary.sizeOf_spec]
      omega
  | stream entries data =>
      have := entry mem
      rw [Object.stream.sizeOf_spec]
      omega
  | _ => cases mem

theorem plainItems_eq_map (items : List (Object K)) : plainItems items = items.map plainOperand := by
  induction items with
  | nil => rfl
  | cons o rest ih => rw [plainItems, ih, List.map_cons]

theorem plainEntries_eq_map (entries : ObjectEntries K) :
    plainEntries entries = entries.map fun e => (Text.decodeUtf8 e.1, plainOperand e.2) := by
  induction entries with
  | nil => rfl
  | cons e rest ih => rw [plainEntries, ih, List.map_cons]

end Object

namespace Document

variable {K : Type}

/-- Making an operand, with the depth of an object in the one that was given. -/
def making (d : Document K) : Recursion (Nat × Object K) (Operand K) where
  body call := fun (depth, o) =>
    let entries (es : ObjectEntries K) : Dictionary K :=
      Dictionary.ofList (es.map fun e => (Text.decodeUtf8 e.1, call (depth + 1, e.2)))
    match o with
    | .null => .null
    | .boolean b => .boolean b
    | .integer i => .integer i
    | .real x => .real x
    | .name bytes => .name (Text.decodeUtf8 bytes)
    | .string bytes => .literal bytes
    | .array items => .array (items.map fun item => call (depth + 1, item))
    | .dictionary es => .dictionary (entries es)
    | .stream es _ => .dictionary (entries es)
    | .reference id =>
      if depth < 4 then
        match d.find id with
        | .ok next => call (depth + 1, next)
        | .error _ => .null
      else .reference id.number id.generation
  Calls := fun (depth', part) (depth, o) => depth' = depth + 1 ∧
    (part ∈ o.parts ∨ ∃ id, depth < 4 ∧ o = .reference id ∧ d.find id = .ok part)
  determined := by
    rintro f g ⟨depth, o⟩ same
    have entries {es : ObjectEntries K} (all : ∀ e ∈ es, e.2 ∈ o.parts) :
        (es.map fun e => (Text.decodeUtf8 e.1, f (depth + 1, e.2))) =
          es.map fun e => (Text.decodeUtf8 e.1, g (depth + 1, e.2)) :=
      List.map_congr_left fun e mem => by rw [same _ ⟨rfl, .inl (all e mem)⟩]
    cases o with
    | array items =>
        exact congrArg Operand.array (List.map_congr_left fun item mem => same _ ⟨rfl, .inl mem⟩)
    | dictionary es =>
        exact congrArg (Operand.dictionary ∘ Dictionary.ofList)
          (entries fun e mem => List.mem_map_of_mem mem)
    | stream es _ =>
        exact congrArg (Operand.dictionary ∘ Dictionary.ofList)
          (entries fun e mem => List.mem_map_of_mem mem)
    | reference id =>
        dsimp only
        split
        next within =>
          cases found : d.find id with
          | ok next => exact same _ ⟨rfl, .inr ⟨id, within, rfl, found⟩⟩
          | error => rfl
        · rfl
    | _ => rfl

/-- A call follows one of finitely many references, or else is about a part of an object. -/
theorem making_ends (d : Document K) : WellFounded d.making.Calls := by
  let levelsAndSize : Nat × Object K → Nat ×ₗ Nat := fun x => toLex (4 - x.1, sizeOf x.2)
  have measured : Subrelation d.making.Calls (InvImage (· < ·) levelsAndSize) := by
    rintro ⟨_, part⟩ ⟨depth, o⟩ ⟨rfl, isPart | ⟨id, within, rfl, found⟩⟩
    · have smaller := Object.sizeOf_lt_of_mem_parts isPart
      simp only [InvImage, levelsAndSize, Prod.Lex.toLex_lt_toLex]
      omega
    · simp only [InvImage, levelsAndSize, Prod.Lex.toLex_lt_toLex]
      omega
  exact measured.wf (InvImage.wf _ wellFounded_lt)

theorem making_endsWith (d : Document K) :
    d.making.EndsWith fun (depth, o) => d.operandWithin (4 - depth) o := by
  refine .of_computes d.making_ends ?_
  rintro ⟨depth, o⟩
  by_cases within : depth < 4
  · have left : 4 - depth = 4 - (depth + 1) + 1 := by omega
    simp only [making, left]
    cases o with
    | reference id =>
        simp only [within, if_true]
        rfl
    | _ => rfl
  · have none_left : 4 - depth = 0 := by omega
    have none_later : 4 - (depth + 1) = 0 := by omega
    simp only [making, none_left, none_later, operandWithin]
    cases o with
    | array items => rw [Object.plainOperand, Object.plainItems_eq_map]
    | dictionary es => rw [Object.plainOperand, Object.plainEntries_eq_map]
    | stream es _ => rw [Object.plainOperand, Object.plainEntries_eq_map]
    | reference id => simp only [within, if_false]; rfl
    | _ => rfl

/-- What is met on a path into an object, and at which depth: each part and each reference that is
followed lies one deeper, and references are followed at depths below four. -/
inductive Meets (d : Document K) : (depth : Nat) → Object K → List Step → Nat → Object K → Prop
  | here (depth : Nat) (o : Object K) : Meets d depth o [] depth o
  | part {depth depth' : Nat} {o part o' : Object K} {step : Step} {path : List Step} :
      o.part? step = some part → Meets d (depth + 1) part path depth' o' →
      Meets d depth o (step :: path) depth' o'
  | followed {depth depth' : Nat} {id : ObjectId} {next o' : Object K} {path : List Step} :
      depth < 4 → d.find id = .ok next → Meets d (depth + 1) next path depth' o' →
      Meets d depth (.reference id) path depth' o'

/-- The operand of an object at some depth. -/
def operandFrom (d : Document K) (depth : Nat) (o : Object K) : Operand K :=
  d.operandWithin (4 - depth) o

theorem operandFrom_eq (d : Document K) (depth : Nat) (o : Object K) :
    d.operandFrom depth o = d.making.body (fun x => d.operandFrom x.1 x.2) (depth, o) :=
  d.making_endsWith.computes (depth, o)

/-- Apart from references, the parts of an operand are the operands of the parts. -/
theorem part?_operandFrom {d : Document K} {depth : Nat} {o : Object K}
    (direct : ∀ id, o ≠ .reference id) (step : Step) :
    (d.operandFrom depth o).part? step = (o.part? step).map (d.operandFrom (depth + 1)) := by
  have entries (es : ObjectEntries K) (key : String) :
      (Dictionary.ofList
          (es.map fun e => (Text.decodeUtf8 e.1, d.operandFrom (depth + 1) e.2))).get? key =
        ((es.reverse.find? fun e => Text.decodeUtf8 e.1 == key).map Prod.snd).map
          (d.operandFrom (depth + 1)) := by
    rw [Dictionary.get?_ofList, ← List.map_reverse, List.find?_map, Option.map_map, Option.map_map]
    rfl
  rw [operandFrom_eq]
  cases o with
  | reference id => exact absurd rfl (direct id)
  | array items =>
      cases step with
      | item i => simp [making, Operand.part?, Object.part?]
      | entry key => rfl
  | dictionary es =>
      cases step with
      | item i => rfl
      | entry key => exact entries es key
  | stream es _ =>
      cases step with
      | item i => rfl
      | entry key => exact entries es key
  | _ => cases step <;> rfl

/-- References come from references only. -/
theorem operandFrom_ne_reference {d : Document K} {depth : Nat} {o : Object K}
    (direct : ∀ id, o ≠ .reference id) (number generation : Nat) :
    d.operandFrom depth o ≠ .reference number generation := by
  rw [operandFrom_eq]
  cases o with
  | reference id => exact absurd rfl (direct id)
  | _ => intro same; cases same

theorem operandFrom_followed {d : Document K} {depth : Nat} {id : ObjectId} {next : Object K}
    (within : depth < 4) (found : d.find id = .ok next) :
    d.operandFrom depth (.reference id) = d.operandFrom (depth + 1) next := by
  rw [operandFrom_eq]
  simp only [making, within, if_true, found]

theorem operandFrom_kept {d : Document K} {depth : Nat} (beyond : 4 ≤ depth)
    (id : ObjectId) :
    d.operandFrom depth (.reference id) = .reference id.number id.generation := by
  rw [operandFrom_eq]
  simp only [making, Nat.not_lt.mpr beyond, if_false]

theorem operandFrom_missing {d : Document K} {depth : Nat} {id : ObjectId} {e : String}
    (within : depth < 4) (missing : d.find id = .error e) :
    d.operandFrom depth (.reference id) = .null := by
  rw [operandFrom_eq]
  simp only [making, within, if_true, missing]

/-- At the end of a path an operand has what is made of the object that is met there. -/
theorem Meets.at?_operandFrom {d : Document K} {depth depth' : Nat} {o o' : Object K}
    {path : List Step} (meets : d.Meets depth o path depth' o') :
    (d.operandFrom depth o).at? path = some (d.operandFrom depth' o') := by
  induction meets with
  | here => rfl
  | @part depth _ o part _ step _ isPart _ ih =>
      have direct : ∀ id, o ≠ .reference id := by
        rintro id rfl
        cases isPart
      rw [Operand.at?, part?_operandFrom direct, isPart]
      exact ih
  | followed within found _ ih => rw [operandFrom_followed within found, ih]

/-- A reference in an operand is one that was met too deep to be followed. -/
theorem meets_of_reference {d : Document K} {number generation : Nat} (x : Nat × Object K)
    (path : List Step)
    (kept : (d.operandFrom x.1 x.2).at? path = some (.reference number generation)) :
    ∃ depth, 4 ≤ depth ∧ d.Meets x.1 x.2 path depth (.reference ⟨number, generation⟩) := by
  induction x using d.making_ends.induction generalizing path with
  | _ x ih =>
    obtain ⟨depth, o⟩ := x
    by_cases direct : ∀ id, o ≠ .reference id
    · cases path with
      | nil => exact absurd (Option.some.inj kept) (operandFrom_ne_reference direct _ _)
      | cons step path =>
          rw [Operand.at?, part?_operandFrom direct] at kept
          cases isPart : o.part? step with
          | none =>
              rw [isPart] at kept
              cases kept
          | some part =>
              rw [isPart] at kept
              obtain ⟨depth', beyond, meets⟩ :=
                ih (depth + 1, part) ⟨rfl, .inl (Object.mem_parts_of_part? isPart)⟩ path kept
              exact ⟨depth', beyond, .part isPart meets⟩
    · obtain ⟨id, rfl⟩ : ∃ id, o = .reference id := by simpa using direct
      by_cases within : depth < 4
      · cases found : d.find id with
        | ok next =>
            rw [operandFrom_followed within found] at kept
            obtain ⟨depth', beyond, meets⟩ :=
              ih (depth + 1, next) ⟨rfl, .inr ⟨id, within, rfl, found⟩⟩ path kept
            exact ⟨depth', beyond, .followed within found meets⟩
        | error e =>
            rw [operandFrom_missing within found] at kept
            cases path <;> cases kept
      · have beyond := Nat.not_lt.mp within
        rw [operandFrom_kept beyond] at kept
        cases path with
        | nil =>
            cases kept
            exact ⟨depth, beyond, .here ..⟩
        | cons step path => cases kept

end Document

/-! ### All look-ups -/

/-- What bounds the look-ups of a document. Each is the first call of a recursion that ends. -/
structure Document.BoundedLookups {K : Type} [Scalar K] (d : Document K) : Prop where
  references : ∃ f, d.following.EndsWith f ∧ ∀ o, d.resolve o = f (0, o)
  tree : ∀ key, ∃ f, (d.ascending key).EndsWith f ∧ ∀ p : Page K, p.document = d →
    p.inherited? key = p.entries.bind fun node => f (0, node)
  /-- The space under a name of the resources is one deep already. -/
  spaces : ∀ scope, ∃ f, (d.reading scope).EndsWith f ∧
    (∀ o, d.colorSpace? scope o = f (0, o)) ∧
    (∀ name, d.namedColorSpace? scope name =
      (d.resource? scope "ColorSpace" name).bind fun o => f (1, o)) ∧
    ∀ depth o space, f (depth, o) = some space → space.levels ≤ 8 + 2
  /-- Where an operand has no levels left, no document is looked at. -/
  operands : ∃ f, d.making.EndsWith f ∧ (∀ o, d.toOperand o = f (0, o)) ∧
    ∀ depth o, 4 ≤ depth → f (depth, o) = o.plainOperand
  kept : ∀ o path number generation,
    (d.toOperand o).at? path = some (.reference number generation) ↔
      ∃ depth, 4 ≤ depth ∧ d.Meets 0 o path depth (.reference ⟨number, generation⟩)

/-- Whatever a document has under its numbers, its look-ups end: at most eight references are followed,
and 64 nodes of the page tree. A colour space has ten levels at most, and an operand has just those
references left that lie below its first four levels, with their own numbers. -/
theorem Document.boundedLookups {K : Type} [Scalar K] (d : Document K) : d.BoundedLookups where
  references := ⟨_, d.following_endsWith, fun _ => rfl⟩
  tree key := by
    refine ⟨_, d.ascending_endsWith key, ?_⟩
    rintro p rfl
    rfl
  spaces scope := by
    refine ⟨_, d.reading_endsWith scope, fun _ => rfl, fun _ => rfl, fun depth o space read => ?_⟩
    have simpler := levels_le _ o read
    omega
  operands := by
    refine ⟨_, d.making_endsWith, fun _ => rfl, fun depth o beyond => ?_⟩
    have none_left : 4 - depth = 0 := by omega
    simp only [none_left]
    rfl
  kept o path number generation := by
    refine ⟨meets_of_reference (0, o) path, fun ⟨depth, beyond, meets⟩ => ?_⟩
    rw [← operandFrom_kept beyond ⟨number, generation⟩]
    exact meets.at?_operandFrom

/-- A document in which references never end: each number leads to the next one, and from 100 on to an
array in which that stands. -/
def Document.endless : Document Int where
  find id :=
    let next : Object Int := .reference ⟨id.number + 1, id.generation⟩
    .ok (if id.number < 100 then next else .array [next])
  pageIds := []
  decode _ := .error ""
  wrongType _ _ := ""
  describe _ := ""

/-- Following stops at the eighth reference. An operand keeps the fifth one, and where two of the four
levels are arrays, the third one. -/
theorem Document.boundedLookups_endless :
    let d := Document.endless
    d.resolve (.reference ⟨1, 7⟩) = .reference ⟨9, 7⟩ ∧
      d.toOperand (.reference ⟨1, 7⟩) = .reference 5 7 ∧
      (d.toOperand (.reference ⟨100, 7⟩)).at? [.item 0, .item 0] = some (.reference 102 7) := by
  intro d
  have bounded := d.boundedLookups
  refine ⟨?_, ?_, ?_⟩
  · obtain ⟨f, ends, resolve_eq⟩ := bounded.references
    have next (count number : Nat) (within : count < 8) (small : number < 100) :
        f (count, .reference ⟨number, 7⟩) = f (count + 1, .reference ⟨number + 1, 7⟩) := by
      rw [ends.computes]
      simp [following, within, d, endless, small]
    have last (o : Object Int) : f (8, o) = o := by
      rw [ends.computes]
      rfl
    rw [resolve_eq, next, next, next, next, next, next, next, next, last] <;> decide
  · have kept := (bounded.kept (.reference ⟨1, 7⟩) [] 5 7).mpr ⟨4, le_rfl,
      .followed (by decide) rfl (.followed (by decide) rfl (.followed (by decide) rfl
        (.followed (by decide) rfl (.here 4 _))))⟩
    exact Option.some.inj kept
  · exact (bounded.kept (.reference ⟨100, 7⟩) [.item 0, .item 0] 102 7).mpr ⟨4, le_rfl,
      .followed (by decide) rfl (.part rfl (.followed (by decide) rfl
        (.part rfl (.here 4 _))))⟩

/-- The bound on colour spaces is attained by a profile that is its own alternate. -/
example :
    let table : ObjectTable Int :=
      { objects := [(⟨1, 0⟩, .array [.name (Text.encodeUtf8 "ICCBased"), .reference ⟨2, 0⟩]),
          (⟨2, 0⟩, .stream [(Text.encodeUtf8 "Alternate", .reference ⟨1, 0⟩)] [])]
        trailer := [] }
    ((table.document "").colorSpace? [] (.reference ⟨1, 0⟩)).map ColorSpace.levels = some (8 + 2) := by
  decide +kernel

end PdfContent
