import PdfContent.Proofs.IndexedValues
import PdfContent.Proofs.TokenTurns

/-!
# Images and tokens by index

Inline images and tokens are read with a cursor. The mark that ends an image is looked for with
accesses around the cursor: at it, at the byte after it, at the byte before it and at all that comes
later. The byte before it is there because it is looked at only after the first round of the search.
-/

-- The equations that matches are given below serve their termination proofs.
set_option linter.unusedVariables false

namespace PdfContent.Content

variable {K : Type} [Scalar K]

namespace Indexed

variable (s : Bytes)

/-! ### Inline images -/

/-- The parameters of an inline image up to its `ID`, and the place after it. -/
def imageParameters (startLeft : Nat) (entries : Dictionary K) (pos : Nat) :
    Except Halt (Dictionary K × Nat) :=
  match there : s[skipBlank s pos]? with
  | none => .error (.fault ⟨.inlineImage, startLeft, 0⟩)
  | some b =>
    if b == 0x2F then
      match named : name s (skipBlank s pos + 1) with
      | .error halt => .error halt
      | .ok (key, next) =>
        match read : operand (K := K) s [] next with
        | .error halt => .error halt
        | .ok (some value, after) => imageParameters startLeft (entries.insert key value) after
        | .ok (none, after) => imageParameters startLeft entries after
    else
      match worded : word s (skipBlank s pos) with
      | .error halt => .error halt
      | .ok (text, next) =>
        if text == [0x49, 0x44] then .ok (entries, next)
        else if text.isEmpty then
          match read : operand (K := K) s [] (skipBlank s pos) with
          | .error halt => .error halt
          | .ok (_, after) => imageParameters startLeft entries after
        else imageParameters startLeft entries next
termination_by s.length - pos
decreasing_by
  all_goals
    have reached := le_skipBlank s pos
    have within := (At.of_get there).pos_lt
  · have start := (At.of_get there).next
    have keyed := le_of_name start named
    have further := le_of_operand ((name_eq start).place named) read
    omega
  · have start := (At.of_get there).next
    have keyed := le_of_name start named
    have further := le_of_operand ((name_eq start).place named) read
    omega
  · have further := lt_of_operand (At.of_get there) read
    omega
  · have further := lt_of_word (At.of_get there) worded ‹_›
    omega

section

variable {s} {pos startLeft : Nat} {rest : Bytes} {b : UInt8} {entries : Dictionary K}

theorem imageParameters_of_nothing (here : At s (skipBlank s pos) []) :
    imageParameters s startLeft entries pos = .error (.fault ⟨.inlineImage, startLeft, 0⟩) := by
  rw [imageParameters.eq_def]
  split
  next => rfl
  next b there => cases here.get_nil.symm.trans there

/-- At a key the value after it is read. -/
theorem imageParameters_of_key (here : At s (skipBlank s pos) (b :: rest)) (slash : b == 0x2F)
    {key : String} {next : Nat} (named : name s (skipBlank s pos + 1) = .ok (key, next)) :
    imageParameters s startLeft entries pos =
      match operand (K := K) s [] next with
      | .error halt => .error halt
      | .ok (some value, after) => imageParameters s startLeft (entries.insert key value) after
      | .ok (none, after) => imageParameters s startLeft entries after := by
  rw [imageParameters.eq_def]
  split
  next none => cases here.get.symm.trans none
  next b' there =>
    cases here.get.symm.trans there
    rw [if_pos slash]
    split
    next failed => cases named.symm.trans failed
    next named' =>
      cases named.symm.trans named'
      split
      next failed => rw [failed]
      next read => rw [read]
      next read => rw [read]

theorem imageParameters_of_word (here : At s (skipBlank s pos) (b :: rest)) (other : ¬b == 0x2F)
    {text : Bytes} {next : Nat} (worded : word s (skipBlank s pos) = .ok (text, next)) :
    imageParameters s startLeft entries pos =
      if text == [0x49, 0x44] then .ok (entries, next)
      else if text.isEmpty then
        match operand (K := K) s [] (skipBlank s pos) with
        | .error halt => .error halt
        | .ok (_, after) => imageParameters s startLeft entries after
      else imageParameters s startLeft entries next := by
  rw [imageParameters.eq_def]
  split
  next none => cases here.get.symm.trans none
  next b' there =>
    cases here.get.symm.trans there
    rw [if_neg other]
    split
    next failed => cases worded.symm.trans failed
    next worded' =>
      cases worded.symm.trans worded'
      split
      · rfl
      split
      · split
        next failed => rw [failed]
        next read => rw [read]
      · rfl

theorem imageParameters_eq (startLeft : Nat) (entries : Dictionary K) (here : At s pos rest) :
    Agrees s (imageParameters s startLeft entries pos)
      (Content.imageParameters startLeft entries rest) := by
  have there := at_skipBlank here
  fun_induction Content.imageParameters startLeft entries rest generalizing pos with
  | case1 entries rest nothing =>
      rw [nothing] at there
      rw [imageParameters_of_nothing there]
      exact .fault _
  | case2 entries rest b tail found slash fault failed =>
      rw [found] at there
      obtain ⟨next, named, place⟩ := (name_eq there.next).exists_of_ok
      rw [imageParameters_of_key there slash named, operand_of_error place failed]
      exact .fault fault
  | case3 entries rest b tail found slash value after given ih =>
      rw [found] at there
      obtain ⟨next, named, place⟩ := (name_eq there.next).exists_of_ok
      obtain ⟨stop, same, here⟩ := operand_of_ok place given
      rw [imageParameters_of_key there slash named, same]
      exact ih here (at_skipBlank here)
  | case4 entries rest b tail found slash after given ih =>
      rw [found] at there
      obtain ⟨next, named, place⟩ := (name_eq there.next).exists_of_ok
      obtain ⟨stop, same, here⟩ := operand_of_ok place given
      rw [imageParameters_of_key there slash named, same]
      exact ih here (at_skipBlank here)
  | case5 entries rest b tail found other regular last =>
      rw [found] at there
      obtain ⟨next, worded, place⟩ := (word_eq_of_regular regular there).exists_of_ok
      rw [imageParameters_of_word there other worded, if_pos last]
      exact .ok entries place
  | case6 entries rest b tail found other regular more ih =>
      rw [found] at there
      obtain ⟨next, worded, place⟩ := (word_eq_of_regular regular there).exists_of_ok
      rw [imageParameters_of_word there other worded, if_neg more, List.isEmpty_cons]
      exact ih place (at_skipBlank place)
  | case7 entries rest b tail found other irregular fault failed =>
      rw [found] at there
      obtain ⟨next, worded, _⟩ := (word_eq_of_not_regular irregular there).exists_of_ok
      rw [imageParameters_of_word there other worded, operand_of_error there failed]
      exact .fault fault
  | case8 entries rest b tail found other irregular value after given ih =>
      rw [found] at there
      obtain ⟨next, worded, _⟩ := (word_eq_of_not_regular irregular there).exists_of_ok
      obtain ⟨stop, same, here⟩ := operand_of_ok there given
      rw [imageParameters_of_word there other worded, same]
      exact ih here (at_skipBlank here)

end

/-- Whether a mark at an index can end data in which it is looked for from `start` on. It can at the
start; further on, the byte before it is looked at. -/
def atBoundary (start i : Nat) : Except OutOfRange Bool :=
  if i = start then .ok true else do return isBlank (← elementBefore s i)

/-- Whether the mark that ends the data is at an index. -/
def endsAt (start i : Nat) : Except OutOfRange Bool := do
  if (← elementAt s i) != 0x45 then return false
  if (← elementAt s (i + 1)) != 0x49 then return false
  if !(← atBoundary s start i) then return false
  if !(s[i + 2]?.all fun b => isBlank b || isDelimiter b) then return false
  return ((← slice s (i + 2) s.length).take 10).all isPlausible

/-- The first index from `i` on where the mark that ends the data is. -/
def findEnd (start i : Nat) : Except OutOfRange (Option Nat) :=
  if i + 1 < s.length then do
    if ← endsAt s start i then return some i else findEnd start (i + 1)
  else return none
termination_by s.length - i

section

variable {s} {start i : Nat} {rest : Bytes} {b c : UInt8}

theorem endsAt_of_mark {boundary : Bool} (here : At s i (0x45 :: 0x49 :: rest))
    (bound : atBoundary s start i = .ok boundary) :
    endsAt s start i = .ok (boundary && endsImage rest) := by
  have ends : endsImage rest =
      ((rest.head?.all fun b => isBlank b || isDelimiter b) && (rest.take 10).all isPlausible) := by
    cases rest <;> rfl
  rw [endsAt, here.elementAt, here.next.elementAt, bound, here.next.next.get?,
    here.next.next.slice_all, ends]
  generalize (rest.head?.all fun b => isBlank b || isDelimiter b) = separated
  cases boundary <;> cases separated <;> rfl

theorem endsAt_of_other (here : At s i (b :: c :: rest)) (other : ¬(b = 0x45 ∧ c = 0x49)) :
    endsAt s start i = .ok false := by
  rw [endsAt, here.elementAt, here.next.elementAt]
  simp only [bind, Except.bind]
  by_cases first : b = 0x45
  · rw [if_neg (by simpa using first), if_pos (by simpa using fun second => other ⟨first, second⟩)]
    rfl
  · rw [if_pos (by simpa using first)]
    rfl

/-- After the first round the byte before the cursor is there. -/
theorem atBoundary_succ (here : At s i (b :: rest)) (later : start ≤ i) :
    atBoundary s start (i + 1) = .ok (isBlank b) := by
  have further : i + 1 ≠ start := by omega
  rw [atBoundary, if_neg further, elementBefore, here.elementAt]
  rfl

theorem findEnd_of_short (here : At s i rest) (short : rest.length < 2) :
    findEnd s start i = .ok none := by
  have ends : ¬i + 1 < s.length := by
    have := here.length
    omega
  rw [findEnd, if_neg ends]
  rfl

theorem findEnd_of_two (here : At s i (b :: c :: rest)) {found : Bool}
    (ends : endsAt s start i = .ok found) :
    findEnd s start i = if found then .ok (some i) else findEnd s start (i + 1) := by
  rw [findEnd, if_pos here.next.pos_lt, ends]
  rfl

/-- A count from the next index on, as one from this index on. -/
theorem map_succ_add (found : Option Nat) :
    (found.map fun n => n + 1).map (fun n => i + n) = found.map fun n => i + 1 + n := by
  rw [Option.map_map]
  apply Option.map_congr
  intro n _
  show i + (n + 1) = i + 1 + n
  omega

theorem findEnd_eq {boundary : Bool} (here : At s i rest) (later : start ≤ i)
    (bound : atBoundary s start i = .ok boundary) :
    findEnd s start i = .ok ((endMarker? boundary rest).map fun n => i + n) := by
  fun_induction endMarker? boundary rest generalizing i with
  | case1 boundary => exact findEnd_of_short here Nat.two_pos
  | case2 boundary after ends =>
      rw [findEnd_of_two here (endsAt_of_mark here bound), if_pos ends]
      rfl
  | case3 boundary after ends ih =>
      rw [findEnd_of_two here (endsAt_of_mark here bound), if_neg ends, map_succ_add]
      exact ih here.next (Nat.le_succ_of_le later) (atBoundary_succ here later)
  | case4 boundary b rest other ih =>
      have next := ih here.next (Nat.le_succ_of_le later) (atBoundary_succ here later)
      rw [map_succ_add, ← next]
      cases rest with
      | nil =>
          rw [findEnd_of_short here Nat.one_lt_two, findEnd_of_short here.next Nat.two_pos]
      | cons c after =>
          have noMark : ¬(b = 0x45 ∧ c = 0x49) := by
            rintro ⟨rfl, rfl⟩
            exact other after rfl rfl
          rw [findEnd_of_two here (endsAt_of_other here noMark)]
          rfl

end

/-- The place where the data ends whose end mark is at an index. White space right before the mark
is not part of the data. -/
def dataEnd (start mark : Nat) : Except OutOfRange Nat :=
  if start < mark then do
    if isBlank (← elementBefore s mark) then return mark - 1 else return mark
  else return mark

/-- The data of an image from `start` on, and the place after its end mark. -/
def imageEnd (startLeft start searchFrom : Nat) : Except Halt (Bytes × Nat) := do
  match ← findEnd s searchFrom searchFrom with
  | none => throw (.fault ⟨.inlineImage, startLeft, s.length - start⟩)
  | some mark => return (← slice s start (← dataEnd s start mark), mark + 2)

/-- The image between `BI` and `EI`, and the place after it. -/
def inlineImage (startLeft pos : Nat) : Except Halt (InlineImage K × Nat) := do
  let (parameters, afterId) ← imageParameters s startLeft [] pos
  let start := if s[afterId]?.any isBlank then afterId + 1 else afterId
  let data : Bytes ← slice s start s.length
  let (data, after) ← imageEnd s startLeft start (start + searchFrom parameters data)
  return (⟨parameters, data⟩, after)

section

omit [Scalar K]

theorem length_tilde_le {data : Bytes} {n : Nat} (found : asciiDataLength?.tilde data = some n) :
    n ≤ data.length := by
  fun_induction asciiDataLength?.tilde data generalizing n with
  | case1 rest =>
      cases found
      simp
  | case2 b rest other ih =>
      obtain ⟨m, earlier, rfl⟩ := Option.map_eq_some_iff.mp found
      exact Nat.succ_le_succ (ih earlier)
  | case3 => cases found

theorem asciiDataLength?_le {filters : List String} {data : Bytes} {n : Nat}
    (found : asciiDataLength? filters data = some n) : n ≤ data.length := by
  unfold asciiDataLength? at found
  split at found
  · split at found
    · obtain ⟨m, bracket, rfl⟩ := Option.map_eq_some_iff.mp found
      exact (List.findIdx?_eq_some_iff_findIdx_eq.mp bracket).1
    split at found
    · exact length_tilde_le found
    · cases found
  · cases found

/-- The search for the end starts within the data. -/
theorem searchFrom_le (d : Dictionary K) (data : Bytes) : searchFrom d data ≤ data.length := by
  rw [searchFrom]
  cases found : asciiDataLength? (InlineImage.filters ⟨d, []⟩) data with
  | none => exact Nat.zero_le _
  | some n => exact asciiDataLength?_le found

variable {s} {pos start : Nat} {data rest : Bytes}

theorem at_imageData (here : At s pos rest) :
    At s (if s[pos]?.any isBlank then pos + 1 else pos) (imageData rest) := by
  rw [here.get?]
  cases rest with
  | nil => exact here
  | cons b rest =>
      by_cases blank : isBlank b
      · simp only [List.head?_cons, Option.any_some, imageData, blank, if_true]
        exact here.next
      · simp only [List.head?_cons, Option.any_some, imageData, blank, Bool.false_eq_true, if_false]
        exact here

theorem slice_dataEnd (here : At s start data) {n : Nat} (within : n ≤ data.length) :
    ∃ stop, dataEnd s start (start + n) = .ok stop ∧
      slice s start stop = .ok (dropLastBlank (data.take n)) := by
  cases n with
  | zero =>
      have never : ¬start < start + 0 := Nat.lt_irrefl start
      refine ⟨start, ?_, here.slice (Nat.zero_le _)⟩
      rw [dataEnd, if_neg never]
      rfl
  | succ m =>
      have last := here.skip (Nat.le_of_succ_le within)
      rw [List.drop_eq_getElem_cons within] at last
      have inside : start < start + (m + 1) := by omega
      rw [dataEnd, if_pos inside, ← Nat.add_assoc, elementBefore, last.elementAt, dropLastBlank,
        List.take_add_one, List.getElem?_eq_getElem within, Option.toList_some,
        List.getLast?_concat, Option.any_some, List.dropLast_concat]
      by_cases blank : isBlank data[m]
      · refine ⟨start + m, ?_, ?_⟩
        · simp only [bind, Except.bind, blank, if_true]
          rfl
        · rw [if_pos blank]
          exact here.slice (Nat.le_of_succ_le within)
      · refine ⟨start + m + 1, ?_, ?_⟩
        · simp only [bind, Except.bind, blank, Bool.false_eq_true, if_false]
          rfl
        · rw [if_neg blank, List.take_concat_get' data m within]
          exact here.slice within

theorem imageEnd_eq (startLeft : Nat) (here : At s start data) {searchFrom : Nat}
    (within : searchFrom ≤ data.length) :
    Agrees s (imageEnd s startLeft start (start + searchFrom))
      ((endMarker? true (data.drop searchFrom)).elim
        (.error ⟨.inlineImage, startLeft, data.length⟩) fun n =>
          .ok (dropLastBlank (data.take (searchFrom + n)), data.drop (searchFrom + n + 2))) := by
  have search := findEnd_eq (here.skip within) (Nat.le_refl _) (if_pos rfl)
  have finds := endMarker?_finds (data.drop searchFrom)
  rw [imageEnd, search]
  cases found : endMarker? true (data.drop searchFrom) with
  | none =>
      rw [← here.left]
      exact .fault _
  | some n =>
      rw [found] at finds
      obtain ⟨before, after, rfl, mark⟩ := finds
      have room := congrArg List.length mark.shape
      simp only [List.length_drop, List.length_append, List.length_cons] at room
      have upTo : searchFrom + before.length ≤ data.length := by omega
      obtain ⟨stop, ends, cut⟩ := slice_dataEnd here upTo
      rw [← Nat.add_assoc] at ends
      simp only [Option.map_some, liftM_ok_bind, ends, cut]
      have after := here.skip (n := searchFrom + before.length + 2) (by omega)
      rw [← Nat.add_assoc, ← Nat.add_assoc] at after
      exact .ok _ after

end

theorem inlineImage_eq {s rest : Bytes} {pos : Nat} (startLeft : Nat) (here : At s pos rest) :
    Agrees s (inlineImage (K := K) s startLeft pos) (Content.inlineImage startLeft rest) := by
  have read := imageParameters_eq (K := K) startLeft [] here
  cases given : Content.imageParameters (K := K) startLeft [] rest with
  | error fault =>
      rw [given] at read
      rw [inlineImage, read.eq_of_error, inlineImage_of_fault given]
      exact .fault fault
  | ok result =>
      obtain ⟨d, afterId⟩ := result
      rw [given] at read
      obtain ⟨next, same, there⟩ := read.exists_of_ok
      have start := at_imageData there
      have last := imageEnd_eq startLeft start (searchFrom_le d (imageData afterId))
      rw [inlineImage, same, inlineImage_of_parameters given]
      change Agrees s (liftM (slice s _ s.length) >>= _) _
      rw [start.slice_all, liftM_ok_bind]
      change Agrees s _ ((endMarker? true (searched d (imageData afterId))).elim _ _) at last
      cases found : endMarker? true (searched d (imageData afterId)) with
      | none =>
          rw [found] at last
          rw [last.eq_of_error]
          exact .fault _
      | some n =>
          rw [found] at last
          obtain ⟨stop, ended, place⟩ := last.exists_of_ok
          rw [ended]
          exact .ok _ place

/-! ### Tokens -/

/-- What a printable word comes to that stands outside of all brackets, from `start` up to
`after`. -/
def readWord (text : String) (start after : Nat) : Except Halt (Option (Token K × Nat)) :=
  if text = "BI" then do
    let (image, after) ← inlineImage (K := K) s (s.length - start) after
    return some (.operator ((Operator.plain "BI").withImage ⟨s.length - start, image⟩), after)
  else return some (wordToken text, after)

/-- The next token and the place after it; none at the end. -/
def next (pos : Nat) : Except Halt (Option (Token K × Nat)) :=
  match there : s[skipBlank s pos]? with
  | none => .ok none
  | some b =>
    if isStray b then next (skipBlank s pos + 1)
    else if letters : isRegular b && !startsNumber b then
      match worded : word s (skipBlank s pos) with
      | .error halt => .error halt
      | .ok (text, after) =>
        if !text.all isGraphic then next after
        else readWord s (asciiText text) (skipBlank s pos) after
    else
      match read : operand (K := K) s [] (skipBlank s pos) with
      | .error halt => .error halt
      | .ok (some value, after) => .ok (some (.operand value, after))
      | .ok (none, after) => next after
termination_by s.length - pos
decreasing_by
  all_goals
    have reached := le_skipBlank s pos
    have within := (At.of_get there).pos_lt
  · omega
  · have regular := (Bool.and_eq_true_iff.mp letters).1
    have after := (word_eq_of_regular regular (At.of_get there)).place worded
    have further := (At.of_get there).lt_of_length_lt after
      (Nat.lt_succ_of_le (length_afterWord_le _))
    omega
  · have further := lt_of_operand (At.of_get there) read
    omega

/-- Reading a token by index gives the same token and stops at the same place, or comes to the end
or to the same fault. -/
inductive AgreesNext (s : Bytes) : Except Halt (Option (Token K × Nat)) →
    Except Fault (Option (Token K × Bytes)) → Prop
  | nothing : AgreesNext s (.ok none) (.ok none)
  | token (token : Token K) {pos : Nat} {rest : Bytes} (here : At s pos rest) :
    AgreesNext s (.ok (some (token, pos))) (.ok (some (token, rest)))
  | fault (fault : Fault) : AgreesNext s (.error (.fault fault)) (.error fault)

section

variable {s} {pos : Nat} {rest : Bytes} {b : UInt8}

theorem readWord_eq (text : String) {start left : Nat} (starts : s.length - start = left)
    (after : At s pos rest) :
    AgreesNext s (readWord (K := K) s text start pos) (Content.readWord text left rest) := by
  subst starts
  by_cases image : text = "BI"
  · subst image
    have read := inlineImage_eq (K := K) (s.length - start) after
    rw [readWord, if_pos rfl, Content.readWord]
    generalize inlineImage (K := K) s (s.length - start) pos = indexed,
      Content.inlineImage (K := K) (s.length - start) rest = plain at read
    cases read with
    | ok image place => exact .token _ place
    | fault fault => exact .fault fault
  · rw [readWord, if_neg image, readWord_of_ne image]
    exact .token _ after

theorem next_of_nothing (here : At s (skipBlank s pos) []) : next (K := K) s pos = .ok none := by
  rw [next.eq_def]
  split
  next => rfl
  next b there => cases here.get_nil.symm.trans there

theorem next_of_byte (here : At s (skipBlank s pos) (b :: rest)) :
    next (K := K) s pos =
      if isStray b then next s (skipBlank s pos + 1)
      else if isRegular b && !startsNumber b then
        match word s (skipBlank s pos) with
        | .error halt => .error halt
        | .ok (text, after) =>
          if !text.all isGraphic then next s after
          else readWord s (asciiText text) (skipBlank s pos) after
      else
        match operand (K := K) s [] (skipBlank s pos) with
        | .error halt => .error halt
        | .ok (some value, after) => .ok (some (.operand value, after))
        | .ok (none, after) => next s after := by
  rw [next.eq_def]
  split
  next none => cases here.get.symm.trans none
  next b' there =>
    cases here.get.symm.trans there
    split
    · rfl
    split
    · split
      next failed => rw [failed]
      next worded => rw [worded]
    · split
      next failed => rw [failed]
      next read => rw [read]
      next read => rw [read]

theorem next_eq (here : At s pos rest) :
    AgreesNext s (next s pos) (Content.next (K := K) rest) := by
  induction size : rest.length using Nat.strongRecOn generalizing pos rest with
  | ind n ih =>
  have there := at_skipBlank here
  rw [drives_tokens.unfolds () rest, tokenTurn]
  cases found : Content.skipBlank rest with
  | nil =>
      rw [found] at there
      rw [next_of_nothing there]
      exact .nothing
  | cons b tail =>
      rw [found] at there
      have shorter := size ▸ length_of_skipBlank found
      rw [next_of_byte there]
      dsimp only
      split
      · exact ih _ shorter there.next rfl
      split
      next letters =>
        have regular := (Bool.and_eq_true_iff.mp letters).1
        obtain ⟨after, worded, place⟩ := (word_eq_of_regular regular there).exists_of_ok
        rw [worded]
        dsimp only
        split
        · exact ih _ (Nat.lt_of_le_of_lt (length_afterWord_le tail) shorter) place rfl
        · exact readWord_eq _ there.left place
      · cases given : Content.operand (K := K) [] (b :: tail) with
        | error fault =>
            rw [operand_of_error there given]
            exact .fault fault
        | ok result =>
            obtain ⟨value, after⟩ := result
            obtain ⟨stop, same, place⟩ := operand_of_ok there given
            rw [same]
            cases value with
            | some value => exact .token _ place
            | none =>
                exact ih _ (Nat.lt_of_lt_of_le (length_of_operand_cons given) shorter) place rfl

/-- A token takes the cursor further on. -/
theorem lt_of_next {token : Token K} {after : Nat} (read : next s pos = .ok (some (token, after))) :
    pos < after ∧ after ≤ s.length := by
  by_cases within : pos ≤ s.length
  · have here : At s pos (s.drop pos) := ⟨within, rfl⟩
    have agrees := next_eq (K := K) here
    rw [read] at agrees
    generalize given : Content.next (K := K) (s.drop pos) = result at agrees
    cases agrees with
    | token _ place => exact ⟨here.lt_of_length_lt place (length_of_next given), place.le⟩
  · have beyond := Nat.le_trans (Nat.le_of_not_le within) (le_skipBlank s pos)
    rw [next.eq_def] at read
    split at read
    next => cases read
    next b there => cases (List.getElem?_eq_none beyond).symm.trans there

end

/-- The tokens from the cursor on, each with the number of bytes that are left after it, and the
fault that ended them. -/
def tokens (pos : Nat) : Except OutOfRange (TokenStream K) :=
  match read : next s pos with
  | .error (.outOfRange access) => .error access
  | .error (.fault fault) => .ok ⟨[], some fault⟩
  | .ok none => .ok ⟨[], none⟩
  | .ok (some (token, after)) => do
    let later ← tokens after
    return ⟨(token, s.length - after) :: later.tokens, later.fault⟩
termination_by s.length - pos
decreasing_by
  have further := lt_of_next read
  omega

section

variable {s} {pos : Nat} {rest : Bytes}

theorem tokens_of_fault {fault : Fault} (read : next (K := K) s pos = .error (.fault fault)) :
    tokens (K := K) s pos = .ok ⟨[], some fault⟩ := by
  rw [tokens.eq_def]
  split
  next read' => cases read'.symm.trans read
  next read' => cases read'.symm.trans read; rfl
  next read' => cases read'.symm.trans read
  next read' => cases read'.symm.trans read

theorem tokens_of_nothing (read : next (K := K) s pos = .ok none) :
    tokens (K := K) s pos = .ok ⟨[], none⟩ := by
  rw [tokens.eq_def]
  split
  next read' => cases read'.symm.trans read
  next read' => cases read'.symm.trans read
  next => rfl
  next read' => cases read'.symm.trans read

theorem tokens_of_token {token : Token K} {after : Nat} {later : TokenStream K}
    (read : next s pos = .ok (some (token, after))) (rest : tokens s after = .ok later) :
    tokens s pos = .ok ⟨(token, s.length - after) :: later.tokens, later.fault⟩ := by
  rw [tokens.eq_def]
  split
  next read' => cases read'.symm.trans read
  next read' => cases read'.symm.trans read
  next read' => cases read'.symm.trans read
  next read' =>
    cases read'.symm.trans read
    rw [rest]
    rfl

theorem tokens_eq (here : At s pos rest) :
    tokens s pos = .ok (TokenStream.ofBytes (K := K) rest) := by
  induction size : rest.length using Nat.strongRecOn generalizing pos rest with
  | ind n ih =>
  have agrees := next_eq (K := K) here
  generalize read : next (K := K) s pos = indexed,
    given : Content.next (K := K) rest = plain at agrees
  cases agrees with
  | nothing => rw [tokens_of_nothing read, TokenStream.ofBytes_of_nothing given]
  | fault fault => rw [tokens_of_fault read, TokenStream.ofBytes_of_fault given]
  | token token place =>
      have later := ih _ (size ▸ length_of_next given) place rfl
      rw [tokens_of_token read later, TokenStream.ofBytes_of_token given, place.left]

end

/-- Reading content by index gives its tokens, so no access on the way is out of range. -/
theorem tokens_start (content : Bytes) :
    tokens content 0 = .ok (TokenStream.ofBytes (K := K) content) := tokens_eq (.start content)

end Indexed

end PdfContent.Content
