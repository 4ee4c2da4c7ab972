import PdfContent.Proofs.EnclosureReading
import PdfContent.Proofs.Ranges

/-!
# Reading content by index

Content can be read with a cursor into its bytes. This reader looks at bytes by their index and cuts
words, numbers and the data of images out as slices, and each such access is checked. Where the
cursor only peeks at a byte that may not be there, nothing can go out of range.

The bounds come from relations between cursors: a word ends where a scan from its start ends, an
escape in a name is looked at only if two more bytes follow, the mark after an image's data is
searched from a place within the data. They are not proved one by one. Each reader is shown to give
what the reader of `Content` gives for the bytes from the cursor on, and that one accesses nothing
by index.
-/

-- The equations that matches are given below serve their termination proofs.
set_option linter.unusedVariables false

namespace PdfContent.Content

/-- Why reading by index stops: at an access out of range, or because the content ends inside
something. -/
inductive Halt
  | outOfRange (access : OutOfRange)
  | fault (fault : Fault)
  deriving DecidableEq, Repr

instance : MonadLift (Except OutOfRange) (Except Halt) := ⟨Except.mapError .outOfRange⟩

/-- An access within range goes on with its value. -/
theorem liftM_ok_bind {α β : Type} (a : α) (f : α → Except Halt β) :
    (liftM (.ok a : Except OutOfRange α) >>= f) = f a := rfl

/-- The same value with a place as with what stands there. -/
def Matches {α : Type} (s : Bytes) (x : α × Nat) (y : α × Bytes) : Prop :=
  x.1 = y.1 ∧ At s x.2 y.2

/-- Reading by index gives the same value and stops at the same place, or meets the same fault. It
does not go out of range. -/
inductive Agrees {α : Type} (s : Bytes) : Except Halt (α × Nat) → Except Fault (α × Bytes) → Prop
  | ok (a : α) {pos : Nat} {rest : Bytes} (here : At s pos rest) :
    Agrees s (.ok (a, pos)) (.ok (a, rest))
  | fault (fault : Fault) : Agrees s (.error (.fault fault)) (.error fault)

namespace Agrees

variable {α β : Type} {s rest : Bytes} {read : Except Halt (α × Nat)}

theorem exists_of_ok {a : α} (agrees : Agrees s read (.ok (a, rest))) :
    ∃ pos, read = .ok (a, pos) ∧ At s pos rest := by
  cases agrees with
  | ok _ here => exact ⟨_, rfl, here⟩

/-- Where reading by index has stopped. -/
theorem place {a a' : α} {pos : Nat} (agrees : Agrees s read (.ok (a, rest)))
    (given : read = .ok (a', pos)) : At s pos rest := by
  subst given
  cases agrees with
  | ok _ here => exact here

theorem eq_of_error {fault : Fault} (agrees : Agrees s read (.error fault)) :
    read = .error (.fault fault) := by
  cases agrees
  rfl

/-- A reader that changes what another one has read. -/
theorem map {a : α} (agrees : Agrees s read (.ok (a, rest))) (f : α → β) :
    Agrees s (do let (a, after) ← read; return (f a, after)) (.ok (f a, rest)) := by
  obtain ⟨pos, rfl, here⟩ := agrees.exists_of_ok
  exact .ok (f a) here

end Agrees

namespace Indexed

variable (s : Bytes)

/-! ### Scanning -/

/-- The first place from the cursor on whose byte is not of a kind. -/
def scan (p : UInt8 → Bool) (pos : Nat) : Nat :=
  match h : s[pos]? with
  | some b => if p b then scan p (pos + 1) else pos
  | none => pos
termination_by s.length - pos
decreasing_by
  have := (List.getElem?_eq_some_iff.mp h).1
  omega

theorem le_scan (p : UInt8 → Bool) (pos : Nat) : pos ≤ scan s p pos := by
  fun_induction scan s p pos with
  | case1 pos b there kind ih => omega
  | case2 => exact Nat.le_refl _
  | case3 => exact Nat.le_refl _

/-- The place after white space and comments. -/
def skipBlank (pos : Nat) : Nat :=
  match h : s[pos]? with
  | none => pos
  | some b =>
    if isBlank b then skipBlank (pos + 1)
    else if b == 0x25 then skipBlank (scan s (fun b => b != 0x0A && b != 0x0D) (pos + 1))
    else pos
termination_by s.length - pos
decreasing_by
  all_goals
    have within := (List.getElem?_eq_some_iff.mp h).1
    have further := le_scan s (fun b => b != 0x0A && b != 0x0D) (pos + 1)
    omega

theorem le_skipBlank (pos : Nat) : pos ≤ skipBlank s pos := by
  fun_induction skipBlank s pos with
  | case1 => exact Nat.le_refl _
  | case2 pos b there blank ih => omega
  | case3 pos b there blank comment ih =>
      have further := le_scan s (fun b => b != 0x0A && b != 0x0D) (pos + 1)
      omega
  | case4 => exact Nat.le_refl _

/-- The word at the cursor, and the place after it. -/
def word (pos : Nat) : Except Halt (Bytes × Nat) := do
  let stop := scan s isRegular pos
  return (← slice s pos stop, stop)

section

variable {s} {pos : Nat} {rest : Bytes}

theorem scan_nil (p : UInt8 → Bool) (here : At s pos []) : scan s p pos = pos := by
  rw [scan]
  split
  next b there => cases here.get_nil.symm.trans there
  next => rfl

theorem scan_cons (p : UInt8 → Bool) {b : UInt8} (here : At s pos (b :: rest)) :
    scan s p pos = if p b then scan s p (pos + 1) else pos := by
  rw [scan]
  split
  next b' there =>
    cases here.get.symm.trans there
    rfl
  next none => cases here.get.symm.trans none

theorem scan_eq (p : UInt8 → Bool) (here : At s pos rest) :
    scan s p pos = pos + (rest.takeWhile p).length := by
  induction rest generalizing pos with
  | nil => exact scan_nil p here
  | cons b rest ih =>
      rw [scan_cons p here]
      split
      next kind =>
        rw [ih here.next, List.takeWhile_cons_of_pos kind, List.length_cons]
        omega
      next other =>
        rw [List.takeWhile_cons_of_neg other]
        rfl

theorem at_scan (p : UInt8 → Bool) (here : At s pos rest) :
    At s (scan s p pos) (rest.dropWhile p) := by
  have after := here.skip (n := (rest.takeWhile p).length) (List.takeWhile_prefix p).length_le
  have split : rest.drop (rest.takeWhile p).length = rest.dropWhile p := by
    conv => lhs; arg 2; rw [← List.takeWhile_append_dropWhile (p := p) (l := rest)]
    exact List.drop_left
  rw [scan_eq p here, ← split]
  exact after

/-- What has been scanned is a slice. -/
theorem slice_scan (p : UInt8 → Bool) (here : At s pos rest) :
    slice s pos (scan s p pos) = .ok (rest.takeWhile p) := by
  have upTo := List.takeWhile_prefix (l := rest) p
  rw [scan_eq p here, here.slice upTo.length_le, ← List.prefix_iff_eq_take.mp upTo]

theorem skipBlank_nil (here : At s pos []) : skipBlank s pos = pos := by
  rw [skipBlank]
  split
  next => rfl
  next b there => cases here.get_nil.symm.trans there

theorem skipBlank_cons {b : UInt8} (here : At s pos (b :: rest)) :
    skipBlank s pos =
      if isBlank b then skipBlank s (pos + 1)
      else if b == 0x25 then
        skipBlank s (scan s (fun b => b != 0x0A && b != 0x0D) (pos + 1))
      else pos := by
  rw [skipBlank]
  split
  next none => cases here.get.symm.trans none
  next b' there =>
    cases here.get.symm.trans there
    rfl

theorem at_skipBlank (here : At s pos rest) :
    At s (skipBlank s pos) (Content.skipBlank rest) := by
  fun_induction Content.skipBlank rest generalizing pos with
  | case1 =>
      rw [skipBlank_nil here]
      exact here
  | case2 b rest blank ih =>
      rw [skipBlank_cons here, if_pos blank]
      exact ih here.next
  | case3 b rest blank comment ih =>
      rw [skipBlank_cons here, if_neg blank, if_pos comment]
      exact ih (at_scan _ here.next)
  | case4 b rest blank comment =>
      rw [skipBlank_cons here, if_neg blank, if_neg comment]
      exact here

theorem word_eq (here : At s pos rest) :
    Agrees s (word s pos) (.ok (Content.word rest, afterWord rest)) := by
  rw [word, slice_scan isRegular here]
  exact .ok _ (at_scan isRegular here)

end

/-! ### Literal strings -/

/-- Up to `limit` octal digits after the value `n`, and the place after them. -/
def octal (n : Nat) : (limit : Nat) → (pos : Nat) → Nat × Nat
  | 0, pos => (n, pos)
  | limit + 1, pos =>
    match s[pos]? with
    | some b =>
      if isOctalDigit b then octal (n * 8 + (b.toNat - 0x30)) limit (pos + 1) else (n, pos)
    | none => (n, pos)

/-- What an escape stands for whose byte after the backslash is `b`; the cursor is after that. -/
def escape (b : UInt8) (pos : Nat) : Bytes × Nat :=
  if b == 0x0D then
    if s[pos]? == some 0x0A then ([], pos + 1) else ([], pos)
  else if b == 0x0A then ([], pos)
  else if isOctalDigit b then
    let (code, after) := octal s (b.toNat - 0x30) 2 pos
    ([UInt8.ofNat code], after)
  else ([escapeValue b], pos)

theorem le_octal (n limit pos : Nat) : pos ≤ (octal s n limit pos).2 := by
  induction limit generalizing n pos with
  | zero => exact Nat.le_refl _
  | succ limit ih =>
      rw [octal]
      split
      · split
        · exact Nat.le_of_succ_le (ih _ _)
        · exact Nat.le_refl _
      · exact Nat.le_refl _

theorem le_escape (b : UInt8) (pos : Nat) : pos ≤ (escape s b pos).2 := by
  rw [escape]
  split
  · split
    · exact Nat.le_succ pos
    · exact Nat.le_refl _
  · split
    · exact Nat.le_refl _
    · split
      · exact le_octal s _ 2 pos
      · exact Nat.le_refl _

/-- The value of a literal string inside `depth` more pairs of parentheses, and the place after its
closing parenthesis; none if it is not closed. -/
def literal? (depth : Nat) (pos : Nat) : Option (Bytes × Nat) :=
  match h : s[pos]? with
  | none => none
  | some b =>
    if b == 0x28 then (literal? (depth + 1) (pos + 1)).map fun r => (b :: r.1, r.2)
    else if b == 0x29 then
      match depth with
      | 0 => some ([], pos + 1)
      | depth + 1 => (literal? depth (pos + 1)).map fun r => (b :: r.1, r.2)
    else if b == 0x5C then
      match s[pos + 1]? with
      | none => none
      | some c =>
        (literal? depth (escape s c (pos + 2)).2).map fun r =>
          ((escape s c (pos + 2)).1 ++ r.1, r.2)
    else (literal? depth (pos + 1)).map fun r => (b :: r.1, r.2)
termination_by s.length - pos
decreasing_by
  all_goals
    have within := (List.getElem?_eq_some_iff.mp h).1
  · omega
  · omega
  · have further := le_escape s c (pos + 2)
    omega
  · omega

section

variable {s} {pos : Nat} {rest : Bytes}

/-- Another byte comes next, or none. -/
theorem head?_ne {c : UInt8} (other : ∀ after, rest = c :: after → False) :
    ¬(rest.head? == some c) := by
  intro same
  obtain ⟨after, rfl⟩ := List.head?_eq_some_iff.mp (eq_of_beq same)
  exact other after rfl

theorem octal_eq (n limit : Nat) (here : At s pos rest) :
    Matches s (octal s n limit pos) (Content.octal n limit rest) := by
  induction limit generalizing n pos rest with
  | zero => exact ⟨rfl, here⟩
  | succ limit ih =>
      cases rest with
      | nil =>
          rw [octal, here.get_nil]
          exact ⟨rfl, here⟩
      | cons b rest =>
          simp only [octal, here.get, Content.octal]
          split
          · exact ih _ here.next
          · exact ⟨rfl, here⟩

theorem escape_eq (b : UInt8) (here : At s pos rest) :
    Matches s (escape s b pos) (Content.escape b rest) := by
  rw [escape, here.get?]
  fun_cases Content.escape b rest with
  | case1 _ cr after =>
      rw [if_pos cr]
      exact ⟨rfl, here.next⟩
  | case2 _ rest cr single =>
      rw [if_pos cr, if_neg (head?_ne single)]
      exact ⟨rfl, here⟩
  | case3 _ _ cr lf =>
      rw [if_neg cr, if_pos lf]
      exact ⟨rfl, here⟩
  | case4 _ _ cr lf digit code after read =>
      have same := octal_eq (b.toNat - 0x30) 2 here
      rw [read] at same
      rw [if_neg cr, if_neg lf, if_pos digit]
      exact ⟨congrArg (fun n => [UInt8.ofNat n]) same.1, same.2⟩
  | case5 _ _ cr lf digit =>
      rw [if_neg cr, if_neg lf, if_neg digit]
      exact ⟨rfl, here⟩

theorem literal?_nil (depth : Nat) (here : At s pos []) : literal? s depth pos = none := by
  rw [literal?]
  split
  next => rfl
  next b there => cases here.get_nil.symm.trans there

theorem literal?_cons (depth : Nat) {b : UInt8} (here : At s pos (b :: rest)) :
    literal? s depth pos =
      if b == 0x28 then (literal? s (depth + 1) (pos + 1)).map fun r => (b :: r.1, r.2)
      else if b == 0x29 then
        match depth with
        | 0 => some ([], pos + 1)
        | depth + 1 => (literal? s depth (pos + 1)).map fun r => (b :: r.1, r.2)
      else if b == 0x5C then
        match s[pos + 1]? with
        | none => none
        | some c =>
          (literal? s depth (escape s c (pos + 2)).2).map fun r =>
            ((escape s c (pos + 2)).1 ++ r.1, r.2)
      else (literal? s depth (pos + 1)).map fun r => (b :: r.1, r.2) := by
  rw [literal?]
  split
  next none => cases here.get.symm.trans none
  next b' there =>
    cases here.get.symm.trans there
    rfl

theorem matches_map {x : Option (Bytes × Nat)} {y : Option (Bytes × Bytes)} (f : Bytes → Bytes)
    (same : Option.Rel (Matches s) x y) :
    Option.Rel (Matches s) (x.map fun r => (f r.1, r.2)) (y.map fun r => (f r.1, r.2)) := by
  cases same with
  | none => exact .none
  | some same => exact .some ⟨congrArg f same.1, same.2⟩

theorem literal?_eq (depth : Nat) (here : At s pos rest) :
    Option.Rel (Matches s) (literal? s depth pos) (Content.literal? depth rest) := by
  fun_induction Content.literal? depth rest generalizing pos with
  | case1 depth =>
      rw [literal?_nil depth here]
      exact .none
  | case2 depth b rest opens ih =>
      rw [literal?_cons depth here, if_pos opens]
      exact matches_map (b :: ·) (ih here.next)
  | case3 b rest opens closes =>
      rw [literal?_cons 0 here, if_neg opens, if_pos closes]
      exact .some ⟨rfl, here.next⟩
  | case4 b rest opens closes depth ih =>
      rw [literal?_cons (depth + 1) here, if_neg opens, if_pos closes]
      exact matches_map (b :: ·) (ih here.next)
  | case5 depth b opens closes backslash =>
      rw [literal?_cons depth here, if_neg opens, if_neg closes, if_pos backslash,
        here.next.get_nil]
      exact .none
  | case6 depth b opens closes backslash c rest ih =>
      have same := escape_eq c here.next.next
      rw [literal?_cons depth here, if_neg opens, if_neg closes, if_pos backslash, here.next.get]
      simp only [← same.1]
      exact matches_map (_ ++ ·) (ih same.2)
  | case7 depth b rest opens closes backslash ih =>
      rw [literal?_cons depth here, if_neg opens, if_neg closes, if_neg backslash]
      exact matches_map (b :: ·) (ih here.next)

end

/-! ### Hexadecimal strings -/

/-- The digits up to the closing bracket or the end, and the place after it. -/
def hexDigits (pos : Nat) : Bytes × Nat :=
  match h : s[pos]? with
  | none => ([], pos)
  | some b =>
    if b == 0x3E then ([], pos + 1)
    else ((hexValue? b).toList ++ (hexDigits (pos + 1)).1, (hexDigits (pos + 1)).2)
termination_by s.length - pos
decreasing_by
  all_goals
    have within := (List.getElem?_eq_some_iff.mp h).1
    omega

/-- Pieces of two digits; the last piece has one if their number is odd. -/
def digitPairs : Bytes → List Bytes
  | hi :: lo :: rest => [hi, lo] :: digitPairs rest
  | [] => []
  | [hi] => [[hi]]

def pairValue (pair : Bytes) : Except OutOfRange UInt8 := do
  return (← elementAt pair 0) * 16 + (← elementAt pair 1)

/-- The value of a hexadecimal string, and the place after it. An odd number of digits is made even
by a zero. -/
def hexString (pos : Nat) : Except Halt (Bytes × Nat) := do
  let digits := (hexDigits s pos).1
  let even := if digits.length % 2 = 0 then digits else digits ++ [0]
  let value : Bytes ← ((digitPairs even).mapM pairValue : Except OutOfRange Bytes)
  return (value, (hexDigits s pos).2)

section

variable {s} {pos : Nat} {rest : Bytes}

theorem hexDigits_eq (here : At s pos rest) :
    Matches s (hexDigits s pos) ((hexBody rest).filterMap hexValue?, afterHex rest) := by
  induction rest generalizing pos with
  | nil =>
      rw [hexDigits]
      split
      next => exact ⟨rfl, here⟩
      next b there => cases here.get_nil.symm.trans there
  | cons b rest ih =>
      rw [hexDigits]
      split
      next none => cases here.get.symm.trans none
      next b' there =>
        cases here.get.symm.trans there
        obtain ⟨digits, after⟩ := ih here.next
        by_cases closes : b = 0x3E
        · subst closes
          exact ⟨rfl, here.next⟩
        · have inside : (b != 0x3E) = true := bne_iff_ne.mpr closes
          rw [if_neg (mt eq_of_beq closes), Matches, hexBody, afterHex,
            List.takeWhile_cons_of_pos (p := fun b => b != 0x3E) inside,
            List.dropWhile_cons_of_pos (p := fun b => b != 0x3E) inside]
          refine ⟨?_, after⟩
          rw [digits, List.filterMap_cons]
          cases hexValue? b <;> rfl

theorem pairValue_pair (hi lo : UInt8) : pairValue [hi, lo] = .ok (hi * 16 + lo) := rfl

/-- No pair lacks its second digit. -/
theorem mapM_pairValue (digits : Bytes) :
    (digitPairs (if digits.length % 2 = 0 then digits else digits ++ [0])).mapM pairValue =
      .ok (pairDigits digits) := by
  fun_induction pairDigits digits with
  | case1 => rfl
  | case2 hi =>
      have completed : digitPairs (if [hi].length % 2 = 0 then [hi] else [hi] ++ [0]) = [[hi, 0]] :=
        rfl
      rw [completed, List.mapM_cons, pairValue_pair, UInt8.add_zero]
      rfl
  | case3 hi lo rest ih =>
      have sameParity : (hi :: lo :: rest).length % 2 = rest.length % 2 := Nat.add_mod_right _ 2
      have completed : (if (hi :: lo :: rest).length % 2 = 0 then hi :: lo :: rest
            else hi :: lo :: rest ++ [0]) =
          hi :: lo :: if rest.length % 2 = 0 then rest else rest ++ [0] := by
        rw [sameParity]
        split <;> rfl
      rw [completed, digitPairs, List.mapM_cons, pairValue_pair, ih]
      rfl

theorem hexString_eq (here : At s pos rest) :
    Agrees s (hexString s pos) (.ok (Content.hexString rest, afterHex rest)) := by
  obtain ⟨digits, after⟩ := hexDigits_eq here
  have value := mapM_pairValue (hexDigits s pos).1
  rw [digits] at value
  rw [hexString, digits]
  simp only [value]
  exact .ok _ after

end

/-! ### Names -/

/-- The byte that `#` and two hexadecimal digits spell at an index of a name. The digits are looked
at only if there are two more bytes. -/
def escapedByte? (raw : Bytes) (i : Nat) : Except OutOfRange (Option UInt8) := do
  if (← elementAt raw i) == 0x23 && i + 2 < raw.length then
    match hexValue? (← elementAt raw (i + 1)), hexValue? (← elementAt raw (i + 2)) with
    | some h, some l => return some (h * 16 + l)
    | _, _ => return none
  else return none

/-- The bytes of a name from an index of its spelling on. -/
def nameBytes (raw : Bytes) (i : Nat) : Except OutOfRange Bytes :=
  if i < raw.length then do
    match ← escapedByte? raw i with
    | some b => return b :: (← nameBytes raw (i + 3))
    | none => return (← elementAt raw i) :: (← nameBytes raw (i + 1))
  else return []
termination_by raw.length - i

/-- The name at the cursor, and the place after it. -/
def name (pos : Nat) : Except Halt (String × Nat) := do
  let (raw, after) ← word s pos
  let text : Bytes ← nameBytes raw 0
  return (Text.decodeUtf8 text, after)

section

variable {s} {pos : Nat} {rest : Bytes}

theorem escapedByte?_of_three {raw : Bytes} {i : Nat} {b hi lo : UInt8}
    (here : At raw i (b :: hi :: lo :: rest)) :
    escapedByte? raw i =
      if b == 0x23 then
        match hexValue? hi, hexValue? lo with
        | some h, some l => .ok (some (h * 16 + l))
        | _, _ => .ok none
      else .ok none := by
  have last := here.next.next.pos_lt
  rw [escapedByte?, here.elementAt, here.next.elementAt, here.next.next.elementAt]
  by_cases mark : b == 0x23
  · simp only [bind, Except.bind, mark, decide_eq_true last, Bool.and_self, if_true]
    cases hexValue? hi <;> cases hexValue? lo <;> rfl
  · simp only [bind, Except.bind, mark, Bool.false_and, Bool.false_eq_true, if_false]
    rfl

theorem escapedByte?_of_short {raw : Bytes} {i : Nat} {b : UInt8} (here : At raw i (b :: rest))
    (short : rest.length < 2) : escapedByte? raw i = .ok none := by
  have ends : ¬i + 2 < raw.length := by
    have := here.length
    rw [List.length_cons] at this
    omega
  rw [escapedByte?, here.elementAt]
  simp only [bind, Except.bind, decide_eq_false ends, Bool.and_false, Bool.false_eq_true, if_false]
  rfl

theorem nameBytes_of_escaped {raw bytes : Bytes} {i : Nat} {b c : UInt8}
    (here : At raw i (b :: rest)) (escaped : escapedByte? raw i = .ok (some c))
    (later : nameBytes raw (i + 3) = .ok bytes) : nameBytes raw i = .ok (c :: bytes) := by
  rw [nameBytes, if_pos here.pos_lt, escaped]
  simp only [bind, Except.bind, later]
  rfl

theorem nameBytes_of_plain {raw bytes : Bytes} {i : Nat} {b : UInt8}
    (here : At raw i (b :: rest)) (plain : escapedByte? raw i = .ok none)
    (later : nameBytes raw (i + 1) = .ok bytes) : nameBytes raw i = .ok (b :: bytes) := by
  rw [nameBytes, if_pos here.pos_lt, plain, here.elementAt]
  simp only [bind, Except.bind, later]
  rfl

theorem nameBytes_nil {raw : Bytes} {i : Nat} (here : At raw i []) : nameBytes raw i = .ok [] := by
  have ends : ¬i < raw.length := Nat.not_lt_of_le here.length.ge
  rw [nameBytes, if_neg ends]
  rfl

theorem nameBytes_eq {raw : Bytes} {i : Nat} (here : At raw i rest) :
    nameBytes raw i = .ok (Content.nameBytes rest) := by
  fun_induction Content.nameBytes rest generalizing i with
  | case1 b hi lo rest mark h l low high ih =>
      apply nameBytes_of_escaped here
      · rw [escapedByte?_of_three here, if_pos mark, high, low]
      · exact ih here.next.next.next
  | case2 b hi lo rest mark noDigits ih =>
      apply nameBytes_of_plain here
      · rw [escapedByte?_of_three here, if_pos mark]
        split
        next h l high low => exact absurd low (noDigits h l high)
        next => rfl
      · exact ih here.next
  | case3 b hi lo rest plain ih =>
      apply nameBytes_of_plain here
      · rw [escapedByte?_of_three here, if_neg plain]
      · exact ih here.next
  | case4 rest short =>
      rcases rest with _ | ⟨b, _ | ⟨c, _ | ⟨lo, rest⟩⟩⟩
      · exact nameBytes_nil here
      · apply nameBytes_of_plain here (escapedByte?_of_short here Nat.two_pos)
        exact nameBytes_nil here.next
      · apply nameBytes_of_plain here (escapedByte?_of_short here Nat.one_lt_two)
        apply nameBytes_of_plain here.next (escapedByte?_of_short here.next Nat.two_pos)
        exact nameBytes_nil here.next.next
      · exact absurd rfl (short b c lo rest)

theorem name_eq (here : At s pos rest) :
    Agrees s (name s pos) (.ok (nameText (Content.word rest), afterWord rest)) := by
  obtain ⟨after, read, there⟩ := (word_eq here).exists_of_ok
  have text := nameBytes_eq (.start (Content.word rest))
  rw [name, read]
  simp only [bind, Except.bind, text]
  exact .ok _ there

end

/-! ### Numbers -/

/-- The place after the digits at the cursor, among which one point may stand. -/
def numberEnd (pointSeen : Bool) (pos : Nat) : Nat :=
  match h : s[pos]? with
  | none => pos
  | some b =>
    if isDigit b then numberEnd pointSeen (pos + 1)
    else if b == 0x2E && !pointSeen then numberEnd true (pos + 1)
    else pos
termination_by s.length - pos
decreasing_by
  all_goals
    have within := (List.getElem?_eq_some_iff.mp h).1
    omega

variable {K : Type} [Scalar K]

/-- The value of the number at the cursor, and the place after it. -/
def number (pos : Nat) : Except Halt (Option (Operand K) × Nat) := do
  let stop := numberEnd s false (if s[pos]?.any isSign then pos + 1 else pos)
  return (numberValue? (← slice s pos stop), stop)

section

variable {s} {pos : Nat} {rest : Bytes}

omit [Scalar K]

theorem numberEnd_eq (pointSeen : Bool) (here : At s pos rest) :
    numberEnd s pointSeen pos = pos + (numberBody pointSeen rest).length := by
  induction rest generalizing pos pointSeen with
  | nil =>
      rw [numberEnd]
      split
      next => rfl
      next b there => cases here.get_nil.symm.trans there
  | cons b rest ih =>
      rw [numberEnd]
      split
      next none => cases here.get.symm.trans none
      next b' there =>
        cases here.get.symm.trans there
        rw [numberBody]
        split
        next digit =>
          rw [ih pointSeen here.next, List.length_cons]
          omega
        next other =>
          split
          next point =>
            rw [ih true here.next, List.length_cons]
            omega
          next => rfl

theorem signOf_isPrefix (t : Bytes) : signOf t <+: t := by
  cases t with
  | nil => exact List.prefix_rfl
  | cons b t =>
      rw [signOf]
      split
      · exact List.cons_prefix_cons.mpr ⟨rfl, List.nil_prefix⟩
      · exact List.nil_prefix

theorem numberText_isPrefix (t : Bytes) : numberText t <+: t := by
  have body := numberBody_isPrefix false (t.drop (signOf t).length)
  have signed := (List.prefix_append_right_inj (signOf t)).mpr body
  rwa [← List.prefix_append_drop (signOf_isPrefix t)] at signed

/-- The digits are looked for after the sign, if there is one. -/
theorem afterSign_eq (here : At s pos rest) :
    (if s[pos]?.any isSign then pos + 1 else pos) = pos + (signOf rest).length := by
  rw [here.get?]
  cases rest with
  | nil => rfl
  | cons b rest =>
      simp only [List.head?_cons, Option.any_some, signOf]
      by_cases sign : isSign b
      · simp only [sign, if_true, List.length_singleton]
      · simp only [sign, Bool.false_eq_true, if_false, List.length_nil, Nat.add_zero]

theorem number_eq [Scalar K] (here : At s pos rest) :
    Agrees s (number s pos) (.ok (numberValue? (K := K) (numberText rest), afterNumber rest)) := by
  have text := numberText_isPrefix rest
  have signed := (signOf_isPrefix rest).length_le
  have stop : numberEnd s false (if s[pos]?.any isSign then pos + 1 else pos) =
      pos + (numberText rest).length := by
    rw [afterSign_eq here, numberEnd_eq false (here.skip signed), numberText, List.length_append,
      Nat.add_assoc]
  rw [number, stop, here.slice text.length_le, ← List.prefix_iff_eq_take.mp text]
  exact .ok _ (here.skip text.length_le)

end

end Indexed

end PdfContent.Content
