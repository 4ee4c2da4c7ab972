import PdfContent.Proofs.ReadingLoops

/-!
# Where strings and the data of images end

A literal string is closed by the parenthesis that is the partner of its first one; pairs inside of
it, and what stands after a backslash, belong to its text. The data of an inline image has no such
structure: of all places where `EI` stands, the first one counts that is at a boundary and goes on
like content. Both ends are described here without the readers, and the readers are shown to find
them, or to find none where there is none.
-/

namespace PdfContent.Content

/-! ### Literal strings -/

/-- The text of a literal string up to its closing parenthesis, and the value that it spells. -/
inductive LiteralText : (value text : Bytes) → Prop
  | nil : LiteralText [] []
  | plain {b : UInt8} {value text : Bytes} : ¬needsBackslash b → LiteralText value text →
      LiteralText (b :: value) (b :: text)
  | pair {value text value' text' : Bytes} : LiteralText value text → LiteralText value' text' →
      LiteralText (0x28 :: value ++ 0x29 :: value') (0x28 :: text ++ 0x29 :: text')
  | escaped {c : UInt8} {value text : Bytes} : LiteralText value (escape c text).2 →
      LiteralText ((escape c text).1 ++ value) (0x5C :: c :: text)

theorem octal_append {n limit : Nat} {s t : Bytes} (ends : ∀ b ∈ t.head?, isOctalDigit b = false) :
    octal n limit (s ++ t) = ((octal n limit s).1, (octal n limit s).2 ++ t) := by
  induction limit generalizing n s with
  | zero => rfl
  | succ limit ih =>
      cases s with
      | nil =>
          cases t with
          | nil => rfl
          | cons b t => simp [octal, ends b rfl]
      | cons b s =>
          rw [List.cons_append, octal, octal]
          split
          · exact ih
          · rfl

/-- A closing parenthesis ends every escape. -/
theorem escape_append (c : UInt8) (s rest : Bytes) :
    escape c (s ++ 0x29 :: rest) = ((escape c s).1, (escape c s).2 ++ 0x29 :: rest) := by
  have ends : ∀ b ∈ (0x29 :: rest).head?, isOctalDigit b = false := by
    rintro b ⟨⟩
    rfl
  by_cases cr : c = 0x0D
  · subst cr
    cases s with
    | nil => rfl
    | cons b s =>
        by_cases lf : b = 0x0A
        · subst lf
          rfl
        · simp [escape, lf]
  by_cases lf : c = 0x0A
  · subst lf
    rfl
  by_cases digit : isOctalDigit c
  · simp [escape, cr, lf, digit, octal_append ends]
  · simp [escape, cr, lf, digit]

theorem literal?_open (depth : Nat) (s : Bytes) :
    literal? depth (0x28 :: s) = (literal? (depth + 1) s).map fun r => (0x28 :: r.1, r.2) := by
  rw [literal?.eq_def]
  rfl

theorem literal?_close_succ (depth : Nat) (s : Bytes) :
    literal? (depth + 1) (0x29 :: s) = (literal? depth s).map fun r => (0x29 :: r.1, r.2) := by
  rw [literal?.eq_def]
  rfl

theorem literal?_close_zero (s : Bytes) : literal? 0 (0x29 :: s) = some ([], s) := by
  rw [literal?.eq_def]
  rfl

theorem literal?_escape (depth : Nat) (c : UInt8) (s : Bytes) :
    literal? depth (0x5C :: c :: s) =
      (literal? depth (escape c s).2).map fun r => ((escape c s).1 ++ r.1, r.2) := by
  rw [literal?.eq_def]
  rfl

/-- A text is read inside any number of pairs, up to the parenthesis after it. -/
theorem LiteralText.read {value text : Bytes} (body : LiteralText value text) (depth : Nat)
    (rest : Bytes) :
    literal? depth (text ++ 0x29 :: rest) =
      (literal? depth (0x29 :: rest)).map fun r => (value ++ r.1, r.2) := by
  induction body generalizing depth rest with
  | nil => simp
  | plain plain _ ih =>
      rw [List.cons_append, literal?_plain plain, ih, Option.map_map]
      rfl
  | @pair value text value' text' _ _ ih ih' =>
      have shape : 0x28 :: text ++ 0x29 :: text' ++ 0x29 :: rest =
          0x28 :: (text ++ 0x29 :: (text' ++ 0x29 :: rest)) := by simp
      rw [shape, literal?_open, ih, literal?_close_succ, ih']
      simp only [Option.map_map]
      congr 1
      funext r
      simp
  | @escaped c value text _ ih =>
      rw [List.cons_append, List.cons_append, literal?_escape, escape_append, ih, Option.map_map]
      congr 1
      funext r
      simp

/-- What is read of a literal string starts with a text that is followed by a parenthesis. -/
theorem exists_literalText {depth : Nat} {s value rest : Bytes}
    (read : literal? depth s = some (value, rest)) :
    ∃ value' text after, LiteralText value' text ∧ s = text ++ 0x29 :: after := by
  induction size : s.length using Nat.strongRecOn generalizing depth s value rest with
  | ind n ih =>
  cases s with
  | nil => rw [literal?.eq_def] at read; cases read
  | cons b s =>
      simp only [List.length_cons] at size
      by_cases special : needsBackslash b
      case neg =>
        rw [literal?_plain special] at read
        obtain ⟨⟨v, r⟩, read', -⟩ := Option.map_eq_some_iff.mp read
        obtain ⟨value', text, after, body, rfl⟩ := ih s.length (by omega) read' rfl
        exact ⟨b :: value', b :: text, after, .plain special body, rfl⟩
      simp only [needsBackslash, Bool.or_eq_true, beq_iff_eq] at special
      obtain (rfl | rfl) | rfl := special
      · rw [literal?_open] at read
        obtain ⟨⟨v, r⟩, read', -⟩ := Option.map_eq_some_iff.mp read
        obtain ⟨value', text, after, body, rfl⟩ := ih s.length (by omega) read' rfl
        -- the first parenthesis after the text is the partner of the one before it
        rw [body.read, literal?_close_succ, Option.map_map] at read'
        obtain ⟨⟨v', r'⟩, read'', -⟩ := Option.map_eq_some_iff.mp read'
        have shorter : after.length < n := by
          simp only [List.length_append, List.length_cons] at size
          omega
        obtain ⟨value'', text', after', body', rfl⟩ := ih after.length shorter read'' rfl
        exact ⟨_, _, after', .pair body body', by simp⟩
      · exact ⟨[], [], s, .nil, rfl⟩
      · cases s with
        | nil => rw [literal?.eq_def] at read; cases read
        | cons c s =>
            rw [literal?_escape] at read
            obtain ⟨⟨v, r⟩, read', -⟩ := Option.map_eq_some_iff.mp read
            have shorter : (escape c s).2.length < n := by
              have := length_escape_le c s
              simp only [List.length_cons] at size
              omega
            obtain ⟨value', text, after, body, shape⟩ := ih _ shorter read' rfl
            -- the escape has taken something off in front of the text
            obtain ⟨front, whole⟩ := escape_suffix c s
            have split : s = (front ++ text) ++ 0x29 :: after := by
              rw [← whole, shape, List.append_assoc]
            have same := escape_append c (front ++ text) after
            rw [← split] at same
            have left : (escape c (front ++ text)).2 = text := by
              have both :
                  (escape c (front ++ text)).2 ++ 0x29 :: after = text ++ 0x29 :: after := by
                rw [← shape, same]
              exact List.append_cancel_right both
            refine ⟨_, 0x5C :: c :: (front ++ text), after, .escaped (left.symm ▸ body), ?_⟩
            rw [split]
            rfl

theorem literal?_eq_some_iff {s value rest : Bytes} :
    literal? 0 s = some (value, rest) ↔
      ∃ text, LiteralText value text ∧ s = text ++ 0x29 :: rest := by
  constructor
  · intro read
    obtain ⟨value', text, after, body, rfl⟩ := exists_literalText read
    rw [body.read, literal?_close_zero] at read
    simp only [Option.map_some, List.append_nil, Option.some.injEq, Prod.mk.injEq] at read
    obtain ⟨rfl, rfl⟩ := read
    exact ⟨text, body, rfl⟩
  · rintro ⟨text, body, rfl⟩
    rw [body.read, literal?_close_zero]
    simp

/-! ### The data of images -/

/-- The `EI` between these bytes ends the data of an image whose end is looked for in them: it
stands first or after white space, a word ends with it, and what follows looks like content. -/
structure EndMark (before after : Bytes) : Prop where
  boundary : ∀ b ∈ before.getLast?, isBlank b
  apart : ∀ b ∈ after.head?, isBlank b ∨ isDelimiter b
  printable : ∀ b ∈ after.take 10, isBlank b ∨ (0x20 ≤ b ∧ b ≤ 0x7E)

theorem endsImage_iff (after : Bytes) :
    endsImage after ↔ (∀ b ∈ after.head?, isBlank b ∨ isDelimiter b) ∧
      ∀ b ∈ after.take 10, isBlank b ∨ (0x20 ≤ b ∧ b ≤ 0x7E) := by
  have below (b : UInt8) : b < 0x7F ↔ b ≤ 0x7E := by
    rw [UInt8.lt_iff_toNat_lt, UInt8.le_iff_toNat_le]
    exact Nat.lt_succ_iff
  have visible (b : UInt8) : isPlausible b ↔ isBlank b ∨ (0x20 ≤ b ∧ b ≤ 0x7E) := by
    simp [isPlausible, below]
  cases after with
  | nil => simp [endsImage]
  | cons b after => simp [endsImage, visible]

/-- The same when `boundary` tells whether an image may end at the first byte. -/
def Accepts (boundary : Bool) (before after : Bytes) : Prop :=
  before.getLast?.elim boundary isBlank ∧ endsImage after

theorem accepts_true {before after : Bytes} : Accepts true before after ↔ EndMark before after := by
  have last : before.getLast?.elim true isBlank ↔ ∀ b ∈ before.getLast?, isBlank b := by
    cases before.getLast? <;> simp
  rw [Accepts, last, endsImage_iff]
  exact ⟨fun h => ⟨h.1, h.2.1, h.2.2⟩, fun h => ⟨h.1, h.2, h.3⟩⟩

theorem accepts_cons (boundary : Bool) (b : UInt8) (before after : Bytes) :
    Accepts boundary (b :: before) after ↔ Accepts (isBlank b) before after := by
  rw [Accepts, Accepts, List.getLast?_cons]
  cases before.getLast? <;> rfl

/-- The first of all places at which `EI` is accepted. -/
structure FirstMark (accepts : Bytes → Bytes → Prop) (s before after : Bytes) : Prop where
  shape : s = before ++ 0x45 :: 0x49 :: after
  accepted : accepts before after
  first : ∀ before' after', s = before' ++ 0x45 :: 0x49 :: after' →
    before'.length < before.length → ¬accepts before' after'

/-- Either the number of bytes before the first mark is given, or there is no mark. -/
def Finds (accepts : Bytes → Bytes → Prop) (s : Bytes) : Option Nat → Prop
  | some n => ∃ before after, before.length = n ∧ FirstMark accepts s before after
  | none => ∀ before after, s = before ++ 0x45 :: 0x49 :: after → ¬accepts before after

/-- Where no image ends at the first byte, the search goes on from the next one. -/
theorem Finds.cons {boundary : Bool} {b : UInt8} {s : Bytes} {found : Option Nat}
    (no : ∀ after, b :: s = 0x45 :: 0x49 :: after → ¬Accepts boundary [] after)
    (later : Finds (Accepts (isBlank b)) s found) :
    Finds (Accepts boundary) (b :: s) (found.map fun n => n + 1) := by
  have further (before' after' : Bytes) (shape : b :: s = before' ++ 0x45 :: 0x49 :: after')
      (accepts : Accepts boundary before' after') : ∃ before, before' = b :: before ∧
        s = before ++ 0x45 :: 0x49 :: after' ∧ Accepts (isBlank b) before after' := by
    cases before' with
    | nil => exact absurd accepts (no after' shape)
    | cons c before =>
        obtain ⟨rfl, rest⟩ := List.cons.inj shape
        exact ⟨before, rfl, rest, (accepts_cons ..).mp accepts⟩
  cases found with
  | none =>
      intro before' after' shape accepts
      obtain ⟨before, -, rest, accepts⟩ := further before' after' shape accepts
      exact later before after' rest accepts
  | some n =>
      obtain ⟨before, after, length, shape, accepted, first⟩ := later
      refine ⟨b :: before, after, congrArg (· + 1) length, congrArg (b :: ·) shape,
        (accepts_cons ..).mpr accepted, ?_⟩
      intro before' after' shape' shorter accepts
      obtain ⟨before', rfl, rest, accepts⟩ := further before' after' shape' accepts
      exact first before' after' rest (Nat.lt_of_succ_lt_succ shorter) accepts

theorem endMarker?_accepts (boundary : Bool) (s : Bytes) :
    Finds (Accepts boundary) s (endMarker? boundary s) := by
  fun_induction endMarker? boundary s with
  | case1 =>
      intro before after shape
      simp at shape
  | case2 boundary after accepted =>
      simp only [Bool.and_eq_true] at accepted
      refine ⟨[], after, rfl, rfl, accepted, ?_⟩
      intro before' after' shape shorter
      exact absurd shorter (Nat.not_lt_zero _)
  | case3 boundary after refused ih =>
      refine Finds.cons (b := 0x45) ?_ ih
      intro after' shape accepts
      obtain rfl : after = after' := by simpa using shape
      exact refused (by simpa [Accepts] using accepts)
  | case4 boundary b rest noMark ih =>
      refine ih.cons ?_
      intro after shape
      obtain ⟨rfl, rfl⟩ := List.cons.inj shape
      exact absurd rfl (noMark after rfl)

theorem endMarker?_finds (s : Bytes) : Finds EndMark s (endMarker? true s) := by
  have same : Accepts true = EndMark := by
    funext before after
    exact propext accepts_true
  have search := endMarker?_accepts true s
  rwa [same] at search

/-- There is one first mark at most. -/
theorem FirstMark.unique {accepts : Bytes → Bytes → Prop} {s before after before' after' : Bytes}
    (mark : FirstMark accepts s before after) (mark' : FirstMark accepts s before' after') :
    before' = before ∧ after' = after := by
  have same : before'.length = before.length := by
    rcases Nat.lt_trichotomy before'.length before.length with earlier | same | later
    · exact absurd mark'.accepted (mark.first before' after' mark'.shape earlier)
    · exact same
    · exact absurd mark.accepted (mark'.first before after mark.shape later)
  obtain ⟨front, back⟩ := List.append_inj (mark'.shape.symm.trans mark.shape) same
  exact ⟨front, (List.cons.inj (List.cons.inj back).2).2⟩

theorem FirstMark.endMarker? {s before after : Bytes} (mark : FirstMark EndMark s before after) :
    endMarker? true s = some before.length := by
  have finds := endMarker?_finds s
  cases found : Content.endMarker? true s with
  | none =>
      rw [found] at finds
      exact absurd mark.accepted (finds before after mark.shape)
  | some n =>
      rw [found] at finds
      obtain ⟨before', after', rfl, mark'⟩ := finds
      rw [(mark.unique mark').1]

theorem endMarker?_eq_none {s : Bytes}
    (never : ∀ before after, s = before ++ 0x45 :: 0x49 :: after → ¬EndMark before after) :
    endMarker? true s = none := by
  have finds := endMarker?_finds s
  cases found : endMarker? true s with
  | none => rfl
  | some n =>
      rw [found] at finds
      obtain ⟨before, after, -, mark⟩ := finds
      exact absurd mark.accepted (never before after mark.shape)

end PdfContent.Content
