import Mathlib.Data.List.TakeWhile
import PdfContent.Proofs.EnclosureCases
import PdfContent.Proofs.TokenTurns

/-!
# What is told of content that ends too early

Content that ends while something is open ends reading with a fault, and the fault tells of the
innermost enclosure that is open. Hexadecimal strings are the exception. The end of the content
closes them like a bracket, so nothing is told of them: where one stands inside of something else,
that is what is told of, and where it stands by itself, reading ends as if the content was complete.

Reading follows from the list of what is left open (`error?_of_unclosed`), of which there is one for
every piece of content.
-/

namespace PdfContent.Content

variable {K : Type} {b : UInt8} {s t rest : Bytes}

/-- What a fault tells of the enclosure, if it tells of it. -/
def Enclosure.construct? : Enclosure → Option Construct
  | .literalString => some .literalString
  | .hexString => none
  | .array => some .array
  | .dictionary => some .dictionary
  | .inlineImage => some .inlineImage

/-- The error in content of the given size that ends before this is closed. -/
def Opening.error? (size : Nat) (o : Opening) : Option ContentError :=
  o.enclosure.construct?.map fun construct => Fault.error size ⟨construct, o.startLeft, 0⟩

/-- The fault tells of the first of these of which anything is told. -/
def Explains (left : List Opening) (fault : Fault) : Prop :=
  ∀ size, left.findSome? (Opening.error? size) = some (fault.error size)

theorem Explains.append {left : List Opening} {fault : Fault} (explains : Explains left fault)
    (outer : List Opening) : Explains (left ++ outer) fault := by
  intro size
  rw [List.findSome?_append, explains size]
  rfl

theorem findSome?_error?_eq_none {left : List Opening} (size : Nat) :
    left.findSome? (Opening.error? size) = none ↔ ∀ o ∈ left, o.enclosure = .hexString := by
  have untold (e : Enclosure) : e.construct? = none ↔ e = .hexString := by
    cases e <;> simp [Enclosure.construct?]
  simp [List.findSome?_eq_none_iff, Opening.error?, untold]

/-! ### Values and loops that the bytes break off -/

section Values

variable [Scalar K]

/-- The enclosure whose inside the loop reads. -/
def Loop.enclosure : Loop → Enclosure
  | .items => .array
  | .entries => .dictionary
  | .parameters => .inlineImage

theorem Loop.explains (l : Loop) (startLeft : Nat) :
    Explains [⟨l.enclosure, startLeft⟩] ⟨l.construct, startLeft, 0⟩ := by
  intro size
  cases l <;> rfl

theorem Loop.read_of_nothing {l : Loop} (nothing : l.meets s = .nothing) (startLeft : Nat)
    (data : l.Data K) : l.read startLeft data s = .error ⟨l.construct, startLeft, 0⟩ := by
  rw [Loop.read_eq, nothing]

theorem Loop.meets_nil (l : Loop) : l.meets [] = .nothing := by
  rw [meets, skipBlank.eq_1]

variable (K) in
/-- What reading comes to where the bytes end inside of a value, or of a loop. -/
def BreaksOff : Option Loop → Bytes → List Opening → Prop
  | none, s, left =>
    (∃ fault, operand (K := K) [] s = .error fault ∧ Explains left fault) ∨
      ∃ value n, operand (K := K) [] s = .ok (value, []) ∧ left = [⟨.hexString, n⟩]
  | some l, s, left =>
    ∀ startLeft (data : l.Data K), ∃ fault, l.read startLeft data s = .error fault ∧
      Explains (left ++ [⟨l.enclosure, startLeft⟩]) fault

theorem afterHex_of_notMem (never : 0x3E ∉ s) : afterHex s = [] := by
  have all : s.dropWhile (fun b => b != 0x3E) = [] := by
    rw [List.dropWhile_eq_nil_iff]
    rintro b among
    simpa using fun same : b = 0x3E => never (same ▸ among)
  rw [afterHex, all]
  rfl

theorem item_hexToEnd (single : s.head? ≠ some 0x3C) (never : 0x3E ∉ s) :
    item (K := K) [] 0x3C s = .done (some (.hexadecimal (hexString s))) [] := by
  rw [item.eq_def, if_neg (by decide), if_pos (by decide)]
  split
  next => exact absurd rfl single
  next => rw [afterHex_of_notMem never]; rfl

/-- Reading follows the rules of `Broken`. -/
theorem Broken.breaksOff {place : Option Loop} {left : List Opening}
    (broken : Broken K place s left) : BreaksOff K place s left := by
  induction broken with
  | @literal s open_ =>
      have read : literal? 0 s = none := by
        rw [Option.eq_none_iff_forall_not_mem]
        rintro ⟨value, rest⟩ read
        obtain ⟨text, body, shape⟩ := literal?_eq_some_iff.mp read
        exact open_ value text rest body shape
      refine .inl ⟨⟨.literalString, s.length + 1, 0⟩, ?_, fun size => rfl⟩
      rw [operand_nil_cons rfl (by decide), item.eq_def, if_pos (by decide), read]
      rfl
  | @hexadecimal s single open_ =>
      refine .inr ⟨some (.hexadecimal (hexString s)), _, ?_, rfl⟩
      rw [operand_nil_cons rfl (by decide), item_hexToEnd single open_]
      rfl
  | @array s inner _ ih =>
      obtain ⟨fault, read, explains⟩ := ih (s.length + 1) []
      refine .inl ⟨fault, ?_, explains⟩
      rw [loopsAdvance.openArray]
      exact read
  | @dictionary s inner _ ih =>
      obtain ⟨fault, read, explains⟩ := ih (s.length + 2) []
      refine .inl ⟨fault, ?_, explains⟩
      rw [loopsAdvance.openDictionary]
      exact read
  | @ends l s meets =>
      intro startLeft data
      exact ⟨_, l.read_of_nothing meets startLeft data, l.explains startLeft⟩
  | @passed l s t inner meets _ ih =>
      intro startLeft data
      rw [Loop.read_eq, meets]
      exact ih startLeft data
  | @inside l key s t inner meets _ ih =>
      intro startLeft data
      rw [Loop.read_eq, meets]
      rcases ih with ⟨fault, read, explains⟩ | ⟨value, n, read, rfl⟩
      · exact ⟨fault, by simp only [read]; rfl, explains.append _⟩
      · -- nothing is told of the string, so the loop is what has not been closed
        simp only [read, Except.bind]
        exact ⟨_, l.read_of_nothing l.meets_nil startLeft _, l.explains startLeft⟩
  | @filled l key value s t u inner meets whole _ ih =>
      intro startLeft data
      rw [Loop.read_eq, meets]
      simp only [whole.read_value, Except.bind]
      exact ih startLeft _

theorem Broken.ne_nil {left : List Opening} (broken : Broken K none s left) : left ≠ [] := by
  rcases broken.breaksOff with ⟨fault, -, explains⟩ | ⟨value, n, -, rfl⟩
  · rintro rfl
    cases explains 0
  · exact List.cons_ne_nil _ _

end Values

/-! ### Whole content -/

section Content

variable [Scalar K]

/-- The error that ends reading tells of the innermost enclosure that is open, hexadecimal strings
apart. -/
theorem error?_of_unclosed {left : List Opening} (unclosed : Unclosed K s left) (size : Nat) :
    (TokenStream.ofBytes (K := K) s).error? size = left.findSome? (Opening.error? size) := by
  induction unclosed with
  | nothing place =>
      rw [TokenStream.ofBytes_nothing place]
      rfl
  | stray place _ ih => rw [TokenStream.ofBytes_stray place, TokenStream.error?_resume, ih]
  | keyword place _ ih => rw [TokenStream.ofBytes_keyword place, TokenStream.error?_resume, ih]
  | value place whole _ ih =>
      rw [TokenStream.ofBytes_value place whole.read_value, TokenStream.error?_resume, ih]
  | insideValue place broken =>
      rcases broken.breaksOff with ⟨fault, read, explains⟩ | ⟨value, n, read, rfl⟩
      · rw [TokenStream.ofBytes_value_fault place read, explains]
        rfl
      · rw [TokenStream.ofBytes_value place read, TokenStream.error?_resume,
          TokenStream.ofBytes_of_nothing (next_of_nothing skipBlank.eq_1)]
        rfl
  | @image startLeft _ _ _ _ _ _ _ place whole mark _ ih =>
      have read := inlineImage_of_mark (whole.read_loop startLeft) mark
      rw [TokenStream.ofBytes_image place read, TokenStream.error?_resume, ih]
  | @insideParameters startLeft _ _ _ place broken =>
      obtain ⟨fault, read, explains⟩ := broken.breaksOff startLeft []
      rw [TokenStream.ofBytes_image_fault place (inlineImage_of_fault read)]
      exact (explains size).symm
  | @insideData startLeft _ _ _ _ place whole never =>
      have failed := inlineImage_of_noMark (whole.read_loop startLeft) never
      rw [TokenStream.ofBytes_image_fault place failed]
      rfl

end Content

/-! ### Call by call -/

namespace Reader

variable [Scalar K]

/-- After all tokens comes one call that gives the error at the end, if there is one, and then calls
give nothing. -/
theorem ends_with_error? (input : Bytes) :
    ∃ n, (∀ m, m < n → ∃ token, (ofBytes input).call K m = some (.ok token)) ∧
      (ofBytes input).call K n =
        ((TokenStream.ofBytes (K := K) input).error? input.length).map .error ∧
      ∀ m, n < m → (ofBytes input).call K m = none := by
  obtain ⟨t, items⟩ : ∃ t, TokenStream.ofBytes (K := K) input = t := ⟨_, rfl⟩
  have call (n : Nat) : (ofBytes input).call K n = ((t.items input.length)[n]?).map Prod.fst := by
    rw [call_eq, items]
  refine ⟨t.tokens.length, ?_, ?_, ?_⟩
  · intro m early
    rcases t.items_cases input.length m with ⟨-, token, left, found⟩ | ⟨last, -⟩ | ⟨late, -⟩
    · exact ⟨token, by rw [call, found]; rfl⟩
    · omega
    · omega
  · rw [call, items, TokenStream.items, TokenStream.error?]
    cases t.fault <;> simp
  · intro m late
    rcases t.items_cases input.length m with ⟨early, -⟩ | ⟨last, -⟩ | ⟨-, done⟩
    · omega
    · omega
    · rw [call, List.getElem?_eq_none done]
      rfl

/-- There is an error just where something but a hexadecimal string is left open. -/
theorem never_error_iff {input : Bytes} {left : List Opening} (unclosed : Unclosed K input left) :
    (∀ n e, (ofBytes input).call K n ≠ some (.error e)) ↔ ∀ o ∈ left, o.enclosure = .hexString := by
  obtain ⟨n, tokens, last, nothing⟩ := ends_with_error? (K := K) input
  rw [error?_of_unclosed unclosed] at last
  rw [← findSome?_error?_eq_none input.length]
  constructor
  · intro never
    cases told : left.findSome? (Opening.error? input.length) with
    | none => rfl
    | some e =>
        rw [told] at last
        exact absurd last (never n e)
  · intro untold m e given
    rw [untold] at last
    rcases Nat.lt_trichotomy m n with early | rfl | late
    · obtain ⟨token, given'⟩ := tokens m early
      cases given'.symm.trans given
    · cases last.symm.trans given
    · cases (nothing m late).symm.trans given

/-- Reading ends as the content does: there is one list of what the content leaves open. If it has
anything in it but hexadecimal strings, then the tokens are followed by one error, which tells of
the innermost of these enclosures, and else there is no error. -/
theorem ends_of_unclosed (input : Bytes) :
    ∃ left, Unclosed K input left ∧ (∀ left', Unclosed K input left' → left' = left) ∧
      ((∀ n e, (ofBytes input).call K n ≠ some (.error e)) ↔
        ∀ o ∈ left, o.enclosure = .hexString) ∧
      ∃ n, (∀ m, m < n → ∃ token, (ofBytes input).call K m = some (.ok token)) ∧
        (ofBytes input).call K n =
          (left.findSome? (Opening.error? input.length)).map .error ∧
        ∀ m, n < m → (ofBytes input).call K m = none := by
  obtain ⟨left, unclosed⟩ := exists_unclosed (K := K) input
  refine ⟨left, unclosed, fun left' => unclosed.unique, never_error_iff unclosed, ?_⟩
  rw [← error?_of_unclosed unclosed]
  exact ends_with_error? input

/-- The content `<41` leaves a hexadecimal string open, and reading it ends without an error. -/
theorem untold_hexString :
    Unclosed Int [0x3C, 0x34, 0x31] [⟨.hexString, 3⟩] ∧ ¬Unclosed Int [0x3C, 0x34, 0x31] [] ∧
      ∀ n e, (ofBytes [0x3C, 0x34, 0x31]).call Int n ≠ some (.error e) := by
  have place : Place.of [0x3C, 0x34, 0x31] = .value [0x3C, 0x34, 0x31] := by
    rw [Place.of, skipBlank_cons rfl (by decide)]
    rfl
  have unclosed : Unclosed Int [0x3C, 0x34, 0x31] [⟨.hexString, 3⟩] :=
    .insideValue place (.hexadecimal (by decide) (by decide))
  refine ⟨unclosed, ?_, (never_error_iff unclosed).mpr (by simp)⟩
  intro closed
  cases unclosed.unique closed

end Reader

end PdfContent.Content
