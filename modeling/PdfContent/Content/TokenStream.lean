import PdfContent.Content.Lexer

/-!
# The tokens of a whole content stream

All tokens of a piece of content in order, and the fault that ended reading if there is one. Each token
comes with the number of bytes that were left after it; tokens get shorter ends one after another, so
there are never more tokens than bytes.
-/

-- The equation that a match is given below serves its termination proof.
set_option linter.unusedVariables false

namespace PdfContent.Content

variable {K : Type} [Scalar K]

theorem length_of_imageParameters {startLeft : Nat} {entries result : Dictionary K} {s after : Bytes}
    (h : imageParameters startLeft entries s = .ok (result, after)) : after.length ≤ s.length := by
  fun_induction imageParameters startLeft entries s with
  | case1 => simp at h
  | case2 => simp at h
  | case3 entries s b rest hs _ value rest' hop ih =>
    have h₁ := length_of_skipBlank hs
    have h₂ := length_afterWord_le rest
    have h₃ := ih h
    rcases length_of_operand hop with h₄ | h₄
    · omega
    · simp [h₄] at h₃; simp [h₃]
  | case4 entries s b rest hs _ rest' hop ih =>
    have h₁ := length_of_skipBlank hs
    have h₂ := length_afterWord_le rest
    have h₃ := ih h
    rcases length_of_operand hop with h₄ | h₄
    · omega
    · simp [h₄] at h₃; simp [h₃]
  | case5 entries s b rest hs _ _ _ =>
    have h₁ := length_of_skipBlank hs
    have h₂ := length_afterWord_le rest
    cases h
    omega
  | case6 entries s b rest hs _ _ _ ih =>
    have h₁ := length_of_skipBlank hs
    have h₂ := length_afterWord_le rest
    have h₃ := ih h
    omega
  | case7 => simp at h
  | case8 entries s b rest hs _ _ value rest' hop ih =>
    have h₁ := length_of_skipBlank hs
    have h₃ := ih h
    have h₄ := length_of_operand_cons hop
    omega

theorem length_of_inlineImage {startLeft : Nat} {s after : Bytes} {image : InlineImage K}
    (h : inlineImage startLeft s = .ok (image, after)) : after.length ≤ s.length := by
  rw [inlineImage] at h
  cases hp : imageParameters (K := K) startLeft [] s with
  | error fault => rw [hp] at h; cases h
  | ok result =>
    obtain ⟨parameters, afterId⟩ := result
    have h₁ := length_of_imageParameters hp
    simp only [hp, bind, Except.bind] at h
    split at h
    · cases h
    · simp only [Except.ok.injEq, Prod.mk.injEq] at h
      rw [← h.2, List.length_drop]
      refine Nat.le_trans (Nat.sub_le _ _) (Nat.le_trans ?_ h₁)
      split
      · split <;> simp
      · simp

/-- Every token consumes something. -/
theorem length_of_next {s after : Bytes} {token : Token K} (h : next s = .ok (some (token, after))) :
    after.length < s.length := by
  fun_induction next (K := K) s with
  | case1 => simp at h
  | case2 s b rest hs _ ih => exact Nat.lt_trans (ih h) (length_of_skipBlank hs)
  | case3 s b rest hs _ _ _ _ ih =>
    exact Nat.lt_trans (ih h) (Nat.lt_of_le_of_lt (length_afterWord_le rest) (length_of_skipBlank hs))
  | case7 => simp at h
  | case8 s b rest hs _ _ _ _ _ image after' himage =>
    cases h
    have h₁ := length_of_inlineImage himage
    have h₂ := length_afterWord_le rest
    have h₃ := length_of_skipBlank hs
    omega
  | case10 => simp at h
  | case11 s b rest hs _ _ value after' hop =>
    cases h
    have h₁ := length_of_operand_cons hop
    have h₂ := length_of_skipBlank hs
    omega
  | case12 s b rest hs _ _ after' hop ih =>
    have h₁ := length_of_operand_cons hop
    have h₂ := length_of_skipBlank hs
    have h₃ := ih h
    omega
  | case4 _ _ _ hs | case5 _ _ _ hs | case6 _ _ _ hs | case9 _ _ _ hs =>
    cases h
    exact Nat.lt_of_le_of_lt (length_afterWord_le _) (length_of_skipBlank hs)

/-- Tokens, each with the number of bytes left after it, and the fault that ended them. -/
structure TokenStream (K : Type) where
  tokens : List (Token K × Nat)
  fault : Option Fault

/-- The tokens of the bytes that are left. -/
def TokenStream.ofBytes (s : Bytes) : TokenStream K :=
  match h : next s with
  | .error fault => ⟨[], some fault⟩
  | .ok none => ⟨[], none⟩
  | .ok (some (token, after)) =>
    let later := TokenStream.ofBytes after
    ⟨(token, after.length) :: later.tokens, later.fault⟩
termination_by s.length
decreasing_by exact length_of_next h

namespace TokenStream

/-- The tokens without their places. -/
def values (t : TokenStream K) : List (Token K) := t.tokens.map Prod.fst

/-- The error that ended the tokens of content of the given size. -/
def error? (t : TokenStream K) (size : Nat) : Option ContentError := t.fault.map (Fault.error size)

end TokenStream

end PdfContent.Content
