import PdfContent.Proofs.EnclosureReading
import PdfContent.Proofs.ReadingCalls

/-!
# The tokens of content, one turn of the reader after another

A turn between tokens passes over a byte or a word, or reads a value, a word or an image. For each
of these one lemma says what the tokens of the content are: what the turn gives, and then the tokens
of what it leaves (`TokenStream.resume`).
-/

namespace PdfContent.Content

variable {K : Type} [Scalar K] {b : UInt8} {s rest : Bytes}

/-! ### Inline images -/

section Images

variable {startLeft : Nat} {d : Dictionary K} {afterId : Bytes}

/-- Once the parameters are read, an image is its data up to the end mark that is looked for. -/
theorem inlineImage_of_parameters (parameters : imageParameters startLeft [] s = .ok (d, afterId)) :
    inlineImage (K := K) startLeft s =
      (endMarker? true (searched d (imageData afterId))).elim
        (.error ⟨.inlineImage, startLeft, (imageData afterId).length⟩) fun n =>
          .ok (⟨d, dropLastBlank ((imageData afterId).take
              (searchFrom d (imageData afterId) + n))⟩,
            (imageData afterId).drop (searchFrom d (imageData afterId) + n + 2)) := by
  rw [inlineImage, parameters]
  simp only [bind, Except.bind]
  split
  next never =>
    rw [show endMarker? true (searched d (imageData afterId)) = none from never]
    rfl
  next n found =>
    rw [show endMarker? true (searched d (imageData afterId)) = some n from found]
    rfl

/-- The data of an image goes up to the first mark that ends it. -/
theorem inlineImage_of_mark {before after : Bytes}
    (parameters : imageParameters startLeft [] s = .ok (d, afterId))
    (mark : FirstMark EndMark (searched d (imageData afterId)) before after) :
    inlineImage startLeft s = .ok
      (⟨d, dropLastBlank ((imageData afterId).take
        (searchFrom d (imageData afterId) + before.length))⟩, after) := by
  have left : (imageData afterId).drop (searchFrom d (imageData afterId) + before.length + 2) =
      after := by
    have shape := mark.shape
    rw [searched] at shape
    rw [Nat.add_assoc, ← List.drop_drop, shape, List.drop_length_add_append]
    rfl
  rw [inlineImage_of_parameters parameters, mark.endMarker?, Option.elim_some, left]

theorem inlineImage_of_noMark (parameters : imageParameters startLeft [] s = .ok (d, afterId))
    (never : ∀ before after, searched d (imageData afterId) = before ++ 0x45 :: 0x49 :: after →
      ¬EndMark before after) :
    inlineImage (K := K) startLeft s =
      .error ⟨.inlineImage, startLeft, (imageData afterId).length⟩ := by
  rw [inlineImage_of_parameters parameters, endMarker?_eq_none never, Option.elim_none]

theorem inlineImage_of_fault {fault : Fault}
    (parameters : imageParameters (K := K) startLeft [] s = .error fault) :
    inlineImage (K := K) startLeft s = .error fault := by
  rw [inlineImage, parameters]
  rfl

end Images

/-! ### Between tokens -/

/-- The token that a word comes to between tokens: none unless all its bytes are visible. -/
def wordToken? (text : Bytes) : Option (Token K) :=
  if text.all isGraphic then some (wordToken (asciiText text)) else none

theorem readWord_of_ne {text : String} (noImage : text ≠ "BI") (startLeft : Nat) (after : Bytes) :
    readWord (K := K) text startLeft after = .ok (some (wordToken text, after)) := by
  unfold readWord
  split
  · rfl
  · rfl
  · rfl
  · exact absurd rfl noImage
  · rw [wordToken] <;> assumption

omit [Scalar K] in
/-- Every byte is the number of a character. -/
theorem toNat_ofNat_toNat (b : UInt8) : (Char.ofNat b.toNat).toNat = b.toNat := by
  have valid : b.toNat.isValidChar := .inl (b.toNat_lt.trans (by decide))
  rw [Char.ofNat, dif_pos valid]
  rfl

omit [Scalar K] in
theorem asciiText_injective : Function.Injective asciiText := by
  have single : Function.Injective fun b : UInt8 => Char.ofNat b.toNat := by
    intro b c same
    apply UInt8.toNat_inj.mp
    rw [← toNat_ofNat_toNat b, ← toNat_ofNat_toNat c]
    exact congrArg Char.toNat same
  exact fun s t same => List.map_injective_iff.mpr single (String.ofList_injective same)

omit [Scalar K] in
theorem asciiText_eq_BI : asciiText s = "BI" ↔ s = [0x42, 0x49] :=
  asciiText_injective.eq_iff' rfl

/-- Between tokens the reader does what the place says. -/
theorem next_eq (s : Bytes) :
    next (K := K) s =
      match Place.of s with
      | .nothing => .ok none
      | .stray rest => next rest
      | .keyword text rest =>
        match wordToken? text with
        | some token => .ok (some (token, rest))
        | none => next rest
      | .image startLeft rest =>
        (inlineImage startLeft rest).map fun read =>
          some (.operator ⟨"BI", some ⟨startLeft, read.1⟩⟩, read.2)
      | .value t =>
        (operand [] t).bind fun
          | (some value, rest) => .ok (some (.operand value, rest))
          | (none, rest) => next rest := by
  rw [drives_tokens.unfolds () s, tokenTurn, Place.of]
  cases skipBlank s with
  | nil => rfl
  | cons b rest =>
      by_cases stray : isStray b
      · simp only [stray, if_true]
      by_cases letters : isRegular b && !startsNumber b
      · by_cases image : b :: word rest = [0x42, 0x49]
        · simp only [stray, letters, image, if_true, Bool.false_eq_true, if_false]
          change readWord "BI" _ _ = _
          rw [readWord]
          cases inlineImage (K := K) (rest.length + 1) (afterWord rest) <;> rfl
        · by_cases graphic : (b :: word rest).all isGraphic
          · simp only [stray, letters, image, graphic, wordToken?, if_true, Bool.false_eq_true,
              if_false, Bool.not_true]
            exact readWord_of_ne (fun same => image (asciiText_eq_BI.mp same)) _ _
          · simp only [stray, letters, image, graphic, wordToken?, if_true, Bool.false_eq_true,
              if_false, Bool.not_false]
      · simp only [stray, letters, Bool.false_eq_true, if_false]
        cases read : operand (K := K) [] (b :: rest) with
        | error fault => rfl
        | ok result =>
            obtain ⟨value, after⟩ := result
            cases value <;> rfl

namespace TokenStream

/-- The tokens of content of which a token, or nothing, has been read when these bytes are left. -/
def resume (token? : Option (Token K)) (rest : Bytes) : TokenStream K :=
  ⟨(token?.map fun token => (token, rest.length)).toList ++ (ofBytes rest).tokens,
    (ofBytes (K := K) rest).fault⟩

@[simp] theorem error?_resume (token? : Option (Token K)) (rest : Bytes) (size : Nat) :
    (resume token? rest).error? size = (ofBytes (K := K) rest).error? size := rfl

theorem ofBytes_of_next_token {token : Token K}
    (read : Content.next s = .ok (some (token, rest))) : ofBytes s = resume (some token) rest :=
  ofBytes_of_token read

theorem ofBytes_of_next_eq (same : Content.next (K := K) s = Content.next rest) :
    ofBytes (K := K) s = resume none rest := by
  cases read : Content.next (K := K) rest with
  | error fault =>
      rw [resume, ofBytes_of_fault read, ofBytes_of_fault (same.trans read)]
      rfl
  | ok result =>
      cases result with
      | none =>
          rw [resume, ofBytes_of_nothing read, ofBytes_of_nothing (same.trans read)]
          rfl
      | some next =>
          obtain ⟨token, after⟩ := next
          rw [resume, ofBytes_of_token read, ofBytes_of_token (same.trans read)]
          rfl

theorem ofBytes_nothing (place : Place.of s = .nothing) : ofBytes (K := K) s = ⟨[], none⟩ := by
  apply ofBytes_of_nothing
  rw [next_eq, place]

theorem ofBytes_stray (place : Place.of s = .stray rest) :
    ofBytes (K := K) s = resume none rest := by
  apply ofBytes_of_next_eq
  rw [next_eq, place]

theorem ofBytes_keyword {text : Bytes} (place : Place.of s = .keyword text rest) :
    ofBytes (K := K) s = resume (wordToken? text) rest := by
  have turn := next_eq (K := K) s
  rw [place] at turn
  dsimp only at turn
  cases token : wordToken? (K := K) text with
  | none =>
      rw [token] at turn
      exact ofBytes_of_next_eq turn
  | some token =>
      rw [token] at turn
      exact ofBytes_of_next_token turn

theorem ofBytes_value {t : Bytes} {value : Option (Operand K)} (place : Place.of s = .value t)
    (read : operand [] t = .ok (value, rest)) : ofBytes s = resume (value.map .operand) rest := by
  have turn := next_eq (K := K) s
  rw [place] at turn
  dsimp only at turn
  rw [read] at turn
  cases value with
  | none => exact ofBytes_of_next_eq turn
  | some value => exact ofBytes_of_next_token turn

theorem ofBytes_value_fault {t : Bytes} {fault : Fault} (place : Place.of s = .value t)
    (failed : operand (K := K) [] t = .error fault) : ofBytes (K := K) s = ⟨[], some fault⟩ := by
  apply ofBytes_of_fault
  rw [next_eq, place]
  dsimp only
  rw [failed]
  rfl

theorem ofBytes_image {startLeft : Nat} {t : Bytes} {image : InlineImage K}
    (place : Place.of s = .image startLeft t) (read : inlineImage startLeft t = .ok (image, rest)) :
    ofBytes s = resume (some (.operator ⟨"BI", some ⟨startLeft, image⟩⟩)) rest := by
  apply ofBytes_of_next_token
  rw [next_eq, place]
  dsimp only
  rw [read]
  rfl

theorem ofBytes_image_fault {startLeft : Nat} {t : Bytes} {fault : Fault}
    (place : Place.of s = .image startLeft t)
    (failed : inlineImage (K := K) startLeft t = .error fault) :
    ofBytes (K := K) s = ⟨[], some fault⟩ := by
  apply ofBytes_of_fault
  rw [next_eq, place]
  dsimp only
  rw [failed]
  rfl

end TokenStream

end PdfContent.Content
