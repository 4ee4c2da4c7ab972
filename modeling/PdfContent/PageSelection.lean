import PdfContent.Decimal.Reading
import PdfContent.Text.Blank
import PdfContent.Text.Parts

/-!
# Selections of pages

A selection such as `1,3-5,8-` names pages by their numbers, from one, in parts between commas: a single
page, a range, or a range that runs to the last page. Its pages come out in order and once each, by their
places, from zero.
-/

namespace PdfContent

namespace PageSelection

inductive Problem
  | notANumber (text : List Char)
  | zero
  | beyondLast (page count : Nat)
  | reversed (part : List Char)
  | nothing (selection : String)
  deriving DecidableEq, Repr

def Problem.message : Problem → String
  | .notANumber text => "invalid page number: '" ++ String.ofList text ++ "'"
  | .zero => "page 0 is invalid (pages start at 1)"
  | .beyondLast page count =>
    "page " ++ toString page ++ " exceeds document page count (" ++ toString count ++ ")"
  | .reversed part => "range '" ++ String.ofList part ++ "' ends before it starts"
  | .nothing selection => "no pages selected by '" ++ selection ++ "'"

/-- Pages from one number to another. -/
structure Span where
  first : Nat
  last : Nat
  deriving DecidableEq, Repr

/-- The places of the pages of a span. -/
def Span.places (s : Span) : List Nat := List.range' (s.first - 1) (s.last + 1 - s.first)

/-- The number of a page in a document with so many pages. -/
def page (count : Nat) (text : List Char) : Except Problem Nat :=
  let text := Text.trim text
  match Decimal.natural? text with
  | none => .error (.notANumber text)
  | some 0 => .error .zero
  | some n => if count < n then .error (.beyondLast n count) else .ok n

/-- The span of a part without blanks around it. -/
def span (count : Nat) (part : List Char) : Except Problem Span := do
  let s ← match Text.cutAt? '-' part with
    | none => do
      let n ← page count part
      pure ⟨n, n⟩
    | some (first, last) => do
      let n ← page count first
      if (Text.trim last).isEmpty then pure ⟨n, count⟩ else pure ⟨n, ← page count last⟩
  if s.last < s.first then throw (.reversed part) else return s

/-- The parts of a selection that are not blank. -/
def parts (selection : String) : List (List Char) :=
  ((Text.splitAt ',' selection.toList).map Text.trim).filter fun part => !part.isEmpty

/-- A list in order without its repetitions. -/
def withoutRepeats : List Nat → List Nat
  | a :: b :: rest => if a = b then withoutRepeats (b :: rest) else a :: withoutRepeats (b :: rest)
  | s => s

/-- The places of the selected pages of a document with so many pages. -/
def places (count : Nat) (selection : String) : Except Problem (List Nat) := do
  let spans ← (parts selection).mapM (span count)
  if spans.isEmpty then throw (.nothing selection)
  return withoutRepeats ((spans.flatMap Span.places).mergeSort (· ≤ ·))

end PageSelection

end PdfContent
