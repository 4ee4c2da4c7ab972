/-!
# Parts of a text

A text cut at a separator: at each of its occurrences, or at the first. The characters of the parts
are those of the text without the separators that were cut at.
-/

namespace PdfContent.Text

/-- The parts of a text before, between and after the occurrences of a character. -/
def splitAt (separator : Char) : List Char → List (List Char)
  | [] => [[]]
  | c :: rest =>
    if c == separator then [] :: splitAt separator rest
    else
      match splitAt separator rest with
      | [] => [[c]]
      | part :: parts => (c :: part) :: parts

/-- The text before and after the first occurrence of a character. -/
def cutAt? (separator : Char) : List Char → Option (List Char × List Char)
  | [] => none
  | c :: rest =>
    if c == separator then some ([], rest)
    else (cutAt? separator rest).map fun (before, after) => (c :: before, after)

end PdfContent.Text
