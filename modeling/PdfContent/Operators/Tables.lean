import PdfContent.Operators.GraphicsState
import PdfContent.Operators.TextShowing
import PdfContent.Operators.MarkedContent
import PdfContent.Operators.Placement
import PdfContent.Operators.PathConstruction
import PdfContent.Operators.PathPainting
import PdfContent.Operators.Coloring

/-!
# The built-in operator tables

`graphicsTable` carries out all operators. `textTable` is enough to find text: it follows the graphics
state, text, forms and marked content, and passes over what only paints.
-/

namespace PdfContent.Operators

variable {K σ : Type} [Scalar K]

/-- The operators that both tables carry out. -/
def sharedEntries : List (TableEntry K (Action K σ)) :=
  stateEntries ++ textStateEntries ++ textShowingEntries ++ markedEntries ++ formEntries

/-- The operators that only paint. -/
def paintingEntries : List (TableEntry K (Action K σ)) :=
  inlineImageEntries ++ pathConstructionEntries ++ pathPaintingEntries ++ colorEntries

@[irreducible] def graphicsTable : ContentTable K σ := .ofList (sharedEntries ++ paintingEntries)

/-- Painting operators may stand in text with any operands. -/
@[irreducible] def textTable : ContentTable K σ :=
  .ofList (sharedEntries ++
    (paintingEntries (K := K) (σ := σ)).map fun e => ignored e.keyword 0)

end PdfContent.Operators
