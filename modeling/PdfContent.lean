import PdfContent.Content.TokenStream
import PdfContent.Decimal.Fixed
import PdfContent.Document.Page
import PdfContent.Document.Table
import PdfContent.Font.CMap
import PdfContent.Font.Encoding
import PdfContent.Font.Standard
import PdfContent.Interchange
import PdfContent.Interpreter.Page
import PdfContent.Json.Reader
import PdfContent.Layout.TextPosition
import PdfContent.Main
import PdfContent.PageSelection
import PdfContent.Proofs.Bracketing
import PdfContent.Proofs.CodeSplitting
import PdfContent.Proofs.CompoundText
import PdfContent.Proofs.Expansion
import PdfContent.Proofs.FailureReports
import PdfContent.Proofs.Faults
import PdfContent.Proofs.IndexedRuns
import PdfContent.Proofs.InlineImages
import PdfContent.Proofs.Joining
import PdfContent.Proofs.Reading
import PdfContent.Proofs.ReadingCalls
import PdfContent.Proofs.Rejection
import PdfContent.Proofs.StringItems
import PdfContent.Proofs.Termination
import PdfContent.Proofs.TextAssembly
import PdfContent.Proofs.TextPlacement
import PdfContent.Proofs.ToldPaths
import PdfContent.Proofs.WritingOut
import PdfContent.Trace.Run
import PdfContent.Trace.Scope
import PdfContent.Proofs.ExactArithmetic
import PdfContent.Proofs.ReadingLines
import PdfContent.Proofs.TurnedPages
import PdfContent.Proofs.MissingValues
import PdfContent.Proofs.GlyphNumbers
import PdfContent.Proofs.MappedText
import PdfContent.Proofs.NamedCodes
import PdfContent.Proofs.GlyphWidths
import PdfContent.Proofs.GlyphNames
import PdfContent.Proofs.ExactDivision
import PdfContent.Proofs.Appearances
import PdfContent.Proofs.TextStops
import PdfContent.Proofs.CodePieces
import PdfContent.Proofs.TextParts
import PdfContent.Proofs.SelectedPages
import PdfContent.Proofs.BoundedLookups
import PdfContent.Proofs.ColourRuns
import PdfContent.Proofs.ConsecutiveTargets
import PdfContent.Proofs.TransformedBoxes
import PdfContent.Proofs.ReadBefore
