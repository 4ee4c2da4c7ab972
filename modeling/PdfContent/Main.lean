import PdfContent.CommandLine.Report
import PdfContent.Document.Table
import PdfContent.Json.Reader
import PdfContent.Text.Tables

/-!
# The program

Reads the file that the arguments name, as a document in JSON, and writes what they ask for.
-/

namespace PdfContent.CommandLine

/-- The document that a text describes. -/
def documentOfText (text : String) : Except OpenError (Document Float) :=
  match (Json.parse? text).bind ObjectTable.ofJson? with
  | some table => .ok (table.document "unknown filter")
  | none => .error .notADocument

def readDocument (file : String) : IO (Except OpenError (Document Float)) := do
  try
    return documentOfText (← IO.FS.readFile file)
  catch
    | .noFileOrDirectory .. => return .error .missing
    | e => return .error (.unreadable (.inputOutput (toString e)))

end PdfContent.CommandLine

open PdfContent PdfContent.CommandLine in
def main (words : List String) : IO UInt32 := do
  let found ← match Request.ofWords? words with
    | some (.run _ file _) => readDocument file
    | _ => pure (.error .missing)
  let written := @output Text.byTables (fun _ => found) words
  written.lines.forM IO.println
  written.complaints.forM IO.eprintln
  return UInt32.ofNat written.code
