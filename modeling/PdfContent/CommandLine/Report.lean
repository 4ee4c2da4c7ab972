import PdfContent.CommandLine.Arguments
import PdfContent.CommandLine.Listing
import PdfContent.Document.Page
import PdfContent.Interpreter.Page
import PdfContent.PageSelection

/-!
# Reports on documents

A report goes through the selected pages in order and ends at the first page that fails or overflows; such
a page adds nothing to the report. Text comes out page by page. The other commands list things, as lines
or as one JSON array, which appears only if no page fails.
-/

namespace PdfContent.CommandLine

inductive Problem
  | noFile (file : String)
  | unreadable (cause : ReadError)
  | selection (cause : PageSelection.Problem)
  | reading (page : Nat) (cause : ReadError)
  | interpreting (page : Nat) (cause : ReadError)
  | overflow (cause : Overflow)
  deriving DecidableEq, Repr

def Problem.message : Problem → String
  | .noFile file => "Error: file not found: " ++ file
  | .unreadable cause => "Error: failed to open PDF: " ++ cause.message
  | .selection cause => "Error: " ++ cause.message
  | .reading page cause => "Error reading page " ++ toString page ++ ": " ++ cause.message
  | .interpreting page cause => "Error interpreting page " ++ toString page ++ ": " ++ cause.message
  | .overflow cause => cause.message

/-- The code that the program ends with. -/
def Problem.code : Problem → Nat
  | .overflow _ => 101
  | _ => 1

inductive Format
  | text
  | json
  deriving DecidableEq, Repr

/-- What to report, and how. -/
structure Inquiry where
  command : Command
  pages : Option String
  format : Format
  options : Options
  unsorted : Bool
  tolerance : Float
  annotations : Bool

namespace Inquiry

def ofGiven (command : Command) (g : Given) : Inquiry where
  command
  pages := g.setting? .pages
  format := if g.setting? .format == some "json" then .json else .text
  options :=
    { Options.standard with
      maxDepth := ((g.setting? .maxDepth).bind fun s => Decimal.natural? s.toList).getD Options.standard.maxDepth
      expandPatterns := g.switches.contains .expandPatterns }
  unsorted := g.switches.contains .unsorted
  tolerance := ((g.setting? .tolerance).bind Decimal.decimal?).getD PlacedText.standardTolerance
  annotations := g.switches.contains .annotations

/-- The places of the pages to report on. -/
def places (q : Inquiry) (count : Nat) : Except Problem (List Nat) :=
  match q.pages with
  | none => .ok (List.range count)
  | some selection => (PageSelection.places count selection).mapError .selection

end Inquiry

/-- A page that is about to be run. -/
structure OpenPage where
  page : Page Float
  content : Bytes
  scope : ObjectEntries Float

namespace OpenPage

def ofDocument (d : Document Float) (place : Nat) : Except Problem OpenPage :=
  let made : Except ReadError OpenPage := do
    let page ← d.page place
    return ⟨page, ← page.content, ← page.scope⟩
  made.mapError (.reading (place + 1))

variable (p : OpenPage)

/-- The number of the page, from one. -/
def number : Nat := p.page.index + 1

/-- The log of a run that has neither overflowed nor failed. -/
def logOf (overflow : Option Overflow) (o : Outcome ContentError Float (ObjectEntries Float) Unit) :
    Except Problem (List (Entry Float (ObjectEntries Float))) :=
  match overflow, o.result with
  | some cause, _ => .error (.overflow cause)
  | none, .ok _ => .ok o.log
  | none, .error e => .error (.interpreting p.number (.content e))

variable [Text.Decoder]

def painting (options : Options) : RunSettings Float (ObjectEntries Float) :=
  .graphics options .identity p.page.document.resolver

/-- The pieces of text on the page. -/
def positions (options : Options) : Except Problem (List (TextPosition Float (ObjectEntries Float))) := do
  let frame ← p.page.frame.mapError (.interpreting p.number)
  let o := (RunSettings.text options p.page.document.resolver).page p.content p.scope
  let log ← p.logOf ((Entry.overflow? o.log).or (TextPosition.overflow? o.log)) o
  return TextPosition.ofLog frame log

/-- What is listed of an annotation: that it begins, and what its appearance does. -/
def annotationItems (options : Options) (a : Annot Float) : Except Problem (List Item) := do
  let o := (p.painting options).appearance a.appearance a.rect p.scope
  let log ← p.logOf (Entry.overflow? o.log) o
  return Listing.annotation a.subtype a.rect :: (Entry.events log).filterMap Listing.ofEvent?

/-- What is listed of the operations of the page and, if asked for, of its annotations. -/
def operations (options : Options) (annotations : Bool) : Except Problem (List Item) := do
  let o := (p.painting options).page p.content p.scope
  let log ← p.logOf (Entry.overflow? o.log) o
  let items := (Entry.events log).filterMap Listing.ofEvent?
  if annotations then
    let annots ← p.page.annots.mapError (.interpreting p.number)
    return items ++ (← annots.mapM (p.annotationItems options)).flatten
  else return items

/-- The items of a report on the page. -/
def items (q : Inquiry) : Except Problem (List Item) := do
  match q.command with
  | .text =>
    let positions ← p.positions q.options
    let ordered := if q.unsorted then positions else TextPosition.inReadingOrder q.tolerance positions
    let text := TextPosition.joinText q.tolerance ordered
    return [⟨text, [("text", .str text)]⟩]
  | .chars => return (← p.positions q.options).map (Listing.char p.number)
  | .ops => p.operations q.options q.annotations
  | .warnings =>
    let o := (p.painting q.options).page p.content p.scope
    let log ← p.logOf (Entry.overflow? o.log) o
    return (Entry.warnings log).map (Listing.warning p.number)

end OpenPage

/-- The number of a page, and what is reported on it. -/
structure PageReport where
  page : Nat
  items : List Item

namespace PageReport

/-- The lines of a page; text and operations stand under the number of the page. -/
def lines (command : Command) (r : PageReport) : List String :=
  let titled := match command with
    | .text | .ops => ["--- Page " ++ toString r.page ++ " ---"]
    | .chars | .warnings => []
  titled ++ r.items.map Item.line

def values (r : PageReport) : List Json :=
  r.items.map fun item => .obj (("page", .ofNat r.page) :: item.entries)

def ofPlace [Text.Decoder] (q : Inquiry) (d : Document Float) (place : Nat) : Except Problem PageReport := do
  let p ← OpenPage.ofDocument d place
  return ⟨p.number, ← p.items q⟩

end PageReport

/-- The reports on pages up to the first one that fails. -/
def reportsUpTo [Text.Decoder] (q : Inquiry) (d : Document Float) : List Nat → List PageReport × Option Problem
  | [] => ([], none)
  | place :: rest =>
    match PageReport.ofPlace q d place with
    | .error problem => ([], some problem)
    | .ok report =>
      let (reports, problem) := reportsUpTo q d rest
      (report :: reports, problem)

/-- What the program writes, and the code that it ends with. -/
structure Output where
  lines : List String
  complaints : List String
  code : Nat
  deriving DecidableEq, Repr

def Output.ofProblem (lines : List String) : Option Problem → Output
  | none => ⟨lines, [], 0⟩
  | some problem => ⟨lines, [problem.message], problem.code⟩

def renderSorted (j : Json) : String := j.sortKeys.render

/-- The lines of reports on pages; whether all pages are among them decides about a closing array. -/
def reportLines (q : Inquiry) (complete : Bool) (reports : List PageReport) : List String :=
  match q.format, q.command with
  | .text, .chars => Listing.charColumns :: reports.flatMap (PageReport.lines q.command)
  | .text, _ => reports.flatMap (PageReport.lines q.command)
  | .json, .text => (reports.flatMap PageReport.values).map renderSorted
  | .json, _ => if complete then [renderSorted (.arr (reports.flatMap PageReport.values))] else []

/-- The report on the selected pages of a document. -/
def report [Text.Decoder] (q : Inquiry) (d : Document Float) : Output :=
  match q.places d.pageIds.length with
  | .error problem => .ofProblem [] (some problem)
  | .ok places =>
    let (reports, problem) := reportsUpTo q d places
    .ofProblem (reportLines q problem.isNone reports) problem

/-- Why there is no document in a file. -/
inductive OpenError
  | missing
  | unreadable (cause : ReadError)
  deriving DecidableEq, Repr

/-- What is said of a file that holds something else. -/
def OpenError.notADocument : OpenError :=
  .unreadable (.parse "failed to parse PDF: couldn't parse input: invalid file header")

/-- The program's name and version. -/
def versionText : String := "pdfstream 0.1.0"

/-- What the program writes for the words after its name, where `find` opens the document of a file. -/
def output [Text.Decoder] (find : String → Except OpenError (Document Float)) (words : List String) : Output :=
  match Request.ofWords? words with
  | none => ⟨[], usage, 2⟩
  | some .help => ⟨usage, [], 0⟩
  | some .version => ⟨[versionText], [], 0⟩
  | some (.run command file given) =>
    match find file with
    | .ok d => report (.ofGiven command given) d
    | .error .missing => .ofProblem [] (some (.noFile file))
    | .error (.unreadable cause) => .ofProblem [] (some (.unreadable cause))

end PdfContent.CommandLine
