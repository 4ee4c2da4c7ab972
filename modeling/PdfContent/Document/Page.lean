import PdfContent.Document.Resources
import PdfContent.Layout.PlacedText

/-!
# Pages of a document

What a page does not say itself it may inherit from the nodes above it in the tree of pages. Trees may be
broken or go in circles, so walking up ends after a fixed number of steps.
-/

namespace PdfContent

variable {K : Type}

/-- A page of a document, and its place among the pages. -/
structure Page (K : Type) where
  document : Document K
  id : ObjectId
  index : Nat

/-- An annotation that can be painted. -/
structure Annot (K : Type) where
  subtype : String
  rect : BBox K
  appearance : Form K (ObjectEntries K)

def Document.page (d : Document K) (index : Nat) : Except ReadError (Page K) :=
  let ids := d.pageIds
  match ids[index]? with
  | some id => .ok ⟨d, id, index⟩
  | none =>
    .error (.parse ("page index " ++ toString index ++ " out of range (0.." ++ toString ids.length ++ ")"))

namespace Page

variable (p : Page K)

def entries : Except ReadError (ObjectEntries K) :=
  match p.document.findDictionary p.id with
  | .ok entries => .ok entries
  | .error e => .error (.parse ("failed to get page dictionary: " ++ e))

/-- An entry of a node or of one of the next nodes above it, `bound` nodes in all. -/
def inheritedFrom (d : Document K) (key : String) : (bound : Nat) → ObjectEntries K →
    Except ReadError (Option (Object K))
  | 0, _ => .error (.parse "page tree is too deep")
  | bound + 1, node =>
    match node.at? key with
    | some o => .ok (some (d.resolve o))
    | none =>
      match (node.at? "Parent").bind Object.reference? with
      | none => .ok none
      | some id =>
        match d.findDictionary id with
        | .ok parent => inheritedFrom d key bound parent
        | .error e => .error (.parse ("invalid /Parent reference: " ++ e))

/-- An entry of the page or of the nodes above it. -/
def inherited? (key : String) : Except ReadError (Option (Object K)) := do
  inheritedFrom p.document key 64 (← p.entries)

/-- The contents of streams, each on a new line. -/
def joinContents (d : Document K) : (done : Bytes) → List (Object K) → Except ReadError Bytes
  | done, [] => .ok done
  | done, part :: rest =>
    let o := d.resolve part
    match o.stream? with
    | none =>
      .error (.parse ("/Contents array item is not a stream: " ++ d.wrongType "Stream" o))
    | some stream => do
      let content ← d.content stream
      joinContents d ((if done.isEmpty then [] else done ++ [0x0A]) ++ content) rest

variable [Scalar K]

/-- The content of the page; a page without an entry for it is empty. -/
def content : Except ReadError Bytes := do
  match (← p.entries).at? "Contents" with
  | none => return []
  | some o =>
    match p.document.resolve o with
    | .stream entries data => p.document.content ⟨entries, data⟩
    | .array parts => joinContents p.document [] parts
    | other => throw (.parse ("/Contents is not a stream or array: " ++ p.document.describe other))

/-- The scope of the page's content. -/
def scope : Except ReadError (ObjectEntries K) := do
  match ← p.inherited? "Resources" with
  | some (.dictionary entries) => return entries
  | some other => throw (.parse ("/Resources is not a dictionary: " ++ p.document.describe other))
  | none => return []

def mediaBox : Except ReadError (BBox K) := do
  match ← p.inherited? "MediaBox" with
  | none => return .ofCorners 0 0 (Scalar.ofInt 612) (Scalar.ofInt 792)
  | some o =>
    match p.document.boxOf? o with
    | some box => return box
    | none => throw (.parse ("invalid /MediaBox: " ++ p.document.describe o))

/-- The box that is shown: the crop box if there is a valid one, else the media box. -/
def cropBox : Except ReadError (BBox K) := do
  match (← p.inherited? "CropBox").bind p.document.boxOf? with
  | some box => return box
  | none => p.mediaBox

omit [Scalar K] in
/-- The rotation of the page in degrees, as a 32-bit number. -/
def rotation : Except ReadError Int := do
  match ← p.inherited? "Rotate" with
  | none => return 0
  | some o =>
    match o.integer? with
    | some i => return i.bmod 0x100000000
    | none =>
      throw (.parse ("/Rotate is not an integer: " ++ p.document.wrongType "Integer" o))

def frame : Except ReadError (PageFrame K) := do
  let box ← p.cropBox
  return .ofBox box (← p.rotation)

omit [Scalar K] in
/-- The stream of an annotation's normal appearance; one of several is selected by the annotation's
state. -/
def normalAppearance? (d : Document K) (annot : ObjectEntries K) : Option (ObjectStream K) := do
  let appearances ← d.dictionary? annot "AP"
  match ← d.entry? appearances "N" with
  | .stream entries data => return ⟨entries, data⟩
  | .dictionary states =>
    let state ← (← annot.at? "AS").nameBytes?
    (d.resolve (← ObjectEntries.get? states state)).stream?
  | _ => none

/-- Whether flags hide an annotation: the second bit says hidden, the sixth not to be shown. -/
def isHidden (flags : Int) : Bool := flags / 2 % 2 == 1 || flags / 32 % 2 == 1

/-- The annotation of an object, if it is shown and has an appearance. -/
def annotOf? (d : Document K) (scope : ObjectEntries K) (o : Object K) : Option (Annot K) := do
  let annot ← (d.resolve o).dictionary?
  if isHidden (((annot.at? "F").bind Object.integer?).getD 0) then none
  let rect ← d.box? annot "Rect"
  let appearance ← d.form? scope (← normalAppearance? d annot)
  return ⟨(d.name? annot "Subtype").getD "", rect, appearance⟩

/-- The annotations of the page that can be painted. -/
def annots : Except ReadError (List (Annot K)) := do
  match ((← p.entries).at? "Annots").bind fun o => (p.document.resolve o).array? with
  | none => return []
  | some items =>
    let scope ← p.scope
    return items.filterMap (annotOf? p.document scope)

end Page

end PdfContent
