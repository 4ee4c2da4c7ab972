import PdfContent.Document.Basic
import PdfContent.Paint.Color

/-!
# Colour spaces of a document

A colour space is a name or an array that starts with the name of its family. Names that are not known by
themselves are looked up in the resources, and spaces are built on other spaces; both may go in circles,
so the depth to which spaces are followed is bounded.
-/

namespace PdfContent.Document

variable {K : Type} [Scalar K]

/-- The value of a resource name in one category, as it stands. -/
def resource? (d : Document K) (scope : ObjectEntries K) (category name : String) : Option (Object K) :=
  (d.dictionary? scope category).bind fun entries => entries.at? name

/-- The spaces that their name alone describes. -/
def namedSpace? (name : String) : Option ColorSpace :=
  match name with
  | "CalGray" => some .calGray
  | "CalRGB" => some .calRGB
  | "Lab" => some .lab
  | _ => ColorSpace.ofDeviceName? name

/-- The space that stands in for an embedded profile with a number of components. -/
def profileSpace : Nat → ColorSpace
  | 1 => .deviceGray
  | 4 => .deviceCMYK
  | _ => .deviceRGB

/-- A space of a family with parameters; `inner` reads the spaces that it is built on. -/
def familySpace? (d : Document K) (inner : Object K → Option ColorSpace) (family : String)
    (parameters : List (Object K)) : Option ColorSpace := do
  let first? := parameters[0]?
  match family with
  | "ICCBased" =>
    let profile ← (d.resolve (← first?)).stream?
    let count := ((d.number? profile.entries "N").map natural32).getD 3
    let alternate := ((profile.entries.at? "Alternate").bind inner).getD (profileSpace count)
    return .iccBased count alternate
  | "Indexed" | "I" =>
    let base ← inner (← first?)
    let high ← (d.resolve (← parameters[1]?)).number?
    let table ← match d.resolve (← parameters[2]?) with
      | .string bytes => some bytes
      | .stream entries data => (d.content ⟨entries, data⟩).toOption
      | _ => none
    return .indexed base (natural32 high) table
  | "Separation" =>
    let colorant ← (d.resolve (← first?)).name?
    return .separation colorant (← inner (← parameters[1]?))
  | "DeviceN" =>
    let names ← (d.resolve (← first?)).array?
    return .deviceN (names.filterMap fun o => (d.resolve o).name?) (← inner (← parameters[1]?))
  | "Pattern" => return .pattern (first?.bind inner)
  | _ =>
    if ["CalGray", "CalRGB", "Lab", "DeviceGray", "DeviceRGB", "DeviceCMYK"].contains family then
      namedSpace? family
    else none

/-- A colour space that is built on others to a depth less than the bound. -/
def colorSpaceWithin (d : Document K) (scope : ObjectEntries K) : (bound : Nat) → Object K → Option ColorSpace
  | 0, _ => none
  | bound + 1, o =>
    let inner := colorSpaceWithin d scope bound
    match d.resolve o with
    | .name bytes =>
      let name := Text.decodeUtf8 bytes
      (namedSpace? name).or ((d.resource? scope "ColorSpace" name).bind inner)
    | .array (family :: parameters) => do
      familySpace? d inner (← (d.resolve family).name?) parameters
    | _ => none

/-- The colour space that an object describes. -/
def colorSpace? (d : Document K) (scope : ObjectEntries K) (o : Object K) : Option ColorSpace :=
  d.colorSpaceWithin scope (resolveLimit + 1) o

/-- The colour space under a name of the resources. -/
def namedColorSpace? (d : Document K) (scope : ObjectEntries K) (name : String) : Option ColorSpace :=
  (d.resource? scope "ColorSpace" name).bind (d.colorSpaceWithin scope resolveLimit)

end PdfContent.Document
