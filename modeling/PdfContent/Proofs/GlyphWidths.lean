import PdfContent.Document.Font
import PdfContent.Document.ObjectTable
import PdfContent.Proofs.MapPrograms
import PdfContent.Proofs.Naturals
import PdfContent.Text.Tables

/-!
# Widths of glyph numbers

An array of widths is a sequence of segments: a number with a list of widths, one for each glyph number
from it on, or two numbers with one width for all glyph numbers between them. Which of the two a segment
is shows only at its second element. Reading takes just the elements of one segment off the array, so
that the next segment is read from its own first element (`cidWidths_of_writes`). Segments may overlap;
the last one that has a width for a glyph number counts.
-/

namespace PdfContent

variable {K : Type} [Scalar K]

/-! ### Segments -/

/-- A segment of an array of widths. Its widths are objects, of which some may be no numbers. -/
inductive WidthSegment (K : Type)
  | listed (first : UInt16) (widths : List (Object K))
  | uniform (first last : UInt16) (width : Object K)

namespace WidthSegment

variable (d : Document K)

/-- A segment gives a width to a glyph number: it covers the number, and with a number. -/
inductive Gives (cid : Nat) : WidthSegment K → K → Prop
  | listed {first : UInt16} {k : Nat} {widths : List (Object K)} {o : Object K} {w : K} :
      cid = first.toNat + k → widths[k]? = some o → (d.resolve o).number? = some w →
      Gives cid (.listed first widths) w
  | uniform {first last : UInt16} {o : Object K} {w : K} :
      first.toNat ≤ cid → cid ≤ last.toNat → (d.resolve o).number? = some w →
      Gives cid (.uniform first last o) w

/-- What is kept of a segment. -/
def kept? : WidthSegment K → Option (CidWidths K)
  | .listed first widths => some (.listed first.toNat (widths.map fun w => (d.resolve w).number?))
  | .uniform first last width => (d.resolve width).number?.map (.uniform first.toNat last.toNat)

/-- The width that a segment gives to a glyph number. -/
def widthAt? (cid : Nat) (s : WidthSegment K) : Option K := (s.kept? d).bind fun e => e.width? cid

theorem widthAt?_listed {cid : Nat} {first : UInt16} {widths : List (Object K)} {w : K} :
    (listed first widths).widthAt? d cid = some w ↔ (listed first widths).Gives d cid w := by
  have shape : (listed first widths).widthAt? d cid = some w ↔
      first.toNat ≤ cid ∧
        ∃ o, widths[cid - first.toNat]? = some o ∧ (d.resolve o).number? = some w := by
    simp [widthAt?, kept?, CidWidths.width?, List.getElem?_map, Option.join_eq_some_iff]
  rw [shape]
  constructor
  · rintro ⟨least, o, at_k, number⟩
    exact .listed (by omega) at_k number
  · intro gives
    cases gives with
    | listed at_cid at_k number =>
        subst at_cid
        exact ⟨by omega, _, by rwa [Nat.add_sub_cancel_left], number⟩

omit [Scalar K] in
/-- The bound on the length of a range does not show: no range of sixteen-bit numbers is longer. -/
theorem width?_uniform (first last : UInt16) (x : K) (cid : Nat) :
    (CidWidths.uniform first.toNat last.toNat x).width? cid =
      if first.toNat ≤ cid ∧ cid ≤ last.toNat then some x else none := by
  have bounded := last.toNat_lt
  exact if_congr (by omega) rfl rfl

theorem widthAt?_uniform {cid : Nat} {first last : UInt16} {o : Object K} {w : K} :
    (uniform first last o).widthAt? d cid = some w ↔ (uniform first last o).Gives d cid w := by
  have shape : (uniform first last o).widthAt? d cid = some w ↔
      (d.resolve o).number? = some w ∧ first.toNat ≤ cid ∧ cid ≤ last.toNat := by
    rw [widthAt?, kept?]
    cases (d.resolve o).number? with
    | none => simp
    | some x => simp [width?_uniform, and_comm]
  rw [shape]
  constructor
  · rintro ⟨number, least, most⟩
    exact .uniform least most number
  · intro gives
    cases gives with
    | uniform least most number => exact ⟨number, least, most⟩

theorem widthAt?_eq_some_iff (cid : Nat) (s : WidthSegment K) (w : K) :
    s.widthAt? d cid = some w ↔ s.Gives d cid w := by
  cases s with
  | listed => exact widthAt?_listed d
  | uniform => exact widthAt?_uniform d

end WidthSegment

omit [Scalar K] in
/-- An entry that stands first is found. -/
theorem ObjectEntries.at?_cons_self (key : String) (o : Object K) (rest : ObjectEntries K) :
    ObjectEntries.at? ((Text.encodeUtf8 key, o) :: rest) key = some o := by
  simp [at?, get?]

namespace Document

variable (d : Document K)

/-! ### Segments in an array -/

/-- The object is a glyph number, or refers to one. -/
def HoldsGlyphNumber (o : Object K) (n : UInt16) : Prop := d.resolve o = .integer n.toNat

/-- The elements of an array are those of segments. Lists, like numbers, may stand there themselves or
by reference. -/
inductive Writes : List (WidthSegment K) → List (Object K) → Prop
  | nil : Writes [] []
  | listed {o list : Object K} {first : UInt16} {widths : List (Object K)}
      {segments : List (WidthSegment K)} {rest : List (Object K)} :
      d.HoldsGlyphNumber o first → d.resolve list = .array widths → Writes segments rest →
      Writes (.listed first widths :: segments) (o :: list :: rest)
  | uniform {o o' width : Object K} {first last : UInt16} {segments : List (WidthSegment K)}
      {rest : List (Object K)} :
      d.HoldsGlyphNumber o first → d.HoldsGlyphNumber o' last → Writes segments rest →
      Writes (.uniform first last width :: segments) (o :: o' :: width :: rest)

variable {d} {segments : List (WidthSegment K)} {items : List (Object K)}

theorem number?_integer (i : Int) : (Object.integer i : Object K).number? = some (Scalar.ofInt i) := rfl

theorem natural32_glyphNumber [HoldsNaturals K] (n : UInt16) :
    natural32 (Scalar.ofInt n.toNat : K) = n.toNat := by
  have small := n.toNat_lt
  exact HoldsNaturals.natural32_ofInt _ (by omega)

/-- An array of segments is read as these segments, one after the other. -/
theorem cidWidths_of_writes [HoldsNaturals K] (writes : d.Writes segments items) :
    d.cidWidths items = segments.filterMap (WidthSegment.kept? d) := by
  induction writes with
  | nil => rfl
  | @listed o list first widths segments rest isFirst isList _ ih =>
      have first_eq : d.resolve o = .integer first.toNat := isFirst
      simp only [cidWidths, first_eq, isList, number?_integer, natural32_glyphNumber, ih]
      rfl
  | @uniform o o' width first last segments rest isFirst isLast _ ih =>
      have first_eq : d.resolve o = .integer first.toNat := isFirst
      have last_eq : d.resolve o' = .integer last.toNat := isLast
      rw [List.filterMap_cons, WidthSegment.kept?]
      cases number : (d.resolve width).number? with
      | none => simp only [cidWidths, first_eq, last_eq, number?_integer, number, ih, Option.map_none]
      | some w =>
          simp only [cidWidths, first_eq, last_eq, number?_integer, number, natural32_glyphNumber, ih,
            Option.map_some]

/-- The width that is looked up is that of the last segment that gives one. -/
theorem lookUp?_cidWidths [HoldsNaturals K] (writes : d.Writes segments items) (cid : Nat) :
    CidWidths.lookUp? (d.cidWidths items) cid =
      segments.reverse.findSome? (WidthSegment.widthAt? d cid) := by
  rw [CidWidths.lookUp?, cidWidths_of_writes writes, ← List.filterMap_reverse, findSome?_filterMap]
  rfl

/-! ### Composite fonts -/

/-- The width of a glyph number by the segments of an array: that of the last segment that covers the
number with a number, or a standard width if none does. -/
inductive CidWidth (d : Document K) (segments : List (WidthSegment K)) (standard : K) (cid : Nat) :
    K → Prop
  | segment {w : K} : LastGiving (fun s => s.Gives d cid) segments w → CidWidth d segments standard cid w
  | standard : (∀ s ∈ segments, ∀ w, ¬s.Gives d cid w) → CidWidth d segments standard cid standard

theorem getD_findSome?_iff (standard : K) (cid : Nat) (w : K) :
    (segments.reverse.findSome? (WidthSegment.widthAt? d cid)).getD standard = w ↔
      CidWidth d segments standard cid w := by
  have agrees := WidthSegment.widthAt?_eq_some_iff d cid
  cases found : segments.reverse.findSome? (WidthSegment.widthAt? d cid) with
  | some x =>
      have last := (findSome?_reverse_iff_lastGiving agrees).mp found
      constructor
      · rintro rfl
        exact .segment last
      · intro width
        cases width with
        | segment last' =>
            have found' := (findSome?_reverse_iff_lastGiving agrees).mpr last'
            exact Option.some.inj (found.symm.trans found')
        | standard none =>
            obtain ⟨before, s, after, rfl, gives, -⟩ := last
            exact absurd gives (none s (by simp) x)
  | none =>
      have none := (findSome?_reverse_eq_none_iff agrees).mp found
      constructor
      · rintro rfl
        exact .standard none
      · intro width
        cases width with
        | segment last =>
            obtain ⟨before, s, after, rfl, gives, -⟩ := last
            exact absurd gives (none s (by simp) w)
        | standard => rfl

/-- The width of a glyph number can be computed from the segments. -/
instance [DecidableEq K] (standard : K) (cid : Nat) (w : K) :
    Decidable (CidWidth d segments standard cid w) :=
  decidable_of_iff _ (getD_findSome?_iff standard cid w)

/-- The width of a glyph number by the entries of a descendant font. -/
def descendantWidth (d : Document K) (descendant : ObjectEntries K) (cid : Nat) : K :=
  (CidWidths.lookUp? (d.cidWidths (((d.entry? descendant "W").bind Object.array?).getD [])) cid).getD
    ((d.number? descendant "DW").getD (Scalar.ofInt 1000))

/-- The widths of a font are a function of glyph numbers. Asking for the width of a code whose glyph
number overflows overflows as well; all other codes have a width. -/
structure WidthsByCid (f : Font K (ObjectEntries K)) (codes : CMap) (width : Nat → K) : Prop where
  width {code cid : UInt32} : codes.toCid code = .ok cid → f.width code = width cid.toNat
  overflow? (code : UInt32) : f.overflow? (.width code) = Overflow.of? (codes.toCid code)

section Loading

variable [Text.Decoder] {o : Object K} {font descendant : ObjectEntries K} {others : List (Object K)}

theorem exists_compositeFont?
    (descends : d.array? font "DescendantFonts" = some (.dictionary descendant :: others))
    (name : String) (map : Option CMap) :
    ∃ f, d.compositeFont? font name map = some f ∧
      WidthsByCid f (d.codeMap font) (d.descendantWidth descendant) := by
  rw [compositeFont?, descends]
  refine ⟨_, rfl, fun number => ?_, fun _ => rfl⟩
  simp only [Font.ofWidth, number]
  rfl

/-- A font that calls itself composite is loaded if its first descendant is a dictionary. -/
theorem exists_font?_of_composite (isFont : (d.resolve o).dictionary? = some font)
    (composite : d.name? font "Subtype" = some "Type0")
    (descends : d.array? font "DescendantFonts" = some (.dictionary descendant :: others)) :
    ∃ f, d.font? o = some f ∧ WidthsByCid f (d.codeMap font) (d.descendantWidth descendant) := by
  obtain ⟨f, loaded, byCid⟩ := exists_compositeFont? descends
    (((d.name? font "BaseFont").or (d.name? font "Name")).getD "Type0") (d.textMap? font)
  refine ⟨{ f with source := o.reference?.map fun id => (id.number, id.generation) }, ?_,
    byCid.width, byCid.overflow?⟩
  have isLoaded : d.fontOf? font = some f := by
    rw [fontOf?, composite]
    exact loaded
  simp [font?, isFont, isLoaded]

end Loading

/-- A composite font with an array of segments has, for each code, the width that the last segment
gives to the glyph number of the code, and the standard width where none gives one. Only a code without
a glyph number, because that overflows, has none. -/
theorem width_font_of_writes [HoldsNaturals K] [Text.Decoder] {o : Object K}
    {font descendant : ObjectEntries K} {others : List (Object K)}
    (isFont : (d.resolve o).dictionary? = some font)
    (composite : d.name? font "Subtype" = some "Type0")
    (descends : d.array? font "DescendantFonts" = some (.dictionary descendant :: others))
    (array : d.entry? descendant "W" = some (.array items)) (writes : d.Writes segments items) :
    ∃ f, d.font? o = some f ∧ ∀ code,
      (∀ cid, (d.codeMap font).toCid code = .ok cid → f.overflow? (.width code) = none ∧
        ∀ w, f.width code = w ↔
          CidWidth d segments ((d.number? descendant "DW").getD (Scalar.ofInt 1000)) cid.toNat w) ∧
      ∀ e, (d.codeMap font).toCid code = .error e → f.overflow? (.width code) = some e := by
  obtain ⟨f, loaded, byCid⟩ := exists_font?_of_composite isFont composite descends
  refine ⟨f, loaded, fun code => ⟨fun cid number => ⟨?_, fun w => ?_⟩, fun e overflows => ?_⟩⟩
  · rw [byCid.overflow?, number, Overflow.of?]
  · rw [byCid.width number, descendantWidth, array, ← getD_findSome?_iff, ← lookUp?_cidWidths writes]
    rfl
  · rw [byCid.overflow?, overflows, Overflow.of?]

attribute [local instance] Text.byTables

/-- Three segments that overlap. The list of widths and the last number of the range are given by
reference, and one of the widths is no number. -/
def overlapping : List (Object Float) :=
  [.integer 1, .reference ⟨3, 0⟩, .integer 3, .reference ⟨4, 0⟩, .integer 300, .integer 12,
    .array [.integer 700]]

theorem width_font_of_writes_overlapping :
    let descendant : ObjectEntries Float :=
      [(Text.encodeUtf8 "W", .array overlapping), (Text.encodeUtf8 "DW", .integer 900)]
    let font : ObjectEntries Float :=
      [(Text.encodeUtf8 "DescendantFonts", .array [.reference ⟨2, 0⟩]),
        (Text.encodeUtf8 "Subtype", .name (Text.encodeUtf8 "Type0")),
        (Text.encodeUtf8 "Encoding", .name (Text.encodeUtf8 "Identity-H"))]
    let table : ObjectTable Float := {
      trailer := []
      objects := [(⟨1, 0⟩, .dictionary font), (⟨2, 0⟩, .dictionary descendant),
        (⟨3, 0⟩, .array [.integer 500, .null, .integer 600]), (⟨4, 0⟩, .integer 12)] }
    let d := table.document ""
    ∃ f, d.font? (.reference ⟨1, 0⟩) = some f ∧ f.width 1 = 500 ∧ f.width 2 = 900 ∧
      f.width 3 = 300 ∧ f.width 12 = 700 ∧ f.width 99 = 900 := by
  intro descendant font table d
  have writes : d.Writes [.listed 1 [.integer 500, .null, .integer 600],
      .uniform 3 12 (.integer 300), .listed 12 [.integer 700]] overlapping :=
    .listed rfl rfl (.uniform rfl rfl (.listed rfl rfl .nil))
  have array : d.entry? descendant "W" = some (.array overlapping) := by
    unfold entry?
    rw [ObjectEntries.at?_cons_self]
    rfl
  have descends : d.array? font "DescendantFonts" = some [.dictionary descendant] := by
    rw [array?, entry?, ObjectEntries.at?_cons_self]
    rfl
  obtain ⟨f, loaded, widths⟩ :=
    width_font_of_writes (o := .reference ⟨1, 0⟩) rfl (by decide +kernel) descends array writes
  have identity : d.codeMap font = .ofIdentity false := by decide +kernel
  have number (code : UInt32) : (d.codeMap font).toCid code = .ok code := by rw [identity]; rfl
  have width {code : UInt32} {w : Float}
      (segment : CidWidth d [.listed 1 [.integer 500, .null, .integer 600],
        .uniform 3 12 (.integer 300), .listed 12 [.integer 700]]
        ((d.number? descendant "DW").getD (Scalar.ofInt 1000)) code.toNat w) : f.width code = w :=
    (((widths code).1 code (number code)).2 w).mpr segment
  exact ⟨f, loaded, width (by decide +kernel), width (by decide +kernel), width (by decide +kernel),
    width (by decide +kernel), width (by decide +kernel)⟩

end Document

end PdfContent
