import PdfContent.Layout.TextPosition
import PdfContent.Trace.Paint

/-!
# Traces: states, events and text

A graphics state is written by the entries in which it differs from the state that a page starts with.
Events are written either in full, with the states that the device is given, or in short.
-/

namespace PdfContent.Trace

def renderMode : TextRenderMode → Json := Interchange.nameIn TextRenderMode.names

variable {σ : Type}

/-- All entries of a graphics state. -/
def stateEntries (s : GraphicsState Float σ) : List (String × Json) :=
  [("ctm", matrix s.ctm), ("stroke_color_space", colorSpace s.strokeSpace),
    ("fill_color_space", colorSpace s.fillSpace), ("stroke_color", color s.strokeColor),
    ("fill_color", color s.fillColor), ("line_width", number s.lineWidth), ("line_cap", lineCap s.lineCap),
    ("line_join", lineJoin s.lineJoin), ("miter_limit", number s.miterLimit), ("dash", dash s.dash),
    ("rendering_intent", s.renderingIntent.toJson), ("flatness", number s.flatness),
    ("smoothness", number s.smoothness), ("stroke_adjustment", .bool s.strokeAdjustment),
    ("clip", clip s.clip), ("char_spacing", number s.text.charSpacing),
    ("word_spacing", number s.text.wordSpacing), ("horizontal_scaling", number s.text.horizontalScaling),
    ("leading", number s.text.leading), ("font_name", orNull .str s.text.fontName),
    ("font", orNull (fun f => .str f.name) s.text.font), ("font_size", number s.text.fontSize),
    ("render_mode", renderMode s.text.renderMode), ("rise", number s.text.rise),
    ("knockout", .bool s.text.knockout), ("blend_mode", blendMode s.blendMode),
    ("soft_mask", orNull softMask s.softMask), ("stroke_alpha", number s.strokeAlpha),
    ("fill_alpha", number s.fillAlpha), ("alpha_is_shape", .bool s.alphaIsShape),
    ("stroke_overprint", .bool s.strokeOverprint), ("fill_overprint", .bool s.fillOverprint),
    ("overprint_mode", .int s.overprintMode)]

/-- The entries of a state in which it differs from the state of a page. -/
def state (s : GraphicsState Float σ) : Json :=
  let start := stateEntries (GraphicsState.initial (K := Float) (σ := σ) .identity)
  .obj (((stateEntries s).zip start).filterMap fun (e, d) =>
    if e.2.render == d.2.render then none else some e)

/-- What a context holds, apart from the path: seen from a place in a run with a given base matrix. -/
def contextEntries (base : Matrix Float) (place : Place) (c : Context Float σ) : List (String × Json) :=
  [("depth", .ofNat place.depth), ("index", .ofNat place.index), ("saved", .ofNat c.states.depth),
    ("compat", .bool c.inCompatibilitySection), ("base", matrix base),
    ("text", orNull (fun t => .arr [matrix t.matrix, matrix t.lineMatrix]) c.text),
    ("device_line_width", number c.state.deviceLineWidth), ("state", state c.state)]

def pathEntries (c : Context Float σ) : List (String × Json) :=
  [("path", path c.path.path), ("current", orNull point c.path.current),
    ("pending_clip", orNull fillRule c.pendingClip)]

/-- All that a context holds. -/
def context (base : Matrix Float) (place : Place) (c : Context Float σ) : Json :=
  .obj (contextEntries base place c ++ pathEntries c)

def glyphEntries (g : GlyphEvent Float σ) : List (String × Json) :=
  [("code", .ofNat g.code.toNat), ("unicode", orNull .str g.text), ("font", .str g.font.name),
    ("font_name", orNull .str g.fontName), ("size", number g.fontSize),
    ("hscale", number g.horizontalScale), ("glyph_matrix", matrix g.glyphMatrix),
    ("rendering_matrix", matrix g.renderingMatrix), ("text_matrix", matrix g.textMatrix),
    ("ctm", matrix g.ctm), ("displacement", point g.displacement), ("advance", number g.advance),
    ("mode", renderMode g.mode), ("clips", .bool g.mode.isClip), ("origin", point g.origin)]

/-- The kind of an event and its entries. -/
def eventEntries (base : Matrix Float) : Event Float σ → String × List (String × Json)
  | .moveTo p => ("move_to", [("p", point p)])
  | .lineTo p => ("line_to", [("p", point p)])
  | .curveTo p q r => ("curve_to", [("p", list point [p, q, r])])
  | .closePath => ("close_path", [])
  | .rectangle p q r s => ("rectangle", [("p", list point [p, q, r, s])])
  | .stroke p s => ("stroke", [("path", path p), ("state", state s)])
  | .fill p rule s => ("fill", [("path", path p), ("state", state s), ("rule", fillRule rule)])
  | .fillStroke p rule s => ("fill_stroke", [("path", path p), ("state", state s), ("rule", fillRule rule)])
  | .endPath => ("end_path", [])
  | .clip p rule => ("clip", [("path", path p), ("rule", fillRule rule)])
  | .shading name sh s => ("shading", [("name", .str name), ("shading", shading sh), ("state", state s)])
  | .image i s =>
    ("image", [("name", orNull .str i.name), ("ctm", matrix i.ctm), ("bounds", box i.bounds),
      ("image", image i.image), ("inline", orNull inlineImage i.inline), ("state", state s)])
  | .beginForm f =>
    ("begin_form", [("name", .str f.name), ("ctm", matrix f.ctm), ("bbox", box f.bbox),
      ("group", orNull group f.group)])
  | .endForm => ("end_form", [])
  | .beginPattern name m => ("begin_pattern", [("name", .str name), ("ctm", matrix m)])
  | .endPattern => ("end_pattern", [])
  | .beginText => ("begin_text", [])
  | .endText => ("end_text", [])
  | .glyph g _ => ("glyph", glyphEntries g)
  | .beginMarked tag d => ("begin_marked", [("tag", .str tag), ("properties", orNull dictionary d)])
  | .endMarked => ("end_marked", [])
  | .markedPoint tag d => ("marked_point", [("tag", .str tag), ("properties", orNull dictionary d)])
  | .warning w => ("warning", [("text", .str w.message)])
  | .snapshot place operands c =>
    ("probe", [("operands", list operand operands), ("core", context base place c)])

/-- An event in full. -/
def event (base : Matrix Float) (e : Event Float σ) : Json :=
  let (kind, entries) := eventEntries base e
  .obj (("e", .str kind) :: entries)

/-- The events of a log in full. -/
def events (base : Matrix Float) (log : List (Entry Float σ)) : Json := list (event base) (Entry.events log)

/-- An event in short: its kind and what identifies it. Warnings are not part of a short account. -/
def shortEvent? (e : Event Float σ) : Option Json :=
  let short (kind : String) (parts : List Json) : Option Json := some (.arr (.str kind :: parts))
  match e with
  | .moveTo p => short "MoveTo" [point p]
  | .lineTo p => short "LineTo" [point p]
  | .curveTo p q r => short "CurveTo" [point p, point q, point r]
  | .closePath => short "ClosePath" []
  | .rectangle p q r s => short "Rectangle" [list point [p, q, r, s]]
  | .stroke p _ => short "Stroke" [path p]
  | .fill p rule _ => short "Fill" [path p, fillRule rule]
  | .fillStroke p rule _ => short "FillStroke" [path p, fillRule rule]
  | .endPath => short "EndPath" []
  | .clip p rule => short "Clip" [path p, fillRule rule]
  | .shading name _ _ => short "Shading" [.str name]
  | .image i _ => short "Image" [orNull .str i.name, matrix i.ctm]
  | .beginForm f => short "BeginForm" [.str f.name]
  | .endForm => short "EndForm" []
  | .beginPattern name _ => short "BeginTilingPattern" [.str name]
  | .endPattern => short "EndTilingPattern" []
  | .beginText => short "BeginText" []
  | .endText => short "EndText" []
  | .glyph g _ => short "Glyph" [.ofNat g.code.toNat, point g.origin]
  | .beginMarked tag _ => short "BeginMarkedContent" [.str tag]
  | .endMarked => short "EndMarkedContent" []
  | .markedPoint tag _ => short "MarkedContentPoint" [.str tag]
  | .warning _ => none
  | .snapshot _ _ _ => none

/-- The warnings of a log. -/
def warnings (log : List (Entry Float σ)) : Json :=
  Json.strings ((Entry.warnings log).map Warning.message)

def frame (f : PageFrame Float) : Json :=
  .obj [("width", number f.width), ("height", number f.height), ("rotation", .int f.rotation),
    ("origin", point f.origin)]

def textPosition (t : TextPosition Float σ) : Json :=
  .obj [("unicode", .str t.text), ("codes", .arr [.ofNat t.glyph.code.toNat]), ("matrix", matrix t.matrix),
    ("end", point t.stop), ("height", number t.height), ("width", number t.width),
    ("space", number t.spaceWidth), ("font", .str t.glyph.font.name),
    ("font_name", orNull .str t.glyph.fontName), ("font_size", number t.glyph.fontSize),
    ("size_pt", number t.glyph.sizeInPoints), ("mode", renderMode t.glyph.mode), ("dir", .int t.direction),
    ("x", number t.x), ("y", number t.y), ("x_dir", number t.adjustedX), ("y_dir", number t.adjustedY),
    ("width_dir", number t.adjustedWidth), ("height_dir", number t.height)]

end PdfContent.Trace
