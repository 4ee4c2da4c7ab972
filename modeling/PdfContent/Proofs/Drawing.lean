import PdfContent.Proofs.Brackets
import PdfContent.Proofs.Manner

/-!
# Operators that follow one path

Apart from `q` and `Q` and from the operators that paint a path, the built-in operators leave what
is saved alone, and change the path under construction only as they tell the device. `Draws` says so
of an action, node by node.

It does so for two actions at once: the second is the same action under options by which less is
expanded. All that it may leave out are the procedures of glyphs.
-/

namespace PdfContent

variable {K σ α β : Type}

/-! ### What is told about paths -/

/-- The step of building a path that the device is told by an event. -/
def Event.builder? : Event K σ → Option (PathBuilder K → PathBuilder K)
  | .moveTo p => some fun b => b.moveTo p
  | .lineTo p => some fun b => b.lineTo p
  | .curveTo p q r => some fun b => b.curveTo p q r
  | .closePath => some PathBuilder.close
  | .rectangle p q r s => some fun b => b.quad p q r s
  | _ => none

/-- Whether a path may start with what the event tells. -/
def Event.startsSubpath : Event K σ → Bool
  | .moveTo _ => true
  | .rectangle .. => true
  | _ => false

/-- The path that the device is given with an event. -/
def Event.path? : Event K σ → Option (Path K)
  | .stroke path _ => some path
  | .fill path _ _ => some path
  | .fillStroke path _ _ => some path
  | .clip path _ => some path
  | _ => none

/-- Whether the event begins or ends a pattern cell. -/
def Event.edgesCell : Event K σ → Bool
  | .beginPattern .. => true
  | .endPattern => true
  | _ => false

/-- The event is about something else than paths and pattern cells. -/
structure Event.Plain (e : Event K σ) : Prop where
  builder : e.builder? = none
  path : e.path? = none
  apart : e.edgesCell = false

/-- Neither the path nor what is saved is changed. -/
structure Context.Calm (c c' : Context K σ) : Prop where
  path : c'.path = c.path
  saved : c'.states.saved = c.states.saved

/-- Options by which the same is done, but for pattern cells and glyph procedures that may be left
out. -/
structure Options.AtMost (less full : Options) : Prop where
  maxDepth : less.maxDepth = full.maxDepth
  collectWarnings : less.collectWarnings = full.collectWarnings
  expandPatterns : less.expandPatterns = true → full.expandPatterns = true
  runGlyphProcedures : less.runGlyphProcedures = true → full.runGlyphProcedures = true

theorem Options.AtMost.refl (options : Options) : options.AtMost options := ⟨rfl, rfl, id, id⟩

/-- The result is not that nothing was saved. -/
def HasSaved (result : Except OperatorError α) : Prop := result ≠ .error .emptyGraphicsStack

namespace HasSaved

theorem ok (a : α) : HasSaved (.ok a) := by
  intro nothing
  cases nothing

theorem fatal (cause : ContentError) : HasSaved (.error (.fatal cause) : Except OperatorError α) := by
  intro nothing
  cases nothing

theorem recursionLimit (limit : Nat) :
    HasSaved (.error (.recursionLimit limit) : Except OperatorError α) := by
  intro nothing
  cases nothing

end HasSaved

theorem LocalResult.hasSaved {result : Except OperatorError α} (isLocal : LocalResult result) :
    HasSaved result := by
  intro nothing
  exact isLocal _ nothing

namespace Action

/-- The action fails with a fault, whatever it tells before. -/
inductive Dies (cause : ContentError) : Action K σ α → Prop
  | finish : Dies cause (.finish (.error (.fatal cause)))
  | tell {e x} (rest : Dies cause x) : Dies cause (.tell e x)

theorem Dies.bind {cause : ContentError} {x : Action K σ β} (dies : x.Dies cause)
    (f : β → Action K σ α) : (x.bind f).Dies cause := by
  induction dies with
  | finish => exact .finish
  | tell _ ih => exact .tell ih

end Action

open PdfContent.Action (Dies)

/-- From a context the first action does what the second one does, which may leave glyph procedures
out. The path is changed only as the device is told, and what is saved is not changed. If it is
`sure` that no nested stream fails for want of a saved state, the action does not either. -/
inductive Draws (sure : Prop) (env : Environment K σ) (less : Options) :
    Context K σ → Action K σ α → Action K σ α → Prop
  | finish {c} {result : Except OperatorError α} (hasSaved : sure → HasSaved result) :
    Draws sure env less c (.finish result) (.finish result)
  | look {c next next'}
    (rest : Draws sure env less c (next env c) (next' { env with options := less } c)) :
    Draws sure env less c (.look next) (.look next')
  | change {c f x y} (calm : c.Calm (f c)) (rest : Draws sure env less (f c) x y) :
    Draws sure env less c (.change f x) (.change f y)
  | tell {c e x y} (plain : e.Plain) (rest : Draws sure env less c x y) :
    Draws sure env less c (.tell e x) (.tell e y)
  /-- The path goes on from where it has come to, and the device is told. -/
  | build {c e f x y} (builder : e.builder? = some f)
    (ready : e.startsSubpath = true ∨ c.path.current.isSome = true)
    (rest : Draws sure env less { c with path := f c.path } x y) :
    Draws sure env less c (.change (fun c => { c with path := f c.path }) (.tell e x))
      (.change (fun c => { c with path := f c.path }) (.tell e y))
  /-- A nested stream, whose faults are passed on. -/
  | nest {c content scope setup next next'}
    (rest : ∀ answer, (sure → HasSaved answer) →
      Draws sure env less c (next answer) (next' answer))
    (fatal : ∀ cause, Dies cause (next (.error (.fatal cause)))) :
    Draws sure env less c (.nest content scope setup next) (.nest content scope setup next')
  /-- A glyph procedure that is left out. -/
  | aside {c content scope setup next y} (out : less.runGlyphProcedures = false)
    (runs : env.options.runGlyphProcedures = true)
    (rest : ∀ answer, (sure → HasSaved answer) → faultOf? answer = none →
      Draws sure env less c (next answer) y)
    (fatal : ∀ cause, next (.error (.fatal cause)) = .finish (.error (.fatal cause))) :
    Draws sure env less c (.nest content scope setup next) y
  /-- A warning about such a glyph procedure. -/
  | remark {c w x y} (out : less.runGlyphProcedures = false)
    (runs : env.options.runGlyphProcedures = true) (rest : Draws sure env less c x y) :
    Draws sure env less c (.tell (.warning w) x) y
  | glance {c next y} (rest : Draws sure env less c (next env c) y) :
    Draws sure env less c (.look next) y

namespace Draws

variable {sure : Prop} {env : Environment K σ} {less : Options} {c : Context K σ}

theorem pure (a : α) : Draws sure env less c (Pure.pure a : Action K σ α) (Pure.pure a) :=
  .finish fun _ => .ok a

theorem throw {e : OperatorError} (isLocal : e.IsLocal) :
    Draws sure env less c (MonadExcept.throw e : Action K σ α) (MonadExcept.throw e) :=
  .finish fun _ => (LocalResult.error isLocal).hasSaved

/-- Two parts of an action in turn. -/
theorem bind {x y : Action K σ β} {f g : β → Action K σ α} (first : Draws sure env less c x y)
    (second : ∀ b c, Draws sure env less c (f b) (g b)) :
    Draws sure env less c (x >>= f) (y >>= g) := by
  change Draws sure env less c (x.bind f) (y.bind g)
  induction first with
  | @finish c result hasSaved =>
      cases result with
      | ok b => exact second b c
      | error e =>
          refine .finish fun surely nothing => hasSaved surely ?_
          cases nothing
          rfl
  | look _ ih => exact .look ih
  | change calm _ ih => exact .change calm ih
  | tell plain _ ih => exact .tell plain ih
  | build builder ready _ ih => exact .build builder ready ih
  | nest _ fatal ih =>
      exact .nest (fun answer saved => ih answer saved) fun cause => (fatal cause).bind f
  | aside out runs _ fatal ih =>
      refine .aside out runs (fun answer saved none => ih answer saved none) fun cause => ?_
      rw [fatal cause]
      rfl
  | remark out runs _ ih => exact .remark out runs ih
  | glance _ ih => exact .glance ih

/-- Reads something that may be missing. -/
theorem read {result : Except OperatorError β} {f g : β → Action K σ α}
    (isLocal : LocalResult result)
    (value : ∀ b, result = .ok b → Draws sure env less c (f b) (g b)) :
    Draws sure env less c (Action.ofExcept result >>= f) (Action.ofExcept result >>= g) := by
  cases result with
  | error e => exact throw (isLocal e rfl)
  | ok b => exact value b rfl

theorem environment {f g : Environment K σ → Action K σ α}
    (next : Draws sure env less c (f env) (g { env with options := less })) :
    Draws sure env less c (Action.environment >>= f) (Action.environment >>= g) := .look next

theorem context {f g : Context K σ → Action K σ α} (next : Draws sure env less c (f c) (g c)) :
    Draws sure env less c (Action.context >>= f) (Action.context >>= g) := .look next

theorem state {f g : GraphicsState K σ → Action K σ α}
    (next : Draws sure env less c (f c.state) (g c.state)) :
    Draws sure env less c (Action.state >>= f) (Action.state >>= g) := .look next

theorem modify {f : Context K σ → Context K σ} (calm : c.Calm (f c)) :
    Draws sure env less c (Action.modify f) (Action.modify f) := .change calm (.pure ())

theorem updateState (f : GraphicsState K σ → GraphicsState K σ) :
    Draws sure env less c (Action.updateState f) (Action.updateState f) := .modify ⟨rfl, rfl⟩

theorem emit {e : Event K σ} (plain : e.Plain) :
    Draws sure env less c (Action.emit e) (Action.emit e) := .tell plain (.pure ())

end Draws

theorem Event.Plain.warning (w : Warning) : (Event.warning w : Event K σ).Plain :=
  ⟨rfl, rfl, rfl⟩

namespace Draws

variable {sure : Prop} {env : Environment K σ} {less : Options} {c : Context K σ}

section AtMost

variable (atMost : less.AtMost env.options)

include atMost

theorem warn (w : Warning) :
    Draws sure env less c (Action.warn w : Action K σ Unit) (Action.warn w) := by
  refine .environment ?_
  rw [atMost.collectWarnings]
  split
  · exact .emit (.warning w)
  · exact .pure ()

theorem warnAt (keyword : String) (code : WarningCode) (description : String) :
    Draws sure env less c (Action.warnAt keyword code description : Action K σ Unit)
      (Action.warnAt keyword code description) :=
  .environment (.warn atMost _)

theorem warnError (keyword : String) (e : OperatorError) :
    Draws sure env less c (Action.warnError keyword e : Action K σ Unit)
      (Action.warnError keyword e) :=
  .environment (.warn atMost _)

theorem checkDepth :
    Draws sure env less c (Action.checkDepth : Action K σ Unit) Action.checkDepth := by
  refine .environment ?_
  rw [atMost.maxDepth]
  split
  · exact .finish fun _ => .recursionLimit _
  · exact .pure ()

/-- A glyph procedure that is run by both. One that cannot be run is reported. -/
theorem handle {content : Bytes} {scope : σ} {setup : GraphicsState K σ → GraphicsState K σ}
    {f : OperatorError → Action K σ Unit} (keyword : String)
    (fatal : ∀ cause, f (.fatal cause) = .fail (.fatal cause))
    (other : ∀ e, e.fault? = none → f e = Action.warnError keyword e) :
    Draws sure env less c ((Action.nested content scope setup).handle f)
      ((Action.nested content scope setup).handle f) := by
  refine .nest (fun answer saved => ?_) fun cause => ?_
  · cases answer with
    | ok _ => exact .pure _
    | error e =>
        change Draws sure env less c (f e) (f e)
        cases fault : e.fault? with
        | some cause =>
            obtain rfl := OperatorError.fault?_eq_some.mp fault
            rw [fatal]
            exact .finish fun _ => .fatal cause
        | none =>
            rw [other e fault]
            exact .warnError atMost keyword e
  · change Dies cause (f (.fatal cause))
    rw [fatal]
    exact .finish

end AtMost

/-- A warning about a glyph procedure that is left out. -/
theorem remarkError (out : less.runGlyphProcedures = false)
    (runs : env.options.runGlyphProcedures = true) (keyword : String) (e : OperatorError) :
    Draws sure env less c (Action.warnError keyword e : Action K σ Unit) (Pure.pure ()) := by
  refine .glance (.glance ?_)
  change Draws sure env less c
    (if env.options.collectWarnings then Action.emit _ else Pure.pure ()) _
  split
  · exact .remark out runs (.pure ())
  · exact .pure ()

/-- A glyph procedure that is left out. -/
theorem handleAside (out : less.runGlyphProcedures = false)
    (runs : env.options.runGlyphProcedures = true) {content : Bytes} {scope : σ}
    {setup : GraphicsState K σ → GraphicsState K σ} {f : OperatorError → Action K σ Unit}
    (keyword : String) (fatal : ∀ cause, f (.fatal cause) = .fail (.fatal cause))
    (other : ∀ e, e.fault? = none → f e = Action.warnError keyword e) :
    Draws sure env less c ((Action.nested content scope setup).handle f) (Pure.pure ()) := by
  refine .aside out runs (fun answer saved none => ?_) fun cause => ?_
  · cases answer with
    | ok _ => exact .pure _
    | error e =>
        change Draws sure env less c (f e) (Pure.pure ())
        rw [other e none]
        exact .remarkError out runs keyword e
  · change f (.fatal cause) = _
    exact fatal cause

/-- A nested stream between two events. -/
theorem between {first last : Event K σ} {content : Bytes} {scope : σ}
    {setup : GraphicsState K σ → GraphicsState K σ} (begins : first.Plain) (ends : last.Plain) :
    Draws sure env less c
      (Action.emit first >>= fun _ =>
        (Action.nested content scope setup).andFinally (Action.emit last))
      (Action.emit first >>= fun _ =>
        (Action.nested content scope setup).andFinally (Action.emit last)) := by
  refine .tell begins (.nest ?_ ?_)
  · intro answer saved
    exact .tell ends (.finish saved)
  · intro cause
    exact .tell .finish

/-- The path goes on, and the device is told. -/
theorem construct {e : Event K σ} {f : PathBuilder K → PathBuilder K}
    (builder : e.builder? = some f)
    (ready : e.startsSubpath = true ∨ c.path.current.isSome = true) :
    Draws sure env less c (Operators.construct f e) (Operators.construct f e) :=
  .build builder ready (.pure ())

end Draws

end PdfContent
