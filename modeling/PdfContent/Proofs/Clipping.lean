import PdfContent.Proofs.Conduct
import PdfContent.Proofs.StandardOperators
import PdfContent.Proofs.Telling
import PdfContent.Proofs.Termination
import PdfContent.Scalar.Whole

/-!
# No content widens the clip

Read as a list of regions, a clip only grows along the stack of graphics states, and all that a
nested stream does stays within the clip that it starts with. Restoring brings back an older clip,
but never one from outside the stream: a nested stream starts with nothing saved. The cell of a
pattern starts from a fresh state, but for the clip, which is carried over.

The invariant is `ConfinedWithin`. It bounds the stack of the innermost stream together with the
stacks that the streams around it have parked, up to a stream of which it is known that it stays
open.
-/

namespace PdfContent

variable {K σ : Type}

/-- The regions of a clip begin with those of another, so that no more can be painted under it. -/
def Clip.Inside (clip outer : Clip K) : Prop := outer.regions <+: clip.regions

namespace Clip.Inside

theorem refl (clip : Clip K) : clip.Inside clip := List.prefix_rfl

theorem trans {inner clip outer : Clip K} (first : inner.Inside clip) (second : clip.Inside outer) :
    inner.Inside outer :=
  List.IsPrefix.trans second first

theorem of_eq {clip outer : Clip K} (same : clip = outer) : clip.Inside outer := same ▸ refl clip

theorem intersect (clip : Clip K) (path : Path K) (rule : FillRule) :
    (clip.intersect path rule).Inside clip :=
  clip.regions_prefix_intersect path rule

end Clip.Inside

/-- The region of a box under a map: its outline, corner by corner. -/
def ClipRegion.ofBox [Scalar K] (box : BBox K) (m : Matrix K) : ClipRegion K where
  path := ⟨[.moveTo (m.applyPoint ⟨box.x0, box.y0⟩), .lineTo (m.applyPoint ⟨box.x1, box.y0⟩),
    .lineTo (m.applyPoint ⟨box.x1, box.y1⟩), .lineTo (m.applyPoint ⟨box.x0, box.y1⟩), .close]⟩
  rule := .nonZero

theorem GraphicsState.regions_clipToBox [Scalar K] (s : GraphicsState K σ) (box : BBox K) :
    (s.clipToBox box).clip.regions = s.clip.regions ++ [.ofBox box s.ctm] :=
  s.clip.regions_intersect (Path.ofBox box s.ctm) .nonZero

namespace StateStack

/-- The graphics states of a stack, latest first. -/
def all (s : StateStack K σ) : List (GraphicsState K σ) := s.current :: s.saved

/-- Each state has the clip of the state saved before it, or more, and the clips of all begin with
certain regions. -/
structure Confined (bound : List (ClipRegion K)) (s : StateStack K σ) : Prop where
  narrows : s.all.IsChain fun later earlier => later.clip.Inside earlier.clip
  within : ∀ state ∈ s.all, bound <+: state.clip.regions

namespace Confined

variable {bound : List (ClipRegion K)} {s : StateStack K σ}

theorem single {state : GraphicsState K σ} (inside : bound <+: state.clip.regions) :
    Confined bound ⟨state, []⟩ where
  narrows := .singleton _
  within := by simpa [all] using inside

theorem current (confined : s.Confined bound) : bound <+: s.current.clip.regions :=
  confined.within _ (by simp [all])

theorem save (confined : s.Confined bound) : s.save.Confined bound where
  narrows := List.isChain_cons_cons.mpr ⟨.refl _, confined.narrows⟩
  within := List.forall_mem_cons.mpr ⟨confined.current, confined.within⟩

theorem restore {t : StateStack K σ} (confined : s.Confined bound) (saved : s.restore? = some t) :
    t.Confined bound := by
  obtain ⟨narrows, within⟩ := confined
  rw [restore?] at saved
  split at saved
  · cases saved
  next latest rest among =>
    cases saved
    simp only [all, among] at narrows within
    exact ⟨(List.isChain_cons_cons.mp narrows).2,
      fun state mem => within state (List.mem_cons_of_mem _ mem)⟩

/-- A state may be replaced by one with the same clip or more. -/
theorem update {f : GraphicsState K σ → GraphicsState K σ} (confined : s.Confined bound)
    (inside : (f s.current).clip.Inside s.current.clip) : (s.update f).Confined bound := by
  obtain ⟨state, saved⟩ := s
  obtain ⟨narrows, within⟩ := confined
  obtain ⟨here, earlier⟩ := List.forall_mem_cons.mp within
  refine ⟨?_, List.forall_mem_cons.mpr ⟨here.trans inside, earlier⟩⟩
  cases saved with
  | nil => exact .singleton _
  | cons latest rest =>
      obtain ⟨above, below⟩ := List.isChain_cons_cons.mp narrows
      exact List.isChain_cons_cons.mpr ⟨inside.trans above, below⟩

end Confined

end StateStack

namespace Operators

variable [Scalar K] {env : Environment K σ} {c c' : Context K σ}

theorem Move.confined {bound : List (ClipRegion K)} (move : Move env c c')
    (confined : c.states.Confined bound) : c'.states.Confined bound := by
  cases move with
  | paint move =>
      cases move with
      | path => exact confined
      | clip area rule =>
          exact confined.update (f := fun s => s.intersectClip area rule) (.intersect _ area rule)
      | colours strokeSpace fillSpace strokeColor fillColor =>
          exact confined.update
            (f := fun s => { s with strokeSpace, fillSpace, strokeColor, fillColor }) (.refl _)
  | save => exact confined.save
  | restore saved => exact confined.restore saved
  | tune tunes => exact confined.update (.of_eq tunes.clip)
  | text => exact confined
  | compatibility => exact confined

/-- The regions that a nested stream starts with: those of the state in which it is opened, and for a
form or the cell of a pattern its box, too. -/
inductive Encloses (env : Environment K σ) (s : GraphicsState K σ) :
    Bytes → σ → (GraphicsState K σ → GraphicsState K σ) → List (ClipRegion K) → Prop
  | form (form : Form K σ) :
    Encloses env s form.content (form.scope.getD env.scope) (enterForm form)
      (s.clip.regions ++ [.ofBox form.bbox (form.matrix.concat s.ctm)])
  | cell (pattern : TilingPattern K σ) (paint : Option (ColorSpace × Color K)) :
    Encloses env s pattern.content (pattern.scope.getD env.scope)
      (enterCell pattern (pattern.matrix.concat env.baseMatrix) paint)
      (s.clip.regions ++ [.ofBox pattern.bbox (pattern.matrix.concat env.baseMatrix)])
  | glyph (procedure : GlyphProcedure σ) (ctm : Matrix K) :
    Encloses env s procedure.content (procedure.scope.getD env.scope) (fun s => { s with ctm })
      s.clip.regions

section Encloses

variable {s : GraphicsState K σ} {content : Bytes} {scope : σ}
  {setup : GraphicsState K σ → GraphicsState K σ} {regions : List (ClipRegion K)}

theorem Encloses.regions_setup (encloses : Encloses env s content scope setup regions) :
    (setup s).clip.regions = regions := by
  cases encloses with
  | form form => exact GraphicsState.regions_clipToBox (s.concat form.matrix) form.bbox
  | cell pattern paint => cases paint <;> exact GraphicsState.regions_clipToBox _ pattern.bbox
  | glyph => rfl

theorem Encloses.extends (encloses : Encloses env s content scope setup regions) :
    s.clip.regions <+: regions := by
  cases encloses with
  | form => exact List.prefix_append ..
  | cell => exact List.prefix_append ..
  | glyph => exact List.prefix_rfl

theorem Opens.encloses (opens : Opens env c content scope setup) :
    ∃ regions, Encloses env c.state content scope setup regions := by
  cases opens with
  | form found => exact ⟨_, .form _⟩
  | cell paint found => exact ⟨_, .cell _ paint⟩
  | glyph ctm selected found => exact ⟨_, .glyph _ ctm⟩

end Encloses

/-- How operators behave that keep to the clip. -/
def clipManner (env : Environment K σ) : Manner K σ where
  moves c c' := ∀ bound, c.states.Confined bound → c'.states.Confined bound
  tells _ := True
  opens c content scope setup := ∃ regions, Encloses env c.state content scope setup regions
  fails _ := True
  tells_warning _ := trivial
  fails_local _ _ := trivial

/-- Watches whether the clip is kept to. -/
def clipping (env : Environment K σ) : Monitor K σ (Option ContentError) := (clipManner env).monitor

theorem standardManner_le_clipManner (env : Environment K σ) :
    (standardManner env).Le (clipManner env) where
  moves _ _ move _ := move.confined
  tells _ := id
  opens _ _ _ _ := Opens.encloses
  fails _ := id

theorem heeds_clipping {x : Action K σ Unit} {Q : Unit → Context K σ → Prop}
    (behaves : x.Behaves (clipManner env) env c Q) : x.Heeds clipping env c := by
  unfold Action.Behaves at behaves
  exact behaves.heeds

omit [Scalar K] in
theorem heeds_telling {x : Action K σ Unit} (tells : Tells env c x) : x.Heeds telling env c := by
  unfold Tells at tells
  exact tells.heeds

theorem clipping_expand (env : Environment K σ) (c : Context K σ) (call : Call K) :
    (graphicsTable.expand call).1.Heeds clipping env c :=
  heeds_clipping (.of_le (standardManner_le_clipManner env)
    (operates_expand follows_graphicsTable env c call))

theorem telling_expand (env : Environment K σ) (c : Context K σ) (call : Call K) :
    (graphicsTable.expand call).1.Heeds telling env c :=
  heeds_telling (tells_expand env c call)

/-- The cell need not be one of the resources. -/
theorem clipping_paintCellAlone (name : String) (pattern : TilingPattern K σ)
    (paint : Option (ColorSpace × Color K)) :
    (paintCellAlone name pattern paint).Heeds clipping env c := by
  have settles : (paintCell name pattern paint).Settles (clipManner env) env c :=
    settles_paintCell name pattern paint ⟨_, .cell pattern paint⟩ (fun _ => trivial)
      fun _ => trivial
  refine ⟨none, ?_⟩
  unfold Action.Settles at settles
  rw [paintCellAlone, Action.obeys_handle]
  refine settles.mono (fun _ _ _ _ => trivial) fun e fault c _ => ?_
  cases e with
  | fatal cause => trivial
  | _ => exact Action.Obeys.warn _ ⟨trivial, rfl⟩ trivial

end Operators

namespace Machine

open Operators (clipping telling_expand clipping_expand Encloses)

variable [Scalar K] {r : RunSettings K σ} {m m' : Machine K σ} {bound : List (ClipRegion K)}
  {outer : List (Caller K σ)}

/-- From `m` a run goes on while the streams that are open at `m` stay open. -/
inductive During (r : RunSettings K σ) (m : Machine K σ) : Machine K σ → Prop
  | refl : During r m m
  | step {u v} (before : During r m u) (hstep : Machine.step r u = some v)
    (open_ : m.callers <:+ v.callers) : During r m v

/-- The stacks of the innermost stream and of the streams that wait around it, up to certain outer
ones, are confined. -/
structure ConfinedWithin (bound : List (ClipRegion K)) (outer : List (Caller K σ))
    (m : Machine K σ) : Prop where
  states : m.state.states.Confined bound
  parked : ∃ inner, m.callers = inner ++ outer ∧
    ∀ caller ∈ inner, caller.parked.states.Confined bound

omit [Scalar K] in
theorem ConfinedWithin.of_same (confined : ConfinedWithin bound outer m)
    (callers : m'.callers = m.callers) (states : m'.state.states.Confined bound) :
    ConfinedWithin bound outer m' where
  states := states
  parked := callers ▸ confined.parked

/-- Each step keeps the bound of the streams inside, while those outside stay open. -/
theorem ConfinedWithin.step (confined : ConfinedWithin bound outer m)
    (progress : Progress clipping r m m') (inside : outer <:+ m'.callers) :
    ConfinedWithin bound outer m' := by
  have states := confined.states
  obtain ⟨inner, among, parked⟩ := confined.parked
  cases progress with
  | quiet callers context warnings told =>
      exact confined.of_same callers (congrArg Context.states context ▸ states)
  | change callers told g allowed => exact confined.of_same callers (allowed bound states)
  | tell callers context e told g allowed =>
      exact confined.of_same callers (congrArg Context.states context ▸ states)
  | enter caller callers own content scope setup stream state told g allowed =>
      obtain ⟨-, regions, encloses⟩ := allowed
      refine ⟨?_, caller :: inner, by rw [callers, among, List.cons_append], ?_⟩
      · rw [state]
        refine .single (.trans (states.current.trans encloses.extends) ?_)
        exact (congrArg (regions <+: ·) encloses.regions_setup).mpr List.prefix_rfl
      · exact List.forall_mem_cons.mpr ⟨own ▸ states, parked⟩
  | leave caller callers back told =>
      cases inner with
      | nil =>
          have length := inside.length_le
          rw [← List.nil_append outer, ← among, callers] at length
          simp only [List.length_cons] at length
          omega
      | cons first rest =>
          obtain ⟨rfl, same⟩ := List.cons.inj (callers.symm.trans among)
          obtain ⟨here, later⟩ := List.forall_mem_cons.mp parked
          exact ⟨back ▸ here, rest, same, later⟩

/-- What operators of the graphics table begin with keeps to the clip. -/
theorem ConfinedWithin.reaches (graphics : r.table = Operators.graphicsTable)
    (watched : Watched clipping r m) (confined : ConfinedWithin bound [] m)
    (reached : Reaches r m m') : ConfinedWithin bound [] m' := by
  obtain ⟨n, execution⟩ := reached
  induction execution with
  | refl => exact confined
  | cons hstep _ ih =>
      obtain ⟨next, progress⟩ := watched.step (graphics ▸ clipping_expand) hstep
      exact ih next (confined.step progress List.nil_suffix)

/-- While a stream stays open, the stacks in it and in what it opens stay confined. -/
theorem ConfinedWithin.during (graphics : r.table = Operators.graphicsTable)
    (watched : Watched clipping r m) (confined : m.state.states.Confined bound)
    (during : During r m m') : Watched clipping r m' ∧ ConfinedWithin bound m.callers m' := by
  induction during with
  | refl => exact ⟨watched, confined, [], rfl, by simp⟩
  | step _ hstep stays ih =>
      obtain ⟨next, progress⟩ := ih.1.step (graphics ▸ clipping_expand) hstep
      exact ⟨next, ih.2.step progress stays⟩

omit [Scalar K] in
/-- What a step tells the device comes with the current graphics state, if it comes with one. -/
theorem Progress.shows (progress : Progress telling r m m') :
    ∃ told, Entry.events m'.log = Entry.events m.log ++ told ∧
      ∀ e ∈ told, e.Shows m.state.state := by
  cases progress with
  | quiet callers context warnings told =>
      refine ⟨_, told, fun e mem => ?_⟩
      obtain ⟨w, _, rfl⟩ := List.mem_map.mp mem
      rintro _ ⟨⟩
  | change callers told g allowed => exact ⟨[], by rw [told, List.append_nil], by simp⟩
  | tell callers context e told g allowed => exact ⟨[e], told, by simpa using allowed.1⟩
  | enter caller callers parked content scope setup stream state told g allowed =>
      exact ⟨[], by rw [told, List.append_nil], by simp⟩
  | leave caller callers states told => exact ⟨[], by rw [told, List.append_nil], by simp⟩

/-- A machine that is to paint a cell, outside all streams. -/
def startCell (call : Call K) (name : String) (pattern : TilingPattern K σ)
    (paint : Option (ColorSpace × Color K)) (scope : σ) (s : RunState K σ) : Machine K σ :=
  (start [] scope s).performing call (Operators.paintCellAlone name pattern paint) []

/-- The machine brings a cell to its end, with the outcome that running the cell has. -/
theorem reaches_tilingCell (graphics : r.table = Operators.graphicsTable) (call : Call K)
    (name : String) (pattern : TilingPattern K σ) (paint : Option (ColorSpace × Color K)) (scope : σ) :
    let o := r.tilingCell name pattern paint scope
    ∃ m, Reaches r (startCell call name pattern paint scope (.initial r.baseMatrix)) m ∧
      m.state = o.state ∧ m.log = o.log := by
  have ranked : r.table.Ranked Operators.rank := graphics ▸ Operators.ranked_graphicsTable
  have follows : Follows r (r.nestedRun r.options.maxDepth) 0 :=
    follows_nestedRun ranked Operators.rank_lt r.options.maxDepth (Nat.le_add_right _ _)
  exact ⟨_, reaches_action follows (r.restores_nestedRun _) call
    (Operators.paintCellAlone name pattern paint) [] (start [] scope (.initial r.baseMatrix)) rfl,
    rfl, rfl⟩

/-- The machine after a number of steps, if the run goes on so long. -/
def after? (r : RunSettings K σ) : Nat → Machine K σ → Option (Machine K σ)
  | 0, m => some m
  | n + 1, m => (step r m).bind (after? r n)

theorem reaches_of_after? {n : Nat} (found : after? r n m = some m') : Reaches r m m' := by
  induction n generalizing m with
  | zero =>
      cases found
      exact .refl _
  | succ n ih =>
      obtain ⟨next, hstep, rest⟩ := Option.bind_eq_some_iff.mp found
      exact .step hstep (ih rest)

end Machine

namespace RunSettings

open Machine (Reaches During Watched ConfinedWithin)

variable [Scalar K]

/-- A run keeps to a clip on its way to an outcome. At every moment each state on the stack has the
clip of the state saved before it, or more. A nested stream has the clip with which it was entered
on its stack as long as it is open, whatever it opens itself. The device is given the current
states. -/
structure KeepsClip (r : RunSettings K σ) (start : Machine K σ) {ε α : Type} (o : Outcome ε K σ α)
    (bound : List (ClipRegion K)) : Prop where
  ends : ∃ m, Reaches r start m ∧ m.state = o.state ∧ m.log = o.log
  confined : ∀ m, Reaches r start m → m.state.states.Confined bound
  nested : ∀ m m', Reaches r start m → Machine.step r m = some m' →
    m.callers.length < m'.callers.length → ∃ content scope setup regions,
      m'.stream = .ofContent content scope ∧ m'.state = m.state.enter setup ∧
      Operators.Encloses (r.environment m.stream.scope m.state) m.state.state content scope setup
        regions ∧
      ∀ v, During r m' v → v.state.states.Confined regions
  told : ∀ m m', Reaches r start m → Machine.step r m = some m' →
    ∃ told, Entry.events m'.log = Entry.events m.log ++ told ∧ ∀ e ∈ told, e.Shows m.state.state

/-- Pages, appearances of annotations and pattern cells keep to the clip; an appearance keeps to the
box of its form, too. -/
structure NeverWidensClip (r : RunSettings K σ) (scope : σ) : Prop where
  page : ∀ content, r.KeepsClip (.start content scope (.initial r.baseMatrix))
    (r.page content scope) []
  appearance : ∀ form rect ctm, form.appearanceMatrix? rect = some ctm →
    let placed := (RunState.initial r.baseMatrix).updateContext fun c =>
      c.updateState fun s => { s with ctm }.clipToBox form.bbox
    let o := r.run form.content (form.scope.getD scope) placed
    r.appearance form rect scope =
        { o with
          log := .event (.beginForm (Operators.formEvent "appearance" form ctm)) :: o.log ++
            [.event .endForm] } ∧
      r.KeepsClip (.start form.content (form.scope.getD scope) placed) o
        [.ofBox form.bbox ctm]
  tilingCell : ∀ call name pattern paint,
    r.KeepsClip (.startCell call name pattern paint scope (.initial r.baseMatrix))
      (r.tilingCell name pattern paint scope) []

variable {r : RunSettings K σ}

theorem KeepsClip.of_start (graphics : r.table = Operators.graphicsTable) {start : Machine K σ}
    {ε α : Type} {o : Outcome ε K σ α} {bound : List (ClipRegion K)} (outermost : start.callers = [])
    (clipped : Watched Operators.clipping r start) (tells : Watched telling r start)
    (confined : start.state.states.Confined bound)
    (ends : ∃ m, Reaches r start m ∧ m.state = o.state ∧ m.log = o.log) :
    r.KeepsClip start o bound where
  ends := ends
  confined m reached :=
    (ConfinedWithin.reaches graphics clipped ⟨confined, [], outermost, by simp⟩ reached).states
  nested m m' reached hstep deeper := by
    have here := clipped.reaches (graphics ▸ Operators.clipping_expand) reached
    obtain ⟨next, progress⟩ := here.step (graphics ▸ Operators.clipping_expand) hstep
    cases progress with
    | quiet callers => exact absurd (callers ▸ deeper) (Nat.lt_irrefl _)
    | change callers => exact absurd (callers ▸ deeper) (Nat.lt_irrefl _)
    | tell callers => exact absurd (callers ▸ deeper) (Nat.lt_irrefl _)
    | leave caller callers =>
        rw [callers, List.length_cons] at deeper
        omega
    | enter caller callers parked content scope setup stream state told g allowed =>
        obtain ⟨-, regions, encloses⟩ := allowed
        refine ⟨content, scope, setup, regions, stream, state, encloses, fun v during => ?_⟩
        refine (ConfinedWithin.during graphics next ?_ during).2.states
        rw [state]
        exact .single (encloses.regions_setup ▸ List.prefix_rfl)
  told m m' reached hstep :=
    ((tells.reaches (graphics ▸ Operators.telling_expand) reached).step
      (graphics ▸ Operators.telling_expand) hstep).2.shows

/-- A stream that is the first of a run keeps to the clip that it starts with. -/
theorem keepsClip_run (graphics : r.table = Operators.graphicsTable) (content : Bytes) (scope : σ)
    {s : RunState K σ} {bound : List (ClipRegion K)} (confined : s.states.Confined bound) :
    r.KeepsClip (.start content scope s) (r.run content scope s) bound := by
  have ranked : r.table.Ranked Operators.rank := graphics ▸ Operators.ranked_graphicsTable
  obtain ⟨stream, reached⟩ := Machine.reaches_halted ranked Operators.rank_lt content scope s
  exact .of_start graphics rfl (.between trivial .nil) (.between trivial .nil) confined
    ⟨_, reached, rfl, rfl⟩

/-- The clip is never widened, whatever the content, the resources and the options are. -/
theorem graphics_neverWidensClip (options : Options) (baseMatrix : Matrix K)
    (resolver : Resolver K σ) (scope : σ) :
    (graphics options baseMatrix resolver).NeverWidensClip scope where
  page content := keepsClip_run rfl content scope (.single List.nil_prefix)
  appearance form rect ctm fits := by
    refine ⟨by simp only [appearance, fits], ?_⟩
    exact keepsClip_run rfl form.content _ (.single List.prefix_rfl)
  tilingCell call name pattern paint :=
    .of_start rfl rfl
      (.performing rfl (Operators.clipping_paintCellAlone name pattern paint) .nil)
      (.performing rfl (Operators.heeds_telling (Operators.tells_paintCellAlone name pattern paint))
        .nil)
      (.single List.nil_prefix) (Machine.reaches_tilingCell rfl call name pattern paint scope)

/-- A form in a page that clips to a box of its own. While the form runs, the clips of all its states
begin with the two boxes in device space. -/
theorem graphics_neverWidensClip_form :
    let form : Form Int Unit :=
      { content := Text.encodeUtf8 "q f Q", matrix := .shift 10 20, bbox := ⟨0, 0, 3, 4⟩,
        scope := none, group := none }
    let r : RunSettings Int Unit :=
      graphics ⟨2, true, true, true⟩ .identity
        (.ofCatalogs fun _ => { xobjects := [("Fm", .form form)] })
    let start : Machine Int Unit :=
      .start (Text.encodeUtf8 "0 0 20 30 re W n /Fm Do") () (.initial .identity)
    let around : ClipRegion Int :=
      ⟨⟨[.moveTo ⟨0, 0⟩, .lineTo ⟨20, 0⟩, .lineTo ⟨20, 30⟩, .lineTo ⟨0, 30⟩, .close]⟩, .nonZero⟩
    let box : ClipRegion Int :=
      ⟨⟨[.moveTo ⟨10, 20⟩, .lineTo ⟨13, 20⟩, .lineTo ⟨13, 24⟩, .lineTo ⟨10, 24⟩, .close]⟩, .nonZero⟩
    ∃ m m', Reaches r start m ∧ Machine.step r m = some m' ∧ m'.callers.length = 1 ∧
      ∀ v, During r m' v → ∀ state ∈ v.state.states.all, [around, box] <+: state.clip.regions := by
  intro form r start around box
  have shape : (Machine.after? r 31 start).bind (fun m => (Machine.step r m).map fun m' =>
      (m.callers.length, m'.callers.length, m'.state.state.clip.regions)) =
        some (0, 1, [around, box]) := by
    decide +kernel
  obtain ⟨m, reached, rest⟩ := Option.bind_eq_some_iff.mp shape
  obtain ⟨m', hstep, same⟩ := Option.map_eq_some_iff.mp rest
  simp only [Prod.mk.injEq] at same
  obtain ⟨outer, inner, regions⟩ := same
  have reached := Machine.reaches_of_after? reached
  have keeps := (graphics_neverWidensClip ⟨2, true, true, true⟩ .identity r.resolver ()).page
    (Text.encodeUtf8 "0 0 20 30 re W n /Fm Do")
  obtain ⟨_, _, setup, given, _, entered, encloses, confined⟩ :=
    keeps.nested m m' reached hstep (by omega)
  have given_eq : given = [around, box] := by
    rw [← regions, entered]
    exact encloses.regions_setup.symm
  exact ⟨m, m', reached, hstep, inner, fun v during => given_eq ▸ (confined v during).within⟩

end RunSettings

end PdfContent
