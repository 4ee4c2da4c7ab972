import PdfContent.Proofs.Colours
import PdfContent.Scalar.Whole

/-!
# Colours along runs

At each moment of a run there are the graphics states of the stream that is being read and those that
the streams around it have parked. Their colours suit their spaces as long as `SCN` and `scn` name
patterns in spaces of patterns only, and from the first call that names one elsewhere a state is left
whose colour is a pattern and whose space is not.

This is proved with one invariant, `Coloured`, of which there are two forms. The weaker one allows for
patterns that are named in any space and holds of all runs. The stronger one does not, and holds up to
the first such call. Whether a space is orderly belongs to both, because numbers give a colour of the
space that is selected.
-/

namespace PdfContent

variable {K σ : Type}

/-- Both colours of a state are patterns just if their spaces are. -/
structure GraphicsState.ColoursAgree (s : GraphicsState K σ) : Prop where
  stroke : s.strokeColor.isPattern = s.strokeSpace.isPattern
  fill : s.fillColor.isPattern = s.fillSpace.isPattern

theorem GraphicsState.Suited.coloursAgree {s : GraphicsState K σ} (suited : s.Suited False) :
    s.ColoursAgree where
  stroke := suited.stroke.pattern.resolve_right And.left
  fill := suited.fill.pattern.resolve_right And.left

theorem ColorSpace.Suits.weaken {named : Prop} {space : ColorSpace} {color : Color K}
    (suits : space.Suits False color) : space.Suits named color :=
  ⟨suits.orderly, .inl (suits.pattern.resolve_right And.left)⟩

/-- A pattern that is named is a pattern. -/
theorem Color.isPattern_of_patternName? {color : Color K} {name : String}
    (named : color.patternName? = some name) : color.isPattern = true := by
  cases color with
  | pattern => rfl
  | _ => cases named

namespace Operators

variable [Scalar K] {named : Prop} {depth : Nat} {env : Environment K σ} {c : Context K σ}

/-- The cell need not be one of the resources, and no fill has named it. -/
theorem colours_paintCellAlone (name : String) (pattern : TilingPattern K σ)
    (paint : Option (ColorSpace × Color K)) (outside : env.place.depth < depth)
    (suits : ∀ space color, paint = some (space, color) → space.Suits named color) :
    Colours named depth env c (paintCellAlone name pattern paint) := by
  refine .handle (colours_paintCell name pattern paint (fun inside => ?_) fun _ => suits) fun e _ => ?_
  · exact absurd inside (Nat.not_le.mpr outside)
  · cases e with
    | fatal cause => exact .throw _
    | _ => exact .warnError _ _

omit [Scalar K] in
/-- A pattern that is named in a space of another kind leaves a state in which the two disagree. -/
theorem not_coloursAgree_setColorIn {s : GraphicsState K σ} {target : PaintTarget} {color : Color K}
    (pattern : color.isPattern = true) (other : (selectedSpace s target).isPattern = false) :
    ¬ (setColorIn s color target).ColoursAgree := by
  intro agree
  have same : color.isPattern = (selectedSpace s target).isPattern := by
    cases target with
    | stroke => exact agree.stroke
    | fill => exact agree.fill
  rw [pattern, other] at same
  cases same

end Operators

namespace Machine

open Operators (Misnames graphicsTable)

variable [Scalar K] {r : RunSettings K σ} {m m' : Machine K σ} {named : Prop} {depth : Nat}

/-- The graphics states that there are at a moment of a run: those of the stream that is being read, and
those that the streams around it have parked. -/
def states (m : Machine K σ) : List (GraphicsState K σ) :=
  m.state.states.all ++ m.callers.flatMap fun caller => caller.parked.states.all

/-- On the way from one moment to another no pattern is named in a space of another kind. -/
def NamesInPlace (r : RunSettings K σ) (m m' : Machine K σ) : Prop :=
  ∀ u call, Reaches r m u → Reaches r u m' → u.Starts call → ¬ Misnames call u.state.state

/-- All colours suit their spaces, and will after what the machine goes on to do on behalf of an
operator. -/
structure Coloured (named : Prop) (depth : Nat) (r : RunSettings K σ) (m : Machine K σ) : Prop where
  watched : Watched (colouring named depth) r m
  suited : ∀ s ∈ m.states, s.Suited named

omit [Scalar K] in
theorem suited_states_of_outermost (outermost : m.callers = []) (suited : m.state.Suited named) :
    ∀ s ∈ m.states, s.Suited named := by
  rw [states, outermost, List.flatMap_nil, List.append_nil]
  exact suited

omit [Scalar K] in
/-- A change is to the states of the innermost stream, and those that are parked stay. -/
theorem suited_states_of_same (suited : ∀ s ∈ m.states, s.Suited named)
    (callers : m'.callers = m.callers)
    (keeps : m.state.toContext.Suited named → m'.state.toContext.Suited named) :
    ∀ s ∈ m'.states, s.Suited named := by
  obtain ⟨here, parked⟩ := List.forall_mem_append.mp suited
  exact List.forall_mem_append.mpr ⟨keeps here, callers ▸ parked⟩

omit [Scalar K] in
/-- Each step keeps colours suiting their spaces. -/
theorem Progress.suited_states (progress : Progress (colouring named depth) r m m')
    (suited : ∀ s ∈ m.states, s.Suited named) : ∀ s ∈ m'.states, s.Suited named := by
  obtain ⟨here, parked⟩ := List.forall_mem_append.mp suited
  cases progress with
  | quiet callers context warnings told =>
      exact suited_states_of_same suited callers fun same => context ▸ same
  | change callers told g allowed => exact suited_states_of_same suited callers allowed
  | tell callers context e told g allowed =>
      exact suited_states_of_same suited callers fun same => context ▸ same
  | enter caller callers own content scope setup stream state told g allowed =>
      -- the states of the stream that is left behind are now the first ones that are parked
      have first : (setup m.state.state).Suited named := allowed (here _ List.mem_cons_self)
      refine List.forall_mem_append.mpr ⟨?_, ?_⟩
      · rw [state]
        exact List.forall_mem_singleton.mpr first
      · rw [callers, List.flatMap_cons, own]
        exact List.forall_mem_append.mpr ⟨here, parked⟩
  | leave caller callers back told =>
      rw [callers, List.flatMap_cons] at parked
      obtain ⟨first, others⟩ := List.forall_mem_append.mp parked
      exact List.forall_mem_append.mpr ⟨back ▸ first, others⟩

/-- A step keeps colours suiting their spaces, unless it starts a call that names a pattern although
another space is selected. -/
theorem Coloured.step (graphics : r.table = graphicsTable) (orderly : r.resolver.Orderly)
    (coloured : Coloured named depth r m)
    (apart : named ∨ ∀ call, m.Starts call → ¬ Misnames call m.state.state)
    (hstep : Machine.step r m = some m') :
    Coloured named depth r m' ∧ Progress (colouring named depth) r m m' := by
  obtain ⟨watched, progress⟩ := coloured.watched.step_of_starts (fun call starts => by
    rw [graphics]
    exact (Operators.tinting_expand (r.environment m.stream.scope m.state) orderly
      m.state.toContext call (apart.imp_right fun proper => proper call starts)).heeds) hstep
  exact ⟨⟨watched, progress.suited_states coloured.suited⟩, progress⟩

/-- Along a run colours suit their spaces, as long as patterns are named in spaces of patterns. -/
theorem Coloured.reaches (graphics : r.table = graphicsTable) (orderly : r.resolver.Orderly)
    (coloured : Coloured named depth r m) (apart : named ∨ NamesInPlace r m m')
    (reached : Reaches r m m') : Coloured named depth r m' := by
  obtain ⟨n, execution⟩ := reached
  induction execution with
  | refl => exact coloured
  | @cons n m v m' hstep rest ih =>
      have later : named ∨ NamesInPlace r v m' := apart.imp_right fun proper u call reached =>
        proper u call (.step hstep reached)
      have now : named ∨ ∀ call, m.Starts call → ¬ Misnames call m.state.state :=
        apart.imp_right fun proper call => proper m call (.refl m) ⟨n + 1, .cons hstep rest⟩
      exact ih (coloured.step graphics orderly now hstep).1 later

omit [Scalar K] in
/-- A step that begins a cell, deep enough, finds the cell named by the fill. -/
theorem Progress.begun (progress : Progress (colouring named depth) r m m')
    (inside : depth ≤ m.state.depth) :
    ∃ told, Entry.events m'.log = Entry.events m.log ++ told ∧
      ∀ name ctm, Event.beginPattern name ctm ∈ told →
        m.state.state.fillColor.patternName? = some name := by
  cases progress with
  | quiet callers context warnings told => exact ⟨_, told, by simp⟩
  | change callers told g allowed => exact ⟨[], by rw [told, List.append_nil], by simp⟩
  | tell callers context e told g allowed =>
      refine ⟨[e], told, fun name ctm mem => ?_⟩
      have begun : e.begunPattern? = some name := List.mem_singleton.mp mem ▸ rfl
      exact allowed name begun inside
  | enter caller callers parked content scope setup stream state told g allowed =>
      exact ⟨[], by rw [told, List.append_nil], by simp⟩
  | leave caller callers states told => exact ⟨[], by rw [told, List.append_nil], by simp⟩

/-- What the machine does next with a call that it is about to carry out. -/
theorem Starts.step {call : Call K} (starts : m.Starts call) :
    ∃ outer later, Machine.step r m = some
      (m.performing outer (r.table.expand call).1 ((r.table.expand call).2 ++ later)) := by
  obtain ⟨outer, later, control⟩ := starts
  refine ⟨outer, later, ?_⟩
  rw [Machine.step, control]
  rfl

/-- A call that names a pattern in a space of another kind leaves a state whose colour does not agree
with its space. -/
theorem Starts.disagrees (graphics : r.table = graphicsTable) {call : Call K}
    (starts : m.Starts call) (misnames : Misnames call m.state.state) :
    ∃ m', Reaches r m m' ∧ ¬ m'.state.state.ColoursAgree := by
  obtain ⟨target, keyword, names, other⟩ := misnames
  obtain ⟨name, components, selected⟩ := Operators.selectedColor_of_namesPattern names
    (Operators.selectedSpace m.state.state target)
  obtain ⟨outer, later, begins⟩ := starts.step (r := r)
  rw [graphics, Operators.expand_naming keyword] at begins
  have looks : Machine.step r (m.performing outer (Operators.selectColor target true call) later) =
      some (m.performing outer (Action.ofExcept (Operators.selectedColor call
        (Operators.selectedSpace m.state.state target) true) >>= fun color =>
          Action.updateState fun s => Operators.setColorIn s color target) later) := rfl
  rw [selected] at looks
  have pattern : (Color.pattern (some name) components).isPattern = true := rfl
  exact ⟨_, .step begins (.step looks (.step rfl (.refl _))),
    Operators.not_coloursAgree_setColorIn pattern other⟩

end Machine

namespace RunSettings

open Machine (Reaches NamesInPlace Coloured)

variable [Scalar K]

/-- How colours and spaces go together along a run on its way to an outcome. At every moment each space
is orderly, and each colour is a pattern just if its space is, or it is a pattern that has been named.
The exception is not there until a pattern is named in a space of another kind, and is there right after
that. A cell that is begun at a certain depth or deeper is the one that the fill names, and so the space
of the fill is one of patterns, with the same exception. -/
structure KeepsColours (r : RunSettings K σ) (start : Machine K σ) {ε α : Type}
    (o : Outcome ε K σ α) (depth : Nat) : Prop where
  ends : ∃ m, Reaches r start m ∧ m.state = o.state ∧ m.log = o.log
  suited : ∀ m, Reaches r start m → ∀ s ∈ m.states, s.Suited True
  agree : ∀ m, Reaches r start m → NamesInPlace r start m → ∀ s ∈ m.states, s.ColoursAgree
  disagree : ∀ m call, Reaches r start m → m.Starts call → Operators.Misnames call m.state.state →
    ∃ m', Reaches r m m' ∧ ¬ m'.state.state.ColoursAgree
  begun : ∀ m m', Reaches r start m → Machine.step r m = some m' → depth ≤ m.state.depth →
    ∃ told, Entry.events m'.log = Entry.events m.log ++ told ∧
      ∀ name ctm, Event.beginPattern name ctm ∈ told →
        m.state.state.fillColor.patternName? = some name ∧
          (NamesInPlace r start m → m.state.state.fillSpace.isPattern = true)

/-- Pages, appearances of annotations and pattern cells keep colours and spaces together. The cell of a
pattern may be given a colour of some space, and is not begun by a fill itself. -/
structure ColoursSuit (r : RunSettings K σ) (scope : σ) : Prop where
  page : ∀ content, r.KeepsColours (.start content scope (.initial r.baseMatrix))
    (r.page content scope) 0
  appearance : ∀ form rect ctm, form.appearanceMatrix? rect = some ctm →
    let placed := (RunState.initial r.baseMatrix).updateContext fun c =>
      c.updateState fun s => { s with ctm }.clipToBox form.bbox
    let o := r.run form.content (form.scope.getD scope) placed
    r.appearance form rect scope =
        { o with
          log := .event (.beginForm (Operators.formEvent "appearance" form ctm)) :: o.log ++
            [.event .endForm] } ∧
      r.KeepsColours (.start form.content (form.scope.getD scope) placed) o 0
  tilingCell : ∀ call name pattern paint,
    (∀ space color, paint = some (space, color) → space.Suits False color) →
      r.KeepsColours (.startCell call name pattern paint scope (.initial r.baseMatrix))
        (r.tilingCell name pattern paint scope) 1

variable {r : RunSettings K σ}

theorem KeepsColours.of_start (graphics : r.table = Operators.graphicsTable)
    (orderly : r.resolver.Orderly) {start : Machine K σ} {ε α : Type} {o : Outcome ε K σ α}
    {depth : Nat} (coloured : ∀ named, Coloured named depth r start)
    (ends : ∃ m, Reaches r start m ∧ m.state = o.state ∧ m.log = o.log) :
    r.KeepsColours start o depth where
  ends := ends
  suited m reached := ((coloured True).reaches graphics orderly (.inl trivial) reached).suited
  agree m reached proper s mem :=
    (((coloured False).reaches graphics orderly (.inr proper) reached).suited s mem).coloursAgree
  disagree m call reached starts misnames := starts.disagrees graphics misnames
  begun m m' reached hstep inside := by
    have here := (coloured True).reaches graphics orderly (.inl trivial) reached
    obtain ⟨told, adds, named⟩ :=
      (here.step graphics orderly (.inl trivial) hstep).2.begun inside
    refine ⟨told, adds, fun name ctm mem => ⟨named name ctm mem, fun proper => ?_⟩⟩
    have suited := ((coloured False).reaches graphics orderly (.inr proper) reached).suited
    have agree := (suited _ (List.mem_append_left _ List.mem_cons_self)).coloursAgree
    exact agree.fill.symm.trans (Color.isPattern_of_patternName? (named name ctm mem))

/-- A stream that is the first of a run keeps colours and spaces together, if they are at its start. -/
theorem keepsColours_run (graphics : r.table = Operators.graphicsTable)
    (orderly : r.resolver.Orderly) (content : Bytes) (scope : σ) {s : RunState K σ}
    (suited : ∀ named, s.Suited named) :
    r.KeepsColours (.start content scope s) (r.run content scope s) 0 := by
  have ranked : r.table.Ranked Operators.rank := graphics ▸ Operators.ranked_graphicsTable
  obtain ⟨stream, reached⟩ := Machine.reaches_halted ranked Operators.rank_lt content scope s
  exact .of_start graphics orderly
    (fun named => ⟨.between trivial .nil, Machine.suited_states_of_outermost rfl (suited named)⟩)
    ⟨_, reached, rfl, rfl⟩

/-- Colours and spaces go together, whatever the content and the options are, if the resources have no
space that is built on a space of patterns. -/
theorem graphics_coloursSuit (options : Options) (baseMatrix : Matrix K) {resolver : Resolver K σ}
    (orderly : resolver.Orderly) (scope : σ) :
    (graphics options baseMatrix resolver).ColoursSuit scope where
  page content := keepsColours_run rfl orderly content scope fun _ => RunState.suited_initial _
  appearance form rect ctm fits := by
    refine ⟨by simp only [appearance, fits], ?_⟩
    exact keepsColours_run rfl orderly form.content _ fun _ =>
      (RunState.suited_initial baseMatrix).update fun here => here.congr ⟨rfl, rfl, rfl, rfl⟩
  tilingCell call name pattern paint suits := by
    refine .of_start rfl orderly (fun named => ⟨.performing rfl ?_ .nil, ?_⟩)
      (Machine.reaches_tilingCell rfl call name pattern paint scope)
    · exact (Operators.colours_paintCellAlone name pattern paint Nat.zero_lt_one
        fun space color given => (suits space color given).weaken).heeds
    · exact Machine.suited_states_of_outermost rfl (RunState.suited_initial _)

/-- A page that fills with an uncoloured pattern in its own space, and a cell that is given a colour. -/
theorem graphics_coloursSuit_uncolored :
    let written (text : String) : Bytes := text.toList.map fun c => UInt8.ofNat c.toNat
    let cell : TilingPattern Int Unit :=
      { content := written "0 0 4 4 re f", matrix := .identity, bbox := ⟨0, 0, 4, 4⟩, xStep := 4,
        yStep := 4, paintType := 2, tilingType := 1, scope := none }
    let resolver : Resolver Int Unit := .ofCatalogs fun _ =>
      { colorSpaces := [("CS0", .pattern (some (.separation "Spot" .deviceCMYK)))],
        patterns := [("P0", .tiling cell)] }
    let r := graphics ⟨2, true, true, true⟩ .identity resolver
    let o := r.page (written "q /CS0 cs 1 /P0 scn 0 0 8 8 re f") ()
    resolver.Orderly ∧ (∀ s ∈ o.state.states.all, s.Suited True) ∧
      r.KeepsColours
        (.startCell ⟨.plain "f", []⟩ "P0" cell (some (.deviceRGB, .rgb 1 0 0)) ()
          (.initial .identity))
        (r.tilingCell "P0" cell (some (.deviceRGB, .rgb 1 0 0)) ()) 1 := by
  intro written cell resolver r o
  have orderly : resolver.Orderly := Resolver.orderly_ofCatalogs fun _ =>
    List.forall_mem_singleton.mpr ⟨rfl, trivial⟩
  obtain ⟨page, -, tilingCell⟩ :=
    graphics_coloursSuit ⟨2, true, true, true⟩ .identity orderly ()
  obtain ⟨⟨m, reached, same, -⟩, suited, -⟩ := page (written "q /CS0 cs 1 /P0 scn 0 0 8 8 re f")
  refine ⟨orderly, fun s mem => ?_, tilingCell _ _ _ _ ?_⟩
  · refine suited m reached s (List.mem_append_left _ ?_)
    rw [same]
    exact mem
  · rintro _ _ ⟨⟩
    exact ⟨trivial, .inl rfl⟩

/-- A pattern is named in a space of another kind, and a fill begins its cell. -/
theorem graphics_namesPattern_otherSpace :
    let written (text : String) : Bytes := text.toList.map fun c => UInt8.ofNat c.toNat
    let cell : TilingPattern Int Unit :=
      { content := [], matrix := .identity, bbox := ⟨0, 0, 4, 4⟩, xStep := 4, yStep := 4,
        paintType := 1, tilingType := 1, scope := none }
    let resolver : Resolver Int Unit := .ofCatalogs fun _ => { patterns := [("P0", .tiling cell)] }
    let r := graphics ⟨2, true, true, true⟩ .identity resolver
    let content := written "/DeviceRGB cs /P0 scn 0 0 8 8 re f"
    resolver.Orderly ∧ ∃ m, Reaches r (.start content () (.initial .identity)) m ∧
      m.state.state.fillColor.isPattern = true ∧ m.state.state.fillSpace.isPattern = false ∧
      some "P0" ∈ (Entry.events m.log).map Event.begunPattern? := by
  intro written cell resolver r content
  have orderly : resolver.Orderly := Resolver.orderly_ofCatalogs fun _ => by simp
  obtain ⟨stream, reached⟩ := Machine.reaches_halted (r := r) Operators.ranked_graphicsTable
    Operators.rank_lt content () (.initial .identity)
  refine ⟨orderly, _, reached, ?_⟩
  simp only [Machine.halted]
  decide +kernel

end RunSettings

end PdfContent
