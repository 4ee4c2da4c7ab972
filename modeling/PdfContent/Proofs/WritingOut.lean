import PdfContent.Proofs.Abbreviations

/-!
# Runs on content that is written out

Content may be on a page or in the resources, and there it may be drawn at any level. Wherever some
of its operators are written out, the run stays the same: it ends by a fault or not, the device is
told the same but for warnings, and it ends in the same context. If glyph procedures are written
out, fonts that are told of or selected have them so, and there is no other difference.
-/

namespace PdfContent

variable {K σ : Type} {ρ γ : Bytes → Bytes → Prop}

/-! ### Runs -/

section Runs

variable [Scalar K]

namespace StreamSettings.Variant

variable {stream stream' : StreamSettings K σ} (streams : stream.Variant ρ γ stream')
  {s t : RunState K σ}

include streams

/-- An operator in one stream, and in the other what it is short for. -/
theorem abbreviation {call : Call K} {steps : List (Call K)} (abbreviates : call.Abbreviates steps)
    (states : s.Variant γ t) (count count' : Nat) :
    (stream.perform count call s).inStream.Variant γ EndsAlike
      (stream'.carryOut count' t steps) := by
  have indexed : ({ s with index := count } : RunState K σ).Variant γ t :=
    ⟨states.context, states.depth⟩
  have stops := stops_of_abbreviates streams.second abbreviates
  have steps := streams.forM_carryOut indexed stops count'
  rw [← Operators.dispatch_of_abbreviates abbreviates, ← streams.first] at steps
  obtain ⟨log, performed, callbacks⟩ := StreamSettings.perform_of_run
    (rfl : (stream.table.dispatch call).run (stream.environment stream.scope) stream.nested
      { s with index := count } = _)
  rw [performed]
  exact ⟨steps.result, steps.state, callbacks.symm ▸ steps.callbacks⟩

/-- Operators in one stream, and in the other the same with some of them written out. The induction
is along the operators. -/
theorem carryOut {calls calls' : List (Call K)} (written : Content.WrittenOut calls calls')
    (states : s.Variant γ t) (count count' : Nat) :
    (stream.carryOut count s calls).Variant γ EndsAlike (stream'.carryOut count' t calls') := by
  induction written generalizing s t count count' with
  | nil => exact ⟨.goesOn, states, .nil⟩
  | keep call rest ih =>
      exact (streams.perform states count count' call).inStream.andThen fun _ _ states =>
        ih states (count + 1) (count' + 1)
  | write abbreviates rest ih =>
      rw [carryOut_append]
      exact (streams.abbreviation abbreviates states count count').andThen fun _ _ states =>
        ih states (count + 1) _

theorem run_content {content content' : Bytes} (written : Content.WritesOut K content content')
    (states : s.Variant γ t) :
    (stream.run content s).Variant γ (fun result result' => result.isOk = result'.isOk)
      (stream'.run content' t) := by
  rw [StreamSettings.run, StreamSettings.run, runTokens_eq_carryOut, runTokens_eq_carryOut]
  exact (streams.carryOut written.calls states 0 0).ended written.fault

end StreamSettings.Variant

omit [Scalar K] in
/-- Nested streams start from variants of states if their callers do. -/
theorem RunState.Variant.enter {s t : RunState K σ} (states : s.Variant γ t)
    {setup setup' : GraphicsState K σ → GraphicsState K σ}
    (variant : ∀ s t, s.Variant γ t → (setup s).Variant γ (setup' t)) :
    (s.enter setup).Variant γ (t.enter setup') :=
  ⟨.mk _ (variant _ _ states.context.state) .nil, congrArg (· + 1) states.depth⟩

omit [Scalar K] in
/-- The marks around a nested stream are no callbacks. -/
theorem Entry.callbacks_nested (content : Bytes) (s t : RunState K σ)
    (result : Except ContentError Unit) (log : List (Entry K σ)) :
    callbacks (.opened content s :: log ++ [.closed result t]) = callbacks log := by
  rw [List.cons_append, callbacks_cons_of_mark rfl, callbacks_append]
  exact List.append_nil _

omit [Scalar K] in
theorem Entry.callbacks_between (form : FormEvent K) (log : List (Entry K σ)) :
    callbacks (.event (.beginForm form) :: log ++ [.event .endForm]) =
      .beginForm form :: (callbacks log ++ [.endForm]) := by
  have begins (rest : List (Entry K σ)) :
      callbacks (.event (.beginForm form) :: rest) = .beginForm form :: callbacks rest := rfl
  rw [List.cons_append, begins, callbacks_append]
  rfl

/-- What the caller of a nested stream gets to know of its fault. -/
theorem sameResult_mapError {result result' : Except ContentError Unit}
    (same : result.isOk = result'.isOk) :
    SameResult (fun _ _ => True) (result.mapError OperatorError.fatal)
      (result'.mapError OperatorError.fatal) := by
  cases result with
  | ok _ =>
      cases result' with
      | ok _ => exact .ok trivial
      | error _ => cases same
  | error cause =>
      cases result' with
      | ok _ => cases same
      | error cause' => exact .error (.fatal cause cause')

/-- A cell by itself ends by a fault in both runs or in neither. -/
theorem isOk_of_sameResult : ∀ result result' : Except OperatorError Unit,
    SameResult (fun _ _ => True) result result' →
    (match result with
      | .error (.fatal cause) => .error cause
      | _ => .ok () : Except ContentError Unit).isOk =
    (match result' with
      | .error (.fatal cause) => .error cause
      | _ => .ok () : Except ContentError Unit).isOk := by
  intro result result' results
  cases results with
  | ok => rfl
  | error errors =>
      cases errors with
      | same => rfl
      | fatal => rfl

namespace RunSettings

/-- How two runs compare that are meant to do the same but for `γ` in glyph procedures: whether they
end by a fault, what the device is told but for warnings, and in which context they end. -/
structure SameBut (γ : Bytes → Bytes → Prop) (o o' : Outcome ContentError K σ Unit) : Prop where
  result : o.result.isOk = o'.result.isOk
  callbacks : List.Forall₂ (Event.Variant γ) (Entry.callbacks o.log) (Entry.callbacks o'.log)
  context : o.state.toContext.Variant γ o'.state.toContext

/-- Both runs end by a fault or neither does, the device is told the same but for warnings, and the
graphics states, the text object, the path and the clip to come are the same at the end. -/
structure Same (o o' : Outcome ContentError K σ Unit) : Prop where
  result : o.result.isOk = o'.result.isOk
  callbacks : Entry.callbacks o.log = Entry.callbacks o'.log
  context : o.state.toContext = o'.state.toContext

omit [Scalar K] in
/-- If glyph procedures stay as they are, there is nothing in which the runs may differ. -/
theorem SameBut.same {o o' : Outcome ContentError K σ Unit} (runs : SameBut Eq o o') :
    Same o o' where
  result := runs.result
  callbacks := Entry.callbacks_eq_of_variant runs.callbacks
  context := runs.context.eq

/-- How runs with two settings compare on content and on the same content written out: content from
any state (a page from the initial one), an appearance, and a pattern cell by itself. -/
structure Corresponds (R : Outcome ContentError K σ Unit → Outcome ContentError K σ Unit → Prop)
    (r r' : RunSettings K σ) : Prop where
  run : ∀ {content content' : Bytes}, Content.WritesOut K content content' → ∀ (scope : σ)
    (s : RunState K σ), R (r.run content scope s) (r'.run content' scope s)
  appearance : ∀ {form form' : Form K σ}, form.Variant (Content.WritesOut K) form' →
    ∀ (rect : BBox K) (scope : σ), R (r.appearance form rect scope) (r'.appearance form' rect scope)
  tilingCell : ∀ {pattern pattern' : TilingPattern K σ},
    pattern.Variant (Content.WritesOut K) pattern' → ∀ (name : String)
    (paint : Option (ColorSpace × Color K)) (scope : σ),
    R (r.tilingCell name pattern paint scope) (r'.tilingCell name pattern' paint scope)

theorem Corresponds.mono
    {R S : Outcome ContentError K σ Unit → Outcome ContentError K σ Unit → Prop}
    (weaker : ∀ {o o'}, R o o' → S o o') {r r' : RunSettings K σ} (runs : Corresponds R r r') :
    Corresponds S r r' where
  run written scope s := weaker (runs.run written scope s)
  appearance forms rect scope := weaker (runs.appearance forms rect scope)
  tilingCell patterns name paint scope := weaker (runs.tilingCell patterns name paint scope)

section Graphics

variable (options : Options) (baseMatrix : Matrix K) {resolver resolver' : Resolver K σ}
  (resources : resolver.Variant (Content.WritesOut K) γ resolver')
  (glyphs : ∀ a b, γ a b → Content.WritesOut K a b)

include resources glyphs

theorem variant_stream {nested nested' : NestedRun K σ}
    (nests : nested.Variant (Content.WritesOut K) γ nested') (scope : σ) :
    StreamSettings.Variant (Content.WritesOut K) γ
      { graphics options baseMatrix resolver with scope, nested }
      { graphics options baseMatrix resolver' with scope, nested := nested' } :=
  ⟨rfl, rfl, rfl, resources, rfl, rfl, rfl, nests, glyphs⟩

/-- Nested streams go alike. The induction is on the number of levels. -/
theorem variant_nestedRun (levels : Nat) :
    ((graphics options baseMatrix resolver).nestedRun levels).Variant (Content.WritesOut K) γ
      ((graphics options baseMatrix resolver').nestedRun levels) := by
  induction levels with
  | zero =>
      intro content content' scope setup setup' s t _ _ states
      rw [nestedRun, nestedRun]
      split <;> split <;> exact ⟨.error (.same _), states, .nil⟩
  | succ levels ih =>
      intro content content' scope setup setup' s t contents variant states
      by_cases limit : options.maxDepth ≤ s.depth
      · rw [nestedRun_of_limit _ _ _ _ _ limit, nestedRun_of_limit _ _ _ _ _ (states.depth ▸ limit)]
        exact ⟨.error (.same _), states, .nil⟩
      · have below := Nat.not_le.mp limit
        rw [nestedRun_succ_of_lt _ _ _ _ _ below,
          nestedRun_succ_of_lt _ _ _ _ _ (states.depth ▸ below)]
        have streams := variant_stream options baseMatrix resources glyphs ih scope
        have inner := streams.run_content contents (states.enter variant)
        refine ⟨sameResult_mapError inner.result, states, ?_⟩
        rw [Entry.callbacks_nested, Entry.callbacks_nested]
        exact inner.callbacks

theorem sameBut_run {content content' : Bytes} (written : Content.WritesOut K content content')
    (scope : σ) {s t : RunState K σ} (states : s.Variant γ t) :
    SameBut γ ((graphics options baseMatrix resolver).run content scope s)
      ((graphics options baseMatrix resolver').run content' scope t) := by
  have nests := variant_nestedRun options baseMatrix resources glyphs options.maxDepth
  have run := (variant_stream options baseMatrix resources glyphs nests scope).run_content written
    states
  exact ⟨run.result, run.callbacks, run.state.context⟩

variable (same : ∀ content, γ content content)

include same

theorem sameBut_appearance {form form' : Form K σ}
    (forms : form.Variant (Content.WritesOut K) form') (rect : BBox K) (scope : σ) :
    SameBut γ ((graphics options baseMatrix resolver).appearance form rect scope)
      ((graphics options baseMatrix resolver').appearance form' rect scope) := by
  obtain @⟨content, written⟩ := forms
  have placement : ({ form with content } : Form K σ).appearanceMatrix? rect =
      form.appearanceMatrix? rect := rfl
  rw [appearance, appearance, placement]
  cases form.appearanceMatrix? rect with
  | none => exact ⟨rfl, .nil, (RunState.Variant.refl same (.initial baseMatrix)).context⟩
  | some ctm =>
      let placed : RunState K σ := (RunState.initial baseMatrix).updateContext fun c =>
        c.updateState fun s => { s with ctm }.clipToBox form.bbox
      have inner := sameBut_run options baseMatrix resources glyphs written (form.scope.getD scope)
        (RunState.Variant.refl same placed)
      refine ⟨inner.result, ?_, inner.context⟩
      rw [Entry.callbacks_between, Entry.callbacks_between]
      exact .cons (.same _) (List.rel_append inner.callbacks (.cons (.same _) .nil))

theorem sameBut_tilingCell {pattern pattern' : TilingPattern K σ}
    (patterns : pattern.Variant (Content.WritesOut K) pattern') (name : String)
    (paint : Option (ColorSpace × Color K)) (scope : σ) :
    SameBut γ ((graphics options baseMatrix resolver).tilingCell name pattern paint scope)
      ((graphics options baseMatrix resolver').tilingCell name pattern' paint scope) := by
  have nests := variant_nestedRun options baseMatrix resources glyphs options.maxDepth
  have painted := (variant_stream options baseMatrix resources glyphs nests scope).run
    (RunState.Variant.refl same (.initial baseMatrix))
    (Operators.matches_paintCellAlone name patterns paint)
  exact ⟨isOk_of_sameResult _ _ painted.result, painted.callbacks, painted.state.context⟩

theorem corresponds_sameBut :
    Corresponds (SameBut γ) (graphics options baseMatrix resolver)
      (graphics options baseMatrix resolver') where
  run written scope s :=
    sameBut_run options baseMatrix resources glyphs written scope (.refl same s)
  appearance forms := sameBut_appearance options baseMatrix resources glyphs same forms
  tilingCell patterns := sameBut_tilingCell options baseMatrix resources glyphs same patterns

end Graphics

/-- Operators may be written out on the page and in all resources. The runs are the same if glyph
procedures are left alone, and else but for the glyph procedures of fonts. -/
theorem graphics_writtenOut_same (options : Options) (baseMatrix : Matrix K)
    (resolver resolver' : Resolver K σ) :
    (resolver.Variant (Content.WritesOut K) Eq resolver' →
      Corresponds Same (graphics options baseMatrix resolver)
        (graphics options baseMatrix resolver')) ∧
    (resolver.Variant (Content.WritesOut K) (Content.WritesOut K) resolver' →
      Corresponds (SameBut (Content.WritesOut K)) (graphics options baseMatrix resolver)
        (graphics options baseMatrix resolver')) := by
  refine ⟨fun resources => ?_, fun resources => ?_⟩
  · have unchanged : ∀ a b : Bytes, a = b → Content.WritesOut K a b := by
      rintro a _ rfl
      exact .refl a
    exact (corresponds_sameBut options baseMatrix resources unchanged fun _ => rfl).mono
      SameBut.same
  · exact corresponds_sameBut options baseMatrix resources (fun _ _ written => written) .refl

/-- The same path is closed and painted by a form, by the page and by a glyph procedure, before a
line of text is moved to. -/
theorem graphics_writtenOut_same_path :
    let written (text : String) : Bytes := text.toList.map fun c => UInt8.ofNat c.toNat
    let form (content : Bytes) : Form Int Unit :=
      { content, matrix := .identity, bbox := ⟨0, 0, 9, 9⟩, scope := none, group := none }
    let blank : Font Int Unit := .ofWidth "T" .type3 fun _ => 1
    let font (content : Bytes) : Font Int Unit :=
      { blank with
        procedure? := fun _ => some ⟨content, none⟩ }
    let resolver (inForm inGlyph : Bytes) : Resolver Int Unit := .ofCatalogs fun _ =>
      { fonts := [("T", font inGlyph)], xobjects := [("F", .form (form inForm))] }
    let options : Options := ⟨2, true, true, true⟩
    let path := written "0 0 m 4 4 l b"
    let path' := written "0 0 m 4 4 l h B"
    let o := (graphics options .identity (resolver path path)).run
      (written "/F Do 0 0 m 4 4 l b BT /T 1 Tf (A) Tj 0 7 TD") () (.initial .identity)
    let o' (inGlyph : Bytes) := (graphics options .identity (resolver path' inGlyph)).run
      (written "/F Do 0 0 m 4 4 l h B BT /T 1 Tf (A) Tj -7 TL 0 7 Td") () (.initial .identity)
    Same o (o' path) ∧ SameBut (Content.WritesOut Int) o (o' path') ∧
      (Entry.callbacks o.log).length = 16 ∧ o.state.text.isSome := by
  intro written form blank font resolver options path path' o o'
  let constructed : List (Call Int) :=
    [⟨.plain "m", [.integer 0, .integer 0]⟩, ⟨.plain "l", [.integer 4, .integer 4]⟩]
  have painted : Content.WritesOut Int path path' := by
    have calls : Content.callsOf path = constructed ++ [⟨.plain "b", []⟩] := by
      with_unfolding_all rfl
    have calls' : Content.callsOf path' = constructed ++ [⟨.plain "h", []⟩, ⟨.plain "B", []⟩] := by
      with_unfolding_all rfl
    refine ⟨?_, by decide +kernel⟩
    rw [calls, calls']
    exact .keep _ (.keep _ (.write (.fillStroke []) .nil))
  have page : Content.WritesOut Int (written "/F Do 0 0 m 4 4 l b BT /T 1 Tf (A) Tj 0 7 TD")
      (written "/F Do 0 0 m 4 4 l h B BT /T 1 Tf (A) Tj -7 TL 0 7 Td") := by
    let shown : List (Call Int) := [⟨.plain "BT", []⟩,
      ⟨.plain "Tf", [.name "T", .integer 1]⟩, ⟨.plain "Tj", [.literal [0x41]]⟩]
    have calls : Content.callsOf (written "/F Do 0 0 m 4 4 l b BT /T 1 Tf (A) Tj 0 7 TD") =
        ⟨.plain "Do", [.name "F"]⟩ :: constructed ++ ⟨.plain "b", []⟩ :: shown ++
          [⟨.plain "TD", [.integer 0, .integer 7]⟩] := by
      with_unfolding_all rfl
    have calls' :
        Content.callsOf (written "/F Do 0 0 m 4 4 l h B BT /T 1 Tf (A) Tj -7 TL 0 7 Td") =
        ⟨.plain "Do", [.name "F"]⟩ :: constructed ++ ⟨.plain "h", []⟩ :: ⟨.plain "B", []⟩ ::
          shown ++ [⟨.plain "TL", [.integer (-7)]⟩, ⟨.plain "Td", [.integer 0, .integer 7]⟩] := by
      with_unfolding_all rfl
    refine ⟨?_, by decide +kernel⟩
    rw [calls, calls']
    exact .keep _ (.keep _ (.keep _ (.write (.fillStroke [])
      (.keep _ (.keep _ (.keep _ (.write (.moveText rfl rfl rfl) .nil)))))))
  have resources {γ : Bytes → Bytes → Prop} {inGlyph : Bytes} (glyphs : γ path inGlyph) :
      (resolver path path).Variant (Content.WritesOut Int) γ (resolver path' inGlyph) := by
    refine ⟨fun _ name => ?_, rfl, fun _ name => ?_, fun _ _ => .none, rfl, fun _ _ => .none, rfl⟩
    · by_cases named : "T" = name
      · subst named
        exact .some (.mk (font path) fun _ => .some ⟨glyphs, rfl⟩)
      · simp [resolver, Resolver.ofCatalogs, named?, named]
    · by_cases named : "F" = name
      · subst named
        exact .some (.form (.mk (form path) painted))
      · simp [resolver, Resolver.ofCatalogs, named?, named]
  have ends : (Entry.callbacks o.log).length = 16 ∧ o.state.text.isSome := by decide +kernel
  have same := graphics_writtenOut_same options .identity (resolver path path)
  exact ⟨((same (resolver path' path)).1 (resources rfl)).run page () _,
    ((same (resolver path' path')).2 (resources painted)).run page () _, ends⟩

end RunSettings

end Runs

end PdfContent
