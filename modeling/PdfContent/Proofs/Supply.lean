import PdfContent.Proofs.StandardOperators

/-!
# What the resources of a page can supply

From the scope of a page other scopes are reached through the forms, pattern cells and glyph
procedures that its resources hold. `Resolver.Supplies` is the content of all these. A font may be
selected in one scope and still be in use in another, where a procedure without a scope of its own
then finds its resources; so glyph procedures are run in any scope that is reached.

The built-in operators keep to this: they select fonts of the scopes that are reached only, and so
all content that they have run as nested streams is supplied, in a scope that is reached.
-/

namespace PdfContent

variable {K σ : Type} [Scalar K]

namespace Resolver

/-- The scopes in which content is run, from that of a page. -/
inductive Reaches (resolver : Resolver K σ) (start : σ) : σ → Prop
  | start : Reaches resolver start start
  | form {scope name form inner} (outer : Reaches resolver start scope)
    (found : resolver.xobject scope name = some (.form form)) (own : form.scope = some inner) :
    Reaches resolver start inner
  | cell {scope name pattern inner} (outer : Reaches resolver start scope)
    (found : resolver.pattern scope name = some (.tiling pattern))
    (own : pattern.scope = some inner) : Reaches resolver start inner
  | glyph {scope font code procedure inner} (outer : Reaches resolver start scope)
    (offered : resolver.Offers scope font) (found : font.procedure? code = some procedure)
    (own : procedure.scope = some inner) : Reaches resolver start inner

/-- The content that can be run inside a page. -/
inductive Supplies (resolver : Resolver K σ) (start : σ) : Bytes → Prop
  | form {scope name form} (reached : resolver.Reaches start scope)
    (found : resolver.xobject scope name = some (.form form)) : Supplies resolver start form.content
  | cell {scope name pattern} (reached : resolver.Reaches start scope)
    (found : resolver.pattern scope name = some (.tiling pattern)) :
    Supplies resolver start pattern.content
  | glyph {scope font code procedure} (reached : resolver.Reaches start scope)
    (offered : resolver.Offers scope font) (found : font.procedure? code = some procedure) :
    Supplies resolver start procedure.content

/-- The selected font, if there is one, is offered in a scope that is reached. -/
def Equips (resolver : Resolver K σ) (start : σ) (s : GraphicsState K σ) : Prop :=
  ∀ font, s.text.font = some font →
    ∃ scope, resolver.Reaches start scope ∧ resolver.Offers scope font

/-- So are the fonts of the current state and of all saved ones. -/
structure EquipsAll (resolver : Resolver K σ) (start : σ) (c : Context K σ) : Prop where
  current : resolver.Equips start c.state
  saved : ∀ s ∈ c.states.saved, resolver.Equips start s

end Resolver

namespace Operators

variable {env : Environment K σ} {start : σ} {c c' : Context K σ}

theorem Tunes.equips {s t : GraphicsState K σ} (tunes : Tunes env s t)
    (reached : env.resolver.Reaches start env.scope) (equips : env.resolver.Equips start s) :
    env.resolver.Equips start t := by
  intro font selected
  rcases tunes.font with same | ⟨offered, offers, now⟩
  · exact equips font (same ▸ selected)
  · cases now.symm.trans selected
    exact ⟨env.scope, reached, offers⟩

omit [Scalar K] in
theorem PaintMove.font [Scalar K] (move : PaintMove c c') :
    c'.state.text.font = c.state.text.font ∧ c'.states.saved = c.states.saved := by
  cases move <;> exact ⟨rfl, rfl⟩

/-- Built-in operators select fonts of the scopes that are reached only. -/
theorem Move.equipsAll (move : Move env c c') (reached : env.resolver.Reaches start env.scope)
    (equips : env.resolver.EquipsAll start c) : env.resolver.EquipsAll start c' := by
  cases move with
  | paint move =>
      obtain ⟨font, saved⟩ := move.font
      exact ⟨fun _ selected => equips.current _ (font ▸ selected), saved ▸ equips.saved⟩
  | save => exact ⟨equips.current, List.forall_mem_cons.mpr ⟨equips.current, equips.saved⟩⟩
  | restore saved =>
      rw [StateStack.restore?] at saved
      split at saved
      · cases saved
      next s rest among =>
        cases saved
        have all := equips.saved
        rw [among] at all
        obtain ⟨latest, earlier⟩ := List.forall_mem_cons.mp all
        exact ⟨latest, earlier⟩
  | tune tunes => exact ⟨tunes.equips reached equips.current, equips.saved⟩
  | text => exact ⟨equips.current, equips.saved⟩
  | compatibility => exact ⟨equips.current, equips.saved⟩

/-- A nested stream that a built-in operator runs is supplied, and starts with what is reached. -/
theorem Opens.supplied {content : Bytes} {scope : σ} {setup : GraphicsState K σ → GraphicsState K σ}
    (opens : Opens env c content scope setup) (reached : env.resolver.Reaches start env.scope)
    (equips : env.resolver.EquipsAll start c) :
    env.resolver.Supplies start content ∧ env.resolver.Reaches start scope ∧
      env.resolver.Equips start (setup c.state) := by
  cases opens with
  | @form name form found =>
      refine ⟨.form reached found, ?_, equips.current⟩
      cases own : form.scope with
      | none => exact reached
      | some inner => exact .form reached found own
  | @cell name pattern paint found =>
      refine ⟨.cell reached found, ?_, ?_⟩
      · cases own : pattern.scope with
        | none => exact reached
        | some inner => exact .cell reached found own
      · intro font selected
        cases paint <;> cases selected
  | @glyph font code procedure ctm selected found =>
      obtain ⟨origin, known, offered⟩ := equips.current font selected
      refine ⟨.glyph known offered found, ?_, equips.current⟩
      cases own : procedure.scope with
      | none => exact reached
      | some inner => exact .glyph known offered found own

end Operators

end PdfContent
