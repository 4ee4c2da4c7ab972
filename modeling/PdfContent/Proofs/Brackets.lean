import PdfContent.Interpreter.Event

/-!
# Brackets in what a device is told

A form and a pattern cell are told to the device between two events, one that begins them and one
that ends them. `Bracket.openAfter?` follows which of them are open and fails where something is
ended that is not the latest that was begun. `WellBracketed` says of a whole sequence of events that
this never happens, that in the end nothing is open, and how many are open at once at most.

`Bracketed` is the same as a grammar, so that it can be put together from the parts of a run. The
number in it is how deep brackets may still be inside each other.
-/

namespace PdfContent

variable {K σ : Type}

/-- What is told with a beginning and an end. -/
inductive Bracket
  | form
  | pattern
  deriving DecidableEq, Repr

inductive Bracket.Edge
  | begins (b : Bracket)
  | ends (b : Bracket)
  deriving DecidableEq, Repr

/-- The beginning or the end that an event is, if it is one. -/
def Event.edge? : Event K σ → Option Bracket.Edge
  | .beginForm _ => some (.begins .form)
  | .endForm => some (.ends .form)
  | .beginPattern _ _ => some (.begins .pattern)
  | .endPattern => some (.ends .pattern)
  | _ => none

namespace Bracket

/-- The brackets that are open after an event, innermost first; none if the event ends something
that is not the innermost of them. -/
def after? (opened : List Bracket) (e : Event K σ) : Option (List Bracket) :=
  match e.edge?, opened with
  | none, _ => some opened
  | some (.begins b), _ => some (b :: opened)
  | some (.ends b), innermost :: outer => if b = innermost then some outer else none
  | some (.ends _), [] => none

/-- The brackets that are open after several events. -/
def openAfter? (opened : List Bracket) : List (Event K σ) → Option (List Bracket)
  | [] => some opened
  | e :: rest => (after? opened e).bind fun opened => openAfter? opened rest

theorem after?_of_quiet {e : Event K σ} (quiet : e.edge? = none) (opened : List Bracket) :
    after? opened e = some opened := by
  simp only [after?, quiet]

theorem after?_of_begins {e : Event K σ} {b : Bracket} (begins : e.edge? = some (.begins b))
    (opened : List Bracket) : after? opened e = some (b :: opened) := by
  simp only [after?, begins]

theorem after?_of_ends {e : Event K σ} {b : Bracket} (ends : e.edge? = some (.ends b))
    (outer : List Bracket) : after? (b :: outer) e = some outer := by
  simp only [after?, ends, if_true]

theorem openAfter?_append (opened : List Bracket) (first second : List (Event K σ)) :
    openAfter? opened (first ++ second) =
      (openAfter? opened first).bind fun opened => openAfter? opened second := by
  induction first generalizing opened with
  | nil => rfl
  | cons e rest ih =>
      simp only [List.cons_append, openAfter?, Option.bind_assoc, ih]

end Bracket

open PdfContent.Bracket (openAfter? openAfter?_append after?_of_quiet after?_of_begins
  after?_of_ends)

/-- Every end belongs to the beginning before it that is still open and the latest, in the end
nothing is open, and there are never more than `limit` open at once. -/
structure Event.WellBracketed (limit : Nat) (events : List (Event K σ)) : Prop where
  closed : openAfter? [] events = some []
  bounded : ∀ first, first <+: events →
    ∃ opened, openAfter? [] first = some opened ∧ opened.length ≤ limit

/-- Events in which brackets are closed, at most `limit` of them inside each other. -/
inductive Bracketed : Nat → List (Event K σ) → Prop
  | nil (limit : Nat) : Bracketed limit []
  | quiet {limit : Nat} {e : Event K σ} (quiet : e.edge? = none) : Bracketed limit [e]
  | append {limit : Nat} {first second : List (Event K σ)} (left : Bracketed limit first)
    (right : Bracketed limit second) : Bracketed limit (first ++ second)
  | between {limit : Nat} {b : Bracket} {start stop : Event K σ} {inner : List (Event K σ)}
    (begins : start.edge? = some (.begins b)) (within : Bracketed limit inner)
    (ends : stop.edge? = some (.ends b)) : Bracketed (limit + 1) (start :: (inner ++ [stop]))

namespace Bracketed

variable {limit limit' : Nat} {events : List (Event K σ)}

theorem mono (bracketed : Bracketed limit events) (le : limit ≤ limit') :
    Bracketed limit' events := by
  induction bracketed generalizing limit' with
  | nil => exact .nil limit'
  | quiet quiet => exact .quiet quiet
  | append _ _ left right => exact .append (left le) (right le)
  | between begins _ ends ih =>
      obtain ⟨more, rfl⟩ := Nat.exists_eq_add_of_le' (Nat.le_trans (Nat.le_add_left 1 _) le)
      exact .between begins (ih (Nat.le_of_succ_le_succ le)) ends

/-- After bracketed events the same brackets are open as before. -/
theorem openAfter?_eq (bracketed : Bracketed limit events) (opened : List Bracket) :
    openAfter? opened events = some opened := by
  induction bracketed generalizing opened with
  | nil => rfl
  | quiet quiet => simp only [openAfter?, after?_of_quiet quiet, Option.bind_some]
  | append _ _ left right => simp only [openAfter?_append, left, Option.bind_some, right]
  | between begins _ ends ih =>
      simp only [openAfter?, after?_of_begins begins, openAfter?_append, ih, after?_of_ends ends,
        Option.bind_some]

/-- On the way there are no more than `limit` open besides those. -/
theorem exists_openAfter? (bracketed : Bracketed limit events) (opened : List Bracket)
    {first : List (Event K σ)} (part : first <+: events) :
    ∃ more, openAfter? opened first = some (more ++ opened) ∧ more.length ≤ limit := by
  induction bracketed generalizing opened first with
  | nil =>
      rw [List.prefix_nil] at part
      exact ⟨[], by simp [part, openAfter?], Nat.zero_le _⟩
  | @quiet limit e quiet =>
      refine ⟨[], ?_, Nat.zero_le _⟩
      rcases List.prefix_cons_iff.mp part with rfl | ⟨rest, rfl, nothing⟩
      · rfl
      · rw [List.prefix_nil] at nothing
        simp [nothing, openAfter?, after?_of_quiet quiet]
  | @append limit a b left _ ihLeft ihRight =>
      obtain ⟨rest, split⟩ := part
      rcases List.append_eq_append_iff.mp split with ⟨missing, whole, _⟩ | ⟨begun, rfl, whole⟩
      · exact ihLeft opened ⟨missing, whole.symm⟩
      · rw [openAfter?_append, left.openAfter?_eq, Option.bind_some]
        exact ihRight opened ⟨rest, whole.symm⟩
  | @between limit b start stop inner begins within ends ih =>
      rcases List.prefix_cons_iff.mp part with rfl | ⟨begun, rfl, inside⟩
      · exact ⟨[], rfl, Nat.zero_le _⟩
      simp only [openAfter?, after?_of_begins begins, Option.bind_some]
      rcases List.prefix_concat_iff.mp inside with rfl | inside
      · refine ⟨[], ?_, Nat.zero_le _⟩
        simp [openAfter?_append, within.openAfter?_eq, openAfter?, after?_of_ends ends]
      · obtain ⟨more, opened, few⟩ := ih (b :: opened) inside
        exact ⟨more ++ [b], by simpa using opened, by simpa using few⟩

theorem wellBracketed (bracketed : Bracketed limit events) : Event.WellBracketed limit events where
  closed := bracketed.openAfter?_eq []
  bounded first isPrefix := by
    obtain ⟨more, opened, few⟩ := bracketed.exists_openAfter? [] isPrefix
    exact ⟨more, by simpa using opened, few⟩

end Bracketed

end PdfContent
