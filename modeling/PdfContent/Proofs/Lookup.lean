import Mathlib.Data.List.Induction
import Mathlib.Data.List.Nodup
import PdfContent.Proofs.Machine
import PdfContent.Proofs.Manner

/-!
# Looking up operators

What a table made from a list of entries finds under a keyword is the latest entry of the list with
that keyword. Facts about a table are therefore facts about each of the listed entries.

Among operators that stand for others a rank says that no chain of them goes in a circle. `Ranked`
holds of the built-in tables with ranks below three, so that the number of links that a dispatch
allows is never used up.
-/

namespace PdfContent

variable {K σ : Type}

namespace OperatorTable

section Lookup

variable {m : Type → Type}

theorem find?_insertEntry (e : TableEntry K m) (entries : List (TableEntry K m))
    (keyword : String) :
    (insertEntry e entries).find? (fun x => x.keyword == keyword) =
      if e.keyword = keyword then some e else entries.find? fun x => x.keyword == keyword := by
  induction entries with
  | nil => by_cases h : e.keyword = keyword <;> simp [insertEntry, h]
  | cons first rest ih =>
      simp only [insertEntry]
      split
      next same =>
        have same : e.keyword = first.keyword := by simpa using same
        by_cases h : e.keyword = keyword <;> simp [← same, h]
      next differs =>
        split
        · by_cases h : e.keyword = keyword <;> simp [h]
        · by_cases hfirst : first.keyword = keyword
          · have differs : e.keyword ≠ keyword := by
              rintro rfl
              simp [hfirst] at differs
            simp [hfirst, differs]
          · simp [hfirst, ih]

/-- An operator that is added hides the one of the same keyword and no other. -/
theorem find?_insert (t : OperatorTable K m) (e : TableEntry K m) (keyword : String) :
    (t.insert e).find? keyword = if e.keyword = keyword then some e else t.find? keyword :=
  find?_insertEntry e t.entries keyword

theorem find?_foldl_insert (t : OperatorTable K m) (entries : List (TableEntry K m))
    (keyword : String) :
    (entries.foldl insert t).find? keyword =
      ((ofList entries).find? keyword).or (t.find? keyword) := by
  induction entries using List.reverseRecOn generalizing t with
  | nil => simp [ofList, empty, find?]
  | append_singleton rest e ih =>
      have ih' := ih t
      simp only [ofList, List.foldl_append, List.foldl_cons, List.foldl_nil, find?_insert] at ih' ⊢
      split
      · simp
      · exact ih'

/-- Later entries come before earlier ones. -/
theorem find?_ofList_append (first second : List (TableEntry K m)) (keyword : String) :
    (ofList (first ++ second)).find? keyword =
      ((ofList second).find? keyword).or ((ofList first).find? keyword) := by
  rw [ofList, List.foldl_append, find?_foldl_insert]
  rfl

theorem find?_ofList_concat (entries : List (TableEntry K m)) (e : TableEntry K m)
    (keyword : String) :
    (ofList (entries ++ [e])).find? keyword = if e.keyword =
      keyword then some e else (ofList entries).find? keyword := by
  rw [ofList, List.foldl_append]
  exact find?_insert _ e keyword

/-- What a table finds is one of the entries that it was made from, and has the keyword. -/
theorem mem_of_find?_ofList {entries : List (TableEntry K m)} {e : TableEntry K m}
    {keyword : String} (found : (ofList entries).find? keyword = some e) :
    e ∈ entries ∧ e.keyword = keyword := by
  induction entries using List.reverseRecOn with
  | nil => simp [ofList, empty, find?] at found
  | append_singleton rest last ih =>
      rw [find?_ofList_concat] at found
      split at found
      next h =>
        cases found
        exact ⟨by simp, h⟩
      next =>
        obtain ⟨mem, key⟩ := ih found
        exact ⟨List.mem_append_left _ mem, key⟩

/-- An operator that is listed is found. -/
theorem exists_of_mem {entries : List (TableEntry K m)} {e : TableEntry K m} (mem : e ∈ entries) :
    ∃ found, (ofList entries).find? e.keyword = some found := by
  induction entries using List.reverseRecOn with
  | nil => simp at mem
  | append_singleton rest last ih =>
      rw [find?_ofList_concat]
      split
      · exact ⟨last, rfl⟩
      next differs =>
        simp only [List.mem_append, List.mem_singleton] at mem
        rcases mem with mem | rfl
        · exact ih mem
        · exact absurd rfl differs

/-- In a list that gives no keyword twice, each entry is the one that is found. -/
theorem find?_ofList_of_mem {entries : List (TableEntry K m)} {e : TableEntry K m}
    (nodup : (entries.map TableEntry.keyword).Nodup) (mem : e ∈ entries) :
    (ofList entries).find? e.keyword = some e := by
  obtain ⟨found, listed⟩ := exists_of_mem mem
  obtain ⟨mem', key⟩ := mem_of_find?_ofList listed
  rw [listed, List.inj_on_of_nodup_map nodup mem' mem key]

/-- Replacing entries under their own keywords replaces what is found. -/
theorem find?_ofList_map {entries : List (TableEntry K m)} {f : TableEntry K m → TableEntry K m}
    (keeps : ∀ e, (f e).keyword = e.keyword) (keyword : String) :
    (ofList (entries.map f)).find? keyword = ((ofList entries).find? keyword).map f := by
  induction entries using List.reverseRecOn with
  | nil => simp [ofList, empty, find?]
  | append_singleton rest last ih =>
      rw [List.map_append, List.map_singleton, find?_ofList_concat, find?_ofList_concat, keeps, ih]
      split <;> rfl

end Lookup

/-- What carrying out a call begins with: an error of its own, the action of the entry that is
found, an error of the entry, or nothing but the calls that the entry stands for. -/
theorem expand_cases (t : ContentTable K σ) (call : Call K) :
    (∃ e : OperatorError, e.IsLocal ∧ t.expand call = (.fail e, [])) ∨
    ∃ entry, t.find? call.operator.keyword = some entry ∧
      ((∃ run, entry.handler = .action run ∧ t.expand call = (run call, [])) ∨
      ∃ steps, entry.handler = .sequence steps ∧
        ((∃ e, steps call = .error e ∧ t.expand call = (.fail e, [])) ∨
        ∃ calls, steps call = .ok calls ∧
          t.expand call = (.pure (), calls.map fun step => ⟨Operator.plain step.1, step.2⟩))) := by
  rw [expand]
  cases found : t.find? call.operator.keyword with
  | none => exact .inl ⟨.unknownOperator _, trivial, rfl⟩
  | some entry =>
      by_cases few : call.operands.length < entry.minOperands
      · simp only [few, if_true]
        exact .inl ⟨.missingOperand _ _ _, trivial, rfl⟩
      · refine .inr ⟨entry, rfl, ?_⟩
        simp only [few, if_false]
        cases kind : entry.handler with
        | action run => exact .inl ⟨run, rfl, rfl⟩
        | sequence steps =>
            refine .inr ⟨steps, rfl, ?_⟩
            cases given : steps call with
            | error e => exact .inl ⟨e, rfl, by simp only [given]⟩
            | ok calls => exact .inr ⟨calls, rfl, by simp only [given]⟩

/-- What carrying out a call begins with has a property that the entry of the table has, if errors
of an operator's own have it and doing nothing does. -/
theorem follows_expand {P : Environment K σ → Context K σ → Action K σ Unit → Prop}
    (fails : ∀ env c e, e.IsLocal → P env c (.fail e)) (nothing : ∀ env c, P env c (.pure ()))
    {t : ContentTable K σ} {call : Call K}
    (follows : ∀ e, t.find? call.operator.keyword = some e → e.Follows P)
    (env : Environment K σ) (c : Context K σ) : P env c (t.expand call).1 := by
  rcases expand_cases t call with ⟨e, isLocal, same⟩ | ⟨entry, found, cases⟩
  · rw [same]
    exact fails env c e isLocal
  have follows := follows entry found
  rcases cases with ⟨run, kind, same⟩ | ⟨steps, kind, ⟨e, given, same⟩ | ⟨calls, given, same⟩⟩ <;>
    rw [same]
  · simp only [TableEntry.Follows, kind] at follows
    exact follows env c call
  · simp only [TableEntry.Follows, kind] at follows
    exact fails env c e (follows call e given)
  · exact nothing env c

section Actions

variable {t : ContentTable K σ} {call : Call K} {minOperands : Nat} {keyword : String}
  {run : Call K → Action K σ Unit}
  (found : t.find? call.operator.keyword = some ⟨keyword, minOperands, .action run⟩)
  (enough : minOperands ≤ call.operands.length)

include found enough

/-- An operator with an action of its own is carried out by the action, if it has enough operands.
-/
theorem dispatchWithin_of_action (links : Nat) : t.dispatchWithin links call = run call := by
  rw [dispatchWithin, found]
  simp only [Nat.not_lt.mpr enough, if_false]

theorem dispatch_of_action : t.dispatch call = run call := dispatchWithin_of_action found enough _

theorem expand_of_action : t.expand call = (run call, []) := by
  rw [expand, found]
  simp only [Nat.not_lt.mpr enough, if_false]

end Actions

/-- Each operator stands for operators of lower rank only. -/
def Ranked (t : ContentTable K σ) (rank : String → Nat) : Prop :=
  ∀ call step, step ∈ (t.expand call).2 → rank step.operator.keyword < rank call.operator.keyword

/-- A dispatch with a link left carries out what the call begins with, and then the calls that it
stands for with one link less. -/
theorem dispatchWithin_succ (t : ContentTable K σ) (links : Nat) (call : Call K) :
    t.dispatchWithin (links + 1) call =
      (t.expand call).1 >>= fun _ => (t.expand call).2.forM (t.dispatchWithin links) := by
  rw [dispatchWithin, expand]
  cases found : t.find? call.operator.keyword with
  | none => rfl
  | some entry =>
      by_cases few : call.operands.length < entry.minOperands
      · simp only [few, if_true]
        rfl
      cases kind : entry.handler with
      | action run =>
          simp only [few, if_false, kind]
          exact bind_pure_unit.symm
      | sequence steps =>
          cases given : steps call with
          | error e =>
              simp only [few, if_false, kind, given]
              rfl
          | ok calls =>
              simp only [few, if_false, kind, given]
              exact List.forM_map.symm

/-- Carrying out an operator has a property if what it begins with has it, and what the calls that
it stands for begin with, provided that actions have the property that are put together from such.
-/
theorem dispatchWithin_induction {t : ContentTable K σ} {rank : String → Nat}
    (ranked : t.Ranked rank) {P : Context K σ → Action K σ Unit → Prop}
    (nothing : ∀ c, P c (pure ()))
    (next : ∀ {c x y}, P c x → (∀ c, P c y) → P c (x >>= fun _ => y)) (among : Call K → Prop)
    (begins : ∀ call, among call →
      (∀ c, P c (t.expand call).1) ∧ ∀ step ∈ (t.expand call).2, among step)
    (links : Nat) (call : Call K) (enough : rank call.operator.keyword < links) (holds : among call)
    (c : Context K σ) : P c (t.dispatchWithin links call) := by
  have forM (f : Call K → Action K σ Unit) (calls : List (Call K))
      (each : ∀ call ∈ calls, ∀ c, P c (f call)) (c : Context K σ) : P c (ForM.forM calls f) := by
    induction calls generalizing c with
    | nil => exact nothing c
    | cons first rest ih =>
        rw [List.forM_cons]
        exact next (each first (by simp) c)
          (ih fun call mem => each call (List.mem_cons_of_mem _ mem))
  induction links generalizing call c with
  | zero => cases Nat.not_lt_zero _ enough
  | succ links ih =>
      obtain ⟨first, others⟩ := begins call holds
      rw [dispatchWithin_succ]
      refine next (first c) (forM _ _ fun step hstep => ih step ?_ (others step hstep))
      exact Nat.lt_of_lt_of_le (ranked call step hstep) (Nat.le_of_lt_succ enough)

/-- Carrying out an operator keeps to a manner if what it begins with does, and what the calls that
it stands for begin with. -/
theorem behaves_dispatchWithin {t : ContentTable K σ} {rank : String → Nat} (ranked : t.Ranked rank)
    {manner : Manner K σ} {env : Environment K σ} {P : Call K → Prop}
    (begins : ∀ call, P call →
      (∀ c, (t.expand call).1.Behaves manner env c fun _ _ => True) ∧
        ∀ step ∈ (t.expand call).2, P step)
    (links : Nat) (call : Call K) (enough : rank call.operator.keyword < links) (holds : P call)
    (c : Context K σ) :
    Action.Behaves manner env (t.dispatchWithin links call) c fun _ _ => True :=
  dispatchWithin_induction ranked (P := fun c x => x.Behaves manner env c fun _ _ => True)
    (fun _ => .pure trivial) .next _ begins links call enough holds c

end OperatorTable

/-- If an entry stands for other operators, their keywords have a property. -/
def TableEntry.StandsFor (e : TableEntry K (Action K σ)) (P : String → Prop) : Prop :=
  match e.handler with
  | .action _ => True
  | .sequence steps => ∀ call calls, steps call = .ok calls → ∀ step ∈ calls, P step.1

theorem TableEntry.StandsFor.mono {e : TableEntry K (Action K σ)} {P Q : String → Prop}
    (standsFor : e.StandsFor P) (weaker : ∀ keyword, P keyword → Q keyword) : e.StandsFor Q := by
  unfold StandsFor at *
  split at standsFor
  · trivial
  · intro call calls given step hstep
    exact weaker _ (standsFor call calls given step hstep)

/-- The calls that a call stands for are related to it as the entries of the table say. -/
theorem OperatorTable.standsFor_ofList {entries : List (TableEntry K (Action K σ))}
    {P : String → String → Prop} (links : ∀ e ∈ entries, e.StandsFor (P e.keyword))
    (call step : Call K)
    (among : step ∈ ((ofList entries).expand call).2) :
    P call.operator.keyword step.operator.keyword := by
  rcases expand_cases (ofList entries) call with ⟨e, _, same⟩ | ⟨entry, found, ⟨run, _, same⟩ |
    ⟨steps, kind, ⟨e, _, same⟩ | ⟨calls, given, same⟩⟩⟩ <;> rw [same] at among
  · simp at among
  · simp at among
  · simp at among
  · obtain ⟨mem, key⟩ := mem_of_find?_ofList found
    have link := links entry mem
    simp only [TableEntry.StandsFor, kind] at link
    obtain ⟨s, hs, rfl⟩ := List.mem_map.mp among
    exact key ▸ link call calls given s hs

/-- A table is ranked if the entries that it is made from are. -/
theorem OperatorTable.ranked_ofList {entries : List (TableEntry K (Action K σ))}
    {rank : String → Nat}
    (descends : ∀ e ∈ entries, e.StandsFor fun keyword => rank keyword < rank e.keyword) :
    (ofList entries).Ranked rank :=
  standsFor_ofList (P := fun keyword next => rank next < rank keyword) descends

namespace Operators

variable [Scalar K]

/-- The keywords of the operators that only paint. -/
def paintingKeywords : List String :=
  ["BI", "m", "l", "c", "v", "y", "h", "re", "S", "s", "f", "F", "f*", "B", "B*", "b", "b*", "n",
    "W", "W*", "sh", "CS", "cs", "SC", "SCN", "sc", "scn", "G", "g", "RG", "rg", "K", "k"]

theorem keywords_paintingEntries :
    (paintingEntries (K := K) (σ := σ)).map TableEntry.keyword = paintingKeywords := rfl

/-- The operators that both tables carry out. -/
def sharedKeywords : List String :=
  ["q", "Q", "cm", "gs", "w", "J", "j", "M", "d", "ri", "i", "BT", "ET", "Tc", "Tw", "Tz", "TL",
    "Tf", "Tr", "Ts", "Td", "TD", "Tm", "T*", "Tj", "TJ", "'", "\"", "d0", "d1", "BMC", "BDC", "EMC",
    "MP", "DP", "BX", "EX", "Do"]

theorem keywords_sharedEntries :
    (sharedEntries (K := K) (σ := σ)).map TableEntry.keyword = sharedKeywords := rfl

/-- No keyword is given twice. -/
theorem nodup_keywords :
    ((sharedEntries (K := K) (σ := σ) ++ paintingEntries).map TableEntry.keyword).Nodup := by
  rw [List.map_append, keywords_sharedEntries, keywords_paintingEntries]
  decide

/-- The table finds each of its operators. -/
theorem find?_graphicsTable_of_mem {e : TableEntry K (Action K σ)}
    (mem : e ∈ sharedEntries ++ paintingEntries) : graphicsTable.find? e.keyword = some e := by
  unfold graphicsTable
  exact OperatorTable.find?_ofList_of_mem nodup_keywords mem

theorem find?_graphicsTable (keyword : String) :
    (graphicsTable (K := K) (σ := σ)).find? keyword =
      ((OperatorTable.ofList paintingEntries).find? keyword).or
        ((OperatorTable.ofList sharedEntries).find? keyword) := by
  unfold graphicsTable
  exact OperatorTable.find?_ofList_append _ _ keyword

theorem find?_textTable (keyword : String) :
    (textTable (K := K) (σ := σ)).find? keyword =
      (((OperatorTable.ofList (paintingEntries (K := K) (σ := σ))).find? keyword).map
        fun e => ignored e.keyword 0).or ((OperatorTable.ofList sharedEntries).find? keyword) := by
  unfold textTable
  rw [OperatorTable.find?_ofList_append,
    OperatorTable.find?_ofList_map (f := fun e => ignored e.keyword 0) fun _ => rfl]

/-- Operators of the text that stand for others, each with those. -/
def textLinks : List (String × String) :=
  [("TD", "TL"), ("TD", "Td"), ("'", "T*"), ("'", "Tj"), ("\"", "Tw"), ("\"", "Tc"), ("\"", "'")]

/-- Painting operators that stand for others, each with those. -/
def paintLinks : List (String × String) :=
  [("s", "h"), ("s", "S"), ("b", "h"), ("b", "B"), ("b*", "h"), ("b*", "B*")]

section Actions

variable (keyword : String) (minOperands : Nat) (P : String → Prop)

omit [Scalar K] in
theorem standsFor_entry (run : Call K → Action K σ Unit) :
    (entry keyword minOperands run).StandsFor P :=
  trivial

omit [Scalar K] in
theorem standsFor_setter
    (change : Call K → Except OperatorError (GraphicsState K σ → GraphicsState K σ)) :
    (setter keyword minOperands change).StandsFor P :=
  trivial

theorem standsFor_textSetter (set : K → TextState K σ → TextState K σ) :
    (textSetter keyword set).StandsFor P := trivial

theorem standsFor_deviceSetter (target : PaintTarget) (space : ColorSpace) :
    (deviceSetter (K := K) (σ := σ) keyword target space).StandsFor P := trivial

omit [Scalar K] in
theorem standsFor_ignored : (ignored (K := K) (σ := σ) keyword minOperands).StandsFor P := trivial

end Actions

theorem standsFor_moveTextSetLeading :
    (compound (σ := σ) "TD" 2 (moveTextSetLeading (K := K))).StandsFor
      fun k => ("TD", k) ∈ textLinks := by
  intro call calls given step hstep
  obtain ⟨ty, _, made⟩ := exists_of_bind_ok given
  cases made
  simp only [List.mem_cons, List.not_mem_nil, or_false] at hstep
  rcases hstep with rfl | rfl <;> simp [textLinks]

omit [Scalar K] in
theorem standsFor_nextLineShowText :
    (compound (K := K) (σ := σ) "'" 1 nextLineShowText).StandsFor
      fun k => ("'", k) ∈ textLinks := by
  intro call calls given step hstep
  cases given
  simp only [List.mem_cons, List.not_mem_nil, or_false] at hstep
  rcases hstep with rfl | rfl <;> simp [textLinks]

omit [Scalar K] in
theorem standsFor_nextLineShowTextSpaced :
    (compound (K := K) (σ := σ) "\"" 3 nextLineShowTextSpaced).StandsFor
      fun k => ("\"", k) ∈ textLinks := by
  intro call calls given step hstep
  cases given
  simp only [List.mem_cons, List.not_mem_nil, or_false] at hstep
  rcases hstep with rfl | rfl | rfl <;> simp [textLinks]

theorem standsFor_sharedEntries :
    ∀ e ∈ sharedEntries (K := K) (σ := σ), e.StandsFor fun k => (e.keyword, k) ∈ textLinks := by
  have moveText := standsFor_moveTextSetLeading (K := K) (σ := σ)
  have showText := standsFor_nextLineShowText (K := K) (σ := σ)
  have showSpaced := standsFor_nextLineShowTextSpaced (K := K) (σ := σ)
  simp only [sharedEntries, stateEntries, textStateEntries, textShowingEntries, markedEntries,
    formEntries, List.forall_mem_append, List.forall_mem_cons]
  simp only [List.not_mem_nil, false_implies, implies_true, and_true, true_and, standsFor_entry,
    standsFor_setter, standsFor_textSetter, standsFor_ignored]
  exact ⟨moveText, showText, showSpaced⟩

omit [Scalar K] in
theorem standsFor_closeThen (keyword next : String) (closing : (keyword, "h") ∈ paintLinks)
    (painting : (keyword, next) ∈ paintLinks) :
    (closeThen (K := K) (σ := σ) keyword next).StandsFor fun k => (keyword, k) ∈ paintLinks := by
  intro call calls given step hstep
  cases given
  simp only [List.mem_cons, List.not_mem_nil, or_false] at hstep
  rcases hstep with rfl | rfl
  · exact closing
  · exact painting

theorem standsFor_paintingEntries :
    ∀ e ∈ paintingEntries (K := K) (σ := σ), e.StandsFor fun k => (e.keyword, k) ∈ paintLinks := by
  have stroke := standsFor_closeThen (K := K) (σ := σ) "s" "S" (by decide) (by decide)
  have both := standsFor_closeThen (K := K) (σ := σ) "b" "B" (by decide) (by decide)
  have evenOdd := standsFor_closeThen (K := K) (σ := σ) "b*" "B*" (by decide) (by decide)
  simp only [paintingEntries, inlineImageEntries, pathConstructionEntries, pathPaintingEntries,
    colorEntries, List.forall_mem_append, List.forall_mem_cons]
  simp only [List.not_mem_nil, false_implies, implies_true, and_true, true_and, standsFor_entry,
    standsFor_deviceSetter]
  exact ⟨stroke, both, evenOdd⟩

/-- How many links the chain of operators has that a built-in operator stands for. -/
def rank (keyword : String) : Nat :=
  if keyword = "\"" then 2
  else if keyword ∈ ["'", "TD", "s", "b", "b*"] then 1
  else 0

theorem rank_lt (keyword : String) : rank keyword < 3 := by
  rw [rank]
  split
  · omega
  · split <;> omega

omit [Scalar K] in
/-- A dispatch allows for as many links as there can be. -/
theorem rank_lt_links (call : Call K) :
    rank call.operator.keyword < 3 * (call.operands.length + 1) := by
  have := rank_lt call.operator.keyword
  omega

theorem rank_lt_of_mem_links {keyword next : String}
    (link : (keyword, next) ∈ textLinks ++ paintLinks) : rank next < rank keyword := by
  have all : ∀ link ∈ textLinks ++ paintLinks, rank link.2 < rank link.1 := by decide
  exact all _ link

theorem descends_sharedEntries :
    ∀ e ∈ sharedEntries (K := K) (σ := σ), e.StandsFor fun k => rank k < rank e.keyword :=
  fun e mem => (standsFor_sharedEntries e mem).mono fun _ link =>
    rank_lt_of_mem_links (List.mem_append_left _ link)

theorem ranked_graphicsTable : (graphicsTable (K := K) (σ := σ)).Ranked rank := by
  unfold graphicsTable
  refine OperatorTable.ranked_ofList (List.forall_mem_append.mpr ⟨descends_sharedEntries, ?_⟩)
  intro e mem
  exact (standsFor_paintingEntries e mem).mono fun _ link =>
    rank_lt_of_mem_links (List.mem_append_right _ link)

theorem ranked_textTable : (textTable (K := K) (σ := σ)).Ranked rank := by
  unfold textTable
  refine OperatorTable.ranked_ofList (List.forall_mem_append.mpr ⟨descends_sharedEntries, ?_⟩)
  intro e mem
  obtain ⟨_, _, rfl⟩ := List.mem_map.mp mem
  trivial

theorem find?_save : (graphicsTable (K := K) (σ := σ)).find? "q" = some (entry "q" 0 save) :=
  find?_graphicsTable_of_mem (e := entry "q" 0 save) (by simp [sharedEntries, stateEntries])

theorem find?_restore :
    (graphicsTable (K := K) (σ := σ)).find? "Q" = some (entry "Q" 0 restore) :=
  find?_graphicsTable_of_mem (e := entry "Q" 0 restore) (by simp [sharedEntries, stateEntries])

theorem dispatch_save {call : Call K} (keyword : call.operator.keyword = "q") :
    (graphicsTable (σ := σ)).dispatch call = save call :=
  OperatorTable.dispatch_of_action (keyword ▸ find?_save) (Nat.zero_le _)

theorem dispatch_restore {call : Call K} (keyword : call.operator.keyword = "Q") :
    (graphicsTable (σ := σ)).dispatch call = restore call :=
  OperatorTable.dispatch_of_action (keyword ▸ find?_restore) (Nat.zero_le _)

end Operators

end PdfContent
