import PdfContent.Document.ObjectTable
import PdfContent.Document.Page
import PdfContent.Proofs.Unclosed

/-!
# Content that is joined line by line

The streams of a page are joined with a line end between them. This does not change their tokens, as
long as what stands before the line end is complete: it is read to its end, and it has neither an
inline image, whose end depends on what follows, nor a hexadecimal string that only the end of the
content closes.

Positions are kept as the number of bytes that are left, so joining changes those of the first part,
and none of the second part. Seen from the start (`TokenStream.placed`) it is the other way round.
-/

namespace PdfContent

/-- The error for content with so many more bytes in front. -/
def ContentError.shift (n : Nat) : ContentError → ContentError
  | .invalidOperator keyword => .invalidOperator keyword
  | .unterminatedInlineImage offset => .unterminatedInlineImage (offset + n)
  | .malformed offset text => .malformed (offset + n) text

namespace Content

variable {K : Type} {s t rest : Bytes}

/-! ### What is read with a further line -/

/-- What stands at a place between tokens, with more bytes after it. -/
def Place.append (t : Bytes) : Place → Place
  | .nothing => .nothing
  | .stray rest => .stray (rest ++ t)
  | .keyword text rest => .keyword text (rest ++ t)
  | .image startLeft rest => .image (startLeft + t.length) (rest ++ t)
  | .value s => .value (s ++ t)

theorem Place.of_append {place : Place} (found : Place.of s = place) (something : place ≠ .nothing)
    (fresh : Fresh t) : Place.of (s ++ t) = place.append t := by
  subst found
  unfold of at something ⊢
  cases found : skipBlank s with
  | nil => simp [found] at something
  | cons b rest =>
      rw [skipBlank_append_of_found found fresh]
      dsimp only
      rw [word_append_fresh fresh, afterWord_append_fresh fresh]
      split
      · rfl
      split
      · split
        · rw [Place.append, List.length_append, Nat.add_right_comm]
        · rfl
      · rfl

theorem skipBlank_of_place (place : Place.of s = .nothing) : skipBlank s = [] := by
  unfold Place.of at place
  split at place
  next found => exact found
  next =>
    split at place
    · cases place
    split at place
    · split at place <;> cases place
    · cases place

variable [Scalar K]

namespace TokenStream

/-- No token carries an image. -/
def Imageless (t : TokenStream K) : Prop :=
  ∀ op, .operator op ∈ t.values → op.occurrence = none

theorem Imageless.later {token? : Option (Token K)} (imageless : (resume token? rest).Imageless) :
    (ofBytes (K := K) rest).Imageless := by
  intro op among
  apply imageless op
  rw [values, resume, List.map_append]
  exact List.mem_append_right _ among

/-- The tokens of the first content before those of the second one, which follows it. -/
def followed (first : TokenStream K) (t : Bytes) : TokenStream K :=
  ⟨first.tokens.map (fun read => (read.1, read.2 + t.length)) ++ (ofBytes t).tokens,
    (ofBytes (K := K) t).fault⟩

theorem followed_resume {token? : Option (Token K)}
    (later : ofBytes (K := K) (rest ++ t) = (ofBytes rest).followed t) :
    (resume token? rest).followed t = resume token? (rest ++ t) := by
  rw [resume, resume, later, followed, followed]
  cases token? <;> simp

end TokenStream

/-- Content that closes all that it opens and has no image is read in the same way with a further
line after it. The induction goes along the places between the tokens of the first part. -/
theorem Unclosed.ofBytes_append {left : List Opening} (unclosed : Unclosed K s left)
    (closed : left = []) (fresh : Fresh t)
    (imageless : (TokenStream.ofBytes (K := K) s).Imageless) :
    TokenStream.ofBytes (s ++ t) = (TokenStream.ofBytes (K := K) s).followed t := by
  induction unclosed with
  | nothing place =>
      have skipped := skipBlank_append_of_nothing (skipBlank_of_place place) fresh
      rw [TokenStream.ofBytes_of_next_eq (next_congr skipped), TokenStream.ofBytes_nothing place]
      rfl
  | stray place _ ih =>
      have place' := Place.of_append place (by simp) fresh
      rw [TokenStream.ofBytes_stray place] at imageless ⊢
      have later := ih closed imageless.later
      rw [TokenStream.ofBytes_stray place', TokenStream.followed_resume later]
  | keyword place _ ih =>
      have place' := Place.of_append place (by simp) fresh
      rw [TokenStream.ofBytes_keyword place] at imageless ⊢
      have later := ih closed imageless.later
      rw [TokenStream.ofBytes_keyword place', TokenStream.followed_resume later]
  | value place whole _ ih =>
      have place' := Place.of_append place (by simp) fresh
      rw [TokenStream.ofBytes_value place whole.read_value] at imageless ⊢
      have later := ih closed imageless.later
      rw [TokenStream.ofBytes_value place' (whole.read t fresh), TokenStream.followed_resume later]
  | insideValue place broken => exact absurd closed broken.ne_nil
  | @image startLeft _ _ _ _ _ _ _ place whole mark _ ih =>
      have read := inlineImage_of_mark (whole.read_loop startLeft) mark
      rw [TokenStream.ofBytes_image place read] at imageless
      cases imageless _ (List.mem_cons_self ..)
  | insideParameters => simp at closed
  | insideData => cases closed

/-- Content that is read to its end, has no image and closes its hexadecimal strings. -/
structure Complete (K : Type) [Scalar K] (s : Bytes) : Prop where
  read : (TokenStream.ofBytes (K := K) s).fault = none
  imageless : (TokenStream.ofBytes (K := K) s).Imageless
  closed : ∀ left, Unclosed K s left → ∀ o ∈ left, o.enclosure ≠ .hexString

theorem Complete.unclosed (complete : Complete K s) : Unclosed K s [] := by
  obtain ⟨left, unclosed⟩ := exists_unclosed (K := K) s
  have untold := error?_of_unclosed unclosed 0
  rw [TokenStream.error?, complete.read] at untold
  have hexStrings := (findSome?_error?_eq_none 0).mp untold.symm
  have closed := complete.closed left unclosed
  obtain rfl : left = [] := by
    apply List.eq_nil_iff_forall_not_mem.mpr
    intro o among
    exact closed o among (hexStrings o among)
  exact unclosed

theorem ofBytes_line (s : Bytes) : TokenStream.ofBytes (K := K) (0x0A :: s) = .ofBytes s :=
  TokenStream.ofBytes_of_next_eq (next_congr (skipBlank_of_isBlank rfl s))

/-- A further line is read as by itself. -/
theorem Complete.ofBytes_line {a : Bytes} (complete : Complete K a) (b : Bytes) :
    TokenStream.ofBytes (a ++ 0x0A :: b) =
      ⟨(TokenStream.ofBytes (K := K) a).tokens.map (fun read => (read.1, read.2 + (b.length + 1)))
        ++ (TokenStream.ofBytes b).tokens, (TokenStream.ofBytes (K := K) b).fault⟩ := by
  rw [complete.unclosed.ofBytes_append rfl (fresh_line b) complete.imageless,
    TokenStream.followed, Content.ofBytes_line]
  rfl

/-! ### Positions -/

theorem Opening.error?_add {o : Opening} {size : Nat} (within : o.startLeft ≤ size) (n : Nat) :
    o.error? (size + n) = (o.error? size).map (ContentError.shift n) := by
  obtain ⟨enclosure, startLeft⟩ := o
  have offset : size + n - startLeft = size - startLeft + n := Nat.sub_add_comm within
  cases enclosure <;> simp [error?, Enclosure.construct?, Fault.error, ContentError.shift, offset]

theorem findSome?_error?_add {left : List Opening} {size : Nat}
    (within : ∀ o ∈ left, o.startLeft ≤ size) (n : Nat) :
    left.findSome? (Opening.error? (size + n)) =
      (left.findSome? (Opening.error? size)).map (ContentError.shift n) := by
  induction left with
  | nil => rfl
  | cons o left ih =>
      rw [List.forall_mem_cons] at within
      rw [List.findSome?_cons, List.findSome?_cons, Opening.error?_add within.1, ih within.2]
      cases o.error? size <;> rfl

namespace TokenStream

/-- With more bytes in front the error is shifted. -/
theorem error?_add (s : Bytes) (n : Nat) :
    (ofBytes (K := K) s).error? (s.length + n) =
      ((ofBytes (K := K) s).error? s.length).map (ContentError.shift n) := by
  obtain ⟨left, unclosed⟩ := exists_unclosed (K := K) s
  rw [error?_of_unclosed unclosed, error?_of_unclosed unclosed,
    findSome?_error?_add unclosed.startLeft_le]

/-- What is left after an item is no more than there is. -/
theorem left_le_of_items (s : Bytes) (size : Nat) :
    ∀ item ∈ (ofBytes (K := K) s).items size, item.2 ≤ s.length := by
  induction length : s.length using Nat.strongRecOn generalizing s with
  | ind n ih =>
  subst length
  have stops := next_stops (K := K) s
  cases read : Content.next (K := K) s with
  | error fault =>
      rw [read] at stops
      rw [ofBytes_of_fault read]
      intro item among
      rw [List.mem_singleton.mp among]
      exact stops
  | ok result =>
      cases result with
      | none =>
          rw [ofBytes_of_nothing read]
          simp [items]
      | some next =>
          obtain ⟨token, after⟩ := next
          rw [read] at stops
          have ahead : Ahead s after := stops
          rw [items_of_token read, List.forall_mem_cons]
          refine ⟨ahead.suffix.length_le, ?_⟩
          intro item among
          exact (ih _ ahead.shorter after rfl item among).trans ahead.suffix.length_le

/-- What reading gives, each item with the position after it. -/
def placed (t : TokenStream K) (size : Nat) : List (Except ContentError (Token K) × Nat) :=
  (t.items size).map fun item => (item.1, size - item.2)

/-- An item in content with so many more bytes in front. -/
def shift (n : Nat) (item : Except ContentError (Token K) × Nat) :
    Except ContentError (Token K) × Nat :=
  (item.1.mapError (ContentError.shift n), item.2 + n)

/-- With so many bytes more in front, the items of content are shifted. -/
theorem placed_add (s : Bytes) (n : Nat) :
    (ofBytes (K := K) s).placed (s.length + n) =
      ((ofBytes (K := K) s).placed s.length).map (shift n) := by
  have items_add : (ofBytes (K := K) s).items (s.length + n) =
      ((ofBytes s).items s.length).map fun item =>
        (item.1.mapError (ContentError.shift n), item.2) := by
    have error := error?_add (K := K) s n
    rw [error?, error?] at error
    rw [items, items]
    cases fault : (ofBytes (K := K) s).fault with
    | none => simp [Except.mapError]
    | some f =>
        rw [fault] at error
        simp only [Option.map_some, Option.some.injEq] at error
        simp [Except.mapError, error]
  rw [placed, placed, items_add, List.map_map, List.map_map]
  apply List.map_congr_left
  intro item among
  have le := left_le_of_items s s.length item among
  simp only [Function.comp_apply, shift, Prod.mk.injEq, true_and]
  omega

end TokenStream

/-- Joined content gives what its parts give, the second part behind the first one and the line
end. -/
theorem Complete.placed_line {a : Bytes} (complete : Complete K a) (b : Bytes) :
    (TokenStream.ofBytes (K := K) (a ++ 0x0A :: b)).placed (a ++ 0x0A :: b).length =
      (TokenStream.ofBytes a).placed a.length ++
        ((TokenStream.ofBytes b).placed b.length).map (TokenStream.shift (a.length + 1)) := by
  have size : (a ++ 0x0A :: b).length = b.length + (a.length + 1) := by
    simp
    omega
  rw [← TokenStream.placed_add, size, complete.ofBytes_line]
  simp only [TokenStream.placed, TokenStream.items, complete.read, List.map_append, List.map_map,
    List.append_assoc, Option.toList_none, List.map_nil, List.append_nil]
  congr 1
  apply List.map_congr_left
  intro read among
  simp only [Function.comp_apply, Prod.mk.injEq, true_and]
  omega

end Content

/-! ### Pages -/

namespace Page

open Content

variable {K : Type}

/-- The parts are streams with these contents. -/
def Streams (d : Document K) (parts : List (Object K)) (contents : List Bytes) : Prop :=
  List.Forall₂ (fun part content =>
    ∃ stream, (d.resolve part).stream? = some stream ∧ d.content stream = .ok content) parts contents

theorem joinContents_cons {d : Document K} {part : Object K} {stream : ObjectStream K}
    {content : Bytes} (isStream : (d.resolve part).stream? = some stream)
    (read : d.content stream = .ok content) (done : Bytes) (rest : List (Object K)) :
    joinContents d done (part :: rest) =
      joinContents d ((if done.isEmpty then [] else done ++ [0x0A]) ++ content) rest := by
  rw [joinContents, isStream]
  simp only [read]
  rfl

/-- Behind some content, each further content stands on a new line. -/
theorem joinContents_of_ne_nil {d : Document K} {parts : List (Object K)} {contents : List Bytes}
    (streams : Streams d parts contents) {done : Bytes} (something : done ≠ []) :
    joinContents d done parts = .ok (done ++ contents.flatMap fun content => 0x0A :: content) := by
  induction streams generalizing done with
  | nil => simp [joinContents]
  | @cons part content parts contents stream _ ih =>
      obtain ⟨stream, isStream, read⟩ := stream
      rw [joinContents_cons isStream read, ih (by simp [something])]
      simp [something]

variable [Scalar K]

/-- The content gives the tokens of the parts one after another, and ends as the last one does. -/
structure GivesTokensOf (K : Type) [Scalar K] (contents : List Bytes) (joined : Bytes) : Prop where
  values : (TokenStream.ofBytes joined).values =
    contents.flatMap fun content => (TokenStream.ofBytes (K := K) content).values
  fault : (TokenStream.ofBytes (K := K) joined).fault =
    contents.getLast?.bind fun content => (TokenStream.ofBytes (K := K) content).fault

/-- Only the last part may end in whatever way. -/
theorem givesTokensOf_lines (first : Bytes) (later : List Bytes)
    (complete : ∀ content ∈ (first :: later).dropLast, Complete K content) :
    GivesTokensOf K (first :: later) (first ++ later.flatMap fun content => 0x0A :: content) := by
  induction later generalizing first with
  | nil => constructor <;> simp
  | cons second later ih =>
      rw [List.dropLast_cons_cons, List.forall_mem_cons] at complete
      obtain ⟨values, fault⟩ := ih second complete.2
      rw [List.flatMap_cons, List.cons_append]
      constructor
      · rw [complete.1.ofBytes_line, TokenStream.values, List.map_append, List.map_map,
          List.flatMap_cons, ← values]
        rfl
      · rw [complete.1.ofBytes_line, List.getLast?_cons_cons]
        exact fault

/-- Contents that are empty leave nothing behind, also no line end. -/
theorem joinContents_givesTokensOf {d : Document K} {parts : List (Object K)}
    {contents : List Bytes} (streams : Streams d parts contents)
    (complete : ∀ content ∈ contents.dropLast, Complete K content) :
    ∃ joined, joinContents d [] parts = .ok joined ∧ GivesTokensOf K contents joined := by
  have empty : TokenStream.ofBytes (K := K) [] = ⟨[], none⟩ :=
    TokenStream.ofBytes_of_nothing (next_of_nothing skipBlank.eq_1)
  induction streams with
  | nil =>
      refine ⟨[], rfl, ?_⟩
      constructor <;> rw [empty] <;> rfl
  | @cons part content parts contents stream streams ih =>
      obtain ⟨stream, isStream, read⟩ := stream
      rw [joinContents_cons isStream read]
      cases content with
      | cons b content =>
          refine ⟨_, joinContents_of_ne_nil streams (by simp), ?_⟩
          exact givesTokensOf_lines (b :: content) contents complete
      | nil =>
          obtain ⟨joined, joins, values, fault⟩ :=
            ih fun content among => complete content (by cases contents <;> simp_all)
          refine ⟨joined, joins, ?_, ?_⟩
          · rw [values, List.flatMap_cons, empty]
            rfl
          · rw [fault]
            cases contents with
            | nil => simp [empty]
            | cons second later => rw [List.getLast?_cons_cons]

/-- The page has an array of streams with these contents. -/
def Lists (p : Page K) (contents : List Bytes) : Prop :=
  ∃ entries o parts, p.entries = .ok entries ∧ entries.at? "Contents" = some o ∧
    p.document.resolve o = .array parts ∧ Streams p.document parts contents

theorem Lists.content {p : Page K} {contents : List Bytes} (lists : p.Lists contents)
    (complete : ∀ content ∈ contents.dropLast, Complete K content) :
    ∃ joined, p.content = .ok joined ∧ GivesTokensOf K contents joined := by
  obtain ⟨entries, o, parts, read, found, isArray, streams⟩ := lists
  obtain ⟨joined, joins, gives⟩ := joinContents_givesTokensOf streams complete
  refine ⟨joined, ?_, gives⟩
  simp only [Page.content, read, bind, Except.bind, found, isArray]
  exact joins

/-- Joining contents with a line end does not change their tokens: after complete content, what
follows gives its own items, shifted by what stands before them, and so the content of a page gives
the tokens of its streams. -/
theorem tokens_of_joined :
    (∀ a b, Complete K a →
      (TokenStream.ofBytes (K := K) (a ++ 0x0A :: b)).placed (a ++ 0x0A :: b).length =
        (TokenStream.ofBytes a).placed a.length ++
          ((TokenStream.ofBytes b).placed b.length).map (TokenStream.shift (a.length + 1))) ∧
      ∀ (p : Page K) contents, p.Lists contents →
        (∀ content ∈ contents.dropLast, Complete K content) →
        ∃ joined, p.content = .ok joined ∧ GivesTokensOf K contents joined := by
  constructor
  · intro a b complete
    exact complete.placed_line b
  · intro p contents lists complete
    exact lists.content complete

/-- The page of a document that has nothing but these contents. -/
def ofContents (K : Type) [Scalar K] (contents : List Bytes) : Page K where
  document :=
    let contents : Object K := .array (contents.map (.stream []))
    ObjectTable.document ⟨[(⟨1, 0⟩, .dictionary [(Text.encodeUtf8 "Contents", contents)])], []⟩ ""
  id := ⟨1, 0⟩
  index := 0

theorem lists_ofContents (contents : List Bytes) : (ofContents K contents).Lists contents := by
  refine ⟨_, .array (contents.map (.stream [])), contents.map (.stream []), rfl, ?_, rfl, ?_⟩
  · simp [ObjectEntries.at?, ObjectEntries.get?]
  apply List.forall₂_map_left_iff.mpr
  apply List.forall₂_same.mpr
  intro content _
  exact ⟨⟨[], content⟩, rfl, rfl⟩

/-- The comment in `q %` ends with its line, and the array in `[` does not end. -/
theorem tokens_of_joined_comment :
    Complete Int [0x71, 0x20, 0x25] ∧
      (TokenStream.ofBytes (K := Int) [0x71, 0x20, 0x25, 0x0A, 0x5B]).placed 5 =
        [(.ok (.operator (.plain "q")), 1), (.error (.malformed 4 "unterminated array"), 5)] ∧
      ∃ joined, (ofContents Int [[0x71, 0x20, 0x25], [0x5B]]).content = .ok joined ∧
        (TokenStream.ofBytes (K := Int) joined).values = [.operator (.plain "q")] := by
  have place : Place.of [0x71, 0x20, 0x25] = .keyword [0x71] [0x20, 0x25] := by
    rw [Place.of, skipBlank_cons rfl (by decide)]
    rfl
  have nothing : Place.of [0x20, 0x25] = .nothing := by
    simp [Place.of, skipBlank, isBlank, afterComment]
  have array : Place.of [0x5B] = .value [0x5B] := by
    rw [Place.of, skipBlank_cons rfl (by decide)]
    rfl
  have failed : operand (K := Int) [] [0x5B] = .error ⟨.array, 1, 0⟩ := by
    rw [loopsAdvance.openArray, operand_of_nothing skipBlank.eq_1]
    rfl
  have first : TokenStream.ofBytes (K := Int) [0x71, 0x20, 0x25] =
      ⟨[(.operator (.plain "q"), 2)], none⟩ := by
    rw [TokenStream.ofBytes_keyword place, TokenStream.resume, TokenStream.ofBytes_nothing nothing]
    rfl
  have second : TokenStream.ofBytes (K := Int) [0x5B] = ⟨[], some ⟨.array, 1, 0⟩⟩ :=
    TokenStream.ofBytes_value_fault array failed
  have unclosed : Content.Unclosed Int [0x71, 0x20, 0x25] [] := .keyword place (.nothing nothing)
  have complete : Complete Int [0x71, 0x20, 0x25] := by
    refine ⟨by rw [first], ?_, ?_⟩
    · rw [first]
      intro op among
      cases List.mem_singleton.mp among
      rfl
    · intro left unclosed'
      rw [unclosed.unique unclosed']
      simp
  refine ⟨complete, ?_, ?_⟩
  · refine (tokens_of_joined.1 _ [0x5B] complete).trans ?_
    rw [first, second]
    rfl
  · have lists := lists_ofContents (K := Int) [[0x71, 0x20, 0x25], [0x5B]]
    obtain ⟨joined, read, values, -⟩ := tokens_of_joined.2 _ _ lists (by simpa using complete)
    refine ⟨joined, read, values.trans ?_⟩
    simp only [List.flatMap_cons, List.flatMap_nil, first, second]
    rfl

end Page

end PdfContent
