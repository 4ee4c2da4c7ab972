import PdfContent.Proofs.TokenTurns

/-!
# Inline images are read back

The data of an image stands between `ID` and `EI` as it is, with one byte of white space at each end
that does not belong to it. Nothing in it is escaped. So an image is read back if the `EI` after its
data is the first one that ends it (`EndMark`), or if its first filter has an end mark of its own and
the data ends with that: then what stands before it does not matter.

The parameters may be spelled in any order and with any gaps; what needs no gap after it may also go
without one.
-/

namespace PdfContent.Content

open Text (encodeUtf8)

variable {K : Type} {s rest : Bytes}

/-! ### The parameters -/

variable [Scalar K]

def hexFilters : List String := ["AHx", "ASCIIHexDecode"]

def base85Filters : List String := ["A85", "ASCII85Decode"]

/-- The data of an image with these filters ends where it should when these bytes follow its `EI`.
Either no `EI` in the data ends an image, or the data ends with the only end mark of its first
filter. -/
inductive Delimited (filters : List String) (data rest : Bytes) : Prop
  | unmarked : (∀ filter ∈ filters.head?, filter ∉ hexFilters ++ base85Filters) →
      (∀ before after, data ++ 0x0A :: 0x45 :: 0x49 :: rest = before ++ 0x45 :: 0x49 :: after →
        before.length < data.length → ¬EndMark before after) →
      Delimited filters data rest
  | hex {filter : String} {digits : Bytes} : filters.head? = some filter → filter ∈ hexFilters →
      data = digits ++ [0x3E] → 0x3E ∉ digits → Delimited filters data rest
  | base85 {filter : String} {digits : Bytes} : filters.head? = some filter →
      filter ∈ base85Filters → data = digits ++ [0x7E, 0x3E] →
      (∀ before after, data = before ++ 0x7E :: 0x3E :: after → after = []) →
      Delimited filters data rest

omit [Scalar K] in
theorem asciiDataLength?_hex {filters : List String} {filter : String} {digits : Bytes}
    (first : filters.head? = some filter) (isHex : filter ∈ hexFilters) (never : 0x3E ∉ digits)
    (after : Bytes) :
    asciiDataLength? filters (digits ++ 0x3E :: after) = some (digits.length + 1) := by
  obtain ⟨filters, rfl⟩ := List.head?_eq_some_iff.mp first
  have name : (filter == "AHx" || filter == "ASCIIHexDecode") = true := by
    simpa [hexFilters] using isHex
  rw [asciiDataLength?, if_pos name, List.findIdx?_append]
  have nowhere : digits.findIdx? (fun b => b == 0x3E) = none := by
    rw [List.findIdx?_eq_none_iff]
    intro b among
    simpa using fun same : b = 0x3E => never (same ▸ among)
  rw [nowhere]
  simp [List.findIdx?_cons]

theorem tilde_append {digits : Bytes}
    (only : ∀ before after, digits ++ [0x7E, 0x3E] = before ++ 0x7E :: 0x3E :: after → after = [])
    (after : Bytes) :
    asciiDataLength?.tilde (digits ++ 0x7E :: 0x3E :: after) = some (digits.length + 2) := by
  induction digits with
  | nil => rfl
  | cons b digits ih =>
      have only' : ∀ before after,
          digits ++ [0x7E, 0x3E] = before ++ 0x7E :: 0x3E :: after → after = [] := by
        intro before after shape
        exact only (b :: before) after (congrArg (b :: ·) shape)
      have noMark : ∀ later, b = 0x7E → digits ++ 0x7E :: 0x3E :: after ≠ 0x3E :: later := by
        rintro later rfl shape
        cases digits with
        | nil => cases shape
        | cons c digits =>
            obtain rfl : c = 0x3E := (List.cons.inj shape).1
            have nothing := only [] (digits ++ [0x7E, 0x3E]) rfl
            simp at nothing
      rw [List.cons_append, asciiDataLength?.tilde, ih only']
      · rfl
      · exact noMark

theorem asciiDataLength?_base85 {filters : List String} {filter : String} {digits : Bytes}
    (first : filters.head? = some filter) (isBase85 : filter ∈ base85Filters)
    (only : ∀ before after, digits ++ [0x7E, 0x3E] = before ++ 0x7E :: 0x3E :: after → after = [])
    (after : Bytes) :
    asciiDataLength? filters (digits ++ 0x7E :: 0x3E :: after) = some (digits.length + 2) := by
  obtain ⟨filters, rfl⟩ := List.head?_eq_some_iff.mp first
  have name : (filter == "A85" || filter == "ASCII85Decode") = true := by
    simpa [base85Filters] using isBase85
  have other : ¬(filter == "AHx" || filter == "ASCIIHexDecode") = true := by
    rcases List.mem_pair.mp isBase85 with rfl | rfl <;> decide
  rw [asciiDataLength?, if_neg other, if_pos name, tilde_append only]

theorem asciiDataLength?_eq_none {filters : List String}
    (other : ∀ filter ∈ filters.head?, filter ∉ hexFilters ++ base85Filters) (data : Bytes) :
    asciiDataLength? filters data = none := by
  cases filters with
  | nil => rfl
  | cons filter filters =>
      have names := other filter rfl
      simp only [hexFilters, base85Filters, List.cons_append, List.nil_append, List.mem_cons,
        List.not_mem_nil, or_false, not_or] at names
      simp [asciiDataLength?, names]

/-- What is not searched is part of the data, and no image ends in the rest of the data. -/
theorem Delimited.searchFrom {filters : List String} {data rest : Bytes}
    (delimited : Delimited filters data rest) :
    ∃ n, (asciiDataLength? filters (data ++ 0x0A :: 0x45 :: 0x49 :: rest)).getD 0 = n ∧
      n ≤ data.length ∧ ∀ before after,
        data.drop n ++ 0x0A :: 0x45 :: 0x49 :: rest = before ++ 0x45 :: 0x49 :: after →
        before.length < (data.drop n).length → ¬EndMark before after := by
  cases delimited with
  | unmarked other never =>
      refine ⟨0, by rw [asciiDataLength?_eq_none other]; rfl, Nat.zero_le _, ?_⟩
      exact never
  | @hex filter digits first isHex shape never =>
      subst shape
      refine ⟨digits.length + 1, ?_, by simp, by simp⟩
      rw [List.append_assoc, List.singleton_append, asciiDataLength?_hex first isHex never]
      rfl
  | @base85 filter digits first isBase85 shape only =>
      subst shape
      refine ⟨digits.length + 2, ?_, by simp, by simp⟩
      rw [List.append_assoc, List.cons_append, List.singleton_append,
        asciiDataLength?_base85 first isBase85 only]
      rfl

end PdfContent.Content
