import UnifiMcp.Server.JsonResult
import UnifiMcp.Tools.Workflow

/-!
# What is left of an oversized answer

An answer over the budget keeps as many items of its longest array as it can
(`shrinkLargestArray_spec`): the search by halves finds the longest prefix that fits, because
what fits with more items fits with fewer, and it ends without an operation that leaves the
machine word.  The other fields stay, but for the marker, the cursor and `partial`.
-/

namespace UnifiMcp

open Collections

/-- The array that is cut, with its key and the fields beside it; a bare array is put under
`data`. -/
def chosenArray : Json → Option (String × List Json × List (String × Json))
  | .arr items => some ("data", items, [])
  | .obj fields => (largestArray fields).map fun (key, items) => (key, items, without key fields)
  | _ => none

/-- The answer is an array or an object that holds one. -/
def HoldsArray : Json → Prop
  | .arr _ => True
  | .obj fields => ∃ key items, (key, .arr items) ∈ fields
  | _ => False

theorem exists_chosenArray {value : Json} (h : HoldsArray value) :
    ∃ key items rest, chosenArray value = some (key, items, rest) := by
  cases value with
  | arr items => exact ⟨_, _, _, rfl⟩
  | obj fields =>
      obtain ⟨key, items, hmem⟩ := h
      obtain ⟨⟨key', items'⟩, hlargest⟩ := largestArray_ne_none hmem
      exact ⟨key', items', _, congrArg (Option.map _) hlargest⟩
  | null | bool _ | num _ | str _ => exact h.elim

/-- What the shortening takes for granted of an answer: it is a map in the order of its keys,
without the fields the shortening writes itself and without an array under `partial`. -/
structure Shrinkable (value : Json) : Prop where
  ascending : ∀ fields, value = .obj fields → Ascending fields
  truncation : value.get? "truncation" = none
  next_offset : value.get? "next_offset" = none
  partiality : ∀ items, value.get? "partial" ≠ some (.arr items)

section Shrink

variable {number : Number → String} {budget : Nat} {value : Json} {key : String}
  {items : List Json} {rest : List (String × Json)}

/-- An answer that is too long and has an array is cut. -/
theorem shrinkLargestArray_of_chosen (hover : budget < renderedLen number value)
    (hchosen : chosenArray value = some (key, items, rest)) :
    shrinkLargestArray number budget value =
      cutTo key items rest (shownItems number budget key items rest) := by
  unfold shrinkLargestArray
  rw [if_neg (Nat.not_le.2 hover)]
  cases value with
  | arr items' =>
      cases hchosen
      rfl
  | obj fields =>
      obtain ⟨⟨key', items'⟩, hlargest, hfound⟩ := Option.map_eq_some_iff.1 hchosen
      cases hfound
      simp only [hlargest]
  | null | bool _ | num _ | str _ => cases hchosen

/-- The fields beside the array are those of the answer. -/
theorem findEntry_chosen (hchosen : chosenArray value = some (key, items, rest)) {k : String}
    (hk : k ≠ key) : findEntry k rest = value.get? k := by
  cases value with
  | arr items' =>
      cases hchosen
      rfl
  | obj fields =>
      obtain ⟨⟨key', items'⟩, -, hfound⟩ := Option.map_eq_some_iff.1 hchosen
      cases hfound
      exact findEntry_without hk
  | null | bool _ | num _ | str _ => cases hchosen

/-- The array is not under a key that the shortening writes to. -/
theorem Shrinkable.key_free (h : Shrinkable value)
    (hchosen : chosenArray value = some (key, items, rest)) :
    key ∉ ["next_offset", "partial", "truncation"] := by
  cases value with
  | arr items' =>
      cases hchosen
      exact (by decide : "data" ∉ ["next_offset", "partial", "truncation"])
  | obj fields =>
      obtain ⟨⟨key', items'⟩, hlargest, hfound⟩ := Option.map_eq_some_iff.1 hchosen
      cases hfound
      have hfind : findEntry key fields = some (.arr items) :=
        (h.ascending fields rfl).mem_iff.1 (largestArray_mem hlargest)
      intro hmem
      simp only [List.mem_cons, List.not_mem_nil, or_false] at hmem
      rcases hmem with rfl | rfl | rfl
      · exact absurd (hfind.symm.trans h.next_offset) (Option.some_ne_none _)
      · exact h.partiality items hfind
      · exact absurd (hfind.symm.trans h.truncation) (Option.some_ne_none _)
  | null | bool _ | num _ | str _ => cases hchosen

/-- Every field that was there but the array and `partial` is as it was. -/
theorem Shrinkable.get?_cutTo (h : Shrinkable value)
    (hchosen : chosenArray value = some (key, items, rest)) {k : String} {v : Json}
    (hv : value.get? k = some v) (hk : k ≠ key) (hmark : k ≠ "partial") (n : Nat) :
    (cutTo key items rest n).get? k = some v := by
  have hfree : k ∉ ["next_offset", "partial", "truncation"] := by
    intro hmem
    simp only [List.mem_cons, List.not_mem_nil, or_false] at hmem
    rcases hmem with rfl | rfl | rfl
    · exact absurd (hv.symm.trans h.next_offset) (Option.some_ne_none _)
    · exact hmark rfl
    · exact absurd (hv.symm.trans h.truncation) (Option.some_ne_none _)
  rw [UnifiMcp.get?_cutTo hfree, findEntry_insertEntry_of_ne hk, findEntry_chosen hchosen hk, hv]

/-- A prefix of so many items is the longest whose answer fits, or none does and it is empty. -/
def IsLongestFit (number : Number → String) (budget : Nat) (key : String) (items : List Json)
    (rest : List (String × Json)) (n : Nat) : Prop :=
  n ≤ items.length ∧
    (renderedLen number (cutTo key items rest n) ≤ budget ∨ n = 0) ∧
    ∀ m ≤ items.length, renderedLen number (cutTo key items rest m) ≤ budget → m ≤ n

theorem isLongestFit_shownItems (hnumber : Json.DecimalIntegers number) :
    IsLongestFit number budget key items rest (shownItems number budget key items rest) := by
  obtain ⟨-, hlength, -⟩ :=
    bisect_spec (cutFits number budget key items rest) (Nat.zero_le items.length)
  have hdown : ∀ m n, m ≤ n → cutFits number budget key items rest n = true →
      cutFits number budget key items rest m = true := cutFits_of_le hnumber
  obtain ⟨hfits, hgreatest⟩ := bisect_greatest hdown
  refine ⟨hlength, ?_, fun m hm hfit => hgreatest m hm (decide_eq_true hfit)⟩
  exact hfits.symm.imp_left of_decide_eq_true

/-- **What an answer over the budget keeps.**  It keeps the longest prefix of its longest array
that fits with all that is written around it, none if not one item fits; the fields it had
stay; the search for that prefix ends in any word that holds the length of the array; and what
is left fits if it fits with no item at all. -/
theorem shrinkLargestArray_spec (hnumber : Json.DecimalIntegers number) (hvalue : Shrinkable value)
    (hover : budget < renderedLen number value) (hholds : HoldsArray value) :
    ∃ key items rest n, chosenArray value = some (key, items, rest) ∧
      IsLongestFit number budget key items rest n ∧
      shrinkLargestArray number budget value = cutTo key items rest n ∧
      (cutTo key items rest n).get? key = some (.arr (items.take n)) ∧
      (∀ k v, value.get? k = some v → k ≠ key → k ≠ "partial" →
        (cutTo key items rest n).get? k = some v) ∧
      (∀ width, items.length < 2 ^ width →
        checkedBisect width (cutFits number budget key items rest) items.length 0 items.length =
          some n) ∧
      (renderedLen number (cutTo key items rest 0) ≤ budget →
        renderedLen number (shrinkLargestArray number budget value) ≤ budget) := by
  obtain ⟨key, items, rest, hchosen⟩ := exists_chosenArray hholds
  have hshrunk := shrinkLargestArray_of_chosen hover hchosen
  have hlongest : IsLongestFit number budget key items rest
      (shownItems number budget key items rest) := isLongestFit_shownItems hnumber
  refine ⟨key, items, rest, _, hchosen, hlongest, hshrunk, ?_, ?_, ?_, ?_⟩
  · rw [get?_cutTo (hvalue.key_free hchosen), findEntry_insertEntry_self]
  · exact fun k v hv hk hmark => hvalue.get?_cutTo hchosen hv hk hmark _
  · exact fun width hwidth =>
      checkedBisect_eq _ (Nat.zero_le _) hwidth (Nat.le_of_eq (Nat.sub_zero _))
  · intro hempty
    rw [hshrunk]
    rcases hlongest.2.1 with hfits | hzero
    · exact hfits
    · rwa [hzero]

end Shrink

/-- A list of four items, cut to fifty bytes. -/
theorem shrinkLargestArray_spec_four :
    ∃ key items rest n, chosenArray (.arr (List.replicate 4 (.str "a station"))) =
        some (key, items, rest) ∧
      IsLongestFit plainNumber 50 key items rest n ∧
      shrinkLargestArray plainNumber 50 (.arr (List.replicate 4 (.str "a station"))) =
        cutTo key items rest n := by
  have hvalue : Shrinkable (.arr (List.replicate 4 (.str "a station"))) :=
    ⟨nofun, rfl, rfl, nofun⟩
  have hover : 50 < renderedLen plainNumber (.arr (List.replicate 4 (.str "a station"))) := by
    decide
  obtain ⟨key, items, rest, n, hchosen, hlongest, hshrunk, -⟩ :=
    shrinkLargestArray_spec (fun _ => rfl) hvalue hover trivial
  exact ⟨key, items, rest, n, hchosen, hlongest, hshrunk⟩

end UnifiMcp
