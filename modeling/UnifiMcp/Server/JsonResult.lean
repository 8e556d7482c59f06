import UnifiMcp.Collections.Bisect
import UnifiMcp.Json.Size
import UnifiMcp.Tools.Pagination

/-!
# Shortening an oversized answer

An answer that would render to more than the budget loses items of its longest array, until
it fits; a marker says how many are left, and an answer with an offset gets the offset to go
on at.  Which array is the longest is decided without regard to which one is paged.

`cutFits_of_le` says that an answer cut to fewer items fits if it fits with more, and
`get?_cutTo` and `next_offset_cutTo` what an answer that was cut holds.
-/

namespace UnifiMcp

open Collections

/-- The most bytes of JSON a result may have. -/
def maxJsonBytes : Nat := 512 * 1024

/-- Headroom left for the envelope. -/
def truncationMarginBytes : Nat := 8 * 1024

/-- What a shortened answer may render to. -/
def resultBudget : Nat := maxJsonBytes - truncationMarginBytes

/-- The rendered size of a value. -/
def renderedLen (number : Number → String) (v : Json) : Nat := v.prettySize number 0

/-- The longest array among the fields of an object, the last one if there are several. -/
def largestArray : List (String × Json) → Option (String × List Json)
  | [] => none
  | (key, .arr items) :: rest =>
      match largestArray rest with
      | some (key', items') =>
          if items.length ≤ items'.length then some (key', items') else some (key, items)
      | none => some (key, items)
  | _ :: rest => largestArray rest

/-- Where the next call starts: the offset and what was shown, as `u64::saturating_add` adds. -/
def cursorAfter (offset : UInt64) (n : Nat) : UInt64 :=
  UInt64.ofNat (min (offset.toNat + n) (2 ^ 64 - 1))

/-- The answer with an array cut to `n` items, and the marker that says so. -/
def cutTo (key : String) (items : List Json) (rest : List (String × Json)) (n : Nat) : Json :=
  let shortened := insertEntry key (.arr (items.take n)) rest
  let flagged :=
    if (findEntry "partial" shortened).isSome then insertEntry "partial" (.bool true) shortened
    else shortened
  let cursored :=
    match (findEntry "offset" rest).bind Json.asU64? with
    | some offset => insertEntry "next_offset" (.num (.posInt (cursorAfter offset n))) flagged
    | none => flagged
  .obj (insertEntry "truncation"
    (.obj [("field", .str key), ("of", .ofUsize items.length), ("shown", .ofUsize n)]) cursored)

section Shrink

variable (number : Number → String) (budget : Nat)

/-- Whether an answer cut to `n` items fits. -/
def cutFits (key : String) (items : List Json) (rest : List (String × Json)) (n : Nat) : Bool :=
  renderedLen number (cutTo key items rest n) ≤ budget

/-- The most items an array can keep, by binary search. -/
def shownItems (key : String) (items : List Json) (rest : List (String × Json)) : Nat :=
  bisect (cutFits number budget key items rest) 0 items.length

/-- The fields other than this one. -/
def without (key : String) (fields : List (String × Json)) : List (String × Json) :=
  fields.filter fun e => e.1 ≠ key

/-- Shorten the longest array of a value until it fits. -/
def shrinkLargestArray (value : Json) : Json :=
  if renderedLen number value ≤ budget then value
  else
    match value with
    | .arr items => cutTo "data" items [] (shownItems number budget "data" items [])
    | .obj fields =>
        match largestArray fields with
        | some (key, items) =>
            cutTo key items (without key fields)
              (shownItems number budget key items (without key fields))
        | none => .obj fields
    | other => other

/-- Render a tool result.  `refuses` is `tool_result`'s own check of what it is given; what is
accepted is the JSON of the answer. -/
def jsonToolResult (refuses : Json → Bool) (value : Json) : Option Json :=
  let shrunk := shrinkLargestArray number resultBudget value
  if refuses shrunk then none else some shrunk

end Shrink

/-! ## What fits -/

section Fits

variable {number : Number → String} {budget : Nat} {key : String} {items : List Json}
  {rest : List (String × Json)}

theorem prettySize_ofUsize_le (hnumber : Json.DecimalIntegers number) {depth m n : Nat}
    (h : m ≤ n) :
    (Json.ofUsize m).prettySize number depth ≤ (Json.ofUsize n).prettySize number depth := by
  refine Json.prettySize_posInt_le hnumber (UInt64.le_iff_toNat_le.2 ?_)
  rw [UInt64.toNat_ofNat', UInt64.toNat_ofNat', Nat.mod_eq_of_lt (by omega),
    Nat.mod_eq_of_lt (by omega)]
  omega

theorem cursorAfter_le {offset : UInt64} {m n : Nat} (h : m ≤ n) :
    cursorAfter offset m ≤ cursorAfter offset n := by
  refine UInt64.le_iff_toNat_le.2 ?_
  unfold cursorAfter
  rw [UInt64.toNat_ofNat', UInt64.toNat_ofNat', Nat.mod_eq_of_lt (by omega),
    Nat.mod_eq_of_lt (by omega)]
  omega

/-- An answer cut to fewer items is no longer. -/
theorem renderedLen_cutTo_le (hnumber : Json.DecimalIntegers number) {m n : Nat} (h : m ≤ n) :
    renderedLen number (cutTo key items rest m) ≤ renderedLen number (cutTo key items rest n) := by
  refine Json.prettySize_obj_le (EntriesRel.insertEntry ?rest _ ?marker)
  case marker =>
    refine Json.prettySize_obj_le (.cons ⟨rfl, le_rfl⟩ (.cons ⟨rfl, le_rfl⟩ (.cons ⟨rfl, ?_⟩ .nil)))
    exact prettySize_ofUsize_le hnumber h
  case rest =>
    have hrest :
        EntriesRel (fun v v' => v.prettySize number 1 ≤ v'.prettySize number 1) rest rest :=
      List.forall₂_same.2 fun _ _ => ⟨rfl, le_rfl⟩
    have hshort := hrest.insertEntry key (Json.prettySize_take_le items h)
    have hflagged : EntriesRel (fun v v' => v.prettySize number 1 ≤ v'.prettySize number 1)
        (if (findEntry "partial" (insertEntry key (.arr (items.take m)) rest)).isSome then
          insertEntry "partial" (.bool true) (insertEntry key (.arr (items.take m)) rest)
          else insertEntry key (.arr (items.take m)) rest)
        (if (findEntry "partial" (insertEntry key (.arr (items.take n)) rest)).isSome then
          insertEntry "partial" (.bool true) (insertEntry key (.arr (items.take n)) rest)
          else insertEntry key (.arr (items.take n)) rest) := by
      rw [hshort.findEntry "partial"]
      split_ifs
      · exact hshort.insertEntry _ le_rfl
      · exact hshort
    cases (findEntry "offset" rest).bind Json.asU64? with
    | none => exact hflagged
    | some offset =>
        exact hflagged.insertEntry _ (Json.prettySize_posInt_le hnumber (cursorAfter_le h))

theorem cutFits_of_le (hnumber : Json.DecimalIntegers number) (m n : Nat) (h : m ≤ n)
    (hfits : cutFits number budget key items rest n = true) :
    cutFits number budget key items rest m = true := by
  unfold cutFits at hfits ⊢
  rw [decide_eq_true_eq] at hfits ⊢
  exact le_trans (renderedLen_cutTo_le hnumber h) hfits

end Fits

/-! ## The longest array -/

theorem largestArray_mem {fields : List (String × Json)} {key : String} {items : List Json}
    (h : largestArray fields = some (key, items)) : (key, .arr items) ∈ fields := by
  induction fields with
  | nil => cases h
  | cons e rest ih =>
      obtain ⟨k, v⟩ := e
      cases v with
      | null | bool b | num n | str s | obj fields => exact List.mem_cons_of_mem _ (ih h)
      | arr items' =>
          rw [largestArray] at h
          cases hrest : largestArray rest with
          | none =>
              rw [hrest] at h
              cases h
              exact List.mem_cons_self
          | some found =>
              obtain ⟨key'', items''⟩ := found
              rw [hrest] at h
              dsimp only at h
              split_ifs at h
              · exact List.mem_cons_of_mem _ (ih (hrest.trans h))
              · cases h
                exact List.mem_cons_self

/-- An object with an array has a longest one. -/
theorem largestArray_ne_none {fields : List (String × Json)} {key : String} {items : List Json}
    (h : (key, .arr items) ∈ fields) : ∃ found, largestArray fields = some found := by
  induction fields with
  | nil => cases h
  | cons e rest ih =>
      obtain ⟨k, v⟩ := e
      cases v with
      | arr items' =>
          rw [largestArray]
          cases hrest : largestArray rest with
          | none => exact ⟨_, rfl⟩
          | some found =>
              dsimp only
              split_ifs
              · exact ⟨_, rfl⟩
              · exact ⟨_, rfl⟩
      | null | bool b | num n | str s | obj fields =>
          rcases List.mem_cons.1 h with h | h
          · cases h
          · exact ih h

/-- No array is longer. -/
theorem length_le_of_largestArray {fields : List (String × Json)} {key key' : String}
    {items items' : List Json} (h : largestArray fields = some (key, items))
    (hmem : (key', .arr items') ∈ fields) : items'.length ≤ items.length := by
  induction fields generalizing key items with
  | nil => cases hmem
  | cons e rest ih =>
      obtain ⟨k, v⟩ := e
      cases v with
      | null | bool b | num n | str s | obj fields =>
          rcases List.mem_cons.1 hmem with hmem | hmem
          · cases hmem
          · exact ih h hmem
      | arr items'' =>
          rw [largestArray] at h
          cases hrest : largestArray rest with
          | none =>
              rw [hrest] at h
              cases h
              rcases List.mem_cons.1 hmem with hmem | hmem
              · cases hmem
                exact le_rfl
              · obtain ⟨found, hfound⟩ := largestArray_ne_none hmem
                cases hrest.symm.trans hfound
          | some found =>
              obtain ⟨key₂, items₂⟩ := found
              rw [hrest] at h
              dsimp only at h
              split_ifs at h with hle
              · cases h
                rcases List.mem_cons.1 hmem with hmem | hmem
                · cases hmem
                  exact hle
                · exact ih hrest hmem
              · cases h
                rcases List.mem_cons.1 hmem with hmem | hmem
                · cases hmem
                  exact le_rfl
                · exact le_trans (ih hrest hmem) (Nat.le_of_not_le hle)

/-! ## What a shortened answer holds -/

section Cut

variable {fields rest : List (String × Json)} {key k : String} {items : List Json} {n : Nat}

theorem findEntry_without (h : k ≠ key) :
    findEntry k (without key fields) = findEntry k fields := by
  induction fields with
  | nil => rfl
  | cons e fields ih =>
      obtain ⟨k', v⟩ := e
      unfold without at ih ⊢
      by_cases hk : k' = key
      · subst hk
        rw [List.filter_cons_of_neg (by simp), findEntry_cons, if_neg (Ne.symm h), ih]
      · rw [List.filter_cons_of_pos (by simp [hk]), findEntry_cons, findEntry_cons, ih]

/-- Apart from what the shortening writes, only the array is changed. -/
theorem get?_cutTo (hk : k ∉ ["next_offset", "partial", "truncation"]) :
    (cutTo key items rest n).get? k =
      findEntry k (insertEntry key (.arr (items.take n)) rest) := by
  simp only [List.mem_cons, List.not_mem_nil, or_false, not_or] at hk
  obtain ⟨hcursor, hmark, hmarker⟩ := hk
  have hflagged : findEntry k
      (if (findEntry "partial" (insertEntry key (.arr (items.take n)) rest)).isSome then
        insertEntry "partial" (.bool true) (insertEntry key (.arr (items.take n)) rest)
        else insertEntry key (.arr (items.take n)) rest) =
      findEntry k (insertEntry key (.arr (items.take n)) rest) := by
    split_ifs
    · exact findEntry_insertEntry_of_ne hmark _ _
    · rfl
  unfold cutTo
  rw [Json.get?_obj, findEntry_insertEntry_of_ne hmarker]
  cases (findEntry "offset" rest).bind Json.asU64? with
  | none => exact hflagged
  | some offset => exact (findEntry_insertEntry_of_ne hcursor _ _).trans hflagged

/-- An answer with an offset gets a cursor, past as many items as are shown of the array that
was shortened. -/
theorem next_offset_cutTo {offset : UInt64}
    (h : findEntry "offset" rest = some (.num (.posInt offset))) :
    (cutTo key items rest n).get? "next_offset" =
      some (.num (.posInt (cursorAfter offset n))) := by
  unfold cutTo
  rw [Json.get?_obj, findEntry_insertEntry_of_ne (by decide), h]
  exact findEntry_insertEntry_self _ _ _

end Cut

end UnifiMcp
