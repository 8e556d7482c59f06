import Mathlib.Algebra.Group.Defs
import Mathlib.Algebra.BigOperators.Group.List.Basic
import UnifiMcp.Collections.SortedMap

/-!
# Adding values up by key

`addEntry` adds a value to what a map holds under its key.  After a list of additions a key
holds what it held before and the sum of its own values (`findEntry_foldl_addEntry`).  The
largest entries of a list are a prefix of it once it is sorted (`rel_of_mem_take_of_mem_drop`).
-/

namespace Collections

variable {κ M : Type} [LinearOrder κ] [AddMonoid M]

/-- Add a value to what is under a key, nothing counting as zero. -/
def addEntry (entries : List (κ × M)) (e : κ × M) : List (κ × M) :=
  insertEntry e.1 ((findEntry e.1 entries).getD 0 + e.2) entries

/-- The values under a key, in order. -/
def valuesOf {ν : Type} (key : κ) (entries : List (κ × ν)) : List ν :=
  (entries.filter fun e => e.1 = key).map Prod.snd

@[simp] theorem valuesOf_nil {ν : Type} (key : κ) : valuesOf key ([] : List (κ × ν)) = [] := rfl

theorem valuesOf_cons {ν : Type} (key : κ) (e : κ × ν) (entries : List (κ × ν)) :
    valuesOf key (e :: entries) =
      if e.1 = key then e.2 :: valuesOf key entries else valuesOf key entries := by
  unfold valuesOf
  by_cases h : e.1 = key <;> simp [h]

theorem valuesOf_map {ν ν' : Type} (f : ν → ν') (key : κ) (entries : List (κ × ν)) :
    valuesOf key (entries.map fun e => (e.1, f e.2)) = (valuesOf key entries).map f := by
  induction entries with
  | nil => rfl
  | cons e entries ih =>
      rw [List.map_cons, valuesOf_cons, valuesOf_cons, ih]
      split_ifs <;> rfl

theorem ascending_foldl_addEntry {counts : List (κ × M)} (h : Ascending counts)
    (entries : List (κ × M)) : Ascending (entries.foldl addEntry counts) := by
  induction entries generalizing counts with
  | nil => exact h
  | cons e entries ih => exact ih (h.insertEntry _ _)

/-- A key holds what it held and the sum of the values added to it. -/
theorem findEntry_foldl_addEntry (key : κ) (counts entries : List (κ × M)) :
    findEntry key (entries.foldl addEntry counts) =
      if key ∈ keys entries then
        some ((findEntry key counts).getD 0 + (valuesOf key entries).sum)
      else findEntry key counts := by
  induction entries generalizing counts with
  | nil => simp [keys]
  | cons e entries ih =>
      obtain ⟨k, value⟩ := e
      rw [List.foldl_cons, ih, valuesOf_cons]
      by_cases hk : k = key
      · subst hk
        have hself : findEntry k (addEntry counts (k, value)) =
            some ((findEntry k counts).getD 0 + value) := findEntry_insertEntry_self _ _ _
        have hmem : k ∈ keys ((k, value) :: entries) := List.mem_cons_self
        rw [hself, if_pos rfl, if_pos hmem, List.sum_cons, ← add_assoc]
        split_ifs with hrest
        · rfl
        · have hnone : valuesOf k entries = [] := by
            unfold valuesOf
            rw [List.map_eq_nil_iff, List.filter_eq_nil_iff]
            intro e he hkey
            exact hrest (mem_keys.2 ⟨e.2, of_decide_eq_true hkey ▸ he⟩)
          simp [hnone]
      · have hother : findEntry key (addEntry counts (k, value)) = findEntry key counts :=
          findEntry_insertEntry_of_ne (Ne.symm hk) _ _
        have hmem : key ∈ keys ((k, value) :: entries) ↔ key ∈ keys entries := by
          simp [keys, Ne.symm hk]
        rw [hother, if_neg hk]
        simp only [hmem]

/-- What comes later in a sorted list is not before what comes earlier. -/
theorem rel_of_mem_take_of_mem_drop {α : Type} {R : α → α → Prop} {l : List α}
    (h : l.Pairwise R) {n : Nat} {a b : α} (ha : a ∈ l.take n) (hb : b ∈ l.drop n) : R a b := by
  rw [← List.take_append_drop n l, List.pairwise_append] at h
  exact h.2.2 a ha b hb

end Collections
