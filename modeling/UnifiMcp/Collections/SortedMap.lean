import Mathlib.Data.List.Basic
import Mathlib.Order.Lattice
import Mathlib.Tactic.Common

/-!
# Maps as sorted lists of entries

`insertEntry` puts an entry where the order of the keys has it, replacing the one that
was there.  What is looked up after an insertion does not depend on the list being
sorted; that the values of a map are what its keys look up does, and `SortedMap` carries
the order as a field so that this holds of every map.
-/

namespace Collections

variable {κ ν : Type} [LinearOrder κ]

/-- Put an entry into a list sorted by key, in place of the one with its key. -/
def insertEntry (key : κ) (value : ν) : List (κ × ν) → List (κ × ν)
  | [] => [(key, value)]
  | (k, v) :: rest =>
      if k = key then (key, value) :: rest
      else if key < k then (key, value) :: (k, v) :: rest
      else (k, v) :: insertEntry key value rest

/-- What is found first under a key. -/
def findEntry (key : κ) : List (κ × ν) → Option ν
  | [] => none
  | (k, v) :: rest => if k = key then some v else findEntry key rest

@[simp] theorem findEntry_nil (key : κ) : findEntry key ([] : List (κ × ν)) = none := rfl

theorem findEntry_cons (key k : κ) (v : ν) (rest : List (κ × ν)) :
    findEntry key ((k, v) :: rest) = if k = key then some v else findEntry key rest := rfl

@[simp] theorem findEntry_insertEntry_self (key : κ) (value : ν) (entries : List (κ × ν)) :
    findEntry key (insertEntry key value entries) = some value := by
  induction entries with
  | nil => exact if_pos rfl
  | cons e rest ih =>
      obtain ⟨k, v⟩ := e
      unfold insertEntry
      split_ifs with h₁ h₂
      · exact if_pos rfl
      · exact if_pos rfl
      · rw [findEntry_cons, if_neg h₁, ih]

theorem findEntry_insertEntry_of_ne {key key' : κ} (h : key' ≠ key) (value : ν)
    (entries : List (κ × ν)) :
    findEntry key' (insertEntry key value entries) = findEntry key' entries := by
  induction entries with
  | nil => exact if_neg (Ne.symm h)
  | cons e rest ih =>
      obtain ⟨k, v⟩ := e
      unfold insertEntry
      split_ifs with h₁ h₂
      · subst h₁
        rw [findEntry_cons, findEntry_cons, if_neg (Ne.symm h), if_neg (Ne.symm h)]
      · rw [findEntry_cons, if_neg (Ne.symm h)]
      · rw [findEntry_cons, findEntry_cons, ih]

theorem length_insertEntry_le (key : κ) (value : ν) (entries : List (κ × ν)) :
    (insertEntry key value entries).length ≤ entries.length + 1 := by
  induction entries with
  | nil => exact Nat.le_refl 1
  | cons e rest ih =>
      obtain ⟨k, v⟩ := e
      unfold insertEntry
      split_ifs
      · simp
      · simp
      · simpa using ih

theorem mem_insertEntry {key : κ} {value : ν} {entries : List (κ × ν)} {e : κ × ν}
    (h : e ∈ insertEntry key value entries) : e = (key, value) ∨ e ∈ entries := by
  induction entries with
  | nil => exact .inl (List.mem_singleton.1 h)
  | cons a rest ih =>
      obtain ⟨k, v⟩ := a
      unfold insertEntry at h
      split_ifs at h with h₁ h₂
      · rcases List.mem_cons.1 h with h | h
        · exact .inl h
        · exact .inr (List.mem_cons_of_mem _ h)
      · rcases List.mem_cons.1 h with h | h
        · exact .inl h
        · exact .inr h
      · rcases List.mem_cons.1 h with h | h
        · exact .inr (h ▸ List.mem_cons_self)
        · rcases ih h with h | h
          · exact .inl h
          · exact .inr (List.mem_cons_of_mem _ h)

/-- The keys of a list of entries. -/
def keys (entries : List (κ × ν)) : List κ := entries.map Prod.fst

omit [LinearOrder κ] in
theorem mem_keys {key : κ} {entries : List (κ × ν)} :
    key ∈ keys entries ↔ ∃ value, (key, value) ∈ entries := by
  simp [keys]

omit [LinearOrder κ] in
theorem keys_filter (p : κ → Bool) (entries : List (κ × ν)) :
    keys (entries.filter fun e => p e.1) = (keys entries).filter p := by
  rw [keys, keys, List.filter_map]
  rfl

theorem findEntry_eq_none {key : κ} {entries : List (κ × ν)} :
    findEntry key entries = none ↔ key ∉ keys entries := by
  induction entries with
  | nil => exact ⟨fun _ => List.not_mem_nil, fun _ => rfl⟩
  | cons e rest ih =>
      obtain ⟨k, v⟩ := e
      change (if k = key then some v else findEntry key rest) = none ↔ key ∉ k :: keys rest
      by_cases hk : k = key
      · simp [hk]
      · simp [hk, ih, Ne.symm hk]

theorem mem_keys_insertEntry {key k : κ} {value : ν} {entries : List (κ × ν)} :
    k ∈ keys (insertEntry key value entries) ↔ k = key ∨ k ∈ keys entries := by
  induction entries with
  | nil => exact List.mem_singleton.trans (or_iff_left List.not_mem_nil).symm
  | cons e rest ih =>
      obtain ⟨k', v'⟩ := e
      unfold insertEntry
      split_ifs with h₁ h₂
      · subst h₁
        simp [keys]
      · simp [keys]
      · change k ∈ k' :: keys (insertEntry key value rest) ↔ k = key ∨ k ∈ k' :: keys rest
        rw [List.mem_cons, List.mem_cons, ih]
        tauto

/-- The keys of a list of entries go up. -/
def Ascending (entries : List (κ × ν)) : Prop := entries.Pairwise fun a b => a.1 < b.1

theorem Ascending.insertEntry {entries : List (κ × ν)} (h : Ascending entries) (key : κ)
    (value : ν) : Ascending (insertEntry key value entries) := by
  induction entries with
  | nil => exact List.pairwise_singleton _ _
  | cons a rest ih =>
      obtain ⟨k, v⟩ := a
      obtain ⟨hhead, htail⟩ := List.pairwise_cons.1 h
      unfold Collections.insertEntry
      split_ifs with h₁ h₂
      · subst h₁
        exact List.pairwise_cons.2 ⟨hhead, htail⟩
      · refine List.pairwise_cons.2 ⟨?_, h⟩
        intro e he
        rcases List.mem_cons.1 he with rfl | he
        · exact h₂
        · exact lt_trans h₂ (hhead e he)
      · refine List.pairwise_cons.2 ⟨?_, ih htail⟩
        intro e he
        rcases mem_insertEntry he with rfl | he
        · exact lt_of_le_of_ne (not_lt.1 h₂) h₁
        · exact hhead e he

/-- In a sorted list the entries are what their keys find. -/
theorem Ascending.mem_iff {entries : List (κ × ν)} (h : Ascending entries) {key : κ}
    {value : ν} : (key, value) ∈ entries ↔ findEntry key entries = some value := by
  induction entries with
  | nil => simp
  | cons a rest ih =>
      obtain ⟨k, v⟩ := a
      obtain ⟨hhead, htail⟩ := List.pairwise_cons.1 h
      rw [findEntry_cons, List.mem_cons, ih htail]
      by_cases hk : k = key
      · subst hk
        have hnot : findEntry k rest ≠ some value := fun hfind =>
          lt_irrefl k (hhead _ ((ih htail).2 hfind))
        simp [hnot, eq_comm]
      · have hne : (key, value) ≠ (k, v) := fun heq => hk (congrArg Prod.fst heq).symm
        simp [hk, hne]

/-- A key that is looked up among the entries whose keys pass a test. -/
theorem findEntry_filter (p : κ → Bool) (key : κ) (entries : List (κ × ν)) :
    findEntry key (entries.filter fun e => p e.1) =
      if p key then findEntry key entries else none := by
  induction entries with
  | nil => simp
  | cons e rest ih =>
      obtain ⟨k, v⟩ := e
      by_cases hk : k = key
      · subst hk
        by_cases hp : p k = true
        · simp [hp, findEntry_cons]
        · simp [hp, ih]
      · by_cases hp : p k = true
        · simp [hp, findEntry_cons, hk, ih]
        · simp [hp, findEntry_cons, hk, ih]

/-- Sorted lists in which every key finds the same are the same. -/
theorem Ascending.ext {entries entries' : List (κ × ν)} (h : Ascending entries)
    (h' : Ascending entries') (heq : ∀ key, findEntry key entries = findEntry key entries') :
    entries = entries' := by
  have hmem : ∀ e, e ∈ entries ↔ e ∈ entries' := by
    rintro ⟨key, value⟩
    rw [h.mem_iff, h'.mem_iff, heq]
  have hnodup : ∀ {l : List (κ × ν)}, Ascending l → l.Nodup := by
    intro l hl
    refine List.Pairwise.imp ?_ hl
    rintro a b hlt rfl
    exact lt_irrefl _ hlt
  have hperm : entries.Perm entries' := (List.perm_ext_iff_of_nodup (hnodup h) (hnodup h')).2 hmem
  exact List.Perm.eq_of_pairwise (fun a b _ _ hab hba => absurd hab (lt_asymm hba)) h h' hperm

/-- Sorted lists that agree on the keys of a test have the same entries under them. -/
theorem Ascending.filter_eq {entries entries' : List (κ × ν)} (h : Ascending entries)
    (h' : Ascending entries') {p : κ → Bool}
    (heq : ∀ key, p key = true → findEntry key entries = findEntry key entries') :
    (entries.filter fun e => p e.1) = entries'.filter fun e => p e.1 := by
  refine Ascending.ext (h.filter _) (h'.filter _) fun key => ?_
  rw [findEntry_filter, findEntry_filter]
  split_ifs with hp
  · exact heq key hp
  · rfl

/-- A map, by its entries in the order of their keys. -/
structure SortedMap (κ ν : Type) [LinearOrder κ] where
  entries : List (κ × ν)
  ascending : Ascending entries

namespace SortedMap

/-- The map without entries. -/
def empty : SortedMap κ ν := ⟨[], List.Pairwise.nil⟩

/-- The value under a key. -/
def get? (m : SortedMap κ ν) (key : κ) : Option ν := findEntry key m.entries

/-- Put a value under a key. -/
def insert (m : SortedMap κ ν) (key : κ) (value : ν) : SortedMap κ ν :=
  ⟨insertEntry key value m.entries, m.ascending.insertEntry key value⟩

/-- Remove a key. -/
def erase (m : SortedMap κ ν) (key : κ) : SortedMap κ ν :=
  ⟨m.entries.filter fun e => e.1 ≠ key, m.ascending.filter _⟩

/-- Keep the entries whose values pass a test. -/
def retain (m : SortedMap κ ν) (keep : ν → Bool) : SortedMap κ ν :=
  ⟨m.entries.filter fun e => keep e.2, m.ascending.filter _⟩

/-- The values, in the order of their keys. -/
def values (m : SortedMap κ ν) : List ν := m.entries.map Prod.snd

@[simp] theorem get?_empty (key : κ) : (empty : SortedMap κ ν).get? key = none := rfl

@[simp] theorem get?_insert_self (m : SortedMap κ ν) (key : κ) (value : ν) :
    (m.insert key value).get? key = some value :=
  findEntry_insertEntry_self key value m.entries

theorem get?_insert_of_ne (m : SortedMap κ ν) {key key' : κ} (h : key' ≠ key) (value : ν) :
    (m.insert key value).get? key' = m.get? key' :=
  findEntry_insertEntry_of_ne h value m.entries

theorem get?_eq_some {m : SortedMap κ ν} {key : κ} {value : ν} :
    m.get? key = some value ↔ (key, value) ∈ m.entries :=
  m.ascending.mem_iff.symm

theorem get?_erase_eq_some {m : SortedMap κ ν} {key key' : κ} {value : ν} :
    (m.erase key).get? key' = some value ↔ key' ≠ key ∧ m.get? key' = some value := by
  rw [get?_eq_some, get?_eq_some, erase, List.mem_filter]
  simp [and_comm]

theorem get?_retain_eq_some {m : SortedMap κ ν} {keep : ν → Bool} {key : κ} {value : ν} :
    (m.retain keep).get? key = some value ↔ keep value ∧ m.get? key = some value := by
  rw [get?_eq_some, get?_eq_some, retain, List.mem_filter, and_comm]

@[simp] theorem get?_erase_self (m : SortedMap κ ν) (key : κ) :
    (m.erase key).get? key = none := by
  rw [Option.eq_none_iff_forall_not_mem]
  intro value hvalue
  exact (get?_erase_eq_some.1 hvalue).1 rfl

theorem get?_erase_of_ne (m : SortedMap κ ν) {key key' : κ} (h : key' ≠ key) :
    (m.erase key).get? key' = m.get? key' := by
  ext value
  rw [get?_erase_eq_some]
  exact and_iff_right h

/-- The values of a map are what its keys give. -/
theorem mem_values {m : SortedMap κ ν} {value : ν} :
    value ∈ m.values ↔ ∃ key, m.get? key = some value := by
  simp [values, get?_eq_some]

end SortedMap

end Collections
