import Mathlib.Data.List.Nodup
import Mathlib.Data.Rat.Defs

/-!
# What a fixture file holds

The fixtures are read with Python's `json`, so the values are its own: integers without a bound, and
floats that may be infinite or no number.  An object of the text is the list of its pairs; the
`dict` that `load` makes of it has every key once, with the value that came last.

A string of the document is a `Leaf` that knows where it stands.  `entries` are the values under a
key, at any depth: where no key is repeated, these are the strings that stand under a key
(`mem_entries_of_leaf`).
-/

namespace UnifiMcp

namespace Fixtures

/-- A Python float. -/
inductive PyFloat where
  | finite (value : Rat)
  | infinity (negative : Bool)
  | nan
  deriving DecidableEq

/-- A value of Python's `json`.  A text has its pairs as they are written. -/
inductive Value where
  | null
  | bool (b : Bool)
  | int (n : Int)
  | float (x : PyFloat)
  | str (s : String)
  | list (items : List Value)
  | dict (pairs : List (String × Value))

/-- Where a string stands in a document. -/
inductive Place where
  /-- It is the whole document. -/
  | top
  /-- It is an element of an array. -/
  | item
  /-- It is the value of a key. -/
  | key (k : String)
  deriving DecidableEq

/-- A string in a document. -/
structure Leaf where
  place : Place
  value : String
  deriving DecidableEq

/-! ## Dictionaries -/

section Dict

variable {α : Type}

/-- `d[key] = value`: a key that is there keeps its place. -/
def setItem (key : String) (value : α) : List (String × α) → List (String × α)
  | [] => [(key, value)]
  | (k, v) :: rest => if k = key then (k, value) :: rest else (k, v) :: setItem key value rest

/-- `dict(pairs)`. -/
def dictOf (pairs : List (String × α)) : List (String × α) :=
  pairs.foldl (fun d e => setItem e.1 e.2 d) []

theorem setItem_of_notMem {key : String} (value : α) {d : List (String × α)}
    (h : key ∉ d.map Prod.fst) : setItem key value d = d ++ [(key, value)] := by
  induction d with
  | nil => rfl
  | cons e rest ih =>
      obtain ⟨k, v⟩ := e
      simp only [List.map_cons, List.mem_cons, not_or] at h
      rw [setItem, if_neg (Ne.symm h.1), ih h.2, List.cons_append]

/-- Pairs without a repeated key are the dictionary. -/
theorem dictOf_eq_self {pairs : List (String × α)} (h : (pairs.map Prod.fst).Nodup) :
    dictOf pairs = pairs := by
  have hfold : ∀ (d pairs : List (String × α)), ((d ++ pairs).map Prod.fst).Nodup →
      pairs.foldl (fun d e => setItem e.1 e.2 d) d = d ++ pairs := by
    intro d pairs
    induction pairs generalizing d with
    | nil => simp
    | cons e rest ih =>
        intro hnodup
        have hnew : e.1 ∉ d.map Prod.fst := by
          rw [List.map_append, List.map_cons, List.nodup_append] at hnodup
          intro hmem
          exact hnodup.2.2 e.1 hmem e.1 List.mem_cons_self rfl
        rw [List.foldl_cons, setItem_of_notMem e.2 hnew, ih _ (by simpa using hnodup)]
        simp
  exact hfold [] pairs h

end Dict

/-! ## Reading a document -/

namespace Value

mutual

/-- What `json.load` makes of a text: each object becomes a dictionary. -/
def load : Value → Value
  | .null => .null
  | .bool b => .bool b
  | .int n => .int n
  | .float x => .float x
  | .str s => .str s
  | .list items => .list (loadItems items)
  | .dict pairs => .dict (dictOf (loadPairs pairs))

/-- The same for the items of an array. -/
def loadItems : List Value → List Value
  | [] => []
  | v :: items => load v :: loadItems items

/-- The same for the pairs of an object. -/
def loadPairs : List (String × Value) → List (String × Value)
  | [] => []
  | (key, v) :: pairs => (key, load v) :: loadPairs pairs

end

mutual

/-- The strings of a document. -/
def leaves (place : Place) : Value → List Leaf
  | .null | .bool _ | .int _ | .float _ => []
  | .str s => [⟨place, s⟩]
  | .list items => leavesItems items
  | .dict pairs => leavesPairs pairs

/-- The strings of the items of an array. -/
def leavesItems : List Value → List Leaf
  | [] => []
  | v :: items => leaves .item v ++ leavesItems items

/-- The strings of the pairs of an object. -/
def leavesPairs : List (String × Value) → List Leaf
  | [] => []
  | (key, v) :: pairs => leaves (.key key) v ++ leavesPairs pairs

end

mutual

/-- The values under a key, at any depth. -/
def entries : Value → List (String × Value)
  | .null | .bool _ | .int _ | .float _ | .str _ => []
  | .list items => entriesItems items
  | .dict pairs => entriesPairs pairs

/-- Those in the items of an array. -/
def entriesItems : List Value → List (String × Value)
  | [] => []
  | v :: items => entries v ++ entriesItems items

/-- Those of the pairs of an object. -/
def entriesPairs : List (String × Value) → List (String × Value)
  | [] => []
  | (key, v) :: pairs => (key, v) :: (entries v ++ entriesPairs pairs)

end

mutual

/-- No object of the document repeats a key. -/
def NoRepeats : Value → Prop
  | .null | .bool _ | .int _ | .float _ | .str _ => True
  | .list items => NoRepeatsItems items
  | .dict pairs => (pairs.map Prod.fst).Nodup ∧ NoRepeatsPairs pairs

/-- Nor do those in the items of an array. -/
def NoRepeatsItems : List Value → Prop
  | [] => True
  | v :: items => NoRepeats v ∧ NoRepeatsItems items

/-- Nor do those in the pairs of an object. -/
def NoRepeatsPairs : List (String × Value) → Prop
  | [] => True
  | (_, v) :: pairs => NoRepeats v ∧ NoRepeatsPairs pairs

end

/-! ## Documents without a repeated key -/

mutual

/-- A document without a repeated key is loaded as it is. -/
theorem load_eq_self : ∀ v : Value, v.NoRepeats → v.load = v
  | .null, _ | .bool _, _ | .int _, _ | .float _, _ | .str _, _ => by simp only [load]
  | .list items, h => by
      simp only [NoRepeats] at h
      rw [load, loadItems_eq_self items h]
  | .dict pairs, h => by
      simp only [NoRepeats] at h
      rw [load, loadPairs_eq_self pairs h.2, dictOf_eq_self h.1]

theorem loadItems_eq_self : ∀ items : List Value, NoRepeatsItems items → loadItems items = items
  | [], _ => by simp only [loadItems]
  | v :: items, h => by
      simp only [NoRepeatsItems] at h
      rw [loadItems, load_eq_self v h.1, loadItems_eq_self items h.2]

theorem loadPairs_eq_self : ∀ pairs : List (String × Value), NoRepeatsPairs pairs →
    loadPairs pairs = pairs
  | [], _ => by simp only [loadPairs]
  | (key, v) :: pairs, h => by
      simp only [NoRepeatsPairs] at h
      rw [loadPairs, load_eq_self v h.1, loadPairs_eq_self pairs h.2]

end

mutual

/-- A string under a key is an entry, or it is the document and its place was given. -/
theorem leaf_cases {k s : String} {place : Place} : ∀ v : Value, ⟨.key k, s⟩ ∈ v.leaves place →
    (place = .key k ∧ v = .str s) ∨ (k, .str s) ∈ v.entries
  | .null, h | .bool _, h | .int _, h | .float _, h => by simp [leaves] at h
  | .str t, h => by
      simp only [leaves, List.mem_singleton, Leaf.mk.injEq] at h
      exact .inl ⟨h.1.symm, congrArg Value.str h.2.symm⟩
  | .list items, h => by
      simp only [leaves] at h
      simp only [entries]
      exact .inr (mem_entriesItems_of_leaf items h)
  | .dict pairs, h => by
      simp only [leaves] at h
      simp only [entries]
      exact .inr (mem_entriesPairs_of_leaf pairs h)

theorem mem_entriesItems_of_leaf {k s : String} : ∀ items : List Value,
    ⟨.key k, s⟩ ∈ leavesItems items → (k, .str s) ∈ entriesItems items
  | [], h => by simp [leavesItems] at h
  | v :: items, h => by
      simp only [leavesItems, List.mem_append] at h
      simp only [entriesItems, List.mem_append]
      rcases h with h | h
      · rcases leaf_cases v h with ⟨hplace, -⟩ | hentry
        · cases hplace
        · exact .inl hentry
      · exact .inr (mem_entriesItems_of_leaf items h)

theorem mem_entriesPairs_of_leaf {k s : String} : ∀ pairs : List (String × Value),
    ⟨.key k, s⟩ ∈ leavesPairs pairs → (k, .str s) ∈ entriesPairs pairs
  | [], h => by simp [leavesPairs] at h
  | (key, v) :: pairs, h => by
      simp only [leavesPairs, List.mem_append] at h
      simp only [entriesPairs, List.mem_cons, List.mem_append]
      rcases h with h | h
      · rcases leaf_cases v h with ⟨hplace, rfl⟩ | hentry
        · cases hplace
          exact .inl rfl
        · exact .inr (.inl hentry)
      · exact .inr (.inr (mem_entriesPairs_of_leaf pairs h))

end

/-- Where no key is repeated, a string under a key is one of the entries that are loaded. -/
theorem mem_entries_of_leaf {k s : String} {document : Value} (hrepeats : document.NoRepeats)
    (h : ⟨.key k, s⟩ ∈ document.leaves .top) : (k, .str s) ∈ document.load.entries := by
  rw [load_eq_self document hrepeats]
  rcases leaf_cases document h with ⟨hplace, -⟩ | hentry
  · cases hplace
  · exact hentry

end Value

end Fixtures

end UnifiMcp
