import UnifiMcp.Collections.SortedMap
import Mathlib.Data.String.Basic

/-!
# JSON values

The values `serde_json` reads, writes and compares.  An object is the list of its
entries; a value the program can hold has them in key order with no key twice, and
`insertEntry` keeps that, so comparing two such values entry by entry is `serde_json`'s
comparison of maps.  No lemma below needs the order.

That the order is that of the keys is an assumption.  It is what `serde_json` keeps unless its
feature `preserve_order` is on; no manifest of the workspace asks for that, but the lock file
lists `indexmap` under `serde_json`, so that another crate may.  Then entries are kept as they
came, and two things are different from what is said here: which of two longest arrays
`shrinkLargestArray` cuts, and in what order fields stand in a text that is rendered (a preview,
a fingerprint's input, what a query is looked for in).  What is proved of rendering itself, that
it is injective and how long it gets, holds for the entries in any order.

A number is what `serde_json::Number` tells apart: an unsigned integer, a negative
integer, or a double.  A double is given by the rational it denotes, since
`serde_json` holds finite ones only.
-/

namespace UnifiMcp

open Collections

/-- A JSON number, as `serde_json::Number` stores it. -/
inductive Number where
  | posInt (n : UInt64)
  | negInt (n : Int64)
  | float (value : Rat)
  deriving DecidableEq, Repr

/-- A JSON value. -/
inductive Json where
  | null
  | bool (b : Bool)
  | num (n : Number)
  | str (s : String)
  | arr (items : List Json)
  | obj (fields : List (String × Json))
  deriving Repr

namespace Json

mutual

/-- Equality of values is decidable. -/
def decEq : (v w : Json) → Decidable (v = w)
  | .null, .null => isTrue rfl
  | .bool a, .bool b =>
      if h : a = b then isTrue (h ▸ rfl) else isFalse fun e => h (Json.bool.inj e)
  | .num a, .num b =>
      if h : a = b then isTrue (h ▸ rfl) else isFalse fun e => h (Json.num.inj e)
  | .str a, .str b =>
      if h : a = b then isTrue (h ▸ rfl) else isFalse fun e => h (Json.str.inj e)
  | .arr a, .arr b =>
      match decEqItems a b with
      | isTrue h => isTrue (h ▸ rfl)
      | isFalse h => isFalse fun e => h (Json.arr.inj e)
  | .obj a, .obj b =>
      match decEqFields a b with
      | isTrue h => isTrue (h ▸ rfl)
      | isFalse h => isFalse fun e => h (Json.obj.inj e)
  | .null, .bool _ | .null, .num _ | .null, .str _ | .null, .arr _ | .null, .obj _
  | .bool _, .null | .bool _, .num _ | .bool _, .str _ | .bool _, .arr _ | .bool _, .obj _
  | .num _, .null | .num _, .bool _ | .num _, .str _ | .num _, .arr _ | .num _, .obj _
  | .str _, .null | .str _, .bool _ | .str _, .num _ | .str _, .arr _ | .str _, .obj _
  | .arr _, .null | .arr _, .bool _ | .arr _, .num _ | .arr _, .str _ | .arr _, .obj _
  | .obj _, .null | .obj _, .bool _ | .obj _, .num _ | .obj _, .str _ | .obj _, .arr _ =>
      isFalse nofun

/-- Equality of arrays, item by item. -/
def decEqItems : (v w : List Json) → Decidable (v = w)
  | [], [] => isTrue rfl
  | [], _ :: _ | _ :: _, [] => isFalse nofun
  | a :: v, b :: w =>
      match decEq a b, decEqItems v w with
      | isTrue h, isTrue h' => isTrue (h ▸ h' ▸ rfl)
      | isFalse h, _ => isFalse fun e => h (List.cons.inj e).1
      | _, isFalse h => isFalse fun e => h (List.cons.inj e).2

/-- Equality of objects, entry by entry. -/
def decEqFields : (v w : List (String × Json)) → Decidable (v = w)
  | [], [] => isTrue rfl
  | [], _ :: _ | _ :: _, [] => isFalse nofun
  | (k, a) :: v, (l, b) :: w =>
      if hk : k = l then
        match decEq a b, decEqFields v w with
        | isTrue h, isTrue h' => isTrue (hk ▸ h ▸ h' ▸ rfl)
        | isFalse h, _ => isFalse fun e => h (Prod.mk.inj (List.cons.inj e).1).2
        | _, isFalse h => isFalse fun e => h (List.cons.inj e).2
      else isFalse fun e => hk (Prod.mk.inj (List.cons.inj e).1).1

end

instance : DecidableEq Json := decEq

instance : Inhabited Json := ⟨.null⟩

/-! ## Reading -/

/-- `Value::get` with a string key: the entry of an object, and nothing else's. -/
def get? : Json → String → Option Json
  | .obj fields, key => findEntry key fields
  | _, _ => none

/-- `Value::as_str`. -/
def asStr? : Json → Option String
  | .str s => some s
  | _ => none

/-- `Value::as_array`. -/
def asArray? : Json → Option (List Json)
  | .arr items => some items
  | _ => none

/-- `Value::as_object`. -/
def asObject? : Json → Option (List (String × Json))
  | .obj fields => some fields
  | _ => none

/-- `Value::is_object`. -/
def isObject : Json → Bool
  | .obj _ => true
  | _ => false

/-- `Value::as_u64`. -/
def asU64? : Json → Option UInt64
  | .num (.posInt n) => some n
  | _ => none

/-- `Value::as_bool`. -/
def asBool? : Json → Option Bool
  | .bool b => some b
  | _ => none

/-- `Value::as_i64`: an integer that fits 64 signed bits. -/
def asI64? : Json → Option Int
  | .num (.posInt n) => if n.toNat < 2 ^ 63 then some n.toNat else none
  | .num (.negInt n) => some n.toInt
  | _ => none

/-- The string an object holds under `key`, if it holds one. -/
def getStr? (v : Json) (key : String) : Option String := (v.get? key).bind asStr?

@[simp] theorem get?_obj (fields : List (String × Json)) (key : String) :
    (Json.obj fields).get? key = findEntry key fields := rfl

theorem isObject_iff {v : Json} : v.isObject = true ↔ ∃ fields, v = .obj fields := by
  cases v <;> simp [isObject]

end Json

end UnifiMcp
