import UnifiMcp.Json.Render
import Mathlib.Algebra.GroupWithZero.Nat
import Mathlib.Algebra.Order.BigOperators.Group.List
import Mathlib.Data.List.Forall2

/-!
# How long a rendering is

`prettySize` is the length in bytes of a pretty rendering.  It grows with the value: an array
cut to fewer items is no longer (`prettySize_take_le`), and neither is an object whose
fields are no longer (`prettySize_obj_le`).  Numbers are the one leaf with a say in this, and
integers are written in decimal, where a smaller one is no longer.
-/

namespace UnifiMcp

open Collections

/-- Two lists of entries have the same keys and, key by key, related values. -/
abbrev EntriesRel (R : Json → Json → Prop) : List (String × Json) → List (String × Json) → Prop :=
  List.Forall₂ fun e e' => e.1 = e'.1 ∧ R e.2 e'.2

theorem EntriesRel.insertEntry {R : Json → Json → Prop} {v v' : Json}
    {entries entries' : List (String × Json)} (h : EntriesRel R entries entries') (key : String)
    (hv : R v v') :
    EntriesRel R (insertEntry key v entries) (insertEntry key v' entries') := by
  induction h with
  | nil => exact .cons ⟨rfl, hv⟩ .nil
  | @cons e e' rest rest' head tail ih =>
      obtain ⟨k, w⟩ := e
      obtain ⟨k', w'⟩ := e'
      obtain ⟨rfl, hw⟩ := head
      unfold Collections.insertEntry
      split_ifs
      · exact .cons ⟨rfl, hv⟩ tail
      · exact .cons ⟨rfl, hv⟩ (.cons ⟨rfl, hw⟩ tail)
      · exact .cons ⟨rfl, hw⟩ ih

theorem EntriesRel.findEntry {R : Json → Json → Prop} {entries entries' : List (String × Json)}
    (h : EntriesRel R entries entries') (key : String) :
    (findEntry key entries).isSome = (findEntry key entries').isSome := by
  induction h with
  | nil => rfl
  | @cons e e' rest rest' head tail ih =>
      obtain ⟨k, w⟩ := e
      obtain ⟨k', w'⟩ := e'
      obtain ⟨rfl, -⟩ := head
      rw [findEntry_cons, findEntry_cons]
      split_ifs
      · rfl
      · exact ih

namespace Json

variable (number : Number → String)

/-- The length of a value's pretty rendering in bytes. -/
def prettySize (depth : Nat) (v : Json) : Nat := (pretty number depth v).utf8ByteSize

/-- Unsigned integers are written in decimal. -/
def DecimalIntegers : Prop := ∀ n : UInt64, number (.posInt n) = toString n.toNat

variable {number} {depth : Nat}

/-! ## Characters and lines -/

theorem utf8ByteSize_newline (depth : Nat) : (newline depth).utf8ByteSize = 2 * depth + 1 := by
  have hpushn : ∀ n, ("".pushn ' ' n).utf8ByteSize = n := by
    intro n
    rw [String.pushn_eq_repeat_push]
    induction n with
    | zero => rfl
    | succ n ih =>
        rw [Nat.repeat, String.utf8ByteSize_push, ih]
        rfl
  unfold newline
  rw [String.utf8ByteSize_append, hpushn, Nat.add_comm]
  rfl

theorem utf8ByteSize_join (parts : List String) :
    (String.join parts).utf8ByteSize = (parts.map String.utf8ByteSize).sum := by
  induction parts with
  | nil => rfl
  | cons s parts ih =>
      rw [String.join_cons, String.utf8ByteSize_append, ih, List.map_cons, List.sum_cons]

/-- A string literal is its characters, escaped, between two quotes. -/
theorem utf8ByteSize_quoted (s : String) :
    (quoted s).utf8ByteSize =
      (s.toList.map fun c => (escapeChar c).utf8ByteSize).sum + 2 := by
  have hquote : ("\"" : String).utf8ByteSize = 1 := by decide
  unfold quoted
  rw [String.utf8ByteSize_append, String.utf8ByteSize_append, utf8ByteSize_join, List.map_map,
    hquote]
  simp only [Function.comp_def]
  omega

theorem two_le_utf8ByteSize_quoted (s : String) : 2 ≤ (quoted s).utf8ByteSize := by
  rw [utf8ByteSize_quoted]
  omega

/-- Two texts in one literal save the quotes between them. -/
theorem utf8ByteSize_quoted_append (s t : String) :
    (quoted (s ++ t)).utf8ByteSize + 2 =
      (quoted s).utf8ByteSize + (quoted t).utf8ByteSize := by
  simp only [utf8ByteSize_quoted, String.toList_append, List.map_append, List.sum_append]
  omega

/-- No character of the text is escaped. -/
def Plain (s : String) : Prop := ∀ c ∈ s.toList, c ≠ '"' ∧ c ≠ '\\' ∧ 32 ≤ c.toNat

instance (s : String) : Decidable (Plain s) :=
  List.decidableBAll (fun c => c ≠ '"' ∧ c ≠ '\\' ∧ 32 ≤ c.toNat) s.toList

theorem escapeChar_of_plain {c : Char} (hquote : c ≠ '"') (hslash : c ≠ '\\')
    (hcontrol : 32 ≤ c.toNat) : escapeChar c = String.singleton c := by
  have hother : ∀ d : Char, d.toNat < 32 → c ≠ d := by
    rintro d hd rfl
    omega
  unfold escapeChar
  rw [if_neg hquote, if_neg hslash, if_neg (hother '\n' (by decide)),
    if_neg (hother '\r' (by decide)), if_neg (hother '\t' (by decide)), if_neg (by omega),
    if_neg (by omega), if_neg (by omega)]

theorem Plain.quoted_eq {s : String} (h : Plain s) : quoted s = "\"" ++ s ++ "\"" := by
  have hescaped : s.toList.map escapeChar = s.toList.map String.singleton :=
    List.map_congr_left fun c hc => escapeChar_of_plain (h c hc).1 (h c hc).2.1 (h c hc).2.2
  have hjoin : String.join (s.toList.map String.singleton) = s := by
    rw [← String.toList_inj, String.toList_join, List.flatMap_map]
    simp
  unfold quoted
  rw [hescaped, hjoin]

/-- A plain text takes its own bytes and two quotes. -/
theorem Plain.utf8ByteSize_quoted {s : String} (h : Plain s) :
    (quoted s).utf8ByteSize = s.utf8ByteSize + 2 := by
  have hquote : ("\"" : String).utf8ByteSize = 1 := by decide
  rw [h.quoted_eq, String.utf8ByteSize_append, String.utf8ByteSize_append, hquote]
  omega

/-! ## Numbers -/

theorem utf8ByteSize_repr_of_lt {n : Nat} (h : n < 10) : n.repr.utf8ByteSize = 1 := by
  rw [Nat.repr_of_lt h, String.utf8ByteSize_singleton]
  revert n
  decide

theorem utf8ByteSize_repr_of_ge {n : Nat} (h : 10 ≤ n) :
    n.repr.utf8ByteSize = (n / 10).repr.utf8ByteSize + 1 := by
  rw [Nat.repr_eq_repr_append_repr h, String.utf8ByteSize_append,
    utf8ByteSize_repr_of_lt (n := n % 10) (by omega)]

/-- A smaller number is not written longer. -/
theorem utf8ByteSize_repr_le {m n : Nat} (h : m ≤ n) :
    m.repr.utf8ByteSize ≤ n.repr.utf8ByteSize := by
  induction n using Nat.strong_induction_on generalizing m with
  | _ n ih =>
      by_cases hm : m < 10
      · rw [utf8ByteSize_repr_of_lt hm]
        by_cases hn : n < 10
        · rw [utf8ByteSize_repr_of_lt hn]
        · rw [utf8ByteSize_repr_of_ge (by omega)]
          omega
      · rw [utf8ByteSize_repr_of_ge (n := m) (by omega),
          utf8ByteSize_repr_of_ge (n := n) (by omega)]
        have htenth := ih (n / 10) (by omega) (Nat.div_le_div_right (c := 10) h)
        omega

theorem prettySize_posInt_le (hnumber : DecimalIntegers number) {m n : UInt64} (h : m ≤ n) :
    prettySize number depth (.num (.posInt m)) ≤ prettySize number depth (.num (.posInt n)) := by
  unfold prettySize pretty
  rw [hnumber, hnumber]
  exact utf8ByteSize_repr_le (UInt64.le_iff_toNat_le.1 h)

/-! ## Arrays and objects -/

/-- What a field of an object takes, with the line it stands on. -/
def fieldSize (number : Number → String) (depth : Nat) (e : String × Json) : Nat :=
  2 * depth + 6 + (quoted e.1).utf8ByteSize + prettySize number (depth + 1) e.2

/-- What an item of an array takes, with the line it stands on. -/
def itemSize (number : Number → String) (depth : Nat) (v : Json) : Nat :=
  2 * depth + 4 + prettySize number (depth + 1) v

theorem prettySize_str (s : String) :
    prettySize number depth (.str s) = (quoted s).utf8ByteSize := rfl

theorem prettySize_false : prettySize number depth (.bool false) = 5 := rfl

theorem prettySize_arr_nil : prettySize number depth (.arr []) = 2 := rfl

theorem utf8ByteSize_prettyFields (fields : List (String × Json)) :
    (prettyFields number (depth + 1) fields).utf8ByteSize =
      (fields.map (fieldSize number depth)).sum := by
  have hcolon : (": " : String).utf8ByteSize = 2 := by decide
  have hcomma : ("," : String).utf8ByteSize = 1 := by decide
  induction fields with
  | nil => rfl
  | cons e fields ih =>
      obtain ⟨key, v⟩ := e
      simp only [prettyFields, String.utf8ByteSize_append, utf8ByteSize_newline, List.map_cons,
        List.sum_cons, fieldSize, ih, hcomma, hcolon, prettySize]
      omega

/-- An object that is not empty takes its fields and its braces. -/
theorem prettySize_obj_cons (e : String × Json) (fields : List (String × Json)) :
    prettySize number depth (.obj (e :: fields)) =
      ((e :: fields).map (fieldSize number depth)).sum + (2 * depth + 2) := by
  have hcolon : (": " : String).utf8ByteSize = 2 := by decide
  have hopen : ("\x7b" : String).utf8ByteSize = 1 := by decide
  have hclose : ("\x7d" : String).utf8ByteSize = 1 := by decide
  obtain ⟨key, v⟩ := e
  simp only [prettySize, pretty, String.utf8ByteSize_append, utf8ByteSize_newline, List.map_cons,
    List.sum_cons, fieldSize, utf8ByteSize_prettyFields, hcolon, hopen, hclose]
  omega

theorem utf8ByteSize_prettyItems (items : List Json) :
    (prettyItems number (depth + 1) items).utf8ByteSize =
      (items.map (itemSize number depth)).sum := by
  have hcomma : ("," : String).utf8ByteSize = 1 := by decide
  induction items with
  | nil => rfl
  | cons v items ih =>
      simp only [prettyItems, String.utf8ByteSize_append, utf8ByteSize_newline, List.map_cons,
        List.sum_cons, itemSize, ih, hcomma, prettySize]
      omega

/-- An array that is not empty takes its items and its brackets. -/
theorem prettySize_arr_cons (v : Json) (items : List Json) :
    prettySize number depth (.arr (v :: items)) =
      ((v :: items).map (itemSize number depth)).sum + (2 * depth + 2) := by
  have hopen : ("[" : String).utf8ByteSize = 1 := by decide
  have hclose : ("]" : String).utf8ByteSize = 1 := by decide
  simp only [prettySize, pretty, String.utf8ByteSize_append, utf8ByteSize_newline, List.map_cons,
    List.sum_cons, itemSize, utf8ByteSize_prettyItems, hopen, hclose]
  omega

/-! ## What is no longer than what -/

/-- An array cut to fewer items is no longer. -/
theorem prettySize_take_le (items : List Json) {m n : Nat} (h : m ≤ n) :
    prettySize number depth (.arr (items.take m)) ≤
      prettySize number depth (.arr (items.take n)) := by
  cases items with
  | nil => simp
  | cons v items =>
      cases m with
      | zero =>
          cases n with
          | zero => exact le_rfl
          | succ n =>
              rw [List.take_zero, List.take_succ_cons, prettySize_arr_cons, prettySize_arr_nil]
              omega
      | succ m =>
          obtain ⟨n, rfl⟩ : ∃ n', n = n' + 1 := ⟨n - 1, by omega⟩
          rw [List.take_succ_cons, List.take_succ_cons, prettySize_arr_cons, prettySize_arr_cons]
          have hkept : (items.take m).Sublist (items.take n) :=
            List.take_sublist_take_left (Nat.le_of_succ_le_succ h)
          have hsizes := ((hkept.cons_cons v).map (itemSize number depth)).sum_le_sum
            fun _ _ => Nat.zero_le _
          omega

/-- The items of an array are part of its rendering. -/
theorem sum_le_prettySize_arr (items : List Json) :
    (items.map (prettySize number (depth + 1))).sum ≤ prettySize number depth (.arr items) := by
  cases items with
  | nil => simp
  | cons v items =>
      have hitems : ((v :: items).map (prettySize number (depth + 1))).sum ≤
          ((v :: items).map (itemSize number depth)).sum :=
        List.sum_le_sum fun _ _ => Nat.le_add_left _ _
      rw [prettySize_arr_cons]
      omega

/-- An object whose fields are no longer is no longer. -/
theorem prettySize_obj_le {fields fields' : List (String × Json)}
    (h : EntriesRel (fun v v' => prettySize number (depth + 1) v ≤ prettySize number (depth + 1) v')
      fields fields') :
    prettySize number depth (.obj fields) ≤ prettySize number depth (.obj fields') := by
  have hfields : List.Forall₂ (· ≤ ·) (fields.map (fieldSize number depth))
      (fields'.map (fieldSize number depth)) := by
    rw [List.forall₂_map_left_iff, List.forall₂_map_right_iff]
    refine h.imp fun e e' hrel => ?_
    unfold fieldSize
    rw [hrel.1]
    have hvalue := hrel.2
    omega
  have hsizes := hfields.sum_le_sum
  cases h with
  | nil => exact le_rfl
  | cons head tail =>
      rw [prettySize_obj_cons, prettySize_obj_cons]
      omega

/-- The value of a field is part of an object's rendering. -/
theorem prettySize_le_obj {fields : List (String × Json)} {e : String × Json} (h : e ∈ fields) :
    prettySize number (depth + 1) e.2 ≤ prettySize number depth (.obj fields) := by
  have hfield : prettySize number (depth + 1) e.2 ≤ fieldSize number depth e :=
    Nat.le_add_left _ _
  have hsum : fieldSize number depth e ≤ (fields.map (fieldSize number depth)).sum :=
    List.le_sum_of_mem (List.mem_map_of_mem h)
  cases fields with
  | nil => cases h
  | cons e' rest =>
      rw [prettySize_obj_cons]
      omega

/-- No rendering is empty if no number's is. -/
theorem prettySize_pos (hnumber : ∀ n, 0 < (number n).utf8ByteSize) (v : Json) :
    0 < prettySize number depth v := by
  cases v with
  | null => exact Nat.zero_lt_succ 3
  | bool b =>
      cases b with
      | false => exact Nat.zero_lt_succ 4
      | true => exact Nat.zero_lt_succ 3
  | num n => exact hnumber n
  | str s =>
      rw [prettySize_str, utf8ByteSize_quoted]
      omega
  | arr items =>
      cases items with
      | nil => exact Nat.zero_lt_succ 1
      | cons v items =>
          rw [prettySize_arr_cons]
          omega
  | obj fields =>
      cases fields with
      | nil => exact Nat.zero_lt_succ 1
      | cons e fields =>
          rw [prettySize_obj_cons]
          omega

end Json

end UnifiMcp
