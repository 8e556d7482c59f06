import Mathlib.Algebra.GroupWithZero.Nat
import Mathlib.Data.List.Basic
import Mathlib.Tactic.Common

/-!
# The bytes of a text

A text takes the bytes of its characters, from one to four each, so it has no more characters than
bytes, and as many exactly when all of them are ASCII (`bytes_eq_length_iff`).  `bytes_lt_iff` says
when a text gets shorter by leaving characters out and cutting what is left.
-/

namespace Text

/-- How many bytes the characters take. -/
def bytes (cs : List Char) : Nat := (cs.map Char.utf8Size).sum

variable {cs : List Char}

@[simp] theorem bytes_nil : bytes [] = 0 := rfl

@[simp] theorem bytes_cons (c : Char) (cs : List Char) :
    bytes (c :: cs) = c.utf8Size + bytes cs := by
  unfold bytes
  rw [List.map_cons, List.sum_cons]

theorem bytes_append (cs ds : List Char) : bytes (cs ++ ds) = bytes cs + bytes ds := by
  unfold bytes
  rw [List.map_append, List.sum_append]

theorem bytes_replicate (n : Nat) (c : Char) : bytes (List.replicate n c) = n * c.utf8Size := by
  induction n with
  | zero => rw [List.replicate_zero, bytes_nil, Nat.zero_mul]
  | succ n ih => rw [List.replicate_succ, bytes_cons, ih, Nat.succ_mul, Nat.add_comm]

theorem utf8ByteSize_ofList (cs : List Char) : (String.ofList cs).utf8ByteSize = bytes cs := by
  induction cs with
  | nil => rfl
  | cons c cs ih =>
      rw [String.ofList_cons, String.utf8ByteSize_append, String.utf8ByteSize_singleton, ih,
        bytes_cons]

theorem utf8ByteSize_eq_bytes (s : String) : s.utf8ByteSize = bytes s.toList := by
  rw [← utf8ByteSize_ofList, String.ofList_toList]

/-! ## Characters and bytes -/

theorem length_le_bytes (cs : List Char) : cs.length ≤ bytes cs := by
  induction cs with
  | nil => exact Nat.le_refl 0
  | cons c cs ih =>
      have hc := c.utf8Size_pos
      rw [List.length_cons, bytes_cons]
      omega

theorem bytes_eq_zero_iff : bytes cs = 0 ↔ cs = [] := by
  constructor
  · intro h
    have hle := length_le_bytes cs
    exact List.length_eq_zero_iff.1 (by omega)
  · rintro rfl
    rfl

/-- A character of one byte is an ASCII character. -/
theorem utf8Size_eq_one_iff {c : Char} : c.utf8Size = 1 ↔ c.toNat < 128 := by
  rw [Char.utf8Size_eq_one_iff, UInt32.le_iff_toNat_le]
  exact Nat.lt_succ_iff.symm

/-- There are as many bytes as characters exactly when all of them are ASCII. -/
theorem bytes_eq_length_iff : bytes cs = cs.length ↔ ∀ c ∈ cs, c.toNat < 128 := by
  induction cs with
  | nil => exact iff_of_true rfl nofun
  | cons c cs ih =>
      have hc := c.utf8Size_pos
      have hle := length_le_bytes cs
      rw [List.forall_mem_cons, ← ih, ← utf8Size_eq_one_iff, bytes_cons, List.length_cons]
      omega

/-! ## Leaving out and cutting -/

theorem bytes_filter_add (p : Char → Bool) (cs : List Char) :
    bytes (cs.filter p) + bytes (cs.filter fun c => !p c) = bytes cs := by
  induction cs with
  | nil => rfl
  | cons c cs ih =>
      cases hc : p c with
      | true =>
          rw [List.filter_cons_of_pos hc, List.filter_cons_of_neg (by simp [hc]), bytes_cons,
            bytes_cons]
          omega
      | false =>
          rw [List.filter_cons_of_neg (by simp [hc]), List.filter_cons_of_pos (by simp [hc]),
            bytes_cons, bytes_cons]
          omega

theorem bytes_take_add (n : Nat) (cs : List Char) :
    bytes (cs.take n) + bytes (cs.drop n) = bytes cs := by
  rw [← bytes_append, List.take_append_drop]

/-- The kept characters of a text, cut after so many, are shorter than the text exactly when one
was left out or some were cut. -/
theorem bytes_lt_iff (p : Char → Bool) (n : Nat) :
    bytes ((cs.filter p).take n) < bytes cs ↔
      (∃ c ∈ cs, p c = false) ∨ n < (cs.filter p).length := by
  have hparts := bytes_filter_add p cs
  have hcut := bytes_take_add n (cs.filter p)
  have hleft : bytes (cs.filter fun c => !p c) = 0 ↔ ¬ ∃ c ∈ cs, p c = false := by
    rw [bytes_eq_zero_iff, List.filter_eq_nil_iff]
    simp
  have hshort : bytes ((cs.filter p).drop n) = 0 ↔ ¬ n < (cs.filter p).length := by
    rw [bytes_eq_zero_iff, List.drop_eq_nil_iff, Nat.not_lt]
  constructor
  · intro hlt
    by_contra hnone
    rw [not_or] at hnone
    have hzero := hleft.2 hnone.1
    have hzero' := hshort.2 hnone.2
    omega
  · rintro (hsome | hlong)
    · have hpos : bytes (cs.filter fun c => !p c) ≠ 0 := fun h => hleft.1 h hsome
      omega
    · have hpos : bytes ((cs.filter p).drop n) ≠ 0 := fun h => hshort.1 h hlong
      omega

end Text
