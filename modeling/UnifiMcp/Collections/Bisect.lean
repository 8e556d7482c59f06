import Mathlib.Algebra.Group.Nat.Defs
import Mathlib.Data.Nat.Basic
import Mathlib.Tactic.Common

/-!
# The largest size that fits

`bisect fits lo hi` halves the interval from `lo` to `hi` until one number is left.  What is
left is a number that fits and whose successor does not, unless it is an end of the interval
(`bisect_spec`).  When everything below a size that fits fits too, this decides how the
result compares with a given size, and the result is the largest size that fits
(`bisect_greatest`).  In machine arithmetic the search comes to the same number
(`checkedBisect_eq`): no difference goes below zero and no sum leaves the word.
-/

namespace Collections

/-- Halve the interval, keeping the upper half when its middle fits. -/
def bisect (fits : Nat → Bool) (lo hi : Nat) : Nat :=
  if _h : lo < hi then
    let mid := lo + (hi - lo + 1) / 2
    if fits mid then bisect fits mid hi else bisect fits lo (mid - 1)
  else lo
termination_by hi - lo
decreasing_by all_goals omega

theorem bisect_spec (fits : Nat → Bool) {lo hi : Nat} (h : lo ≤ hi) :
    lo ≤ bisect fits lo hi ∧ bisect fits lo hi ≤ hi ∧
      (bisect fits lo hi = lo ∨ fits (bisect fits lo hi) = true) ∧
      (bisect fits lo hi = hi ∨ fits (bisect fits lo hi + 1) = false) := by
  induction lo, hi using bisect.induct fits with
  | case1 lo hi hlt mid hfits ih =>
      have hmid : mid = lo + (hi - lo + 1) / 2 := rfl
      rw [bisect, dif_pos hlt, if_pos hfits, ← hmid]
      obtain ⟨hlo, hhi, hleft, hright⟩ := ih (by omega)
      refine ⟨by omega, hhi, ?_, hright⟩
      rcases hleft with hleft | hleft
      · exact .inr (hleft.symm ▸ hfits)
      · exact .inr hleft
  | case2 lo hi hlt mid hfits ih =>
      have hmid : mid = lo + (hi - lo + 1) / 2 := rfl
      rw [bisect, dif_pos hlt, if_neg hfits, ← hmid]
      obtain ⟨hlo, hhi, hleft, hright⟩ := ih (by omega)
      refine ⟨hlo, by omega, hleft, ?_⟩
      rcases hright with hright | hright
      · rw [hright, Nat.sub_add_cancel (by omega)]
        exact .inr (Bool.eq_false_iff.2 hfits)
      · exact .inr hright
  | case3 lo hi hlt =>
      rw [bisect, dif_neg hlt]
      exact ⟨Nat.le_refl lo, h, .inl rfl, .inl (by omega)⟩

variable {fits : Nat → Bool} {total : Nat}

/-- Something is left when one fits. -/
theorem one_le_bisect_iff (hdown : ∀ m n, m ≤ n → fits n = true → fits m = true)
    (htotal : 0 < total) : 1 ≤ bisect fits 0 total ↔ fits 1 = true := by
  obtain ⟨-, -, hleft, hright⟩ := bisect_spec fits (Nat.zero_le total)
  constructor
  · intro hone
    rcases hleft with hleft | hleft
    · omega
    · exact hdown 1 _ hone hleft
  · intro hone
    by_contra hzero
    have hzero : bisect fits 0 total = 0 := by omega
    rw [hzero] at hright
    rcases hright with hright | hright
    · omega
    · rw [hone] at hright
      cases hright

/-- At most `k` are left when there are no more, or one more does not fit. -/
theorem bisect_le_iff (hdown : ∀ m n, m ≤ n → fits n = true → fits m = true) (k : Nat) :
    bisect fits 0 total ≤ k ↔ total ≤ k ∨ fits (k + 1) = false := by
  obtain ⟨-, htotal, hleft, hright⟩ := bisect_spec fits (Nat.zero_le total)
  constructor
  · intro hk
    rcases hright with hright | hright
    · exact .inl (hright.symm ▸ hk)
    · refine .inr (Bool.eq_false_iff.2 fun hfits => ?_)
      rw [hdown _ _ (by omega) hfits] at hright
      cases hright
  · rintro (hk | hk)
    · omega
    · by_contra hlt
      rcases hleft with hleft | hleft
      · omega
      · rw [hdown (k + 1) _ (by omega) hleft] at hk
        cases hk

/-- What is left is the largest size that fits, or zero if none does. -/
theorem bisect_greatest (hdown : ∀ m n, m ≤ n → fits n = true → fits m = true) :
    (bisect fits 0 total = 0 ∨ fits (bisect fits 0 total) = true) ∧
      ∀ n ≤ total, fits n = true → n ≤ bisect fits 0 total := by
  obtain ⟨-, -, hleft, hright⟩ := bisect_spec fits (Nat.zero_le total)
  refine ⟨hleft, fun n hn hfits => ?_⟩
  rcases hright with hright | hright
  · omega
  · by_contra hlt
    rw [hdown (bisect fits 0 total + 1) n (by omega) hfits] at hright
    cases hright

/-! ## In machine arithmetic -/

/-- A sum that fits a word of `width` bits. -/
def checkedAdd (width m n : Nat) : Option Nat := if m + n < 2 ^ width then some (m + n) else none

/-- A difference that does not go below zero. -/
def checkedSub (m n : Nat) : Option Nat := if n ≤ m then some (m - n) else none

/-- The same search in words of `width` bits and in so many steps.  There is no result if an
operation leaves the word or the steps run out. -/
def checkedBisect (width : Nat) (fits : Nat → Bool) : Nat → Nat → Nat → Option Nat
  | steps, lo, hi =>
      if lo < hi then
        match steps with
        | 0 => none
        | steps + 1 => do
            let span ← checkedSub hi lo
            let half ← checkedAdd width (span / 2) (span % 2)
            let mid ← checkedAdd width lo half
            if fits mid then checkedBisect width fits steps mid hi
            else do
              let hi ← checkedSub mid 1
              checkedBisect width fits steps lo hi
      else some lo

/-- The search ends within as many steps as there are sizes, and no operation leaves the word
when the sizes do not. -/
theorem checkedBisect_eq {width steps lo hi : Nat} (fits : Nat → Bool) (h : lo ≤ hi)
    (hwidth : hi < 2 ^ width) (hsteps : hi - lo ≤ steps) :
    checkedBisect width fits steps lo hi = some (bisect fits lo hi) := by
  induction steps generalizing lo hi with
  | zero =>
      have hdone : ¬ lo < hi := by omega
      rw [checkedBisect, bisect, if_neg hdone, dif_neg hdone]
  | succ steps ih =>
      rw [checkedBisect, bisect]
      by_cases hlt : lo < hi
      · have hspan : checkedSub hi lo = some (hi - lo) := if_pos h
        have hhalf : checkedAdd width ((hi - lo) / 2) ((hi - lo) % 2) =
            some ((hi - lo + 1) / 2) := by
          rw [checkedAdd, if_pos (by omega)]
          congr 1
          omega
        have hmid : checkedAdd width lo ((hi - lo + 1) / 2) =
            some (lo + (hi - lo + 1) / 2) := if_pos (by omega)
        have hpred : checkedSub (lo + (hi - lo + 1) / 2) 1 =
            some (lo + (hi - lo + 1) / 2 - 1) := if_pos (by omega)
        rw [if_pos hlt, dif_pos hlt]
        simp only [hspan, hhalf, hmid, hpred, Option.bind_eq_bind, Option.bind_some]
        split_ifs
        · exact ih (by omega) hwidth (by omega)
        · exact ih (by omega) (by omega) (by omega)
      · rw [if_neg hlt, dif_neg hlt]

end Collections
