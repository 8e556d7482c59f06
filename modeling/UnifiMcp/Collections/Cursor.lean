import Mathlib.Data.Nat.Basic
import Mathlib.Tactic.Common

/-!
# Walking a list with a cursor

A list of `total` items is read from position 0 on.  At a position `o` the reader sees the
`seen o` items from there on, and goes on at `next o`, if it gets an answer at all; it stops
at the end of the list.

`Complete` says that such a walk sees every item and never stands still.
`complete_iff` decides it by what happens at the positions the walk comes to: there is an
answer, it leads on, and it does not lead past an item that was not seen.
-/

namespace Collections

variable (total : Nat) (next : Nat → Option Nat) (seen : Nat → Nat)

/-- The position after `k` steps, as long as there are answers and the list goes on. -/
def walk : Nat → Option Nat
  | 0 => some 0
  | k + 1 => (walk k).bind fun o => if o < total then next o else none

/-- The walk comes to a position before the end. -/
def Visits (o : Nat) : Prop := o < total ∧ ∃ k, walk total next k = some o

/-- Every step leads on while items remain, and every item is seen. -/
structure Complete : Prop where
  advances : ∀ o, Visits total next o → ∃ o', next o = some o' ∧ o < o'
  sees : ∀ i < total, ∃ o, Visits total next o ∧ o ≤ i ∧ i < o + seen o

variable {total next seen}

theorem visits_zero (h : 0 < total) : Visits total next 0 := ⟨h, 0, rfl⟩

theorem walk_succ {k o : Nat} (h : walk total next k = some o) (ho : o < total) :
    walk total next (k + 1) = next o := by
  rw [walk, h, Option.bind_some, if_pos ho]

theorem Visits.step {o o' : Nat} (h : Visits total next o) (hnext : next o = some o')
    (ho' : o' < total) : Visits total next o' := by
  obtain ⟨ho, k, hk⟩ := h
  exact ⟨ho', k + 1, (walk_succ hk ho).trans hnext⟩

/-- A walk that leads on comes to its positions in order. -/
theorem walk_le (hadvances : ∀ o, Visits total next o → ∃ o', next o = some o' ∧ o < o')
    {j k p o : Nat} (hjk : j ≤ k) (hp : walk total next j = some p)
    (ho : walk total next k = some o) : p ≤ o := by
  induction k, hjk using Nat.le_induction generalizing o with
  | base => exact Nat.le_of_eq (Option.some.inj (hp.symm.trans ho))
  | succ k hjk ih =>
      obtain ⟨q, hq, hnext⟩ := Option.bind_eq_some_iff.1 ho
      split_ifs at hnext with hlt
      obtain ⟨o', ho', hadvance⟩ := hadvances q ⟨hlt, k, hq⟩
      obtain rfl := Option.some.inj (hnext.symm.trans ho')
      exact Nat.le_trans (ih hq) (Nat.le_of_lt hadvance)

/-- If the reader never sees more than `size` items, and sees that many or the rest of the list
where it would leave items out, its walk is complete exactly when each of its steps is good. -/
theorem complete_iff {size : Nat} (hseen : ∀ o, Visits total next o → seen o ≤ size)
    (hskip : ∀ o o', Visits total next o → next o = some o' → o + seen o < o' →
      seen o = size ∨ total ≤ o + seen o) :
    Complete total next seen ↔ ∀ o, Visits total next o →
      ∃ o', next o = some o' ∧ o < o' ∧ (o' ≤ o + seen o ∨ total ≤ o + seen o) := by
  constructor
  · intro h o ho
    obtain ⟨o', hnext, hadvance⟩ := h.advances o ho
    refine ⟨o', hnext, hadvance, ?_⟩
    by_contra hskipped
    rw [not_or, Nat.not_le, Nat.not_le] at hskipped
    obtain ⟨hbeyond, hrest⟩ := hskipped
    have hsize : seen o = size := (hskip o o' ho hnext hbeyond).resolve_right (by omega)
    -- The first item left out is seen from a position between this one and the next.
    obtain ⟨p, hp, hle, hlt⟩ := h.sees (o + seen o) hrest
    have hafter : o < p := by
      have hbound := hseen p hp
      omega
    obtain ⟨-, j, hj⟩ := hp
    obtain ⟨hlast, k, hk⟩ := ho
    rcases Nat.lt_or_ge k j with hjk | hjk
    · have hfrom := walk_le h.advances hjk ((walk_succ hk hlast).trans hnext) hj
      omega
    · have hfrom := walk_le h.advances hjk hj hk
      omega
  · intro h
    refine ⟨fun o ho => ?_, fun i hi => ?_⟩
    · obtain ⟨o', hnext, hadvance, -⟩ := h o ho
      exact ⟨o', hnext, hadvance⟩
    · -- From a position at or before the item, the walk comes to one that sees it.
      have hreach : ∀ n o, i - o = n → Visits total next o → o ≤ i →
          ∃ o, Visits total next o ∧ o ≤ i ∧ i < o + seen o := by
        intro n
        induction n using Nat.strong_induction_on with
        | _ n ih =>
            intro o hn ho hoi
            by_cases hsees : i < o + seen o
            · exact ⟨o, ho, hoi, hsees⟩
            · obtain ⟨o', hnext, hadvance, hgood⟩ := h o ho
              have ho' : o' ≤ i := by omega
              exact ih (i - o') (by omega) o' rfl (ho.step hnext (by omega)) ho'
      exact hreach i 0 rfl (visits_zero (by omega)) (Nat.zero_le i)

end Collections
