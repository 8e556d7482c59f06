import Mathlib.Algebra.GroupWithZero.Nat
import UnifiMcp.Interaction.Pool

/-!
# Programs on a budget

A tariff puts a price on each question and lets an answer give credit.  A program affords its
questions with a budget if, whatever it is answered, it never asks for more than is left of the
budget and of what its answers have given.  Budgets add up along a sequence, a program that asks
only what is free needs none, and interpreting each question by a program that its price affords
keeps the budget.  So a bound on everything a program can ask is read off its text, loops
included, and `Affords.spent_le` is what it says of every beginning of a run.
-/

namespace Interaction

/-- What each question takes and what its answer gives. -/
structure Tariff (S : Signature) where
  price : S.Op → Nat
  credit : Event S → Nat

namespace Tariff

variable {S : Signature} (r : Tariff S)

/-- What the questions of a trace have taken. -/
def spent (t : List (Event S)) : Nat := (t.map fun e => r.price e.op).sum

/-- What the answers of a trace have given. -/
def earned (t : List (Event S)) : Nat := (t.map r.credit).sum

@[simp] theorem spent_nil : r.spent [] = 0 := rfl

@[simp] theorem spent_cons (e : Event S) (t : List (Event S)) :
    r.spent (e :: t) = r.price e.op + r.spent t := List.sum_cons

@[simp] theorem earned_cons (e : Event S) (t : List (Event S)) :
    r.earned (e :: t) = r.credit e + r.earned t := List.sum_cons

/-- A question that takes nothing. -/
def Free (op : S.Op) : Prop := r.price op = 0

end Tariff

variable {S T : Signature} {r : Tariff S} {α β ε : Type}

namespace Program

/-- With a budget, the program can pay whatever it asks, whatever it is answered. -/
def Affords (r : Tariff S) : Program S α → Nat → Prop
  | .done _, _ => True
  | .call op next, n =>
      r.price op ≤ n ∧ ∀ ans, (next ans).Affords r (n - r.price op + r.credit ⟨op, ans⟩)

theorem affords_done (a : α) (n : Nat) : (Program.done a : Program S α).Affords r n := trivial

namespace Affords

variable {p : Program S α} {n m : Nat}

theorem mono (h : p.Affords r n) (hnm : n ≤ m) : p.Affords r m := by
  induction p generalizing n m with
  | done a => trivial
  | call op next ih => exact ⟨Nat.le_trans h.1 hnm, fun ans => ih ans (h.2 ans) (by omega)⟩

/-- The budgets of a sequence add up; the second part may rely on how the first has run. -/
theorem bind_of_runs {f : α → Program S β} (h : p.Affords r m)
    (hf : ∀ t a, p.Runs t a → (f a).Affords r n) : (p >>= f).Affords r (m + n) := by
  induction p generalizing m with
  | done a => exact (hf [] a ⟨rfl, rfl⟩).mono (Nat.le_add_left n m)
  | call op next ih =>
      obtain ⟨hprice, hnext⟩ := h
      refine ⟨by omega, fun ans => ?_⟩
      refine (ih ans (hnext ans) fun t a ht => hf (⟨op, ans⟩ :: t) a ⟨ans, t, rfl, ht⟩).mono ?_
      omega

theorem bind {f : α → Program S β} (h : p.Affords r m) (hf : ∀ a, (f a).Affords r n) :
    (p >>= f).Affords r (m + n) :=
  h.bind_of_runs fun _ a _ => hf a

theorem map (h : p.Affords r n) (f : α → β) : (f <$> p).Affords r n := by
  rw [map_eq_pure_bind]
  exact h.bind fun a => affords_done (f a) 0

theorem of_free (h : p.Asks r.Free) (n : Nat) : p.Affords r n := by
  induction p generalizing n with
  | done a => trivial
  | call op next ih =>
      obtain ⟨hfree, hnext⟩ := h
      exact ⟨hfree ▸ Nat.zero_le n, fun ans => ih ans (hnext ans) _⟩

/-- If the price of each question affords the program it is answered by, the interpretation of a
program keeps to its budget. -/
theorem interpret {r' : Tariff T} {impl : (op : S.Op) → Program T (S.Answer op)}
    (hcredit : ∀ e, r.credit e = 0) (himpl : ∀ op, (impl op).Affords r' (r.price op))
    (h : p.Affords r n) : (p.interpret impl).Affords r' n := by
  induction p generalizing n with
  | done a => trivial
  | call op next ih =>
      obtain ⟨hprice, hnext⟩ := h
      have hrest : ∀ ans, ((next ans).interpret impl).Affords r' (n - r.price op) := by
        intro ans
        have hans := hnext ans
        rw [hcredit, Nat.add_zero] at hans
        exact ih ans hans
      exact ((himpl op).bind hrest).mono (by omega)

/-- **What has been asked was paid for** out of the budget and the answers. -/
theorem spent_le (h : p.Affords r n) {t : List (Event S)} (ht : p.Begins t) :
    r.spent t ≤ n + r.earned t := by
  induction p generalizing t n with
  | done a =>
      cases t with
      | nil => exact Nat.zero_le _
      | cons e t => exact ht.elim
  | call op next ih =>
      cases t with
      | nil => exact Nat.zero_le _
      | cons e t =>
          obtain ⟨ans, rfl, ht⟩ := ht
          obtain ⟨hprice, hnext⟩ := h
          have hrest := ih ans (hnext ans) ht
          rw [Tariff.spent_cons, Tariff.earned_cons]
          dsimp only
          omega

end Affords

end Program

namespace Fallible

/-- With a budget, the program can pay whatever it asks, whatever it is answered. -/
def Affords (r : Tariff S) (x : Fallible S ε α) (n : Nat) : Prop := Program.Affords r x.run n

@[simp] theorem affords_pure (a : α) (n : Nat) : Affords r (pure a : Fallible S ε α) n := trivial

@[simp] theorem affords_throw (e : ε) (n : Nat) : Affords r (throw e : Fallible S ε α) n := trivial

@[simp] theorem affords_ofExcept (x : Except ε α) (n : Nat) :
    Affords r (ofExcept x : Fallible S ε α) n := trivial

namespace Affords

variable {x : Fallible S ε α} {f : α → Fallible S ε β} {n m : Nat}

theorem mono (h : x.Affords r n) (hnm : n ≤ m) : x.Affords r m := Program.Affords.mono h hnm

theorem of_free (h : x.Asks r.Free) (n : Nat) : x.Affords r n := Program.Affords.of_free h n

theorem bind (h : x.Affords r m) (hf : ∀ a, (f a).Affords r n) :
    (x >>= f).Affords r (m + n) := by
  rw [Affords, run_bind]
  refine Program.Affords.bind h fun result => ?_
  cases result with
  | ok a => exact hf a
  | error e => trivial

/-- What follows a first part has what that leaves of the budget. -/
theorem bind_rest (h : x.Affords r m) (hmn : m ≤ n) (hf : ∀ a, (f a).Affords r (n - m)) :
    (x >>= f).Affords r n := by
  have hbind := bind h hf
  rwa [Nat.add_sub_cancel' hmn] at hbind

/-- What follows a first part that asks only what is free has the whole budget. -/
theorem free_bind (h : x.Asks r.Free) (hf : ∀ a, (f a).Affords r n) : (x >>= f).Affords r n := by
  have hbind := bind (of_free h 0) hf
  rwa [Nat.zero_add] at hbind

/-- What follows a question has what is left of the budget, and the credit of the answer. -/
theorem ask_bind {op : S.Op} {f : S.Answer op → Fallible S ε β} (hprice : r.price op ≤ n)
    (hf : ∀ ans, (f ans).Affords r (n - r.price op + r.credit ⟨op, ans⟩)) :
    (ask S op >>= f).Affords r n :=
  ⟨hprice, hf⟩

theorem map (h : x.Affords r n) (g : α → β) : (g <$> x).Affords r n := by
  rw [map_eq_pure_bind]
  exact bind h fun a => affords_pure (g a) 0

theorem attempt (h : x.Affords r n) : x.attempt.Affords r n := Program.Affords.map h _

theorem lift {p : Program S α} (h : p.Affords r n) :
    Affords r (ExceptT.lift p : Fallible S ε α) n :=
  Program.Affords.map h _

end Affords

end Fallible

end Interaction
