import UnifiMcp.Interaction.Pool
import Mathlib.Data.List.Forall2

/-!
# Pools that carry out what a machine does

A machine is a step relation whose steps have labels, and a `History` is a run of it with its
labels in order.  `Pool.Reachable.refines` is the simulation rule between the two levels: where
starting a call is nothing to the machine, and every question that a call asks is one step of it,
a pool that can be reached carries out a history, in which each label is explained by the entry of
the log at its place.  What holds of the histories is then read back off the log by its places
(`exists_sublist_of_forall₂`, `exists_split_of_forall₂`).
-/

namespace Interaction

variable {τ L : Type}

/-- The labels of a run of a machine, and the state it has come to. -/
inductive History (step : τ → L → τ → Prop) (init : τ) : List L → τ → Prop where
  | init : History step init [] init
  | step {labels : List L} {l : L} {s s' : τ} (before : History step init labels s)
      (last : step s l s') : History step init (labels ++ [l]) s'

/-- A history can be cut at any of its steps. -/
theorem History.split {step : τ → L → τ → Prop} {init s : τ} {before after : List L} {l : L}
    (h : History step init (before ++ l :: after) s) :
    ∃ s₀ s₁, History step init before s₀ ∧ step s₀ l s₁ := by
  generalize hlabels : before ++ l :: after = labels at h
  induction h generalizing after with
  | init => simp at hlabels
  | @step labels l' s₀ s₁ h last ih =>
      rcases List.eq_nil_or_concat after with rfl | ⟨after', l'', rfl⟩
      · obtain ⟨rfl, hl⟩ := List.append_inj' hlabels rfl
        cases hl
        exact ⟨s₀, s₁, h, last⟩
      · rw [List.concat_eq_append, ← List.cons_append, ← List.append_assoc] at hlabels
        exact ih (List.append_inj' hlabels rfl).1

/-! ## Lists that go together -/

section Lists

variable {α β : Type} {R : α → β → Prop}

/-- What is found in order in one of two lists that go together, is found in the other. -/
theorem exists_sublist_of_forall₂ {xs : List α} {ys ys' : List β} (h : List.Forall₂ R xs ys)
    (hsub : ys'.Sublist ys) : ∃ xs' : List α, xs'.Sublist xs ∧ List.Forall₂ R xs' ys' := by
  induction h generalizing ys' with
  | nil =>
      obtain rfl := List.sublist_nil.1 hsub
      exact ⟨[], .slnil, .nil⟩
  | @cons x y xs ys hxy h ih =>
      cases hsub with
      | cons _ hsub =>
          obtain ⟨xs', hxs, hboth⟩ := ih hsub
          exact ⟨xs', hxs.cons x, hboth⟩
      | cons_cons _ hsub =>
          obtain ⟨xs', hxs, hboth⟩ := ih hsub
          exact ⟨x :: xs', hxs.cons_cons x, .cons hxy hboth⟩

/-- Cutting one of two lists that go together cuts the other. -/
theorem exists_split_of_forall₂ {before after : List α} {x : α} {ys : List β}
    (h : List.Forall₂ R (before ++ x :: after) ys) :
    ∃ before' y after', ys = before' ++ y :: after' ∧ List.Forall₂ R before before' ∧ R x y ∧
      List.Forall₂ R after after' := by
  induction before generalizing ys with
  | nil =>
      obtain ⟨y, after', hxy, hrest, rfl⟩ := List.forall₂_cons_left_iff.1 h
      exact ⟨[], y, after', rfl, .nil, hxy, hrest⟩
  | cons x' before ih =>
      obtain ⟨y', ys', hfirst, hrest, rfl⟩ := List.forall₂_cons_left_iff.1 h
      obtain ⟨before', y, after', rfl, hbefore, hxy, hafter⟩ := ih hrest
      exact ⟨y' :: before', y, after', rfl, .cons hfirst hbefore, hxy, hafter⟩

/-- What stands in the second of two such lists stands for something in the first. -/
theorem exists_mem_of_forall₂ {xs : List α} {ys : List β} (h : List.Forall₂ R xs ys) {x : α}
    (hx : x ∈ xs) : ∃ y ∈ ys, R x y := by
  obtain ⟨before, after, rfl⟩ := List.append_of_mem hx
  obtain ⟨before', y, after', rfl, -, hxy, -⟩ := exists_split_of_forall₂ h
  exact ⟨y, List.mem_append_right _ List.mem_cons_self, hxy⟩

theorem forall₂_concat {xs : List α} {ys : List β} (h : List.Forall₂ R xs ys) {x : α} {y : β}
    (hxy : R x y) : List.Forall₂ R (xs ++ [x]) (ys ++ [y]) :=
  List.rel_append h (.cons hxy .nil)

end Lists

/-! ## The simulation rule -/

section Refines

variable {S : Signature} {σ κ α : Type} {code : κ → Program S α} {step : σ → Event S → σ → Prop}
  {init : σ} {step' : τ → L → τ → Prop} {init' : τ}
  {R : Pool S σ κ → τ → Prop} {Explains : List κ → Nat × Event S → L → Prop}

/-- **A pool that can be reached carries out a history of the machine.** -/
theorem Pool.Reachable.refines (hinit : R ⟨init, [], []⟩ init')
    (hstart : ∀ {p : Pool S σ κ} {s : τ} (k : κ), p.Reachable code step init → R p s →
      R ⟨p.world, p.calls ++ [k], p.log⟩ s)
    (hexplains : ∀ {calls : List κ} {x : Nat × Event S} {l : L} (k : κ), Explains calls x l →
      Explains (calls ++ [k]) x l)
    (hturn : ∀ {p : Pool S σ κ} {labels : List L} {s : τ} {i : Nat} {k : κ} {e : Event S}
      {world : σ}, p.Reachable code step init → History step' init' labels s →
      List.Forall₂ (Explains p.calls) p.log labels → R p s → p.calls[i]? = some k →
      (code k).Begins (ownEvents p.log i ++ [e]) → step p.world e world →
      ∃ l s', step' s l s' ∧ Explains p.calls (i, e) l ∧
        R ⟨world, p.calls, p.log ++ [(i, e)]⟩ s')
    {p : Pool S σ κ} (h : p.Reachable code step init) :
    ∃ labels s, History step' init' labels s ∧
      List.Forall₂ (Explains p.calls) p.log labels ∧ R p s := by
  induction h with
  | init => exact ⟨[], init', .init, .nil, hinit⟩
  | start k h ih =>
      obtain ⟨labels, s, hhistory, hlog, hrel⟩ := ih
      exact ⟨labels, s, hhistory, hlog.imp fun _ _ => hexplains k, hstart k h hrel⟩
  | turn h call begun answered ih =>
      obtain ⟨labels, s, hhistory, hlog, hrel⟩ := ih
      obtain ⟨l, s', hlast, hexplained, hrel'⟩ :=
        hturn h hhistory hlog hrel call begun answered
      exact ⟨labels ++ [l], s', hhistory.step hlast, forall₂_concat hlog hexplained, hrel'⟩

end Refines

end Interaction
