import UnifiMcp.Interaction.Pool

/-!
# Interleavings with the states between

A `Turn` is one event of one of several runs, with the environment before and after it.  A
list of turns in which each takes up where the last left off, `Chained`, is one way the runs
can be interleaved, and `ownTrace` is what one run has of it.

`exists_lastChange` finds the turn a value comes from, when it is not what it was.
-/

namespace Interaction

variable {S : Signature} {σ α β : Type}

/-- One event of one run. -/
structure Turn (S : Signature) (σ : Type) where
  run : Nat
  event : Event S
  before : σ
  after : σ

/-- The turns follow one another from the first state to the last. -/
inductive Chained (step : σ → Event S → σ → Prop) : σ → List (Turn S σ) → σ → Prop where
  | nil (s : σ) : Chained step s [] s
  | cons {u : Turn S σ} {rest : List (Turn S σ)} {s : σ} (head : step u.before u.event u.after)
      (tail : Chained step u.after rest s) : Chained step u.before (u :: rest) s

/-- What one run has asked and been answered. -/
def ownTrace (i : Nat) (turns : List (Turn S σ)) : List (Event S) :=
  turns.filterMap fun u => if u.run = i then some u.event else none

@[simp] theorem ownTrace_append (i : Nat) (turns turns' : List (Turn S σ)) :
    ownTrace i (turns ++ turns') = ownTrace i turns ++ ownTrace i turns' :=
  List.filterMap_append

@[simp] theorem ownTrace_cons_self (u : Turn S σ) (turns : List (Turn S σ)) :
    ownTrace u.run (u :: turns) = u.event :: ownTrace u.run turns := by
  simp [ownTrace]

/-- A turn of the run is among what the run has asked. -/
theorem mem_ownTrace {u : Turn S σ} {turns : List (Turn S σ)} (h : u ∈ turns) :
    u.event ∈ ownTrace u.run turns :=
  List.mem_filterMap.2 ⟨u, h, if_pos rfl⟩

section Chained

variable {step : σ → Event S → σ → Prop} {s s' : σ}

theorem chained_append {turns turns' : List (Turn S σ)} :
    Chained step s (turns ++ turns') s' ↔
      ∃ m, Chained step s turns m ∧ Chained step m turns' s' := by
  induction turns generalizing s with
  | nil =>
      constructor
      · intro h
        exact ⟨s, .nil s, h⟩
      · rintro ⟨m, h, h'⟩
        cases h
        exact h'
  | cons u rest ih =>
      constructor
      · intro h
        cases h with
        | cons head tail =>
            obtain ⟨m, h₁, h₂⟩ := ih.1 tail
            exact ⟨m, .cons head h₁, h₂⟩
      · rintro ⟨m, h₁, h₂⟩
        cases h₁ with
        | cons head tail => exact .cons head (ih.2 ⟨m, tail, h₂⟩)

theorem chained_cons {u : Turn S σ} {rest : List (Turn S σ)} :
    Chained step s (u :: rest) s' ↔
      s = u.before ∧ step u.before u.event u.after ∧ Chained step u.after rest s' := by
  constructor
  · intro h
    cases h with
    | cons head tail => exact ⟨rfl, head, tail⟩
  · rintro ⟨rfl, head, tail⟩
    exact .cons head tail

/-- What is not as it was comes from some turn, the last that changed it. -/
theorem exists_lastChange {turns : List (Turn S σ)} (h : Chained step s turns s')
    (f : σ → β) (hne : f s' ≠ f s) :
    ∃ u ∈ turns, f u.after ≠ f u.before ∧ f u.after = f s' := by
  induction h with
  | nil s => exact absurd rfl hne
  | @cons u rest s' head tail ih =>
      by_cases hlater : f s' = f u.after
      · exact ⟨u, List.mem_cons_self, fun heq => hne (hlater.trans heq), hlater.symm⟩
      · obtain ⟨w, hw, hchange⟩ := ih hlater
        exact ⟨w, List.mem_cons_of_mem _ hw, hchange⟩

end Chained

/-- What a run has asked by the time it is done with `p`, and what belongs to the beginning
of `p`: the latter is no more than the former. -/
theorem Program.Runs.prefix_of_begins {p : Program S α} {t : List (Event S)} {a : α}
    (h : p.Runs t a) {b rest rest' : List (Event S)} (hb : p.Begins b)
    (heq : t ++ rest = b ++ rest') : b <+: t := by
  induction p generalizing t b with
  | done a' =>
      cases b with
      | nil => exact List.nil_prefix
      | cons e b => exact hb.elim
  | call op next ih =>
      cases b with
      | nil => exact List.nil_prefix
      | cons e b =>
          obtain ⟨ans, t', rfl, h⟩ := h
          obtain ⟨ans', rfl, hb⟩ := hb
          have hcons : (⟨op, ans⟩ : Event S) = ⟨op, ans'⟩ ∧ t' ++ rest = b ++ rest' := by
            simpa using heq
          obtain ⟨hhead, htail⟩ := hcons
          cases hhead
          exact List.cons_prefix_cons.2 ⟨rfl, ih ans h hb htail⟩

end Interaction
