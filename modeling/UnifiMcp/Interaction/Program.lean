import Mathlib.Data.List.Basic
import Mathlib.Tactic.Common

/-!
# Programs that question an environment

A program here is a finite or infinitely branching tree: either it has returned,
or it asks its environment one question and continues with the answer.  Nothing
is said about the environment, so a statement about every run of a program is a
statement about every environment it could be put in.

* `Program S α` is the tree, and it is a lawful monad.
* `Program.Runs p t a` says that `p`, answered as the trace `t` records, returns `a`.
* `Program.interpret` replaces each question by a program over another signature,
  and `runs_interpret` says that a run of the result is a run of the original whose
  questions have been expanded one by one.
-/

namespace Interaction

/-- The questions a program may ask, and the type of the answer to each. -/
structure Signature where
  /-- The questions. -/
  Op : Type
  /-- What an answer to a question is. -/
  Answer : Op → Type

/-- A question together with the answer it was given. -/
structure Event (S : Signature) where
  op : S.Op
  answer : S.Answer op

/-- A program over `S` returning a value of type `α`. -/
inductive Program (S : Signature) (α : Type) : Type where
  | done (value : α) : Program S α
  | call (op : S.Op) (next : S.Answer op → Program S α) : Program S α

namespace Program

variable {S T : Signature} {α β γ : Type}

/-- Sequence two programs: graft the second at every leaf of the first. -/
def bind : Program S α → (α → Program S β) → Program S β
  | .done a, f => f a
  | .call op next, f => .call op fun ans => (next ans).bind f

instance : Monad (Program S) where
  pure := .done
  bind := Program.bind

@[simp] theorem pure_eq (a : α) : (pure a : Program S α) = .done a := rfl

@[simp] theorem done_bind (a : α) (f : α → Program S β) :
    (Program.done a : Program S α) >>= f = f a := rfl

@[simp] theorem call_bind (op : S.Op) (next : S.Answer op → Program S α)
    (f : α → Program S β) :
    (Program.call op next >>= f) = .call op fun ans => next ans >>= f := rfl

theorem bind_done (p : Program S α) : p >>= Program.done = p := by
  induction p with
  | done a => rfl
  | call op next ih =>
      rw [call_bind]
      congr 1
      funext ans
      exact ih ans

theorem bind_assoc (p : Program S α) (f : α → Program S β) (g : β → Program S γ) :
    p >>= f >>= g = p >>= fun a => f a >>= g := by
  induction p with
  | done a => rfl
  | call op next ih =>
      simp only [call_bind]
      congr 1
      funext ans
      exact ih ans

instance : LawfulMonad (Program S) :=
  LawfulMonad.mk' _ bind_done (fun _ _ => rfl) bind_assoc

/-- Ask one question and return the answer. -/
def perform (S : Signature) (op : S.Op) : Program S (S.Answer op) := .call op .done

/-! ## Runs -/

/-- `p.Runs t a`: with its questions answered as `t` records, `p` returns `a`. -/
def Runs : Program S α → List (Event S) → α → Prop
  | .done b, t, a => t = [] ∧ b = a
  | .call op next, t, a =>
      ∃ ans rest, t = ⟨op, ans⟩ :: rest ∧ (next ans).Runs rest a

@[simp] theorem runs_done {b a : α} {t : List (Event S)} :
    (Program.done b).Runs t a ↔ t = [] ∧ b = a := Iff.rfl

@[simp] theorem runs_perform {op : S.Op} {t : List (Event S)} {ans : S.Answer op} :
    (perform S op).Runs t ans ↔ t = [⟨op, ans⟩] := by
  constructor
  · rintro ⟨ans', rest, rfl, rfl, rfl⟩
    rfl
  · rintro rfl
    exact ⟨ans, [], rfl, rfl, rfl⟩

/-- A run of a sequence is a run of the first part followed by one of the second. -/
theorem runs_bind {p : Program S α} {f : α → Program S β} {t : List (Event S)} {b : β} :
    (p >>= f).Runs t b ↔ ∃ t₁ t₂ a, t = t₁ ++ t₂ ∧ p.Runs t₁ a ∧ (f a).Runs t₂ b := by
  induction p generalizing t with
  | done a =>
      constructor
      · intro h
        exact ⟨[], t, a, rfl, ⟨rfl, rfl⟩, h⟩
      · rintro ⟨t₁, t₂, a', rfl, ⟨rfl, rfl⟩, h⟩
        exact h
  | call op next ih =>
      constructor
      · rintro ⟨ans, rest, rfl, h⟩
        obtain ⟨t₁, t₂, a, rfl, h₁, h₂⟩ := (ih ans).1 h
        exact ⟨⟨op, ans⟩ :: t₁, t₂, a, rfl, ⟨ans, t₁, rfl, h₁⟩, h₂⟩
      · rintro ⟨t₁, t₂, a, rfl, ⟨ans, rest, rfl, h₁⟩, h₂⟩
        exact ⟨ans, rest ++ t₂, rfl, (ih ans).2 ⟨rest, t₂, a, rfl, h₁, h₂⟩⟩

theorem runs_perform_bind {op : S.Op} {f : S.Answer op → Program S β}
    {t : List (Event S)} {b : β} :
    (perform S op >>= f).Runs t b ↔
      ∃ ans rest, t = ⟨op, ans⟩ :: rest ∧ (f ans).Runs rest b := Iff.rfl

theorem runs_map {p : Program S α} {f : α → β} {t : List (Event S)} {b : β} :
    (f <$> p).Runs t b ↔ ∃ a, p.Runs t a ∧ f a = b := by
  rw [map_eq_pure_bind, runs_bind]
  constructor
  · rintro ⟨t₁, t₂, a, rfl, h, rfl, rfl⟩
    exact ⟨a, by simpa using h, rfl⟩
  · rintro ⟨a, h, rfl⟩
    exact ⟨t, [], a, by simp, h, rfl, rfl⟩

/-- A trace determines what a program returns on it. -/
theorem Runs.unique {p : Program S α} {t : List (Event S)} {a b : α}
    (ha : p.Runs t a) (hb : p.Runs t b) : a = b := by
  induction p generalizing t with
  | done v => exact ha.2.symm.trans hb.2
  | call op next ih =>
      obtain ⟨ans, rest, rfl, ha⟩ := ha
      obtain ⟨ans', rest', heq, hb⟩ := hb
      cases heq
      exact ih ans ha hb

/-! ## The questions a program can ask -/

/-- Every question `p` can ask, whatever it is answered, satisfies `P`. -/
def Asks (P : S.Op → Prop) : Program S α → Prop
  | .done _ => True
  | .call op next => P op ∧ ∀ ans, (next ans).Asks P

variable {P : S.Op → Prop}

theorem Asks.bind {p : Program S α} {f : α → Program S β} (hp : p.Asks P)
    (hf : ∀ a, (f a).Asks P) : (p >>= f).Asks P := by
  induction p with
  | done a => exact hf a
  | call op next ih => exact ⟨hp.1, fun ans => ih ans (hp.2 ans)⟩

theorem Asks.mono {Q : S.Op → Prop} {p : Program S α} (hp : p.Asks P)
    (h : ∀ op, P op → Q op) : p.Asks Q := by
  induction p with
  | done a => trivial
  | call op next ih => exact ⟨h op hp.1, fun ans => ih ans (hp.2 ans)⟩

theorem asks_true (p : Program S α) : p.Asks fun _ => True := by
  induction p with
  | done a => trivial
  | call op next ih => exact ⟨trivial, ih⟩

/-- Every question `p` can ask satisfies `P`, and every value it can return satisfies `Q`. -/
def Within (P : S.Op → Prop) (Q : α → Prop) : Program S α → Prop
  | .done a => Q a
  | .call op next => P op ∧ ∀ ans, (next ans).Within P Q

/-- What follows a first part may rely on what that part returns. -/
theorem Within.asks_bind {Q : α → Prop} {p : Program S α} {f : α → Program S β}
    (hp : p.Within P Q) (hf : ∀ a, Q a → (f a).Asks P) : (p >>= f).Asks P := by
  induction p with
  | done a => exact hf a hp
  | call op next ih => exact ⟨hp.1, fun ans => ih ans (hp.2 ans)⟩

/-- The questions of a run are among those the program can ask. -/
theorem Asks.of_mem {p : Program S α} (hp : p.Asks P) {t : List (Event S)} {a : α}
    (h : p.Runs t a) : ∀ e ∈ t, P e.op := by
  induction p generalizing t with
  | done b =>
      obtain ⟨rfl, -⟩ := h
      simp
  | call op next ih =>
      obtain ⟨ans, rest, rfl, h⟩ := h
      intro e he
      rcases List.mem_cons.1 he with rfl | he
      · exact hp.1
      · exact ih ans (hp.2 ans) h e he

/-! ## Interpretation -/

/-- Answer each question of `p` by running a program over another signature. -/
def interpret (impl : (op : S.Op) → Program T (S.Answer op)) :
    Program S α → Program T α
  | .done a => .done a
  | .call op next => impl op >>= fun ans => (next ans).interpret impl

variable (impl : (op : S.Op) → Program T (S.Answer op))

@[simp] theorem interpret_done (a : α) :
    (Program.done a : Program S α).interpret impl = .done a := rfl

/-- `Expands impl u t`: the trace `t` is `u` with each event replaced by a run of the
program that answers its question, with the recorded answer. -/
inductive Expands : List (Event S) → List (Event T) → Prop where
  | nil : Expands [] []
  | cons {e : Event S} {u : List (Event S)} {t₁ t₂ : List (Event T)}
      (head : (impl e.op).Runs t₁ e.answer) (tail : Expands u t₂) :
      Expands (e :: u) (t₁ ++ t₂)

/-- **Runs of an interpreted program.**  They are the expansions of the runs of the
program itself. -/
theorem runs_interpret {p : Program S α} {t : List (Event T)} {a : α} :
    (p.interpret impl).Runs t a ↔ ∃ u, p.Runs u a ∧ Expands impl u t := by
  induction p generalizing t with
  | done b =>
      constructor
      · rintro ⟨rfl, rfl⟩
        exact ⟨[], ⟨rfl, rfl⟩, .nil⟩
      · rintro ⟨u, ⟨rfl, rfl⟩, hu⟩
        cases hu
        exact ⟨rfl, rfl⟩
  | call op next ih =>
      rw [interpret, runs_bind]
      constructor
      · rintro ⟨t₁, t₂, ans, rfl, h₁, h₂⟩
        obtain ⟨u, hu, ht⟩ := (ih ans).1 h₂
        exact ⟨⟨op, ans⟩ :: u, ⟨ans, u, rfl, hu⟩, .cons h₁ ht⟩
      · rintro ⟨_, ⟨ans, u, rfl, hu⟩, hexp⟩
        cases hexp with
        | cons head tail => exact ⟨_, _, ans, rfl, head, (ih ans).2 ⟨u, hu, tail⟩⟩

variable {impl}

/-- What an interpreted program asks is what the interpretations of its questions ask. -/
theorem Asks.interpret {Q : T.Op → Prop} {p : Program S α} (hp : p.Asks P)
    (himpl : ∀ op, P op → (impl op).Asks Q) : (p.interpret impl).Asks Q := by
  induction p with
  | done a => trivial
  | call op next ih => exact (himpl op hp.1).bind fun ans => ih ans (hp.2 ans)

theorem expands_append {u₁ u₂ : List (Event S)} {t : List (Event T)} :
    Expands impl (u₁ ++ u₂) t ↔
      ∃ t₁ t₂, t = t₁ ++ t₂ ∧ Expands impl u₁ t₁ ∧ Expands impl u₂ t₂ := by
  induction u₁ generalizing t with
  | nil =>
      constructor
      · intro h
        exact ⟨[], t, rfl, .nil, h⟩
      · rintro ⟨t₁, t₂, rfl, h₁, h₂⟩
        cases h₁
        exact h₂
  | cons e u₁ ih =>
      constructor
      · intro h
        cases h with
        | cons head tail =>
            obtain ⟨t₁, t₂, rfl, h₁, h₂⟩ := ih.1 tail
            exact ⟨_, t₂, (List.append_assoc _ _ _).symm, .cons head h₁, h₂⟩
      · rintro ⟨t₁, t₂, rfl, h₁, h₂⟩
        cases h₁ with
        | cons head tail =>
            rw [List.append_assoc]
            exact .cons head (ih.2 ⟨_, _, rfl, tail, h₂⟩)

/-- Events that can each be answered as recorded can be expanded together. -/
theorem exists_expands {u : List (Event S)}
    (h : ∀ e ∈ u, ∃ t, (impl e.op).Runs t e.answer) : ∃ t, Expands impl u t := by
  induction u with
  | nil => exact ⟨[], .nil⟩
  | cons e u ih =>
      obtain ⟨t₁, h₁⟩ := h e List.mem_cons_self
      obtain ⟨t₂, h₂⟩ := ih fun e' he' => h e' (List.mem_cons_of_mem _ he')
      exact ⟨t₁ ++ t₂, .cons h₁ h₂⟩

/-- Each event of an expanded trace was answered by a run of its own. -/
theorem Expands.of_mem {u : List (Event S)} {t : List (Event T)} (h : Expands impl u t)
    {e : Event S} (he : e ∈ u) :
    ∃ t', (impl e.op).Runs t' e.answer ∧ ∀ e' ∈ t', e' ∈ t := by
  induction h with
  | nil => cases he
  | cons head tail ih =>
      rcases List.mem_cons.1 he with rfl | he
      · exact ⟨_, head, fun e' he' => List.mem_append_left _ he'⟩
      · obtain ⟨t', ht', hsub⟩ := ih he
        exact ⟨t', ht', fun e' he' => List.mem_append_right _ (hsub e' he')⟩

/-- Each event of the expansion belongs to a run that answers some event. -/
theorem Expands.exists_of_mem {u : List (Event S)} {t : List (Event T)} (h : Expands impl u t)
    {e' : Event T} (he' : e' ∈ t) :
    ∃ e ∈ u, ∃ t', (impl e.op).Runs t' e.answer ∧ e' ∈ t' := by
  induction h with
  | nil => cases he'
  | @cons e u t₁ t₂ head tail ih =>
      rcases List.mem_append.1 he' with he' | he'
      · exact ⟨e, List.mem_cons_self, t₁, head, he'⟩
      · obtain ⟨e₁, he₁, hrun⟩ := ih he'
        exact ⟨e₁, List.mem_cons_of_mem _ he₁, hrun⟩

end Program

end Interaction
