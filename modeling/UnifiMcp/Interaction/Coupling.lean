import UnifiMcp.Interaction.World

/-!
# Two runs at once

`Program.Coupled R Q p p'` says that two programs ask the same questions as long as their
answers are related by `R`, and that they then end in results related by `Q`.  A program is
coupled with itself where related answers are the same (`coupled_of_asks`), sequences are
coupled part by part (`Coupled.bind`), and in two environments that answer alike coupled
programs have related results (`Coupled.eval`).
-/

namespace Interaction

variable {S : Signature} {α β γ δ ε σ : Type}

/-- For each question, which two answers are alike. -/
abbrev Likeness (S : Signature) : Type := (op : S.Op) → S.Answer op → S.Answer op → Prop

/-- Two programs that related answers lead to related results. -/
inductive Program.Coupled (R : Likeness S) (Q : α → β → Prop) :
    Program S α → Program S β → Prop where
  | done {a : α} {b : β} (h : Q a b) : Coupled R Q (.done a) (.done b)
  | call (op : S.Op) {next : S.Answer op → Program S α} {next' : S.Answer op → Program S β}
      (h : ∀ ans ans', R op ans ans' → Coupled R Q (next ans) (next' ans')) :
      Coupled R Q (.call op next) (.call op next')

namespace Program

variable {R : Likeness S} {Q : α → β → Prop}

theorem Coupled.mono {Q' : α → β → Prop} {p : Program S α} {p' : Program S β}
    (h : Coupled R Q p p') (hQ : ∀ a b, Q a b → Q' a b) : Coupled R Q' p p' := by
  induction h with
  | done h => exact .done (hQ _ _ h)
  | call op _ ih => exact .call op ih

theorem Coupled.bind {Q' : γ → δ → Prop} {p : Program S α} {p' : Program S β}
    {f : α → Program S γ} {f' : β → Program S δ} (h : Coupled R Q p p')
    (hf : ∀ a b, Q a b → Coupled R Q' (f a) (f' b)) : Coupled R Q' (p >>= f) (p' >>= f') := by
  induction h with
  | done h => exact hf _ _ h
  | call op _ ih => exact .call op ih

/-- A program is coupled with itself where alike answers are the same. -/
theorem coupled_of_asks {P : S.Op → Prop} {p : Program S α} (hp : p.Asks P)
    (hR : ∀ op, P op → ∀ ans ans', R op ans ans' → ans = ans') : Coupled R Eq p p := by
  induction p with
  | done a => exact .done rfl
  | call op next ih =>
      refine .call op fun ans ans' h => ?_
      obtain rfl := hR op hp.1 ans ans' h
      exact ih ans (hp.2 ans)

/-- Environments that answer alike bring coupled programs to related results. -/
theorem Coupled.eval {p : Program S α} {p' : Program S β} (h : Coupled R Q p p')
    {answer answer' : (op : S.Op) → σ → S.Answer op × σ}
    (halike : ∀ op s, R op (answer op s).1 (answer' op s).1 ∧ (answer op s).2 = (answer' op s).2)
    (s : σ) : Q (p.eval answer s).1 (p'.eval answer' s).1 := by
  induction h generalizing s with
  | done h => exact h
  | call op _ ih =>
      obtain ⟨hans, hstate⟩ := halike op s
      have hrest := ih _ _ hans (answer op s).2
      rw [Program.eval, Program.eval, ← hstate]
      exact hrest

end Program

namespace Fallible

/-- Two results that are alike: the same error, or values that are. -/
def Both (Q : α → β → Prop) : Except ε α → Except ε β → Prop
  | .ok a, .ok b => Q a b
  | .error e, .error e' => e = e'
  | .ok _, .error _ | .error _, .ok _ => False

theorem both_eq {r r' : Except ε α} : Both Eq r r' ↔ r = r' := by
  cases r <;> cases r' <;> simp [Both]

/-- Two programs that may fail, coupled: they fail with the same error. -/
def Coupled (R : Likeness S) (Q : α → β → Prop) (x : Fallible S ε α) (x' : Fallible S ε β) :
    Prop :=
  Program.Coupled R (Both Q) x.run x'.run

variable {R : Likeness S} {Q : α → β → Prop}

theorem coupled_pure {a : α} {b : β} (h : Q a b) :
    Coupled R Q (pure a : Fallible S ε α) (pure b) :=
  .done h

theorem coupled_ofExcept {r : Except ε α} {r' : Except ε β} (h : Both Q r r') :
    Coupled R Q (Fallible.ofExcept r : Fallible S ε α) (Fallible.ofExcept r') :=
  .done h

/-- One result is coupled with itself. -/
theorem coupled_same (r : Except ε α) :
    Coupled R Eq (Fallible.ofExcept r : Fallible S ε α) (Fallible.ofExcept r) :=
  coupled_ofExcept (both_eq.2 rfl)

theorem Coupled.mono {Q' : α → β → Prop} {x : Fallible S ε α} {x' : Fallible S ε β}
    (h : Coupled R Q x x') (hQ : ∀ a b, Q a b → Q' a b) : Coupled R Q' x x' := by
  refine Program.Coupled.mono h fun r r' hr => ?_
  cases r <;> cases r'
  · exact hr
  · exact hr
  · exact hr
  · exact hQ _ _ hr

theorem Coupled.bind {Q' : γ → δ → Prop} {x : Fallible S ε α} {x' : Fallible S ε β}
    {f : α → Fallible S ε γ} {f' : β → Fallible S ε δ} (h : Coupled R Q x x')
    (hf : ∀ a b, Q a b → Coupled R Q' (f a) (f' b)) : Coupled R Q' (x >>= f) (x' >>= f') := by
  unfold Coupled
  rw [run_bind, run_bind]
  refine Program.Coupled.bind h fun r r' hr => ?_
  cases r with
  | ok a =>
      cases r' with
      | ok b => exact hf a b hr
      | error e => exact hr.elim
  | error e =>
      cases r' with
      | ok b => exact hr.elim
      | error e' => exact .done hr

theorem coupled_of_asks {P : S.Op → Prop} {x : Fallible S ε α} (hx : x.Asks P)
    (hR : ∀ op, P op → ∀ ans ans', R op ans ans' → ans = ans') : Coupled R Eq x x :=
  (Program.coupled_of_asks hx hR).mono fun _ _ h => both_eq.2 h

/-- A single question is coupled with itself by what makes its answers alike. -/
theorem coupled_ask (op : S.Op) : Coupled R (R op) (Fallible.ask S op : Fallible S ε _)
    (Fallible.ask S op) :=
  .call op fun _ _ h => .done h

/-- Trying coupled programs leads to errors that are the same or values that are alike. -/
theorem Coupled.attempt {x : Fallible S ε α} {x' : Fallible S ε β} (h : Coupled R Q x x') :
    Coupled R (Both Q) x.attempt x'.attempt := by
  unfold Coupled Fallible.attempt
  rw [ExceptT.run_mk, ExceptT.run_mk, map_eq_pure_bind, map_eq_pure_bind]
  exact Program.Coupled.bind h fun _ _ hr => .done hr

/-- Two environments that answer alike bring a program coupled with itself to one result. -/
theorem Coupled.eval_eq {x x' : Fallible S ε α} (h : Coupled R Eq x x')
    {answer answer' : (op : S.Op) → σ → S.Answer op × σ}
    (halike : ∀ op s, R op (answer op s).1 (answer' op s).1 ∧ (answer op s).2 = (answer' op s).2)
    (s : σ) : (x.eval answer s).1 = (x'.eval answer' s).1 :=
  both_eq.1 (Program.Coupled.eval h halike s)

end Fallible

end Interaction
