import UnifiMcp.Interaction.Pool

/-!
# What a program keeps to while its environment keeps to something

`p.Secures A P Q` says that `p` asks questions that satisfy `P` for as long as the answers it has
been given satisfy `A`, and that what it then returns satisfies `Q`.  With no assumption this is
`Program.Within`; what it adds is that a later question may depend on an earlier answer that was
sound.  The rules follow the structure of a program, and `Secures.interpret` takes the assumption
of one signature from what the programs over the next one return.

`Secures.of_begins` reads the promise off the beginning of a run: a question that breaks it comes
after an answer that broke the assumption.
-/

namespace Interaction

variable {S T : Signature} {α β : Type}

namespace Program

/-- As long as it is answered with `A`, the program asks for `P`, and returns something in `Q`. -/
def Secures (A : Event S → Prop) (P : S.Op → Prop) (Q : α → Prop) : Program S α → Prop
  | .done a => Q a
  | .call op next => P op ∧ ∀ ans, A ⟨op, ans⟩ → (next ans).Secures A P Q

variable {A : Event S → Prop} {P : S.Op → Prop} {Q : α → Prop} {p : Program S α}

theorem Secures.bind {R : β → Prop} {f : α → Program S β} (hp : p.Secures A P Q)
    (hf : ∀ a, Q a → (f a).Secures A P R) : (p >>= f).Secures A P R := by
  induction p with
  | done a => exact hf a hp
  | call op next ih => exact ⟨hp.1, fun ans hans => ih ans (hp.2 ans hans)⟩

/-- What a program asks in any case, it asks here too. -/
theorem Secures.and_asks {R : S.Op → Prop} (hp : p.Secures A P Q) (h : p.Asks R) :
    p.Secures A (fun op => P op ∧ R op) Q := by
  induction p with
  | done a => exact hp
  | call op next ih =>
      exact ⟨⟨hp.1, h.1⟩, fun ans hans => ih ans (hp.2 ans hans) (h.2 ans)⟩

/-- What a program asks can be seen apart from what it returns. -/
theorem secures_of_asks (hp : p.Asks P)
    (h : ∀ t a, p.Runs t a → (∀ e ∈ t, A e) → Q a) : p.Secures A P Q := by
  induction p with
  | done a => exact h [] a ⟨rfl, rfl⟩ (by simp)
  | call op next ih =>
      refine ⟨hp.1, fun ans hans => ih ans (hp.2 ans) fun t a hrun ht => ?_⟩
      exact h (⟨op, ans⟩ :: t) a ⟨ans, t, rfl, hrun⟩ (List.forall_mem_cons.2 ⟨hans, ht⟩)

/-- The answers that a program over another signature gives are sound when its own are. -/
theorem Secures.interpret {impl : (op : S.Op) → Program T (S.Answer op)} {B : Event T → Prop}
    {R : T.Op → Prop} (hp : p.Secures A P Q)
    (himpl : ∀ op, P op → (impl op).Secures B R fun ans => A ⟨op, ans⟩) :
    (p.interpret impl).Secures B R Q := by
  induction p with
  | done a => exact hp
  | call op next ih =>
      exact (himpl op hp.1).bind fun ans hans => ih ans (hp.2 ans hans)

/-- **The promise is kept up to the first answer that is not sound**, and with the question
after it at the latest. -/
theorem Secures.of_begins (hp : p.Secures A P Q) {before after : List (Event S)} {e : Event S}
    (h : p.Begins (before ++ e :: after)) (hbefore : ∀ e' ∈ before, A e') : P e.op := by
  induction p generalizing before with
  | done a =>
      cases before with
      | nil => exact h.elim
      | cons e' before => exact h.elim
  | call op next ih =>
      cases before with
      | nil =>
          obtain ⟨ans, rfl, -⟩ := h
          exact hp.1
      | cons e' before =>
          obtain ⟨ans, rfl, h⟩ := h
          obtain ⟨hans, hbefore⟩ := List.forall_mem_cons.1 hbefore
          exact ih ans (hp.2 ans hans) h hbefore

end Program

end Interaction
