import UnifiMcp.Interaction.Fallible

/-!
# Environments with a state

An environment is a relation on its states saying which events it can take part in.
`Path step s t s'` is the environment's side of a run: the events of `t`, in order,
lead it from `s` to `s'`.  A run of a program inside an environment is then a run of
the program and a path of the environment along the same trace.

`Program.Preserves step I p` says that a run of `p` inside the environment keeps `I`; it
is proved along the structure of the program, or from the questions it can ask.

An environment that always has exactly one answer is a function, and `Program.eval`
runs a program against it.
-/

namespace Interaction

variable {S T : Signature} {σ α : Type}

/-- The environment goes from one state to another along a trace. -/
inductive Path (step : σ → Event S → σ → Prop) : σ → List (Event S) → σ → Prop where
  | nil {s : σ} : Path step s [] s
  | cons {s s₁ s₂ : σ} {e : Event S} {t : List (Event S)}
      (head : step s e s₁) (tail : Path step s₁ t s₂) : Path step s (e :: t) s₂

variable {step : σ → Event S → σ → Prop}

@[simp] theorem path_nil {s s' : σ} : Path step s [] s' ↔ s = s' := by
  constructor
  · intro h
    cases h
    rfl
  · rintro rfl
    exact .nil

theorem path_cons {s s' : σ} {e : Event S} {t : List (Event S)} :
    Path step s (e :: t) s' ↔ ∃ s₁, step s e s₁ ∧ Path step s₁ t s' := by
  constructor
  · intro h
    cases h with
    | cons head tail => exact ⟨_, head, tail⟩
  · rintro ⟨s₁, head, tail⟩
    exact .cons head tail

theorem path_append {s s' : σ} {t₁ t₂ : List (Event S)} :
    Path step s (t₁ ++ t₂) s' ↔ ∃ s₁, Path step s t₁ s₁ ∧ Path step s₁ t₂ s' := by
  induction t₁ generalizing s with
  | nil => simp
  | cons e t₁ ih =>
      simp only [List.cons_append, path_cons, ih]
      constructor
      · rintro ⟨s₁, hs, s₂, h₁, h₂⟩
        exact ⟨s₂, ⟨s₁, hs, h₁⟩, h₂⟩
      · rintro ⟨s₂, ⟨s₁, hs, h₁⟩, h₂⟩
        exact ⟨s₁, hs, s₂, h₁, h₂⟩

/-! ## What a program preserves -/

/-- Run inside the environment, `p` keeps `I`. -/
def Program.Preserves (step : σ → Event S → σ → Prop) (I : σ → Prop) (p : Program S α) : Prop :=
  ∀ s t a s', I s → p.Runs t a → Path step s t s' → I s'

section Preserves

variable {I : σ → Prop} {β ε : Type}

theorem Program.preserves_done (a : α) : (Program.done a : Program S α).Preserves step I := by
  rintro s t a s' hs ⟨rfl, rfl⟩ hpath
  exact path_nil.1 hpath ▸ hs

theorem Program.Preserves.bind {p : Program S α} {f : α → Program S β} (hp : p.Preserves step I)
    (hf : ∀ a, (f a).Preserves step I) : (p >>= f).Preserves step I := by
  intro s t b s' hs hrun hpath
  obtain ⟨t₁, t₂, a, rfl, h₁, h₂⟩ := Program.runs_bind.1 hrun
  obtain ⟨s₁, hpath₁, hpath₂⟩ := path_append.1 hpath
  exact hf a s₁ t₂ b s' (hp s t₁ a s₁ hs h₁ hpath₁) h₂ hpath₂

/-- A program that only asks what keeps `I` keeps it. -/
theorem Program.preserves_of_asks {P : S.Op → Prop} {p : Program S α} (hp : p.Asks P)
    (hstep : ∀ s e s', P e.op → step s e s' → I s → I s') : p.Preserves step I := by
  intro s t a s' hs hrun hpath
  have hasked := hp.of_mem hrun
  clear hrun
  induction hpath with
  | nil => exact hs
  | cons head _ ih =>
      have hnext := hstep _ _ _ (hasked _ List.mem_cons_self) head hs
      exact ih hnext fun e he => hasked e (List.mem_cons_of_mem _ he)

/-- Run inside the environment, `x` keeps `I`, however it ends. -/
def Fallible.Preserves (step : σ → Event S → σ → Prop) (I : σ → Prop) (x : Fallible S ε α) :
    Prop :=
  Program.Preserves step I x.run

theorem Fallible.Preserves.bind {x : Fallible S ε α} {f : α → Fallible S ε β}
    (hx : x.Preserves step I) (hf : ∀ a, (f a).Preserves step I) :
    (x >>= f).Preserves step I := by
  unfold Fallible.Preserves
  rw [Fallible.run_bind]
  refine Program.Preserves.bind hx fun r => ?_
  cases r with
  | ok a => exact hf a
  | error e => exact Program.preserves_done _

theorem Fallible.Preserves.attempt {x : Fallible S ε α} (hx : x.Preserves step I) :
    x.attempt.Preserves step I := by
  unfold Fallible.Preserves Fallible.attempt
  rw [ExceptT.run_mk, map_eq_pure_bind]
  exact Program.Preserves.bind hx fun _ => Program.preserves_done _

theorem Fallible.preserves_of_asks {P : S.Op → Prop} {x : Fallible S ε α} (hx : x.Asks P)
    (hstep : ∀ s e s', P e.op → step s e s' → I s → I s') : x.Preserves step I :=
  Program.preserves_of_asks hx hstep

end Preserves

/-! ## Environments that are functions -/

/-- The relation of an environment that answers by a function of its state. -/
def Answers (answer : (op : S.Op) → σ → S.Answer op × σ) (s : σ) (e : Event S) (s' : σ) :
    Prop :=
  answer e.op s = (e.answer, s')

namespace Program

/-- Run a program against a function environment: what it returns, the trace it
leaves, and the state it leaves the environment in. -/
def eval (answer : (op : S.Op) → σ → S.Answer op × σ) :
    Program S α → σ → α × List (Event S) × σ
  | .done a, s => (a, [], s)
  | .call op next, s =>
      let r := answer op s
      let out := (next r.1).eval answer r.2
      (out.1, ⟨op, r.1⟩ :: out.2.1, out.2.2)

/-- A sequence evaluates its second part where the first one ended. -/
theorem eval_bind {β : Type} (p : Program S α) (f : α → Program S β)
    (answer : (op : S.Op) → σ → S.Answer op × σ) (s : σ) :
    (p >>= f).eval answer s =
      let first := p.eval answer s
      let second := (f first.1).eval answer first.2.2
      (second.1, first.2.1 ++ second.2.1, second.2.2) := by
  induction p generalizing s with
  | done a => rfl
  | call op next ih =>
      rw [call_bind, eval, ih]
      rfl

/-- Environments that answer what a program asks alike are alike to it. -/
theorem eval_congr {P : S.Op → Prop} {p : Program S α} (hp : p.Asks P)
    {answer answer' : (op : S.Op) → σ → S.Answer op × σ}
    (h : ∀ op, P op → ∀ s, answer op s = answer' op s) (s : σ) :
    p.eval answer s = p.eval answer' s := by
  induction p generalizing s with
  | done a => rfl
  | call op next ih =>
      rw [eval, eval, h op hp.1 s, ih _ (hp.2 _)]

/-- What `eval` computes is a run. -/
theorem eval_runs (p : Program S α) (answer : (op : S.Op) → σ → S.Answer op × σ) (s : σ) :
    p.Runs (p.eval answer s).2.1 (p.eval answer s).1 := by
  induction p generalizing s with
  | done a => exact ⟨rfl, rfl⟩
  | call op next ih => exact ⟨_, _, rfl, ih (answer op s).1 (answer op s).2⟩

/-- And its trace is a path of the environment. -/
theorem eval_path (p : Program S α) (answer : (op : S.Op) → σ → S.Answer op × σ) (s : σ) :
    Path (Answers answer) s (p.eval answer s).2.1 (p.eval answer s).2.2 := by
  induction p generalizing s with
  | done a => exact .nil
  | call op next ih => exact .cons rfl (ih (answer op s).1 (answer op s).2)

/-- There is no other run than the one `eval` computes. -/
theorem eval_eq_of_runs {p : Program S α} {answer : (op : S.Op) → σ → S.Answer op × σ}
    {s s' : σ} {t : List (Event S)} {a : α} (h : p.Runs t a)
    (hpath : Path (Answers answer) s t s') : p.eval answer s = (a, t, s') := by
  induction p generalizing s t with
  | done b =>
      obtain ⟨rfl, rfl⟩ := h
      rw [path_nil.1 hpath]
      rfl
  | call op next ih =>
      obtain ⟨ans, rest, rfl, hrest⟩ := h
      obtain ⟨s₁, hstep, hpath⟩ := path_cons.1 hpath
      have hstep : answer op s = (ans, s₁) := hstep
      rw [eval, hstep]
      simp only [ih ans hrest hpath]

/-- A program whose questions are put to another environment comes to what it comes to in
its own, if each of them is answered alike. -/
theorem eval_interpret {impl : (op : S.Op) → Program T (S.Answer op)}
    {answer : (op : S.Op) → σ → S.Answer op × σ} {answer' : (op : T.Op) → σ → T.Answer op × σ}
    (himpl : ∀ op s, ∃ t, (impl op).eval answer' s = ((answer op s).1, t, (answer op s).2))
    (p : Program S α) (s : σ) :
    ∃ t, (p.interpret impl).eval answer' s = ((p.eval answer s).1, t, (p.eval answer s).2.2) := by
  induction p generalizing s with
  | done a => exact ⟨[], rfl⟩
  | call op next ih =>
      obtain ⟨t₁, h₁⟩ := himpl op s
      obtain ⟨t₂, h₂⟩ := ih (answer op s).1 (answer op s).2
      refine ⟨t₁ ++ t₂, ?_⟩
      rw [interpret, eval_bind, h₁]
      simp only [h₂]
      rfl

end Program

namespace Fallible

variable {ε β : Type}

/-- Run a program that may fail against a function environment. -/
def eval (answer : (op : S.Op) → σ → S.Answer op × σ) (x : Fallible S ε α) (s : σ) :
    Except ε α × List (Event S) × σ :=
  Program.eval answer x.run s

variable {answer answer' : (op : S.Op) → σ → S.Answer op × σ}

/-- After a first part that succeeds, a sequence evaluates the second. -/
theorem eval_bind_ok {x : Fallible S ε α} {s s' : σ} {t : List (Event S)} {a : α}
    (h : x.eval answer s = (.ok a, t, s')) (f : α → Fallible S ε β) :
    (x >>= f).eval answer s =
      (((f a).eval answer s').1, t ++ ((f a).eval answer s').2.1, ((f a).eval answer s').2.2) := by
  unfold eval at h ⊢
  rw [run_bind, Program.eval_bind, h]

/-- A first part that fails ends the sequence. -/
theorem eval_bind_error {x : Fallible S ε α} {s s' : σ} {t : List (Event S)} {e : ε}
    (h : x.eval answer s = (.error e, t, s')) (f : α → Fallible S ε β) :
    (x >>= f).eval answer s = (.error e, t, s') := by
  unfold eval at h ⊢
  rw [run_bind, Program.eval_bind, h]
  simp [Program.eval]

/-- Carrying a program out is one of its runs. -/
theorem gives_of_eval {x : Fallible S ε α} {s s' : σ} {t : List (Event S)} {r : Except ε α}
    (h : x.eval answer s = (r, t, s')) : x.Gives t r ∧ Path (Answers answer) s t s' := by
  have hruns := Program.eval_runs x.run answer s
  have hpath := Program.eval_path x.run answer s
  unfold eval at h
  rw [h] at hruns hpath
  exact ⟨hruns, hpath⟩

/-- A sequence that succeeds has two parts that do. -/
theorem eval_bind_eq_ok {x : Fallible S ε α} {f : α → Fallible S ε β} {s s' : σ}
    {t : List (Event S)} {b : β} (h : (x >>= f).eval answer s = (.ok b, t, s')) :
    ∃ a t₁ s₁ t₂, x.eval answer s = (.ok a, t₁, s₁) ∧ (f a).eval answer s₁ = (.ok b, t₂, s') := by
  rcases heval : x.eval answer s with ⟨_ | a, t₁, s₁⟩
  · rw [eval_bind_error heval] at h
    cases h
  · rw [eval_bind_ok heval] at h
    obtain ⟨hb, hrest⟩ := Prod.mk.inj h
    exact ⟨a, t₁, s₁, _, rfl, Prod.ext hb (Prod.ext rfl (Prod.mk.inj hrest).2)⟩

theorem eval_map_eq_ok {x : Fallible S ε α} {f : α → β} {s s' : σ} {t : List (Event S)} {b : β}
    (h : (f <$> x).eval answer s = (.ok b, t, s')) :
    ∃ a t', x.eval answer s = (.ok a, t', s') ∧ f a = b := by
  rw [map_eq_pure_bind] at h
  obtain ⟨a, t₁, s₁, t₂, hx, hpure⟩ := eval_bind_eq_ok h
  cases hpure
  exact ⟨a, t₁, hx, rfl⟩

/-- What the first part of a sequence asks, the sequence asks. -/
theorem mem_trace_bind {x : Fallible S ε α} {s : σ} {e : Event S}
    (h : e ∈ (x.eval answer s).2.1) (f : α → Fallible S ε β) :
    e ∈ ((x >>= f).eval answer s).2.1 := by
  unfold eval at h ⊢
  rw [run_bind, Program.eval_bind]
  exact List.mem_append_left _ h

/-- So does what the second part asks after a first one that succeeds. -/
theorem mem_trace_bind_ok {x : Fallible S ε α} {s s' : σ} {t : List (Event S)} {a : α}
    (h : x.eval answer s = (.ok a, t, s')) {f : α → Fallible S ε β} {e : Event S}
    (he : e ∈ ((f a).eval answer s').2.1) : e ∈ ((x >>= f).eval answer s).2.1 := by
  rw [eval_bind_ok h]
  exact List.mem_append_right _ he

/-- How a sequence ends, whatever its trace is. -/
theorem exists_eval_bind {x : Fallible S ε α} {f : α → Fallible S ε β} {s s' s'' : σ} {a : α}
    {r : Except ε β} (hx : ∃ t, x.eval answer s = (.ok a, t, s'))
    (hf : ∃ t, (f a).eval answer s' = (r, t, s'')) :
    ∃ t, (x >>= f).eval answer s = (r, t, s'') := by
  obtain ⟨t₁, h₁⟩ := hx
  obtain ⟨t₂, h₂⟩ := hf
  exact ⟨t₁ ++ t₂, by rw [eval_bind_ok h₁, h₂]⟩

theorem exists_eval_bind_error {x : Fallible S ε α} {f : α → Fallible S ε β} {s s' : σ} {e : ε}
    (hx : ∃ t, x.eval answer s = (.error e, t, s')) :
    ∃ t, (x >>= f).eval answer s = (.error e, t, s') := by
  obtain ⟨t, h⟩ := hx
  exact ⟨t, eval_bind_error h f⟩

theorem exists_eval_map {x : Fallible S ε α} {s s' : σ} {r : Except ε α} (f : α → β)
    (hx : ∃ t, x.eval answer s = (r, t, s')) :
    ∃ t, (f <$> x).eval answer s = (r.map f, t, s') := by
  obtain ⟨t, h⟩ := hx
  rw [map_eq_pure_bind]
  cases r with
  | ok a => exact ⟨t ++ [], by rw [eval_bind_ok h]; rfl⟩
  | error e => exact ⟨t, eval_bind_error h _⟩

theorem exists_eval_ofExcept {r : Except ε α} {a : α} (h : r = .ok a) (s : σ) :
    ∃ t, (ofExcept r : Fallible S ε α).eval answer s = (.ok a, t, s) := by
  rw [h]
  exact ⟨[], rfl⟩

theorem eval_attempt {x : Fallible S ε α} {s s' : σ} {t : List (Event S)} {r : Except ε α}
    (h : x.eval answer s = (r, t, s')) : x.attempt.eval answer s = (.ok r, t, s') := by
  unfold eval at h ⊢
  rw [attempt, ExceptT.run_mk, map_eq_pure_bind, Program.eval_bind, h]
  simp [Program.eval]

theorem eval_lift {p : Program S α} {s s' : σ} {t : List (Event S)} {a : α}
    (h : p.eval answer s = (a, t, s')) :
    Fallible.eval answer (ExceptT.lift p : Fallible S ε α) s = (.ok a, t, s') := by
  unfold eval
  rw [ExceptT.run_lift, map_eq_pure_bind, Program.eval_bind, h]
  simp [Program.eval]

theorem eval_congr {P : S.Op → Prop} {x : Fallible S ε α} (hx : x.Asks P)
    (h : ∀ op, P op → ∀ s, answer op s = answer' op s) (s : σ) :
    x.eval answer s = x.eval answer' s :=
  Program.eval_congr hx h s

theorem eval_trace_of_asks {P : S.Op → Prop} {x : Fallible S ε α} (hx : x.Asks P) (s : σ) :
    ∀ e ∈ (x.eval answer s).2.1, P e.op :=
  Program.Asks.of_mem hx (Program.eval_runs x.run answer s)

/-- A program that only asks what keeps `I` leaves it. -/
theorem eval_of_asks {P : S.Op → Prop} {I : σ → Prop} {x : Fallible S ε α} (hx : x.Asks P)
    (h : ∀ op s, P op → I s → I (answer op s).2) {s : σ} (hs : I s) :
    I (x.eval answer s).2.2 := by
  refine Fallible.preserves_of_asks hx (fun s e s' hop hstep hs => ?_) s _ _ _ hs
    (Program.eval_runs x.run answer s) (Program.eval_path x.run answer s)
  have hnext : (answer e.op s).2 = s' := congrArg Prod.snd hstep
  exact hnext ▸ h e.op s hop hs

/-- In one environment, what follows a first part may rely on what that returns there. -/
theorem eval_bind_trace_of_asks {P : S.Op → Prop} {x : Fallible S ε α} {f : α → Fallible S ε β}
    {s : σ} (hx : x.Asks P) (hf : ∀ a, (x.eval answer s).1 = .ok a → (f a).Asks P) :
    ∀ e ∈ ((x >>= f).eval answer s).2.1, P e.op := by
  have hfirst : ∀ e ∈ (x.eval answer s).2.1, P e.op := eval_trace_of_asks hx s
  intro e he
  rcases heval : x.eval answer s with ⟨_ | a, t, s'⟩
  · rw [eval_bind_error heval] at he
    rw [heval] at hfirst
    exact hfirst e he
  · rw [eval_bind_ok heval] at he
    rw [heval] at hfirst hf
    rcases List.mem_append.1 he with he | he
    · exact hfirst e he
    · exact eval_trace_of_asks (hf a rfl) s' e he

/-- And so may the comparison with another environment. -/
theorem eval_bind_congr {P : S.Op → Prop} {x : Fallible S ε α} {f : α → Fallible S ε β} {s : σ}
    (hx : x.Asks P) (hf : ∀ a, (x.eval answer s).1 = .ok a → (f a).Asks P)
    (h : ∀ op, P op → ∀ s, answer op s = answer' op s) :
    (x >>= f).eval answer s = (x >>= f).eval answer' s := by
  have hfirst := eval_congr hx h s
  rcases heval : x.eval answer s with ⟨_ | a, t, s'⟩
  · rw [eval_bind_error heval, eval_bind_error (hfirst ▸ heval)]
  · rw [heval] at hf
    rw [eval_bind_ok heval, eval_bind_ok (hfirst ▸ heval), eval_congr (hf a rfl) h s']

end Fallible

end Interaction
