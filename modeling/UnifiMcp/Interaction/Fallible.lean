import UnifiMcp.Interaction.Program

/-!
# Programs that may fail

A program that can fail is one that returns an `Except`.  Sequencing stops at the
first error, which is `ExceptT` over `Program`.  The two rules below say what a
successful and what a failing run of a sequence consist of; every later argument
about such a program goes through them rather than through the definition of
`ExceptT`.
-/

namespace Interaction

/-- A program over `S` that returns an `α` or fails with an `ε`. -/
abbrev Fallible (S : Signature) (ε α : Type) : Type := ExceptT ε (Program S) α

namespace Fallible

variable {S : Signature} {ε α β : Type}

/-- Ask a question that is always answered. -/
def ask (S : Signature) {ε : Type} (op : S.Op) : Fallible S ε (S.Answer op) :=
  ExceptT.lift (Program.perform S op)

/-- Ask a question whose answer may be an error, which then is the program's own. -/
def ofAnswer {S : Signature} {ε α : Type} (p : Program S (Except ε α)) : Fallible S ε α :=
  ExceptT.mk p

/-- `x.Gives t r`: with its questions answered as `t` records, `x` ends with `r`. -/
def Gives (x : Fallible S ε α) (t : List (Event S)) (r : Except ε α) : Prop :=
  Program.Runs x.run t r

@[simp] theorem gives_pure {a : α} {t : List (Event S)} {r : Except ε α} :
    Gives (pure a : Fallible S ε α) t r ↔ t = [] ∧ r = .ok a := by
  show t = [] ∧ _ = r ↔ _
  exact and_congr_right fun _ => eq_comm

@[simp] theorem gives_throw {e : ε} {t : List (Event S)} {r : Except ε α} :
    Gives (throw e : Fallible S ε α) t r ↔ t = [] ∧ r = .error e := by
  show t = [] ∧ _ = r ↔ _
  exact and_congr_right fun _ => eq_comm

theorem gives_ask {op : S.Op} {t : List (Event S)} {r : Except ε (S.Answer op)} :
    Gives (ask S op) t r ↔ ∃ ans, t = [⟨op, ans⟩] ∧ r = .ok ans := by
  constructor
  · rintro ⟨ans, rest, rfl, rfl, rfl⟩
    exact ⟨ans, rfl, rfl⟩
  · rintro ⟨ans, rfl, rfl⟩
    exact ⟨ans, [], rfl, rfl, rfl⟩

theorem run_bind (x : Fallible S ε α) (f : α → Fallible S ε β) :
    (x >>= f).run = x.run >>= fun
      | .ok a => (f a).run
      | .error e => .done (.error e) := by
  rw [ExceptT.run_bind]
  rfl

/-- A sequence succeeds exactly when both parts do, one after the other. -/
theorem gives_bind_ok {x : Fallible S ε α} {f : α → Fallible S ε β}
    {t : List (Event S)} {b : β} :
    (x >>= f).Gives t (.ok b) ↔
      ∃ t₁ t₂ a, t = t₁ ++ t₂ ∧ x.Gives t₁ (.ok a) ∧ (f a).Gives t₂ (.ok b) := by
  rw [Gives, run_bind, Program.runs_bind]
  constructor
  · rintro ⟨t₁, t₂, r, rfl, h₁, h₂⟩
    cases r with
    | ok a => exact ⟨t₁, t₂, a, rfl, h₁, h₂⟩
    | error e => cases h₂.2
  · rintro ⟨t₁, t₂, a, rfl, h₁, h₂⟩
    exact ⟨t₁, t₂, .ok a, rfl, h₁, h₂⟩

/-- A sequence fails when its first part does, or when that succeeds and the second
part fails. -/
theorem gives_bind_error {x : Fallible S ε α} {f : α → Fallible S ε β}
    {t : List (Event S)} {e : ε} :
    (x >>= f).Gives t (.error e) ↔
      x.Gives t (.error e) ∨
        ∃ t₁ t₂ a, t = t₁ ++ t₂ ∧ x.Gives t₁ (.ok a) ∧ (f a).Gives t₂ (.error e) := by
  rw [Gives, run_bind, Program.runs_bind]
  constructor
  · rintro ⟨t₁, t₂, r, rfl, h₁, h₂⟩
    cases r with
    | ok a => exact .inr ⟨t₁, t₂, a, rfl, h₁, h₂⟩
    | error e' =>
        obtain ⟨rfl, h⟩ := h₂
        cases h
        exact .inl ((List.append_nil t₁).symm ▸ h₁)
  · rintro (h | ⟨t₁, t₂, a, rfl, h₁, h₂⟩)
    · exact ⟨t, [], .error e, by simp, h, rfl, rfl⟩
    · exact ⟨t₁, t₂, .ok a, rfl, h₁, h₂⟩

/-- Both rules at once, for an argument that does not care how the sequence ends. -/
theorem gives_bind {x : Fallible S ε α} {f : α → Fallible S ε β}
    {t : List (Event S)} {r : Except ε β} :
    (x >>= f).Gives t r ↔
      (∃ e, r = .error e ∧ x.Gives t (.error e)) ∨
        ∃ t₁ t₂ a, t = t₁ ++ t₂ ∧ x.Gives t₁ (.ok a) ∧ (f a).Gives t₂ r := by
  cases r with
  | ok b =>
      rw [gives_bind_ok]
      constructor
      · exact .inr
      · rintro (⟨e, h, -⟩ | h)
        · cases h
        · exact h
  | error e =>
      rw [gives_bind_error]
      constructor
      · rintro (h | h)
        · exact .inl ⟨e, rfl, h⟩
        · exact .inr h
      · rintro (⟨e', h, h'⟩ | h)
        · cases h
          exact .inl h'
        · exact .inr h

/-- Embed a computation that asks nothing. -/
def ofExcept (r : Except ε α) : Fallible S ε α := ExceptT.mk (.done r)

@[simp] theorem gives_ofExcept {r r' : Except ε α} {t : List (Event S)} :
    Gives (ofExcept r : Fallible S ε α) t r' ↔ t = [] ∧ r = r' := Iff.rfl

/-- Run `x` and hand its outcome, success or error, to the continuation. -/
def attempt (x : Fallible S ε α) : Fallible S ε (Except ε α) :=
  ExceptT.mk ((fun r => .ok r) <$> x.run)

@[simp] theorem gives_attempt {x : Fallible S ε α} {t : List (Event S)}
    {r : Except ε (Except ε α)} :
    x.attempt.Gives t r ↔ ∃ r', x.Gives t r' ∧ r = .ok r' := by
  unfold Gives attempt
  rw [ExceptT.run_mk, Program.runs_map]
  constructor
  · rintro ⟨r', h, rfl⟩
    exact ⟨r', h, rfl⟩
  · rintro ⟨r', h, rfl⟩
    exact ⟨r', h, rfl⟩

theorem run_attempt_bind (x : Fallible S ε α) (f : Except ε α → Fallible S ε β) :
    (x.attempt >>= f).run = x.run >>= fun r => (f r).run := by
  rw [run_bind, attempt, ExceptT.run_mk, map_eq_pure_bind, bind_assoc]
  rfl

/-- What is attempted goes on whichever way it ends. -/
theorem gives_attempt_bind {x : Fallible S ε α} {f : Except ε α → Fallible S ε β}
    {t : List (Event S)} {r : Except ε β} :
    (x.attempt >>= f).Gives t r ↔
      ∃ t₁ t₂ r', t = t₁ ++ t₂ ∧ x.Gives t₁ r' ∧ (f r').Gives t₂ r := by
  rw [Gives, run_attempt_bind, Program.runs_bind]
  rfl

/-! ## Sequencing after a first step that is known -/

theorem gives_ask_bind {op : S.Op} {f : S.Answer op → Fallible S ε β}
    {t : List (Event S)} {r : Except ε β} :
    (ask S op >>= f).Gives t r ↔ ∃ ans rest, t = ⟨op, ans⟩ :: rest ∧ (f ans).Gives rest r :=
  Iff.rfl

@[simp] theorem throw_bind (e : ε) (f : α → Fallible S ε β) :
    ((throw e : Fallible S ε α) >>= f) = throw e := rfl

@[simp] theorem ofExcept_ok_bind (a : α) (f : α → Fallible S ε β) :
    ((ofExcept (.ok a) : Fallible S ε α) >>= f) = f a := rfl

@[simp] theorem ofExcept_error_bind (e : ε) (f : α → Fallible S ε β) :
    ((ofExcept (.error e) : Fallible S ε α) >>= f) = throw e := rfl

/-! ## The questions a program can ask -/

/-- Every question `x` can ask, whatever it is answered, satisfies `P`. -/
def Asks (P : S.Op → Prop) (x : Fallible S ε α) : Prop := Program.Asks P x.run

variable {P : S.Op → Prop}

@[simp] theorem asks_pure (a : α) : Asks P (pure a : Fallible S ε α) := trivial

@[simp] theorem asks_throw (e : ε) : Asks P (throw e : Fallible S ε α) := trivial

@[simp] theorem asks_ofExcept (r : Except ε α) : Asks P (ofExcept r : Fallible S ε α) := trivial

theorem asks_ask {op : S.Op} (h : P op) : Asks P (ask S op : Fallible S ε (S.Answer op)) :=
  ⟨h, fun _ => trivial⟩

theorem Asks.bind {x : Fallible S ε α} {f : α → Fallible S ε β} (hx : x.Asks P)
    (hf : ∀ a, (f a).Asks P) : (x >>= f).Asks P := by
  rw [Asks, run_bind]
  refine Program.Asks.bind hx fun r => ?_
  cases r with
  | ok a => exact hf a
  | error e => trivial

theorem Asks.attempt {x : Fallible S ε α} (hx : x.Asks P) : x.attempt.Asks P := by
  rw [Asks, Fallible.attempt, ExceptT.run_mk, map_eq_pure_bind]
  exact Program.Asks.bind hx fun _ => trivial

theorem Asks.of_mem {x : Fallible S ε α} (hx : x.Asks P) {t : List (Event S)}
    {r : Except ε α} (h : x.Gives t r) : ∀ e ∈ t, P e.op :=
  Program.Asks.of_mem hx h

/-- Something was asked that the first part does not ask: that part has given a value. -/
theorem gives_bind_of_mem {x : Fallible S ε α} {f : α → Fallible S ε β} (hx : x.Asks P)
    {t : List (Event S)} {r : Except ε β} (h : (x >>= f).Gives t r) {e : Event S} (he : e ∈ t)
    (hnot : ¬ P e.op) :
    ∃ t₁ t₂ a, t = t₁ ++ t₂ ∧ x.Gives t₁ (.ok a) ∧ (f a).Gives t₂ r ∧ e ∈ t₂ := by
  rcases gives_bind.1 h with ⟨_, -, herror⟩ | ⟨t₁, t₂, a, rfl, h₁, h₂⟩
  · exact absurd (hx.of_mem herror e he) hnot
  · refine ⟨t₁, t₂, a, rfl, h₁, h₂, ?_⟩
    rcases List.mem_append.1 he with he | he
    · exact absurd (hx.of_mem h₁ e he) hnot
    · exact he

theorem Asks.mono {Q : S.Op → Prop} {x : Fallible S ε α} (hx : x.Asks P)
    (h : ∀ op, P op → Q op) : x.Asks Q :=
  Program.Asks.mono hx h

end Fallible

end Interaction
