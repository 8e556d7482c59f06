import UnifiMcp.Interaction.World

/-!
# Programs that run side by side

A pool is an environment together with any number of calls that run in it, each the
program `code` gives for it.  One step of the pool starts a call or lets one call ask
its next question; nothing is said about the order.  What a call has done so far is its
own part of the log, and that it follows its program is `Program.Begins`.

An invariant of a pool is proved by induction over `Pool.Reachable`, from what each
single question does to the environment and from what the programs of the calls can have
asked before it.
-/

namespace Interaction

variable {S T : Signature} {α β : Type}

/-! ## The beginning of a run -/

/-- `p.Begins t`: the questions and answers of `t` are the beginning of a run of `p`. -/
def Program.Begins : Program S α → List (Event S) → Prop
  | _, [] => True
  | .done _, _ :: _ => False
  | .call op next, e :: t => ∃ ans, e = ⟨op, ans⟩ ∧ (next ans).Begins t

@[simp] theorem Program.begins_nil (p : Program S α) : p.Begins [] := by
  cases p <;> trivial

theorem Program.Runs.begins {p : Program S α} {t : List (Event S)} {a : α} (h : p.Runs t a) :
    p.Begins t := by
  induction p generalizing t with
  | done b =>
      rw [h.1]
      trivial
  | call op next ih =>
      obtain ⟨ans, rest, rfl, h⟩ := h
      exact ⟨ans, rfl, ih ans h⟩

/-- A beginning of a beginning is one. -/
theorem Program.Begins.of_append {p : Program S α} {t₁ t₂ : List (Event S)}
    (h : p.Begins (t₁ ++ t₂)) : p.Begins t₁ := by
  induction p generalizing t₁ with
  | done b =>
      cases t₁ with
      | nil => trivial
      | cons e t₁ => exact h
  | call op next ih =>
      cases t₁ with
      | nil => trivial
      | cons e t₁ =>
          obtain ⟨ans, rfl, h⟩ := h
          exact ⟨ans, rfl, ih ans h⟩

/-- A sequence is still in its first part, or has finished it and begun the second. -/
theorem Program.begins_bind {p : Program S α} {f : α → Program S β} {t : List (Event S)} :
    (p >>= f).Begins t ↔
      p.Begins t ∨ ∃ t₁ t₂ a, t = t₁ ++ t₂ ∧ p.Runs t₁ a ∧ (f a).Begins t₂ := by
  induction p generalizing t with
  | done a =>
      constructor
      · intro h
        exact .inr ⟨[], t, a, rfl, ⟨rfl, rfl⟩, h⟩
      · rintro (h | ⟨t₁, t₂, a', rfl, ⟨rfl, rfl⟩, h⟩)
        · cases t with
          | nil => simp
          | cons e t => exact h.elim
        · exact h
  | call op next ih =>
      cases t with
      | nil => simp
      | cons e t =>
          constructor
          · rintro ⟨ans, rfl, h⟩
            rcases (ih ans).1 h with h | ⟨t₁, t₂, a, rfl, h₁, h₂⟩
            · exact .inl ⟨ans, rfl, h⟩
            · exact .inr ⟨⟨op, ans⟩ :: t₁, t₂, a, rfl, ⟨ans, t₁, rfl, h₁⟩, h₂⟩
          · rintro (⟨ans, rfl, h⟩ | ⟨t₁, t₂, a, heq, ⟨ans, rest, rfl, h₁⟩, h₂⟩)
            · exact ⟨ans, rfl, (ih ans).2 (.inl h)⟩
            · cases heq
              exact ⟨ans, rfl, (ih ans).2 (.inr ⟨rest, t₂, a, rfl, h₁, h₂⟩)⟩

/-- Where every question can be answered, the beginning of a run goes on to its end. -/
theorem Program.Begins.complete [∀ op : S.Op, Nonempty (S.Answer op)] {p : Program S α}
    {t : List (Event S)} (h : p.Begins t) : ∃ t' a, p.Runs (t ++ t') a := by
  induction p generalizing t with
  | done a =>
      cases t with
      | nil => exact ⟨[], a, rfl, rfl⟩
      | cons e t => exact h.elim
  | call op next ih =>
      cases t with
      | nil =>
          have ans : S.Answer op := Classical.choice inferInstance
          obtain ⟨t', a, hrun⟩ := ih ans (t := []) (by simp)
          exact ⟨⟨op, ans⟩ :: t', a, ans, t', rfl, hrun⟩
      | cons e t =>
          obtain ⟨ans, rfl, h⟩ := h
          obtain ⟨t', a, hrun⟩ := ih ans h
          exact ⟨t', a, ans, t ++ t', rfl, hrun⟩

/-- What has been asked is among what can be asked. -/
theorem Program.Asks.of_begins {P : S.Op → Prop} {p : Program S α} (hp : p.Asks P)
    {t : List (Event S)} (h : p.Begins t) : ∀ e ∈ t, P e.op := by
  induction p generalizing t with
  | done b =>
      cases t with
      | nil => simp
      | cons e t => exact h.elim
  | call op next ih =>
      cases t with
      | nil => simp
      | cons e t =>
          obtain ⟨ans, rfl, h⟩ := h
          intro e' he'
          rcases List.mem_cons.1 he' with rfl | he'
          · exact hp.1
          · exact ih ans (hp.2 ans) h e' he'

/-- Where every question can be answered, all that can be asked can have been asked. -/
theorem Program.asks_of_begins [∀ op : S.Op, Nonempty (S.Answer op)] {P : S.Op → Prop}
    {p : Program S α} (h : ∀ t, p.Begins t → ∀ e ∈ t, P e.op) : p.Asks P := by
  induction p with
  | done a => trivial
  | call op next ih =>
      constructor
      · have ans : S.Answer op := Classical.choice inferInstance
        have hbegins : (Program.call op next).Begins [⟨op, ans⟩] := ⟨ans, rfl, by simp⟩
        exact h _ hbegins _ List.mem_cons_self
      · intro ans
        refine ih ans fun t ht e he => ?_
        exact h (⟨op, ans⟩ :: t) ⟨ans, rfl, ht⟩ e (List.mem_cons_of_mem _ he)

/-- The beginning of a run of a program that may fail. -/
def Fallible.Begins {ε : Type} (x : Fallible S ε α) (t : List (Event S)) : Prop :=
  Program.Begins x.run t

section Fallible

variable {ε : Type}

theorem Fallible.Gives.begins {x : Fallible S ε α} {t : List (Event S)} {r : Except ε α}
    (h : x.Gives t r) : x.Begins t :=
  Program.Runs.begins h

theorem Fallible.begins_pure {a : α} {t : List (Event S)}
    (h : Fallible.Begins (pure a : Fallible S ε α) t) : t = [] := by
  cases t with
  | nil => rfl
  | cons e t => exact h.elim

theorem Fallible.begins_throw {e : ε} {t : List (Event S)}
    (h : Fallible.Begins (throw e : Fallible S ε α) t) : t = [] := by
  cases t with
  | nil => rfl
  | cons e t => exact h.elim

theorem Fallible.begins_ofExcept {r : Except ε α} {t : List (Event S)}
    (h : (Fallible.ofExcept r : Fallible S ε α).Begins t) : t = [] := by
  cases t with
  | nil => rfl
  | cons e t => exact h.elim

theorem Fallible.begins_bind {x : Fallible S ε α} {f : α → Fallible S ε β}
    {t : List (Event S)} :
    (x >>= f).Begins t ↔
      x.Begins t ∨ ∃ t₁ t₂ a, t = t₁ ++ t₂ ∧ x.Gives t₁ (.ok a) ∧ (f a).Begins t₂ := by
  rw [Fallible.Begins, Fallible.run_bind, Program.begins_bind]
  constructor
  · rintro (h | ⟨t₁, t₂, r, rfl, h₁, h₂⟩)
    · exact .inl h
    · cases r with
      | ok a => exact .inr ⟨t₁, t₂, a, rfl, h₁, h₂⟩
      | error e =>
          cases t₂ with
          | nil =>
              rw [List.append_nil]
              exact .inl h₁.begins
          | cons e' t₂ => exact h₂.elim
  · rintro (h | ⟨t₁, t₂, a, rfl, h₁, h₂⟩)
    · exact .inl h
    · exact .inr ⟨t₁, t₂, .ok a, rfl, h₁, h₂⟩

/-- What begins with a question has asked nothing yet, or has asked it and gone on. -/
theorem Fallible.begins_ask_bind {op : S.Op} {f : S.Answer op → Fallible S ε α}
    {t : List (Event S)} :
    (Fallible.ask S op >>= f).Begins t ↔
      t = [] ∨ ∃ ans rest, t = ⟨op, ans⟩ :: rest ∧ (f ans).Begins rest := by
  constructor
  · intro h
    cases t with
    | nil => exact .inl rfl
    | cons e t =>
        obtain ⟨ans, rfl, h⟩ := h
        exact .inr ⟨ans, t, rfl, h⟩
  · rintro (rfl | ⟨ans, rest, rfl, h⟩)
    · trivial
    · exact ⟨ans, rfl, h⟩

theorem Fallible.Asks.of_begins {P : S.Op → Prop} {x : Fallible S ε α} (hx : x.Asks P)
    {t : List (Event S)} (h : x.Begins t) : ∀ e ∈ t, P e.op :=
  Program.Asks.of_begins hx h

/-- What asks nothing adds nothing to the beginning of a run. -/
theorem Fallible.begins_bind_silent {x : Fallible S ε α} {f : α → Fallible S ε β}
    {t : List (Event S)} (h : (x >>= f).Begins t) (hf : ∀ a, (f a).Asks fun _ => False) :
    x.Begins t := by
  rcases Fallible.begins_bind.1 h with h | ⟨t₁, t₂, a, rfl, h₁, h₂⟩
  · exact h
  · have hnone : t₂ = [] := List.eq_nil_iff_forall_not_mem.2 fun e he => (hf a).of_begins h₂ e he
    rw [hnone, List.append_nil]
    exact h₁.begins

/-- Something was asked that the first part does not ask: that part has been finished. -/
theorem Fallible.begins_bind_of_mem {P : S.Op → Prop} {x : Fallible S ε α}
    {f : α → Fallible S ε β} {t : List (Event S)} (hx : x.Asks P) (h : (x >>= f).Begins t)
    {e : Event S} (he : e ∈ t) (hnot : ¬ P e.op) :
    ∃ t₁ t₂ a, t = t₁ ++ t₂ ∧ x.Gives t₁ (.ok a) ∧ (f a).Begins t₂ ∧ e ∈ t₂ ∧
      ∀ e' ∈ t₁, P e'.op := by
  rcases Fallible.begins_bind.1 h with h | ⟨t₁, t₂, a, rfl, h₁, h₂⟩
  · exact absurd (hx.of_begins h e he) hnot
  · refine ⟨t₁, t₂, a, rfl, h₁, h₂, ?_, hx.of_mem h₁⟩
    rcases List.mem_append.1 he with he | he
    · exact absurd (hx.of_mem h₁ e he) hnot
    · exact he

/-- Something was asked at one place that the first part does not ask: all of the first part
comes before it. -/
theorem Fallible.begins_bind_at {P : S.Op → Prop} {x : Fallible S ε α}
    {f : α → Fallible S ε β} {before after : List (Event S)} {e : Event S} (hx : x.Asks P)
    (h : (x >>= f).Begins (before ++ e :: after)) (hnot : ¬ P e.op) :
    ∃ t₁ rest a, before = t₁ ++ rest ∧ x.Gives t₁ (.ok a) ∧
      (f a).Begins (rest ++ e :: after) := by
  obtain ⟨t₁, t₂, a, hsplit, h₁, h₂, -, hfirst⟩ :=
    Fallible.begins_bind_of_mem hx h (List.mem_append_right _ List.mem_cons_self) hnot
  rcases List.append_eq_append_iff.1 hsplit with ⟨rest, hrest, hafter⟩ | ⟨rest, hrest, hafter⟩
  · cases rest with
    | nil => exact ⟨t₁, [], a, by simpa using hrest.symm, h₁, by rwa [hafter]⟩
    | cons e' rest =>
        cases hafter
        exact absurd (hfirst e (by rw [hrest]; simp)) hnot
  · exact ⟨t₁, rest, a, hrest, h₁, hafter ▸ h₂⟩

/-- What was asked after a part that does not ask it. -/
theorem Fallible.begins_skip {P : S.Op → Prop} {x : Fallible S ε α} {f : α → Fallible S ε β}
    {t : List (Event S)} (hx : x.Asks P) (h : (x >>= f).Begins t) {e : Event S} (he : e ∈ t)
    (hnot : ¬ P e.op) : ∃ a t', (f a).Begins t' ∧ e ∈ t' := by
  obtain ⟨_, t', a, -, -, h', he', -⟩ := Fallible.begins_bind_of_mem hx h he hnot
  exact ⟨a, t', h', he'⟩

end Fallible

/-! ## Pools -/

/-- Calls that run side by side in an environment, with a log of all that was asked: the
position of the call, and the question with its answer. -/
structure Pool (S : Signature) (σ κ : Type) where
  world : σ
  calls : List κ
  log : List (Nat × Event S)

variable {σ κ : Type}

/-- What one call has asked so far. -/
def ownEvents (log : List (Nat × Event S)) (i : Nat) : List (Event S) :=
  log.filterMap fun e => if e.1 = i then some e.2 else none

theorem ownEvents_append (log log' : List (Nat × Event S)) (i : Nat) :
    ownEvents (log ++ log') i = ownEvents log i ++ ownEvents log' i :=
  List.filterMap_append

theorem ownEvents_self (i : Nat) (t : List (Event S)) :
    ownEvents (t.map fun e => (i, e)) i = t := by
  simp [ownEvents, List.filterMap_map]

theorem ownEvents_of_ne {i j : Nat} (h : j ≠ i) (t : List (Event S)) :
    ownEvents (t.map fun e => (j, e)) i = [] := by
  simp [ownEvents, h]

theorem ownEvents_cons_self (i : Nat) (e : Event S) (log : List (Nat × Event S)) :
    ownEvents ((i, e) :: log) i = e :: ownEvents log i := by
  simp [ownEvents]

theorem ownEvents_concat_self (log : List (Nat × Event S)) (i : Nat) (e : Event S) :
    ownEvents (log ++ [(i, e)]) i = ownEvents log i ++ [e] := by
  rw [ownEvents_append]
  exact congrArg _ (ownEvents_self i [e])

theorem ownEvents_concat_of_ne (log : List (Nat × Event S)) {i j : Nat} (h : j ≠ i)
    (e : Event S) : ownEvents (log ++ [(j, e)]) i = ownEvents log i := by
  rw [ownEvents_append]
  exact (congrArg _ (ownEvents_of_ne h [e])).trans (List.append_nil _)

theorem mem_ownEvents {log : List (Nat × Event S)} {i : Nat} {e : Event S} :
    e ∈ ownEvents log i ↔ (i, e) ∈ log := by
  unfold ownEvents
  rw [List.mem_filterMap]
  constructor
  · rintro ⟨⟨j, e'⟩, hmem, h⟩
    dsimp only at h
    split_ifs at h with hj
    cases h
    exact hj ▸ hmem
  · intro h
    exact ⟨(i, e), h, if_pos rfl⟩

/-- In a log, `y` comes after some `x`. -/
def Since {α : Type} (log : List α) (x y : α) : Prop :=
  ∃ before after, log = before ++ x :: after ∧ y ∈ after

theorem Since.concat {α : Type} {log : List α} {x y : α} (h : Since log x y) (z : α) :
    Since (log ++ [z]) x y := by
  obtain ⟨before, after, rfl, hmem⟩ := h
  exact ⟨before, after ++ [z], by simp, List.mem_append_left _ hmem⟩

/-- The newest entry comes after all others. -/
theorem since_concat {α : Type} {log : List α} {x : α} (h : x ∈ log) (z : α) :
    Since (log ++ [z]) x z := by
  obtain ⟨before, after, rfl⟩ := List.append_of_mem h
  exact ⟨before, after ++ [z], by simp, List.mem_append_right _ (List.mem_singleton.2 rfl)⟩

/-- What comes after an entry of a longer log came after it before, or is the newest. -/
theorem Since.of_concat {α : Type} {log : List α} {x y z : α} (h : Since (log ++ [z]) x y) :
    Since log x y ∨ y = z := by
  obtain ⟨before, after, hlog, hmem⟩ := h
  rcases List.eq_nil_or_concat after with rfl | ⟨after', z', rfl⟩
  · cases hmem
  · have hsplit : log ++ [z] = (before ++ x :: after') ++ [z'] := by
      rw [hlog, List.concat_eq_append]
      simp
    obtain ⟨rfl, hz⟩ := List.append_inj' hsplit rfl
    cases hz
    rw [List.concat_eq_append] at hmem
    rcases List.mem_append.1 hmem with hmem | hmem
    · exact .inl ⟨before, after', rfl, hmem⟩
    · exact .inr (List.mem_singleton.1 hmem)

/-- The pools that can be reached from `init`: at each step a call is started, or one call
asks its next question. -/
inductive Pool.Reachable (code : κ → Program S α) (step : σ → Event S → σ → Prop) (init : σ) :
    Pool S σ κ → Prop where
  | init : Reachable code step init ⟨init, [], []⟩
  | start {p : Pool S σ κ} (k : κ) (h : Reachable code step init p) :
      Reachable code step init ⟨p.world, p.calls ++ [k], p.log⟩
  | turn {p : Pool S σ κ} {i : Nat} {k : κ} {e : Event S} {world : σ}
      (h : Reachable code step init p) (call : p.calls[i]? = some k)
      (begun : (code k).Begins (ownEvents p.log i ++ [e])) (answered : step p.world e world) :
      Reachable code step init ⟨world, p.calls, p.log ++ [(i, e)]⟩

variable {code : κ → Program S α} {step : σ → Event S → σ → Prop} {init : σ}

/-- A call that has not been started has asked nothing. -/
theorem Pool.Reachable.started {p : Pool S σ κ} (h : p.Reachable code step init) {i : Nat}
    {e : Event S} (he : (i, e) ∈ p.log) : ∃ k, p.calls[i]? = some k := by
  induction h with
  | init => cases he
  | start k _ ih =>
      obtain ⟨k', hk'⟩ := ih he
      exact ⟨k', by rw [List.getElem?_append_left (List.getElem?_eq_some_iff.1 hk').1, hk']⟩
  | turn _ call _ _ ih =>
      rcases List.mem_append.1 he with he | he
      · exact ih he
      · cases List.mem_singleton.1 he
        exact ⟨_, call⟩

/-- Every call follows its program. -/
theorem Pool.Reachable.begins {p : Pool S σ κ} (h : p.Reachable code step init) {i : Nat} {k : κ}
    (hk : p.calls[i]? = some k) : (code k).Begins (ownEvents p.log i) := by
  induction h with
  | init => cases hk
  | @start p k' h ih =>
      by_cases hi : i < p.calls.length
      · rw [List.getElem?_append_left hi] at hk
        exact ih hk
      · -- The call has just been started.
        have hnone : ownEvents p.log i = [] := by
          refine List.eq_nil_iff_forall_not_mem.2 fun e he => ?_
          obtain ⟨k'', hk''⟩ := h.started (mem_ownEvents.1 he)
          exact hi (List.getElem?_eq_some_iff.1 hk'').1
        rw [hnone]
        simp
  | @turn p j k' e world h call begun _ ih =>
      by_cases hj : j = i
      · subst hj
        obtain rfl : k' = k := Option.some.inj (call.symm.trans hk)
        rw [ownEvents_concat_self]
        exact begun
      · rw [ownEvents_concat_of_ne _ hj]
        exact ih hk

/-- The calls of a pool can be renamed as long as each keeps its program. -/
theorem Pool.Reachable.map {κ' : Type} {code' : κ' → Program S α} {f : κ → κ'}
    (hf : ∀ k, code' (f k) = code k) {p : Pool S σ κ} (h : p.Reachable code step init) :
    Pool.Reachable code' step init ⟨p.world, p.calls.map f, p.log⟩ := by
  induction h with
  | init => exact .init
  | start k _ ih =>
      rw [List.map_append]
      exact ih.start (f k)
  | @turn p i k e world _ call begun answered ih =>
      refine ih.turn (k := f k) (by rw [List.getElem?_map, call]; rfl) ?_ answered
      rw [hf]
      exact begun

/-- Calls that run in an environment run in one that follows it. -/
theorem Pool.Reachable.simulate {τ : Type} {step' : τ → Event S → τ → Prop} {f : σ → τ}
    (hf : ∀ {w e w'}, step w e w' → step' (f w) e (f w')) {p : Pool S σ κ}
    (h : p.Reachable code step init) :
    Pool.Reachable code step' (f init) ⟨f p.world, p.calls, p.log⟩ := by
  induction h with
  | init => exact .init
  | start k _ ih => exact ih.start k
  | turn _ call begun answered ih => exact ih.turn call begun (hf answered)

/-- Calls that run in an environment run beside a second one that goes along with their log. -/
theorem Pool.Reachable.beside {τ : Type} {step' : τ → Event S → τ → Prop} {init' w' : τ}
    {p : Pool S σ κ} (h : p.Reachable code step init)
    (hpath : Path step' init' (p.log.map Prod.snd) w') :
    Pool.Reachable code (fun w e w' => step w.1 e w'.1 ∧ step' w.2 e w'.2) (init, init')
      ⟨(p.world, w'), p.calls, p.log⟩ := by
  induction h generalizing w' with
  | init =>
      obtain rfl := path_nil.1 hpath
      exact .init
  | start k _ ih => exact (ih hpath).start k
  | turn _ call begun answered ih =>
      rw [List.map_append, path_append] at hpath
      obtain ⟨w₁, hbefore, hlast⟩ := hpath
      obtain ⟨w₂, hstep, hnil⟩ := path_cons.1 hlast
      obtain rfl := path_nil.1 hnil
      exact (ih hbefore).turn call begun ⟨answered, hstep⟩

/-! ## Running one call on its own -/

/-- A call can be run on as far as its program and the environment go together. -/
theorem Pool.Reachable.turns {p : Pool S σ κ} (h : p.Reachable code step init) {i : Nat} {k : κ}
    (hk : p.calls[i]? = some k) {t : List (Event S)} {world : σ}
    (begun : (code k).Begins (ownEvents p.log i ++ t)) (hpath : Path step p.world t world) :
    Pool.Reachable code step init ⟨world, p.calls, p.log ++ t.map fun e => (i, e)⟩ := by
  induction t generalizing p with
  | nil =>
      obtain rfl := path_nil.1 hpath
      simpa using h
  | cons e t ih =>
      obtain ⟨w₁, hstep, hpath⟩ := path_cons.1 hpath
      have hsplit : ownEvents p.log i ++ e :: t = (ownEvents p.log i ++ [e]) ++ t := by simp
      rw [hsplit] at begun
      have hone := h.turn hk begun.of_append hstep
      have hown : ownEvents (p.log ++ [(i, e)]) i = ownEvents p.log i ++ [e] := by
        rw [ownEvents_append]
        exact congrArg _ (ownEvents_self i [e])
      have hrest := ih hone hk (by rw [hown]; exact begun) hpath
      simpa using hrest

/-- A call can be started and run to its end. -/
theorem Pool.Reachable.runToEnd {p : Pool S σ κ} (h : p.Reachable code step init) (k : κ)
    {t : List (Event S)} {a : α} {world : σ} (hrun : (code k).Runs t a)
    (hpath : Path step p.world t world) :
    Pool.Reachable code step init
      ⟨world, p.calls ++ [k], p.log ++ t.map fun e => (p.calls.length, e)⟩ := by
  have hnone : ownEvents p.log p.calls.length = [] := by
    refine List.eq_nil_iff_forall_not_mem.2 fun e he => ?_
    obtain ⟨k', hk'⟩ := h.started (mem_ownEvents.1 he)
    exact absurd (List.getElem?_eq_some_iff.1 hk').1 (Nat.lt_irrefl _)
  refine (h.start k).turns (i := p.calls.length) (k := k) (by simp) ?_ hpath
  rw [hnone]
  exact hrun.begins

/-- The pool after a call that ran to its end in an environment that is a function. -/
def Pool.afterCall (code : κ → Program S α) (answer : (op : S.Op) → σ → S.Answer op × σ)
    (p : Pool S σ κ) (k : κ) : Pool S σ κ :=
  let out := (code k).eval answer p.world
  ⟨out.2.2, p.calls ++ [k], p.log ++ out.2.1.map fun e => (p.calls.length, e)⟩

end Interaction
