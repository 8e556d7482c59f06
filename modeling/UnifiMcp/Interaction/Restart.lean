import UnifiMcp.Interaction.Pool

/-!
# Systems that are started again

A pool may come to an end at any of its steps, with calls that stand where they stand and never go
on, and the system be started again with another configuration, from a world that the last one
left behind.  `Lives` are the pools of a system from its first start on, and an event is found by
its life, its call and what was asked.  What a step adds to the events is said once for each kind
of step (`made_start`, `asked_turn`, `asked_restart`), and each life is a pool that can be reached
from the world it was started in (`Lives.Reachable.of_life`), so what is known of one pool holds of
every life.
-/

namespace Interaction

variable {S : Signature} {α σ κ χ : Type}

/-- The lives of a system: those that are over, the oldest first, and the one that it is in, each
with its configuration. -/
structure Lives (S : Signature) (σ κ χ : Type) where
  past : List (χ × Pool S σ κ)
  config : χ
  pool : Pool S σ κ

namespace Lives

/-- All lives, the oldest first. -/
def all (l : Lives S σ κ χ) : List (χ × Pool S σ κ) := l.past ++ [(l.config, l.pool)]

/-- In one of its lives, with this configuration, the system was given this call. -/
def Made (l : Lives S σ κ χ) (m i : Nat) (c : χ) (k : κ) : Prop :=
  ∃ p, l.all[m]? = some (c, p) ∧ p.calls[i]? = some k

/-- In one of its lives a call of the system asked this. -/
def Asked (l : Lives S σ κ χ) (m i : Nat) (e : Event S) : Prop :=
  ∃ life, l.all[m]? = some life ∧ (i, e) ∈ life.2.log

/-- What a call of one of its lives has asked. -/
def trace (l : Lives S σ κ χ) (m i : Nat) : List (Event S) :=
  (l.all[m]?).elim [] fun life => ownEvents life.2.log i

theorem mem_trace {l : Lives S σ κ χ} {m i : Nat} {e : Event S} :
    e ∈ l.trace m i ↔ l.Asked m i e := by
  unfold trace Asked
  cases l.all[m]? with
  | none => simp
  | some life => simp [mem_ownEvents]

/-- The lives that can be come to from `init`: in each, calls are started and ask their questions,
and a system can be started again at any time. -/
inductive Reachable (code : χ → κ → Program S α) (step : σ → Event S → σ → Prop)
    (again : σ → σ → Prop) (init : σ) : Lives S σ κ χ → Prop where
  | init (c : χ) : Reachable code step again init ⟨[], c, ⟨init, [], []⟩⟩
  | start {past : List (χ × Pool S σ κ)} {c : χ} {p : Pool S σ κ} (k : κ)
      (h : Reachable code step again init ⟨past, c, p⟩) :
      Reachable code step again init ⟨past, c, ⟨p.world, p.calls ++ [k], p.log⟩⟩
  | turn {past : List (χ × Pool S σ κ)} {c : χ} {p : Pool S σ κ} {i : Nat} {k : κ} {e : Event S}
      {world : σ} (h : Reachable code step again init ⟨past, c, p⟩) (call : p.calls[i]? = some k)
      (begun : (code c k).Begins (ownEvents p.log i ++ [e])) (answered : step p.world e world) :
      Reachable code step again init ⟨past, c, ⟨world, p.calls, p.log ++ [(i, e)]⟩⟩
  | restart {past : List (χ × Pool S σ κ)} {c : χ} {p : Pool S σ κ} (c' : χ) {world : σ}
      (h : Reachable code step again init ⟨past, c, p⟩) (started : again p.world world) :
      Reachable code step again init ⟨past ++ [(c, p)], c', ⟨world, [], []⟩⟩

/-! ## The life a system is in -/

section Current

variable {past : List (χ × Pool S σ κ)} {c : χ} {p : Pool S σ κ} {m i : Nat}

theorem getElem?_all_length : (⟨past, c, p⟩ : Lives S σ κ χ).all[past.length]? = some (c, p) :=
  List.getElem?_concat_length

/-- A life is over, or it is the one the system is in. -/
theorem getElem?_all {life : χ × Pool S σ κ}
    (h : (⟨past, c, p⟩ : Lives S σ κ χ).all[m]? = some life) :
    (m < past.length ∧ past[m]? = some life) ∨ m = past.length ∧ life = (c, p) := by
  rcases Nat.lt_trichotomy m past.length with hlt | rfl | hgt
  · refine .inl ⟨hlt, ?_⟩
    rwa [all, List.getElem?_append_left hlt] at h
  · exact .inr ⟨rfl, Option.some.inj (h.symm.trans getElem?_all_length)⟩
  · rw [all, List.getElem?_eq_none (by rw [List.length_append]; exact hgt)] at h
    cases h

/-- A life that is over stays as it was. -/
theorem getElem?_all_of_lt {life : χ × Pool S σ κ} (h : past[m]? = some life) (c : χ)
    (p : Pool S σ κ) : (⟨past, c, p⟩ : Lives S σ κ χ).all[m]? = some life := by
  rw [all, List.getElem?_append_left (List.getElem?_eq_some_iff.1 h).1]
  exact h

theorem Asked.le {e : Event S} (h : (⟨past, c, p⟩ : Lives S σ κ χ).Asked m i e) :
    m ≤ past.length := by
  obtain ⟨life, hlife, -⟩ := h
  rcases getElem?_all hlife with ⟨hlt, -⟩ | ⟨rfl, -⟩
  · exact Nat.le_of_lt hlt
  · exact Nat.le_refl _

theorem asked_current {e : Event S} :
    (⟨past, c, p⟩ : Lives S σ κ χ).Asked past.length i e ↔ (i, e) ∈ p.log := by
  constructor
  · rintro ⟨life, hlife, hmem⟩
    cases Option.some.inj (hlife.symm.trans getElem?_all_length)
    exact hmem
  · intro hmem
    exact ⟨(c, p), getElem?_all_length, hmem⟩

theorem made_current {k : κ} {c' : χ} :
    (⟨past, c, p⟩ : Lives S σ κ χ).Made past.length i c' k ↔ c' = c ∧ p.calls[i]? = some k := by
  constructor
  · rintro ⟨q, hlife, hk⟩
    cases Option.some.inj (hlife.symm.trans getElem?_all_length)
    exact ⟨rfl, hk⟩
  · rintro ⟨rfl, hk⟩
    exact ⟨p, getElem?_all_length, hk⟩

end Current

/-! ## What a step adds -/

/-- Whatever was called and asked stays so. -/
structure Extends (l l' : Lives S σ κ χ) : Prop where
  made : ∀ {m i c k}, l.Made m i c k → l'.Made m i c k
  asked : ∀ {m i e}, l.Asked m i e → l'.Asked m i e

section Extends

variable {past : List (χ × Pool S σ κ)} {c : χ} {p : Pool S σ κ}

/-- A pool that goes on adds to what was called and asked. -/
theorem Extends.of_pool {p' : Pool S σ κ}
    (hcalls : ∀ (i : Nat) k, p.calls[i]? = some k → p'.calls[i]? = some k)
    (hlog : p.log ⊆ p'.log) : Extends (⟨past, c, p⟩ : Lives S σ κ χ) ⟨past, c, p'⟩ where
  made := by
    rintro m i c' k ⟨q, hlife, hk⟩
    rcases getElem?_all hlife with ⟨-, hpast⟩ | ⟨rfl, hcurrent⟩
    · exact ⟨q, getElem?_all_of_lt hpast c p', hk⟩
    · cases hcurrent
      exact ⟨p', getElem?_all_length, hcalls i k hk⟩
  asked := by
    rintro m i e ⟨life, hlife, hmem⟩
    rcases getElem?_all hlife with ⟨-, hpast⟩ | ⟨rfl, rfl⟩
    · exact ⟨life, getElem?_all_of_lt hpast c p', hmem⟩
    · exact ⟨(c, p'), getElem?_all_length, hlog hmem⟩

theorem Extends.start (k : κ) : Extends (⟨past, c, p⟩ : Lives S σ κ χ)
    ⟨past, c, ⟨p.world, p.calls ++ [k], p.log⟩⟩ :=
  .of_pool (fun _ _ hk => (List.getElem?_append_left (List.getElem?_eq_some_iff.1 hk).1).trans hk)
    (List.Subset.refl _)

theorem Extends.turn (i : Nat) (e : Event S) (world : σ) :
    Extends (⟨past, c, p⟩ : Lives S σ κ χ) ⟨past, c, ⟨world, p.calls, p.log ++ [(i, e)]⟩⟩ :=
  .of_pool (fun _ _ hk => hk) (List.subset_append_left _ _)

theorem Extends.restart (c' : χ) (world : σ) :
    Extends (⟨past, c, p⟩ : Lives S σ κ χ) ⟨past ++ [(c, p)], c', ⟨world, [], []⟩⟩ where
  made := by
    rintro m i c₀ k ⟨q, hlife, hk⟩
    exact ⟨q, getElem?_all_of_lt hlife c' _, hk⟩
  asked := by
    rintro m i e ⟨life, hlife, hmem⟩
    exact ⟨life, getElem?_all_of_lt hlife c' _, hmem⟩

end Extends

section Asked

variable {past : List (χ × Pool S σ κ)} {c : χ} {p : Pool S σ κ} {m j : Nat} {e₀ : Event S}

/-- What was asked after a start was asked before. -/
theorem Asked.of_start {calls : List κ}
    (h : (⟨past, c, ⟨p.world, calls, p.log⟩⟩ : Lives S σ κ χ).Asked m j e₀) :
    (⟨past, c, p⟩ : Lives S σ κ χ).Asked m j e₀ := by
  obtain ⟨life, hlife, hmem⟩ := h
  rcases getElem?_all hlife with ⟨-, hpast⟩ | ⟨rfl, rfl⟩
  · exact ⟨life, getElem?_all_of_lt hpast c p, hmem⟩
  · exact ⟨(c, p), getElem?_all_length, hmem⟩

/-- What was asked after a turn was asked before, or in that turn. -/
theorem Asked.of_turn {i : Nat} {e : Event S} {world : σ}
    (h : (⟨past, c, ⟨world, p.calls, p.log ++ [(i, e)]⟩⟩ : Lives S σ κ χ).Asked m j e₀) :
    (⟨past, c, p⟩ : Lives S σ κ χ).Asked m j e₀ ∨ m = past.length ∧ j = i ∧ e₀ = e := by
  obtain ⟨life, hlife, hmem⟩ := h
  rcases getElem?_all hlife with ⟨-, hpast⟩ | ⟨rfl, rfl⟩
  · exact .inl ⟨life, getElem?_all_of_lt hpast c p, hmem⟩
  · rcases List.mem_append.1 hmem with hmem | hmem
    · exact .inl ⟨(c, p), getElem?_all_length, hmem⟩
    · exact .inr ⟨rfl, Prod.mk.inj (List.mem_singleton.1 hmem)⟩

/-- What was asked after the system was started again was asked before. -/
theorem Asked.of_restart {c' : χ} {world : σ}
    (h : (⟨past ++ [(c, p)], c', ⟨world, [], []⟩⟩ : Lives S σ κ χ).Asked m j e₀) :
    (⟨past, c, p⟩ : Lives S σ κ χ).Asked m j e₀ := by
  obtain ⟨life, hlife, hmem⟩ := h
  rcases getElem?_all hlife with ⟨-, hpast⟩ | ⟨-, rfl⟩
  · exact ⟨life, hpast, hmem⟩
  · cases hmem

end Asked

/-! ## Each life -/

variable {code : χ → κ → Program S α} {step : σ → Event S → σ → Prop} {again : σ → σ → Prop}
  {init : σ}

/-- Each life is a pool that can be reached from the world it was started in. -/
theorem Reachable.of_life {l : Lives S σ κ χ} (h : l.Reachable code step again init) {m : Nat}
    {c : χ} {p : Pool S σ κ} (hlife : l.all[m]? = some (c, p)) :
    ∃ world, p.Reachable (code c) step world := by
  induction h generalizing m c p with
  | init c₀ =>
      rcases getElem?_all hlife with ⟨-, hpast⟩ | ⟨-, hcurrent⟩
      · cases hpast
      · cases hcurrent
        exact ⟨init, .init⟩
  | @start past c₀ p₀ k _ ih =>
      rcases getElem?_all hlife with ⟨-, hpast⟩ | ⟨-, hcurrent⟩
      · exact ih (getElem?_all_of_lt hpast c₀ p₀)
      · cases hcurrent
        obtain ⟨world, hp⟩ := ih getElem?_all_length
        exact ⟨world, hp.start k⟩
  | @turn past c₀ p₀ i k e world₀ _ call begun answered ih =>
      rcases getElem?_all hlife with ⟨-, hpast⟩ | ⟨-, hcurrent⟩
      · exact ih (getElem?_all_of_lt hpast c₀ p₀)
      · cases hcurrent
        obtain ⟨world, hp⟩ := ih getElem?_all_length
        exact ⟨world, hp.turn call begun answered⟩
  | @restart past c₀ p₀ c' world₀ _ _ ih =>
      rcases getElem?_all hlife with ⟨-, hpast⟩ | ⟨-, hcurrent⟩
      · exact ih hpast
      · cases hcurrent
        exact ⟨world₀, .init⟩

/-- Every call of every life follows its program. -/
theorem Reachable.begins {l : Lives S σ κ χ} (h : l.Reachable code step again init) {m i : Nat}
    {c : χ} {k : κ} (hk : l.Made m i c k) : (code c k).Begins (l.trace m i) := by
  obtain ⟨p, hlife, hcall⟩ := hk
  obtain ⟨world, hp⟩ := h.of_life hlife
  unfold trace
  rw [hlife]
  exact hp.begins hcall

/-- A life goes on as its pool does. -/
theorem Reachable.extend {past : List (χ × Pool S σ κ)} {c : χ} {p : Pool S σ κ} {world : σ}
    (h : (⟨past, c, ⟨world, [], []⟩⟩ : Lives S σ κ χ).Reachable code step again init)
    (hp : p.Reachable (code c) step world) :
    (⟨past, c, p⟩ : Lives S σ κ χ).Reachable code step again init := by
  induction hp with
  | init => exact h
  | start k _ ih => exact ih.start k
  | turn _ call begun answered ih => exact ih.turn call begun answered

end Lives

end Interaction
