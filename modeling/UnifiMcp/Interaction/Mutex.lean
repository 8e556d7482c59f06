import UnifiMcp.Interaction.Pool

/-!
# A lock that calls share

A `Lock` names the questions that take it, the ones that give it back, and the ones that are
asked by its holder only.  `Program.Brackets` says that a program keeps to this on its own.  In
an environment where the lock is taken only while it is free, at most one of the calls that run
side by side then holds it (`Pool.Reachable.oneHolder`), so while one call asks what only a
holder asks, no other is between its taking and its giving back.
-/

namespace Interaction

variable {S : Signature} {α β σ κ ε : Type}

/-- What each question does to a lock: take it, give it back, or neither; and which questions
only its holder asks. -/
structure Lock (S : Signature) where
  effect : S.Op → Option Bool
  guarded : S.Op → Prop

namespace Lock

variable (lock : Lock S)

/-- Whether the asker holds the lock after a question. -/
def after (held : Bool) (op : S.Op) : Bool := (lock.effect op).getD held

/-- Whether it does after several. -/
def holds (held : Bool) (t : List (Event S)) : Bool :=
  t.foldl (fun held e => lock.after held e.op) held

/-- A question that the asker may ask: it does not hold what it takes, and it holds what it
gives back or needs. -/
structure Allows (held : Bool) (op : S.Op) : Prop where
  effect : ∀ b, lock.effect op = some b → held = !b
  guarded : lock.guarded op → held = true

theorem holds_append (held : Bool) (t₁ t₂ : List (Event S)) :
    lock.holds held (t₁ ++ t₂) = lock.holds (lock.holds held t₁) t₂ :=
  List.foldl_append

/-- Questions that neither take the lock nor give it back leave it where it is. -/
theorem holds_of_forall {held : Bool} {t : List (Event S)}
    (h : ∀ e ∈ t, lock.effect e.op = none) : lock.holds held t = held := by
  induction t with
  | nil => rfl
  | cons e t ih =>
      show lock.holds (lock.after held e.op) t = held
      rw [after, h e List.mem_cons_self]
      exact ih fun e' he' => h e' (List.mem_cons_of_mem _ he')

end Lock

/-! ## Programs -/

variable {lock : Lock S}

/-- Asked with the lock held or not, the program keeps to it, and ends with the lock held or
not. -/
def Program.Brackets (lock : Lock S) : Bool → Bool → Program S α → Prop
  | held, last, .done _ => held = last
  | held, last, .call op next =>
      lock.Allows held op ∧ ∀ ans, (next ans).Brackets lock (lock.after held op) last

theorem Program.Brackets.bind {held mid last : Bool} {p : Program S α} {f : α → Program S β}
    (hp : p.Brackets lock held mid) (hf : ∀ a, (f a).Brackets lock mid last) :
    (p >>= f).Brackets lock held last := by
  induction p generalizing held with
  | done a =>
      have hmid : held = mid := hp
      subst hmid
      exact hf a
  | call op next ih => exact ⟨hp.1, fun ans => ih ans (hp.2 ans)⟩

/-- A program that leaves the lock alone keeps to it. -/
theorem Program.brackets_of_asks {held : Bool} {p : Program S α}
    (hp : p.Asks fun op => lock.effect op = none ∧ (lock.guarded op → held = true)) :
    p.Brackets lock held held := by
  induction p with
  | done a => rfl
  | call op next ih =>
      obtain ⟨⟨heffect, hguarded⟩, hnext⟩ := hp
      refine ⟨⟨fun b hb => ?_, hguarded⟩, fun ans => ?_⟩
      · rw [heffect] at hb
        cases hb
      · rw [Lock.after, heffect]
        exact ih ans (hnext ans)

/-- Every question of a run was allowed when it was asked. -/
theorem Program.Brackets.allows {held last : Bool} {p : Program S α}
    (hp : p.Brackets lock held last) {t t' : List (Event S)} {e : Event S}
    (h : p.Begins (t ++ e :: t')) : lock.Allows (lock.holds held t) e.op := by
  induction p generalizing held t with
  | done a =>
      cases t with
      | nil => exact h.elim
      | cons e' t => exact h.elim
  | call op next ih =>
      cases t with
      | nil =>
          obtain ⟨ans, rfl, -⟩ := h
          exact hp.1
      | cons e' t =>
          obtain ⟨ans, rfl, h⟩ := h
          exact ih ans (hp.2 ans) h

/-- A program that may fail keeps to the lock, however it ends. -/
def Fallible.Brackets (lock : Lock S) (held last : Bool) (x : Fallible S ε α) : Prop :=
  Program.Brackets lock held last x.run

theorem Fallible.Brackets.bind {held last : Bool} {x : Fallible S ε α} {f : α → Fallible S ε β}
    (hx : x.Brackets lock held last) (hf : ∀ a, (f a).Brackets lock last last) :
    (x >>= f).Brackets lock held last := by
  unfold Fallible.Brackets
  rw [Fallible.run_bind]
  refine Program.Brackets.bind hx fun r => ?_
  cases r with
  | ok a => exact hf a
  | error e => rfl

theorem Fallible.brackets_of_asks {held : Bool} {x : Fallible S ε α}
    (hx : x.Asks fun op => lock.effect op = none ∧ (lock.guarded op → held = true)) :
    x.Brackets lock held held :=
  Program.brackets_of_asks hx

theorem Fallible.brackets_ask_bind {held last : Bool} {op : S.Op}
    {f : S.Answer op → Fallible S ε β} :
    (Fallible.ask S op >>= f).Brackets lock held last ↔
      lock.Allows held op ∧ ∀ ans, (f ans).Brackets lock (lock.after held op) last :=
  Iff.rfl

/-- What is attempted goes on whichever way it ends. -/
theorem Fallible.Brackets.attempt_bind {held mid last : Bool} {x : Fallible S ε α}
    {f : Except ε α → Fallible S ε β} (hx : x.Brackets lock held mid)
    (hf : ∀ r, (f r).Brackets lock mid last) : (x.attempt >>= f).Brackets lock held last := by
  unfold Fallible.Brackets
  rw [Fallible.run_attempt_bind]
  exact Program.Brackets.bind hx hf

/-! ## Pools -/

/-- An environment that keeps a lock: it is taken only while it is free. -/
structure Lock.KeptBy (lock : Lock S) (step : σ → Event S → σ → Prop) (taken : σ → Bool) :
    Prop where
  acquired : ∀ {w e w'}, step w e w' → lock.effect e.op = some true →
    taken w = false ∧ taken w' = true
  kept : ∀ {w e w'}, step w e w' → lock.effect e.op = none → taken w' = taken w

/-- The lock is taken while a call holds it, and one call does at most. -/
structure Lock.OneHolder (lock : Lock S) (taken : σ → Bool) (p : Pool S σ κ) : Prop where
  taken : ∀ i, lock.holds false (ownEvents p.log i) = true → taken p.world = true
  one : ∀ i j, lock.holds false (ownEvents p.log i) = true →
    lock.holds false (ownEvents p.log j) = true → i = j

section Pools

variable {lock : Lock S} {code : κ → Program S α} {step : σ → Event S → σ → Prop}
  {taken : σ → Bool} {init : σ}

/-- One question keeps the lock with one holder. -/
theorem Lock.OneHolder.turn {p : Pool S σ κ} (h : lock.OneHolder taken p)
    (hkept : lock.KeptBy step taken) {i : Nat} {e : Event S} {world : σ}
    (hallowed : lock.Allows (lock.holds false (ownEvents p.log i)) e.op)
    (answered : step p.world e world) :
    lock.OneHolder taken (⟨world, p.calls, p.log ++ [(i, e)]⟩ : Pool S σ κ) := by
  have hown : ∀ j, lock.holds false (ownEvents (p.log ++ [(i, e)]) j) =
      if i = j then lock.after (lock.holds false (ownEvents p.log i)) e.op
      else lock.holds false (ownEvents p.log j) := by
    intro j
    by_cases hij : i = j
    · subst hij
      rw [ownEvents_concat_self, lock.holds_append, if_pos rfl]
      rfl
    · rw [ownEvents_concat_of_ne _ hij, if_neg hij]
  cases heffect : lock.effect e.op with
  | none =>
      have hsame : ∀ j, lock.holds false (ownEvents (p.log ++ [(i, e)]) j) =
          lock.holds false (ownEvents p.log j) := by
        intro j
        rw [hown, Lock.after, heffect]
        split_ifs with hij
        · rw [← hij]
          rfl
        · rfl
      constructor
      · intro j hj
        rw [hkept.kept answered heffect]
        exact h.taken j (hsame j ▸ hj)
      · intro j j' hj hj'
        exact h.one j j' (hsame j ▸ hj) (hsame j' ▸ hj')
  | some b =>
      cases b with
      | true =>
          obtain ⟨hfree, htaken⟩ := hkept.acquired answered heffect
          -- While the lock was free nobody held it.
          have hnobody : ∀ j, lock.holds false (ownEvents p.log j) = false := by
            intro j
            by_contra hj
            have := h.taken j (by simpa using hj)
            rw [hfree] at this
            cases this
          have honly : ∀ j, lock.holds false (ownEvents (p.log ++ [(i, e)]) j) = true → i = j := by
            intro j hj
            by_contra hij
            rw [hown, if_neg hij, hnobody] at hj
            cases hj
          exact ⟨fun _ _ => htaken, fun j j' hj hj' => (honly j hj).symm.trans (honly j' hj')⟩
      | false =>
          -- The one who gives it back was the only holder.
          have hheld := hallowed.effect false heffect
          have hnobody : ∀ j, lock.holds false (ownEvents (p.log ++ [(i, e)]) j) ≠ true := by
            intro j hj
            rw [hown, Lock.after, heffect] at hj
            split_ifs at hj with hij
            · cases hj
            · exact hij (h.one i j hheld hj)
          exact ⟨fun j hj => absurd hj (hnobody j), fun j _ hj => absurd hj (hnobody j)⟩

/-- **At most one call holds the lock**, in every order of the calls' questions. -/
theorem Pool.Reachable.oneHolder (hkept : lock.KeptBy step taken)
    (hcode : ∀ k, (code k).Brackets lock false false) {p : Pool S σ κ}
    (h : p.Reachable code step init) : lock.OneHolder taken p := by
  induction h with
  | init =>
      have hnobody : ∀ i, ¬ lock.holds false (ownEvents ([] : List (Nat × Event S)) i) = true :=
        fun i hi => by cases hi
      exact ⟨fun i hi => absurd hi (hnobody i), fun i _ hi => absurd hi (hnobody i)⟩
  | start k _ ih => exact ⟨ih.taken, ih.one⟩
  | turn _ call begun answered ih =>
      exact ih.turn hkept ((hcode _).allows begun) answered

/-- While one call asks what only a holder asks, no other call holds the lock. -/
theorem Pool.Reachable.alone (hkept : lock.KeptBy step taken)
    (hcode : ∀ k, (code k).Brackets lock false false) {p : Pool S σ κ}
    (h : p.Reachable code step init) {i j : Nat} {k : κ} {e : Event S}
    (begun : (code k).Begins (ownEvents p.log i ++ [e]))
    (hguarded : lock.guarded e.op) (hheld : lock.holds false (ownEvents p.log j) = true) :
    i = j :=
  (h.oneHolder hkept hcode).one i j (((hcode k).allows begun).guarded hguarded) hheld

end Pools

end Interaction
