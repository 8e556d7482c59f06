import UnifiMcp.Interaction.Mutex

/-!
# Calls that share a lock come to their ends

A call that asks for a lock waits until it is free.  If every call keeps to the lock
(`Program.Brackets`), the only call that can keep others waiting is the one that holds it, and
that one waits for nobody.  So from every pool that can be reached the calls can be run to their
ends, the holder first and then one after the other (`Pool.Reachable.completes`).

Of the environment this takes that it answers every question, that for the lock when the lock is
free (`Lock.Answered`), and that a lock which is given back is free.
-/

namespace Interaction

variable {S : Signature} {α σ κ : Type}

/-! ## One program -/

/-- An environment in which the answers may be these, that to the question for a lock while it is
free.  What is given back is free. -/
structure Lock.AnsweredBy (lock : Lock S) (step : σ → Event S → σ → Prop) (taken : σ → Bool)
    (answer : (op : S.Op) → σ → S.Answer op × σ) : Prop where
  answers : ∀ w op, (lock.effect op = some true → taken w = false) →
    step w ⟨op, (answer op w).1⟩ (answer op w).2
  freed : ∀ {w e w'}, step w e w' → lock.effect e.op = some false → taken w' = false

variable {lock : Lock S} {step : σ → Event S → σ → Prop} {taken : σ → Bool}
  {answer : (op : S.Op) → σ → S.Answer op × σ}

/-- What a question does to the lock is what the environment sees of it, if nobody else holds
it. -/
theorem Lock.KeptBy.taken_after (hkept : lock.KeptBy step taken)
    (hanswered : lock.AnsweredBy step taken answer) {w w' : σ} {e : Event S} (h : step w e w') :
    taken w' = lock.after (taken w) e.op := by
  unfold Lock.after
  cases heffect : lock.effect e.op with
  | none => exact hkept.kept h heffect
  | some b =>
      cases b with
      | true => exact (hkept.acquired h heffect).2
      | false => exact hanswered.freed h heffect

/-- A program that keeps to the lock, and is the only one that may hold it, runs to its end. -/
theorem Program.Brackets.finishes (hkept : lock.KeptBy step taken)
    (hanswered : lock.AnsweredBy step taken answer) {held last : Bool} {p : Program S α}
    (hp : p.Brackets lock held last) {w : σ} (hw : taken w = held) :
    Path step w (p.eval answer w).2.1 (p.eval answer w).2.2 ∧
      taken (p.eval answer w).2.2 = last := by
  induction p generalizing held w with
  | done a =>
      have hlast : held = last := hp
      exact ⟨.nil, hw.trans hlast⟩
  | call op next ih =>
      obtain ⟨hallows, hnext⟩ := hp
      have hfree : lock.effect op = some true → taken w = false := fun htake =>
        hw.trans (hallows.effect true htake)
      have hstep := hanswered.answers w op hfree
      have hafter : taken (answer op w).2 = lock.after held op := by
        rw [hkept.taken_after hanswered hstep, hw]
      obtain ⟨hpath, hlast⟩ := ih (answer op w).1 (hnext _) hafter
      exact ⟨.cons hstep hpath, hlast⟩

/-- What is left of a program that has been begun. -/
theorem Program.Brackets.rest {held last : Bool} {p : Program S α}
    (hp : p.Brackets lock held last) {t : List (Event S)} (h : p.Begins t) :
    ∃ q : Program S α, q.Brackets lock (lock.holds held t) last ∧
      ∀ t' a, q.Runs t' a → p.Runs (t ++ t') a := by
  induction p generalizing held t with
  | done a =>
      cases t with
      | nil => exact ⟨.done a, hp, fun _ _ h => h⟩
      | cons e t => exact h.elim
  | call op next ih =>
      cases t with
      | nil => exact ⟨.call op next, hp, fun _ _ h => h⟩
      | cons e t =>
          obtain ⟨ans, rfl, h⟩ := h
          obtain ⟨q, hq, hrun⟩ := ih ans (hp.2 ans) h
          exact ⟨q, hq, fun t' a h' => ⟨ans, t ++ t', rfl, hrun t' a h'⟩⟩

/-! ## Pools -/

section Pools

variable {code : κ → Program S α} {init : σ}

/-- Nobody holds the lock but perhaps one call. -/
def Pool.OnlyHolder (lock : Lock S) (p : Pool S σ κ) (i : Nat) : Prop :=
  ∀ j, lock.holds false (ownEvents p.log j) = true → j = i

/-- A call has been run to its end. -/
def Pool.Ended (code : κ → Program S α) (p : Pool S σ κ) (i : Nat) : Prop :=
  ∀ k, p.calls[i]? = some k → ∃ a, (code k).Runs (ownEvents p.log i) a

/-- A pool that another one becomes with these answers, without a call being started. -/
structure Pool.Continues (answer : (op : S.Op) → σ → S.Answer op × σ) (p p' : Pool S σ κ) :
    Prop where
  calls : p'.calls = p.calls
  rest : ∃ t, p'.log = p.log ++ t ∧ Path (Answers answer) p.world (t.map Prod.snd) p'.world

theorem Pool.Continues.refl (p : Pool S σ κ) : p.Continues answer p :=
  ⟨rfl, [], (List.append_nil _).symm, .nil⟩

theorem Pool.Continues.trans {p p' p'' : Pool S σ κ} (h : p.Continues answer p')
    (h' : p'.Continues answer p'') : p.Continues answer p'' := by
  obtain ⟨t, hlog, hpath⟩ := h.rest
  obtain ⟨t', hlog', hpath'⟩ := h'.rest
  refine ⟨h'.calls.trans h.calls, t ++ t', by rw [hlog', hlog, List.append_assoc], ?_⟩
  rw [List.map_append]
  exact path_append.2 ⟨p'.world, hpath, hpath'⟩

/-- **A lock that is taken is held by a call.** -/
theorem Pool.Reachable.held (hkept : lock.KeptBy step taken)
    (hanswered : lock.AnsweredBy step taken answer) (hfree : taken init = false)
    (hcode : ∀ k, (code k).Brackets lock false false) {p : Pool S σ κ}
    (h : p.Reachable code step init) (htaken : taken p.world = true) :
    ∃ i, lock.holds false (ownEvents p.log i) = true := by
  induction h with
  | init =>
      have hinit : taken init = true := htaken
      rw [hfree] at hinit
      cases hinit
  | start k _ ih => exact ih htaken
  | @turn p i k e world h call begun answered ih =>
      have hworld : taken world = lock.after (taken p.world) e.op :=
        hkept.taken_after hanswered answered
      have hallowed := (hcode k).allows begun
      have hself : lock.holds false (ownEvents (p.log ++ [(i, e)]) i) =
          lock.after (lock.holds false (ownEvents p.log i)) e.op := by
        rw [ownEvents_concat_self, lock.holds_append]
        rfl
      rw [hworld] at htaken
      unfold Lock.after at htaken hself
      cases heffect : lock.effect e.op with
      | some b =>
          rw [heffect] at htaken hself
          exact ⟨i, hself.trans htaken⟩
      | none =>
          rw [heffect] at htaken hself
          obtain ⟨j, hj⟩ := ih htaken
          by_cases hij : i = j
          · subst hij
            exact ⟨i, hself.trans hj⟩
          · exact ⟨j, by rw [ownEvents_concat_of_ne _ hij]; exact hj⟩

/-- If only one call may hold the lock, it can be run to its end, and then nobody holds it. -/
theorem Pool.Reachable.finish (hkept : lock.KeptBy step taken)
    (hanswered : lock.AnsweredBy step taken answer) (hfree : taken init = false)
    (hcode : ∀ k, (code k).Brackets lock false false) {p : Pool S σ κ}
    (h : p.Reachable code step init) {i : Nat} {k : κ} (hk : p.calls[i]? = some k)
    (honly : p.OnlyHolder lock i) :
    ∃ p', p'.Reachable code step init ∧ p.Continues answer p' ∧ taken p'.world = false ∧
      p'.Ended code i ∧ ∀ j, j ≠ i → ownEvents p'.log j = ownEvents p.log j := by
  -- The lock is taken exactly if this call holds it.
  have hworld : taken p.world = lock.holds false (ownEvents p.log i) := by
    cases hholds : lock.holds false (ownEvents p.log i) with
    | true => exact (h.oneHolder hkept hcode).taken i hholds
    | false =>
        by_contra htaken
        obtain ⟨j, hj⟩ := h.held hkept hanswered hfree hcode (by simpa using htaken)
        rw [honly j hj, hholds] at hj
        cases hj
  obtain ⟨q, hq, hrest⟩ := (hcode k).rest (h.begins hk)
  obtain ⟨hpath, hlast⟩ := hq.finishes hkept hanswered hworld
  have hrun := hrest _ _ (q.eval_runs answer p.world)
  generalize (q.eval answer p.world).1 = a at hrun
  have hevents := q.eval_path answer p.world
  generalize (q.eval answer p.world).2.2 = w' at hpath hlast hevents
  generalize (q.eval answer p.world).2.1 = t at hrun hpath hevents
  have hown : ownEvents (p.log ++ t.map fun e => (i, e)) i = ownEvents p.log i ++ t := by
    rw [ownEvents_append, ownEvents_self]
  refine ⟨_, h.turns hk hrun.begins hpath, ⟨rfl, _, rfl, ?_⟩, hlast, ?_, ?_⟩
  · simpa [List.map_map, Function.comp_def] using hevents
  · intro k' hk'
    obtain rfl : k' = k := Option.some.inj (hk'.symm.trans hk)
    exact ⟨a, by rw [hown]; exact hrun⟩
  · intro j hj
    show ownEvents (p.log ++ t.map fun e => (i, e)) j = ownEvents p.log j
    rw [ownEvents_append, ownEvents_of_ne hj.symm, List.append_nil]

/-- While the lock is free nobody holds it. -/
theorem Pool.Reachable.nobody (hkept : lock.KeptBy step taken)
    (hcode : ∀ k, (code k).Brackets lock false false) {p : Pool S σ κ}
    (h : p.Reachable code step init) (hfree : taken p.world = false) (i : Nat) :
    p.OnlyHolder lock i := by
  intro j hj
  have htaken := (h.oneHolder hkept hcode).taken j hj
  rw [hfree] at htaken
  cases htaken

/-- While the lock is free, the first calls can be run to their ends one by one. -/
theorem Pool.Reachable.finishFirst (hkept : lock.KeptBy step taken)
    (hanswered : lock.AnsweredBy step taken answer) (hfree : taken init = false)
    (hcode : ∀ k, (code k).Brackets lock false false) {p : Pool S σ κ}
    (h : p.Reachable code step init) (hnow : taken p.world = false) (n : Nat) :
    ∃ p', p'.Reachable code step init ∧ p.Continues answer p' ∧ taken p'.world = false ∧
      ∀ i < n, p'.Ended code i := by
  induction n with
  | zero => exact ⟨p, h, .refl p, hnow, fun i hi => absurd hi (Nat.not_lt_zero i)⟩
  | succ n ih =>
      obtain ⟨p₁, h₁, hcont₁, hnow₁, hended₁⟩ := ih
      cases hk : p₁.calls[n]? with
      | none =>
          refine ⟨p₁, h₁, hcont₁, hnow₁, fun i hi => ?_⟩
          rcases Nat.lt_succ_iff_lt_or_eq.1 hi with hlt | rfl
          · exact hended₁ i hlt
          · intro k hk'
            rw [hk] at hk'
            cases hk'
      | some k =>
          obtain ⟨p₂, h₂, hcont₂, hnow₂, hended₂, hothers⟩ :=
            h₁.finish hkept hanswered hfree hcode hk (h₁.nobody hkept hcode hnow₁ n)
          refine ⟨p₂, h₂, hcont₁.trans hcont₂, hnow₂, fun i hi => ?_⟩
          rcases Nat.lt_succ_iff_lt_or_eq.1 hi with hlt | rfl
          · intro k' hk'
            rw [hcont₂.calls] at hk'
            rw [hothers i (Nat.ne_of_lt hlt)]
            exact hended₁ i hlt k' hk'
          · exact hended₂

/-- **No call is kept waiting for ever.**  From every pool that can be reached, and whatever the
environment answers from then on, all calls that have been started can be run to their ends, and
then the lock is free. -/
theorem Pool.Reachable.completes (hkept : lock.KeptBy step taken)
    (hanswered : lock.AnsweredBy step taken answer) (hfree : taken init = false)
    (hcode : ∀ k, (code k).Brackets lock false false) {p : Pool S σ κ}
    (h : p.Reachable code step init) :
    ∃ p', p'.Reachable code step init ∧ p.Continues answer p' ∧ taken p'.world = false ∧
      ∀ i, p'.Ended code i := by
  -- The holder goes first, if there is one.
  have hopen : ∃ p₁, p₁.Reachable code step init ∧ p.Continues answer p₁ ∧
      taken p₁.world = false := by
    cases hnow : taken p.world with
    | false => exact ⟨p, h, .refl p, hnow⟩
    | true =>
        obtain ⟨i, hi⟩ := h.held hkept hanswered hfree hcode hnow
        have hasked : ownEvents p.log i ≠ [] := by
          intro hnone
          rw [hnone] at hi
          cases hi
        obtain ⟨e, he⟩ := List.exists_mem_of_ne_nil _ hasked
        obtain ⟨k, hk⟩ := h.started (mem_ownEvents.1 he)
        have honly : p.OnlyHolder lock i := fun j hj =>
          (h.oneHolder hkept hcode).one j i hj hi
        obtain ⟨p₁, h₁, hcont₁, hnow₁, -⟩ := h.finish hkept hanswered hfree hcode hk honly
        exact ⟨p₁, h₁, hcont₁, hnow₁⟩
  obtain ⟨p₁, h₁, hcont₁, hnow₁⟩ := hopen
  obtain ⟨p₂, h₂, hcont₂, hnow₂, hended⟩ :=
    h₁.finishFirst hkept hanswered hfree hcode hnow₁ p₁.calls.length
  refine ⟨p₂, h₂, hcont₁.trans hcont₂, hnow₂, fun i => ?_⟩
  by_cases hi : i < p₁.calls.length
  · exact hended i hi
  · intro k hk
    rw [hcont₂.calls, List.getElem?_eq_none (Nat.le_of_not_lt hi)] at hk
    cases hk

end Pools

end Interaction
