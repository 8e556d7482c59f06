import UnifiMcp.Server.PlanExecution

/-!
# A claimed change set is settled

An apply call whose claim is granted has taken the change set out of the states it could be
applied from, and nobody else will settle it.  `Settling` lists the ways from the claim to the
question that records what came of it; `settling_of_begins` says that this question is the last
of the call, and `update_of_gives` that a call that returns has asked it.

`Settled` is what the log says of the stored states, whatever the order of the calls, and
`claimed_change_set_settles` puts the two together.
-/

namespace UnifiMcp

open Interaction Collections

variable {server : UnifiServer} {caller : Option CallerCtx}

/-! ## From the claim to the verdict -/

/-- The question that records the state of a claimed change set. -/
def updateEvent (claimed : ChangeSetRecord) (state : ChangeSetState)
    (answer : Except CoordinatorError Unit) : Event ServerSig :=
  coordinatorEvent (.updateChangeSet { claimed with state := state }) answer

/-- The record that an apply is about to write, and how it was received. -/
def intentEvent (caller : Option CallerCtx) (args : ApplyChangeSetArgs)
    (answer : Except String Unit) : Event ServerSig :=
  ⟨.applyIntent args.changeSetId args.controller (principal caller), answer⟩

/-- The state an outcome is recorded with. -/
def verdict (outcome : Outcome) : ChangeSetState :=
  if UnifiServer.succeeded outcome.state then .applied else .failed

/-- The receipt of an apply. -/
def ServerOp.IsReceipt : ServerOp → Prop
  | .resultReceipt _ _ _ _ _ => True
  | _ => False

theorem ServerOp.IsReceipt.notClient {op : ServerOp} (h : op.IsReceipt) : op.NotClient := by
  cases op with
  | client controller op => exact h
  | _ => trivial

/-- What a call asks between its claim and the question that settles the change set, and the
state it settles it with. -/
inductive Settling (server : UnifiServer) (caller : Option CallerCtx) (args : ApplyChangeSetArgs)
    (client : UnifiClient) (claimed : ChangeSetRecord) :
    List (Event ServerSig) → ChangeSetState → Prop
  /-- The window has closed. -/
  | lapsed (now : Nat) (late : claimed.expiresAtUnix ≤ now) :
      Settling server caller args client claimed [nowEvent now] .failed
  /-- The plan does not read. -/
  | unreadable (now : Nat) (intime : now < claimed.expiresAtUnix) (message : String)
      (plan : UnifiServer.planOf claimed = .error message) :
      Settling server caller args client claimed [nowEvent now] .failed
  /-- The plan may not be written. -/
  | refused (now : Nat) (intime : now < claimed.expiresAtUnix) (mutations : List StagedMutation)
      (preimage : Preimage) (plan : UnifiServer.planOf claimed = .ok (mutations, preimage))
      (e : UnifiError) (check : checkWritableFields server.mecmcp.number mutations = .error e) :
      Settling server caller args client claimed [nowEvent now] .failed
  /-- The intent could not be made durable. -/
  | notDurable (now : Nat) (intime : now < claimed.expiresAtUnix) (mutations : List StagedMutation)
      (preimage : Preimage) (plan : UnifiServer.planOf claimed = .ok (mutations, preimage))
      (check : checkWritableFields server.mecmcp.number mutations = .ok ())
      (evidence : server.evidence = true) (error : String) :
      Settling server caller args client claimed
        [nowEvent now, intentEvent caller args (.error error)] .failed
  /-- The plan was carried out. -/
  | carriedOut (now : Nat) (intime : now < claimed.expiresAtUnix) (mutations : List StagedMutation)
      (preimage : Preimage) (plan : UnifiServer.planOf claimed = .ok (mutations, preimage))
      (check : checkWritableFields server.mecmcp.number mutations = .ok ())
      (intent : List (Event ServerSig))
      (durable : intent = if server.evidence then [intentEvent caller args (.ok ())] else [])
      (u : List (Event ClientSig)) (outcome : Outcome)
      (run : (applyOver client preimage mutations).Runs u outcome)
      (receipt : List (Event ServerSig)) (only : ∀ e ∈ receipt, ServerOp.IsReceipt e.op) :
      Settling server caller args client claimed
        (nowEvent now :: intent ++ (u.map (clientEvent args.controller) ++ receipt))
        (verdict outcome)

/-- Anything but the recording of a state. -/
def ServerOp.NotUpdate : ServerOp → Prop
  | .coordinator (.updateChangeSet _) => False
  | _ => True

/-- A question after which nothing is asked. -/
theorem begins_coordinator_last {α : Type} {op : CoordinatorOp}
    {f : op.Answer → ServerM α} (hf : ∀ answer, (f answer).Asks fun _ => False)
    {before after : List (Event ServerSig)} {e : Event ServerSig}
    (h : (ServerM.coordinator op >>= f).Begins (before ++ e :: after)) :
    before = [] ∧ after = [] ∧ ∃ answer, e = coordinatorEvent op answer := by
  have hask := Fallible.begins_bind_silent h hf
  cases before with
  | nil =>
      obtain ⟨answer, rfl, hrest⟩ := hask
      exact ⟨rfl, Fallible.begins_pure hrest, answer, rfl⟩
  | cons e' before =>
      obtain ⟨answer, rfl, hrest⟩ := hask
      exact absurd (Fallible.begins_pure hrest) (by simp)

theorem begins_abandon {α : Type} {claimed : ChangeSetRecord} {message : String}
    {before after : List (Event ServerSig)} {e : Event ServerSig}
    (h : (UnifiServer.abandon claimed message : ServerM α).Begins (before ++ e :: after)) :
    before = [] ∧ after = [] ∧ ∃ answer, e = updateEvent claimed .failed answer :=
  begins_coordinator_last (fun _ => Fallible.asks_throw _) h

/-- A client's program that has returned has run. -/
theorem gives_lift_onController {α : Type} {controller : String} {p : Program ClientSig α}
    {t : List (Event ServerSig)} {a : α}
    (h : Fallible.Gives (ExceptT.lift (onController controller p) : ServerM α) t (.ok a)) :
    ∃ u, t = u.map (clientEvent controller) ∧ p.Runs u a := by
  unfold Fallible.Gives at h
  rw [ExceptT.run_lift, Program.runs_map] at h
  obtain ⟨a', hrun, heq⟩ := h
  cases heq
  induction p generalizing t with
  | done b => exact ⟨[], hrun.1, rfl, hrun.2⟩
  | call op next ih =>
      obtain ⟨answer, rest, rfl, hrest⟩ := hrun
      obtain ⟨u, rfl, hu⟩ := ih answer hrest
      exact ⟨⟨op, answer⟩ :: u, rfl, answer, u, rfl, hu⟩

section Apply

variable {args : ApplyChangeSetArgs} {client : UnifiClient} {claimed record : ChangeSetRecord}
  {answer : Except CoordinatorError Unit} {before after : List (Event ServerSig)}

theorem not_notUpdate (record : ChangeSetRecord) (answer : Except CoordinatorError Unit) :
    ¬ ServerOp.NotUpdate (coordinatorEvent (.updateChangeSet record) answer).op :=
  fun h => h

theorem settling_of_begins_execute {mutations : List StagedMutation} {preimage : Preimage}
    (h : (server.execute caller args client claimed mutations preimage).Begins
      (before ++ coordinatorEvent (.updateChangeSet record) answer :: after)) :
    after = [] ∧ ∃ u outcome receipt, (applyOver client preimage mutations).Runs u outcome ∧
      before = u.map (clientEvent args.controller) ++ receipt ∧
      (∀ e ∈ receipt, ServerOp.IsReceipt e.op) ∧
      record = { claimed with state := verdict outcome } := by
  have hclient : Fallible.Asks ServerOp.NotUpdate (ExceptT.lift (onController args.controller
      (applyOver client preimage mutations)) : ServerM Outcome) :=
    asks_lift (asks_onController (Program.asks_true _) fun _ _ => trivial)
  obtain ⟨t₁, rest, outcome, rfl, hgives, h₁⟩ :=
    Fallible.begins_bind_at hclient h (not_notUpdate record answer)
  obtain ⟨u, rfl, hrun⟩ := gives_lift_onController hgives
  -- The state is recorded last, with or without a receipt before it.
  have hlast : ∀ {before : List (Event ServerSig)} {f : Except CoordinatorError Unit → Json},
      Fallible.Begins (ServerM.coordinator (.updateChangeSet
        { claimed with
          state := if UnifiServer.succeeded outcome.state then .applied else .failed }) >>=
          fun a => (pure (f a) : ServerM Json))
        (before ++ coordinatorEvent (.updateChangeSet record) answer :: after) →
      before = [] ∧ after = [] ∧ record = { claimed with state := verdict outcome } := by
    intro before f hbegins
    obtain ⟨hbefore, hafter, answer', heq⟩ :=
      begins_coordinator_last (fun _ => Fallible.asks_pure _) hbegins
    cases heq
    exact ⟨hbefore, hafter, rfl⟩
  dsimp only at h₁
  by_cases hevidence : server.evidence = true
  · rw [if_pos hevidence] at h₁
    obtain ⟨t₂, rest', receipt, rfl, hreceipt, h₂⟩ :=
      Fallible.begins_bind_at (P := ServerOp.NotUpdate) (asks_server trivial) h₁
        (not_notUpdate record answer)
    obtain ⟨rfl, rfl, hrecord⟩ := hlast h₂
    obtain ⟨answer', rfl, -⟩ := Fallible.gives_ask.1 hreceipt
    refine ⟨rfl, u, outcome, _, hrun, by rw [List.append_nil], ?_, hrecord⟩
    intro e he
    rw [List.mem_singleton.1 he]
    trivial
  · rw [if_neg hevidence] at h₁
    obtain ⟨rfl, rfl, hrecord⟩ := hlast h₁
    exact ⟨rfl, u, outcome, [], hrun, rfl, fun e he => absurd he List.not_mem_nil, hrecord⟩

/-- **The question that settles a claimed change set is the last one**, and what comes before it
is one of the ways of `Settling`. -/
theorem settling_of_begins_applyClaimed
    (h : (server.applyClaimed caller args client claimed).Begins
      (before ++ coordinatorEvent (.updateChangeSet record) answer :: after)) :
    after = [] ∧ ∃ state, record = { claimed with state := state } ∧
      Settling server caller args client claimed before state := by
  have hupdate := not_notUpdate record answer
  have habandon : ∀ {message : String} {before : List (Event ServerSig)},
      Fallible.Begins (UnifiServer.abandon claimed message : ServerM Json)
        (before ++ coordinatorEvent (.updateChangeSet record) answer :: after) →
      before = [] ∧ after = [] ∧ record = { claimed with state := .failed } := by
    intro message before hbegins
    obtain ⟨hbefore, hafter, answer', heq⟩ := begins_abandon hbegins
    cases heq
    exact ⟨hbefore, hafter, rfl⟩
  obtain ⟨t₁, rest, now, rfl, hnow, h₁⟩ :=
    Fallible.begins_bind_at (P := ServerOp.NotUpdate) (asks_server trivial) h hupdate
  obtain ⟨now', rfl, hnow'⟩ := Fallible.gives_ask.1 hnow
  cases hnow'
  by_cases hlate : now ≥ claimed.expiresAtUnix
  · rw [if_pos hlate] at h₁
    obtain ⟨rfl, rfl, hrecord⟩ := habandon h₁
    exact ⟨rfl, _, hrecord, .lapsed now hlate⟩
  · rw [if_neg hlate] at h₁
    have hintime : now < claimed.expiresAtUnix := Nat.lt_of_not_le hlate
    cases hplan : UnifiServer.planOf claimed with
    | error message =>
        rw [hplan] at h₁
        obtain ⟨rfl, rfl, hrecord⟩ := habandon h₁
        exact ⟨rfl, _, hrecord, .unreadable now hintime message hplan⟩
    | ok plan =>
        obtain ⟨mutations, preimage⟩ := plan
        rw [hplan] at h₁
        dsimp only at h₁
        cases hcheck : checkWritableFields server.mecmcp.number mutations with
        | error e =>
            rw [hcheck] at h₁
            obtain ⟨rfl, rfl, hrecord⟩ := habandon h₁
            exact ⟨rfl, _, hrecord, .refused now hintime mutations preimage hplan e hcheck⟩
        | ok _ =>
            rw [hcheck] at h₁
            dsimp only at h₁
            by_cases hevidence : server.evidence = true
            · rw [if_pos hevidence] at h₁
              obtain ⟨t₂, rest', intent, rfl, hintent, h₂⟩ :=
                Fallible.begins_bind_at (P := ServerOp.NotUpdate) (asks_server trivial) h₁ hupdate
              obtain ⟨intent', rfl, hintent'⟩ := Fallible.gives_ask.1 hintent
              cases hintent'
              rcases intent with error | _
              · obtain ⟨rfl, rfl, hrecord⟩ := habandon h₂
                exact ⟨rfl, _, hrecord,
                  .notDurable now hintime mutations preimage hplan hcheck hevidence error⟩
              · obtain ⟨hafter, u, outcome, receipt, hrun, rfl, honly, hrecord⟩ :=
                  settling_of_begins_execute h₂
                exact ⟨hafter, _, hrecord, .carriedOut now hintime mutations preimage hplan hcheck
                  [intentEvent caller args (.ok ())] (by rw [if_pos hevidence]) u outcome hrun
                  receipt honly⟩
            · rw [if_neg hevidence] at h₁
              obtain ⟨hafter, u, outcome, receipt, hrun, rfl, honly, hrecord⟩ :=
                settling_of_begins_execute h₁
              exact ⟨hafter, _, hrecord, .carriedOut now hintime mutations preimage hplan hcheck []
                (by rw [if_neg hevidence]) u outcome hrun receipt honly⟩

/-- A call that returns has recorded a state with its last question. -/
def EndsSettled {α : Type} (x : ServerM α) : Prop :=
  ∀ t r, x.Gives t r → ∃ before record answer,
    t = before ++ [coordinatorEvent (.updateChangeSet record) answer]

theorem endsSettled_ask_bind {α : Type} {op : ServerOp} {f : op.Answer → ServerM α}
    (hf : ∀ answer, EndsSettled (f answer)) : EndsSettled (ServerM.ask op >>= f) := by
  intro t r h
  obtain ⟨answer, rest, rfl, hrest⟩ := Fallible.gives_ask_bind.1 h
  obtain ⟨before, record, answer', rfl⟩ := hf answer _ _ hrest
  exact ⟨_ :: before, record, answer', rfl⟩

theorem endsSettled_update {α : Type} {f : Except CoordinatorError Unit → ServerM α}
    (hf : ∀ answer, (f answer).Asks fun _ => False) :
    EndsSettled (ServerM.coordinator (.updateChangeSet record) >>= f) := by
  intro t r h
  obtain ⟨answer, rest, rfl, hrest⟩ := Fallible.gives_ask_bind.1 h
  have hnone : rest = [] :=
    List.eq_nil_iff_forall_not_mem.2 fun e he => (hf answer).of_mem hrest e he
  exact ⟨[], record, answer, by rw [hnone]; rfl⟩

theorem endsSettled_execute {mutations : List StagedMutation} {preimage : Preimage} :
    EndsSettled (server.execute caller args client claimed mutations preimage) := by
  intro t r h
  rcases Fallible.gives_bind.1 h with ⟨e, -, herror⟩ | ⟨t₁, t₂, outcome, rfl, -, h₂⟩
  · -- Carrying the plan out does not fail.
    unfold Fallible.Gives at herror
    rw [ExceptT.run_lift, Program.runs_map] at herror
    obtain ⟨a, -, heq⟩ := herror
    cases heq
  · have hrest : ∃ before record answer,
        t₂ = before ++ [coordinatorEvent (.updateChangeSet record) answer] := by
      dsimp only at h₂
      by_cases hevidence : server.evidence = true
      · rw [if_pos hevidence] at h₂
        exact endsSettled_ask_bind
          (fun _ => endsSettled_update fun _ => Fallible.asks_pure _) _ _ h₂
      · rw [if_neg hevidence] at h₂
        exact endsSettled_update (fun _ => Fallible.asks_pure _) _ _ h₂
    obtain ⟨before, record, answer, rfl⟩ := hrest
    exact ⟨t₁ ++ before, record, answer, by rw [List.append_assoc]⟩

/-- **Every exit after a claim settles the change set.** -/
theorem endsSettled_applyClaimed :
    EndsSettled (server.applyClaimed caller args client claimed) := by
  have habandon : ∀ message, EndsSettled (UnifiServer.abandon claimed message : ServerM Json) :=
    fun message => endsSettled_update fun _ => Fallible.asks_throw _
  refine endsSettled_ask_bind fun now => ?_
  by_cases hlate : now ≥ claimed.expiresAtUnix
  · rw [if_pos hlate]
    exact habandon _
  · rw [if_neg hlate]
    cases UnifiServer.planOf claimed with
    | error message => exact habandon _
    | ok plan =>
        dsimp only
        cases checkWritableFields server.mecmcp.number plan.1 with
        | error e => exact habandon _
        | ok _ =>
            dsimp only
            by_cases hevidence : server.evidence = true
            · rw [if_pos hevidence]
              refine endsSettled_ask_bind fun intent => ?_
              rcases intent with error | _
              · exact habandon _
              · exact endsSettled_execute
            · rw [if_neg hevidence]
              exact endsSettled_execute

/-! ## The whole call -/

/-- Anything but a claim. -/
def ServerOp.NotClaim : ServerOp → Prop
  | .coordinator (.claimChangeSetForApply _ _) => False
  | _ => True

/-- An apply call that returns after its claim has settled the change set. -/
theorem update_of_gives {t : List (Event ServerSig)} {r : Except String Json}
    (h : (server.unifiApplyChangeSet caller args).Gives t r)
    (hclaim : claimEvent args claimed ∈ t) :
    ∃ before record answer, t = before ++ [coordinatorEvent (.updateChangeSet record) answer] := by
  have hnot : ¬ ServerOp.NotClaim (claimEvent args claimed).op := fun h => h
  obtain ⟨t₁, t₂, _, rfl, -, h₂, hclaim₂⟩ :=
    Fallible.gives_bind_of_mem (P := ServerOp.NotClaim) (Fallible.asks_ofExcept _) h hclaim hnot
  obtain ⟨t₃, t₄, client, rfl, -, h₄, hclaim₄⟩ :=
    Fallible.gives_bind_of_mem (P := ServerOp.NotClaim) (asks_clientFor _ trivial) h₂ hclaim₂ hnot
  obtain ⟨t₅, t₆, status, rfl, -, h₆, hclaim₆⟩ :=
    Fallible.gives_bind_of_mem (P := ServerOp.NotClaim) (asks_server trivial) h₄ hclaim₄ hnot
  obtain ⟨t₇, t₈, _, rfl, -, h₈, hclaim₈⟩ :=
    Fallible.gives_bind_of_mem (P := ServerOp.NotClaim) (asks_orFail _ _) h₆ hclaim₆ hnot
  obtain ⟨answer, t₉, rfl, h₉⟩ := Fallible.gives_ask_bind.1 h₈
  have hsettled : ∃ before record answer,
      t₉ = before ++ [coordinatorEvent (.updateChangeSet record) answer] := by
    rcases Fallible.gives_bind.1 h₉ with ⟨e, -, herror⟩ | ⟨t₁₀, t₁₁, claimed', rfl, h₁₀, h₁₁⟩
    · -- A claim that is refused is not one that was granted.
      obtain ⟨rfl, hfail⟩ := Fallible.gives_ofExcept.1 herror
      have heq := List.mem_singleton.1 hclaim₈
      cases heq
      cases hfail
    · obtain ⟨rfl, -⟩ := Fallible.gives_ofExcept.1 h₁₀
      exact endsSettled_applyClaimed _ _ h₁₁
  obtain ⟨before, record, answer', rfl⟩ := hsettled
  refine ⟨t₁ ++ (t₃ ++ (t₅ ++ (t₇ ++ coordinatorEvent (.claimChangeSetForApply args.changeSetId
    args.controller) answer :: before))), record, answer', ?_⟩
  simp only [List.append_assoc, List.cons_append]
  rfl

end Apply

/-! ## Every order of calls -/

variable {C : Coordinator}

/-- **What is behind the recording of a state**: a claim of the same call, and a way of settling
it; and the call asks nothing more. -/
theorem settling_of_begins {k : ChangeSetCall} {before after : List (Event ServerSig)}
    {record : ChangeSetRecord} {answer : Except CoordinatorError Unit}
    (h : (server.handle k).Begins
      (before ++ coordinatorEvent (.updateChangeSet record) answer :: after)) :
    after = [] ∧ ∃ caller args client status claimed rest state, k = .apply caller args ∧
      before = beforeClaim args client status ++ claimEvent args claimed :: rest ∧
      record = { claimed with state := state } ∧
      Settling server caller args client claimed rest state := by
  have hmay := (asks_handle k).of_begins h
    (coordinatorEvent (.updateChangeSet record) answer) (by simp)
  obtain ⟨⟨caller, args, rfl⟩, -⟩ := hmay
  obtain ⟨client, status, claimed, rest, rfl, hbegins⟩ := begins_apply h id
  obtain ⟨hafter, state, hrecord, hsettling⟩ := settling_of_begins_applyClaimed hbegins
  exact ⟨hafter, caller, args, client, status, claimed, rest, state, rfl, rfl, hrecord, hsettling⟩

/-- What is relied on of the coordinator's writing of states: change sets are stored under their
ids, a state that was written is stored, and `applied` and `failed` are final until another is
written. -/
structure Coordinator.WritesStates (C : Coordinator) : Prop where
  keyed : ∀ {s id r}, C.record s id = some r → r.id = id
  written : ∀ {s r s'}, C.step s (.updateChangeSet r) (.ok ()) s' →
    ∃ r', C.record s' r.id = some r' ∧ r'.state = r.state
  final : ∀ {s op a s' id r r'}, C.step s op a s' → C.record s id = some r →
    C.record s' id = some r' → r.state = .applied ∨ r.state = .failed →
      r'.state = r.state ∨ ∃ record, op = .updateChangeSet record ∧ record.id = id

/-- What the log says of claims. -/
structure Claims (w : ServerWorld C) (log : List (Nat × Event ServerSig)) : Prop where
  claimedId : ∀ {i id device r},
    (i, coordinatorEvent (.claimChangeSetForApply id device) (.ok r)) ∈ log → r.id = id
  claimed : ∀ {i id device r₀},
    (i, coordinatorEvent (.claimChangeSetForApply id device) (.ok r₀)) ∈ log →
      ∃ r, C.record w.store id = some r ∧ r.state ≠ .planned ∧ r.state ≠ .approved
  claimedOnce : ∀ {i j id device device' r r'},
    (i, coordinatorEvent (.claimChangeSetForApply id device) (.ok r)) ∈ log →
      (j, coordinatorEvent (.claimChangeSetForApply id device') (.ok r')) ∈ log → i = j

theorem Claims.turn (hC : C.WritesStates) {w w' : ServerWorld C}
    {log : List (Nat × Event ServerSig)} {e : Event ServerSig} {i : Nat} (hl : Claims w log)
    (hstep : ServerStep C w e w')
    (hupdates : ∀ record, e.op = .coordinator (.updateChangeSet record) →
      record.state = .applied ∨ record.state = .failed) : Claims w' (log ++ [(i, e)]) where
  claimedId := by
    intro j id device r hmem
    rcases mem_log_append hmem with hold | ⟨-, rfl⟩
    · exact hl.claimedId hold
    · obtain ⟨-, -, -, hr, -⟩ := C.claimed hstep.1
      exact hC.keyed hr
  claimed := by
    intro j id device r₀ hmem
    rcases mem_log_append hmem with hold | ⟨-, rfl⟩
    · obtain ⟨r, hr, hstate⟩ := hl.claimed hold
      obtain ⟨r', hr', -, hchange⟩ := record_after hstep hr
      exact ⟨r', hr', claimed_of_stateStep hupdates hchange hstate⟩
    · obtain ⟨-, -, -, hr, hstate, -⟩ := C.claimed hstep.1
      refine ⟨r₀, hr, ?_⟩
      rw [hstate]
      exact ⟨nofun, nofun⟩
  claimedOnce := by
    intro j j' id device device' r r' hmem hmem'
    refine claimedOnce_append (fun hold => ?_) hl.claimedOnce hstep hmem hmem'
    obtain ⟨r₂, hr₂, -, hnot⟩ := hl.claimed hold
    exact ⟨r₂, hr₂, hnot⟩

section Pool

variable {init : ServerWorld C} {p : CallPool C}

/-- A claim is granted once, in every order of calls and in lab mode too. -/
theorem Claims.of_reachable (hC : C.WritesStates)
    (h : p.Reachable server.handle (ServerStep C) init) : Claims p.world p.log := by
  induction h with
  | init => exact ⟨nofun, nofun, nofun⟩
  | start _ _ ih => exact ih
  | @turn p i k e world h call begun answered ih =>
      refine ih.turn hC answered fun record hop => ?_
      have hmay := (asks_handle k).of_begins begun e (by simp)
      rw [hop] at hmay
      exact hmay.2

/-- The call that recorded a state was granted the claim. -/
theorem claim_of_update (hC : C.WritesStates) (h : p.Reachable server.handle (ServerStep C) init)
    {i : Nat} {r₀ : ChangeSetRecord} {answer : Except CoordinatorError Unit}
    (hmem : (i, coordinatorEvent (.updateChangeSet r₀) answer) ∈ p.log) :
    (r₀.state = .applied ∨ r₀.state = .failed) ∧ ∃ device claimed,
      (i, coordinatorEvent (.claimChangeSetForApply r₀.id device) (.ok claimed)) ∈ p.log := by
  obtain ⟨k, -, hbegins, hown, hmay⟩ := mayAsk_of_mem_log h hmem
  obtain ⟨before, after, hsplit⟩ := List.append_of_mem hown
  rw [hsplit] at hbegins
  obtain ⟨-, caller, args, client, status, claimed, rest, state, -, rfl, rfl, -⟩ :=
    settling_of_begins hbegins
  have hclaim : (i, claimEvent args claimed) ∈ p.log := by
    refine mem_ownEvents.1 ?_
    rw [hsplit]
    simp
  have hid := (Claims.of_reachable hC h).claimedId hclaim
  refine ⟨hmay.2, args.controller, claimed, ?_⟩
  rw [show ({ claimed with state := state } : ChangeSetRecord).id = args.changeSetId from hid]
  exact hclaim

/-- A call that has recorded a state is over, and no other call was granted the claim. -/
theorem no_second_update (hC : C.WritesStates) (h : p.Reachable server.handle (ServerStep C) init)
    {i j : Nat} {k : ChangeSetCall} {r₀ record : ChangeSetRecord}
    {answer answer' : Except CoordinatorError Unit} {world : ServerWorld C}
    (hold : (i, coordinatorEvent (.updateChangeSet r₀) answer) ∈ p.log)
    (call : p.calls[j]? = some k)
    (begun : (server.handle k).Begins
      (ownEvents p.log j ++ [coordinatorEvent (.updateChangeSet record) answer']))
    (answered : ServerStep C p.world (coordinatorEvent (.updateChangeSet record) answer') world)
    (hid : record.id = r₀.id) : False := by
  have hturn := h.turn call begun answered
  obtain ⟨-, device, claimed, hclaim⟩ := claim_of_update hC hturn (List.mem_append_left _ hold)
  obtain ⟨-, device', claimed', hclaim'⟩ :=
    claim_of_update hC hturn (List.mem_append_right _ (List.mem_singleton.2 rfl))
  rw [hid] at hclaim'
  obtain rfl : i = j := (Claims.of_reachable hC hturn).claimedOnce hclaim hclaim'
  obtain ⟨before, after, hsplit⟩ := List.append_of_mem (mem_ownEvents.2 hold)
  rw [hsplit, List.append_assoc] at begun
  obtain ⟨hnil, -⟩ := settling_of_begins begun
  exact absurd hnil (by simp)

/-- **A state that was recorded stays recorded**, whatever the other calls do. -/
theorem recorded_of_reachable (hC : C.WritesStates)
    (h : p.Reachable server.handle (ServerStep C) init) {i : Nat} {r₀ : ChangeSetRecord}
    (hmem : (i, coordinatorEvent (.updateChangeSet r₀) (.ok ())) ∈ p.log) :
    ∃ r, C.record p.world.store r₀.id = some r ∧ r.state = r₀.state := by
  induction h with
  | init => cases hmem
  | start _ _ ih => exact ih hmem
  | @turn p j k e world h call begun answered ih =>
      rcases mem_log_append hmem with hold | ⟨rfl, rfl⟩
      · obtain ⟨r, hr, hstate⟩ := ih hold
        rcases store_of_step answered with ⟨op, answer, rfl, hstep⟩ | ⟨hstore, -⟩
        · obtain ⟨r', hr', -⟩ := C.stays hstep hr
          have hfinal := (claim_of_update hC h hold).1
          rw [← hstate] at hfinal
          rcases hC.final hstep hr hr' hfinal with hsame | ⟨record, rfl, hid⟩
          · exact ⟨r', hr', hsame.trans hstate⟩
          · exact (no_second_update hC h hold call begun answered hid).elim
        · exact ⟨r, by rw [hstore]; exact hr, hstate⟩
      · exact hC.written answered.1

/-! ## What becomes of a claim -/

/-- The call carried the claimed plan out, in time and with its intent recorded, and this is what
came of it. -/
def CarriesOut (server : UnifiServer) (caller : Option CallerCtx) (args : ApplyChangeSetArgs)
    (claimed : ChangeSetRecord) (t : List (Event ServerSig)) (outcome : Outcome) : Prop :=
  ∃ client now mutations preimage, clientForEvent args.controller client ∈ t ∧
    nowEvent now ∈ t ∧ now < claimed.expiresAtUnix ∧
    UnifiServer.planOf claimed = .ok (mutations, preimage) ∧
    checkWritableFields server.mecmcp.number mutations = .ok () ∧
    (server.evidence = true → intentEvent caller args (.ok ()) ∈ t) ∧
    (applyOver client preimage mutations).Runs (clientTrace t) outcome

/-- A reason for which a claimed plan is not carried out. -/
inductive NotCarriedOut (server : UnifiServer) (caller : Option CallerCtx)
    (args : ApplyChangeSetArgs) (claimed : ChangeSetRecord) (t : List (Event ServerSig)) :
    Prop where
  | lapsed (now : Nat) (clock : nowEvent now ∈ t) (late : claimed.expiresAtUnix ≤ now)
  | unreadable (message : String) (plan : UnifiServer.planOf claimed = .error message)
  | refused (mutations : List StagedMutation) (preimage : Preimage) (e : UnifiError)
      (plan : UnifiServer.planOf claimed = .ok (mutations, preimage))
      (check : checkWritableFields server.mecmcp.number mutations = .error e)
  | notDurable (error : String) (intent : intentEvent caller args (.error error) ∈ t)

section Run

variable {args : ApplyChangeSetArgs} {client : UnifiClient} {claimed : ChangeSetRecord}
  {rest : List (Event ServerSig)} {state : ChangeSetState}

/-- The clock is read once. -/
theorem Settling.clock (h : Settling server caller args client claimed rest state) {n m : Nat}
    (hn : nowEvent n ∈ rest) (hm : nowEvent m ∈ rest) : n = m := by
  have hreceipt : ∀ {receipt : List (Event ServerSig)} {n : Nat},
      (∀ e ∈ receipt, ServerOp.IsReceipt e.op) → nowEvent n ∉ receipt := fun honly hmem =>
    honly _ hmem
  cases h with
  | lapsed now | unreadable now | refused now =>
      simp_all [nowEvent]
  | notDurable now => simp_all [nowEvent, intentEvent]
  | carriedOut now _ _ _ _ _ intent hintent u _ _ receipt honly =>
      subst hintent
      split_ifs at hn hm <;>
        simp_all [nowEvent, intentEvent, clientEvent]

/-- The intent is recorded before a plan is carried out, and not after it was refused. -/
theorem Settling.intent (h : Settling server caller args client claimed rest state)
    {error : String} (herror : intentEvent caller args (.error error) ∈ rest) :
    state = .failed ∧ clientTrace rest = [] ∧ intentEvent caller args (.ok ()) ∉ rest := by
  cases h with
  | lapsed now | unreadable now | refused now => simp [nowEvent, intentEvent] at herror
  | notDurable now =>
      refine ⟨rfl, rfl, ?_⟩
      simp [nowEvent, intentEvent]
  | carriedOut now _ _ _ _ _ intent hintent u _ _ receipt honly =>
      have hnot : intentEvent caller args (.error error) ∉ receipt := fun hmem => honly _ hmem
      subst hintent
      split_ifs at herror <;> simp_all [nowEvent, intentEvent, clientEvent]

theorem Settling.state_cases (h : Settling server caller args client claimed rest state) :
    state = .applied ∨ state = .failed := by
  cases h with
  | lapsed | unreadable | refused | notDurable => exact .inr rfl
  | carriedOut =>
      unfold verdict
      split_ifs
      · exact .inl rfl
      · exact .inr rfl

theorem verdict_eq_applied {outcome : Outcome} :
    verdict outcome = .applied ↔ outcome.state = .applied ∨ outcome.state = .appliedUnverified := by
  unfold verdict
  cases outcome.state <;> simp [UnifiServer.succeeded]

/-- The client is asked nothing but what carries the plan out. -/
theorem clientTrace_carriedOut {now : Nat} {intent receipt : List (Event ServerSig)}
    {u : List (Event ClientSig)}
    (hintent : intent = if server.evidence then [intentEvent caller args (.ok ())] else [])
    (honly : ∀ e ∈ receipt, ServerOp.IsReceipt e.op) :
    clientTrace (nowEvent now :: intent ++ (u.map (clientEvent args.controller) ++ receipt)) =
      u := by
  have hnone : clientTrace (nowEvent now :: intent) = [] := by
    subst hintent
    split_ifs <;> rfl
  have hreceipt : clientTrace receipt = [] :=
    clientTrace_eq_nil fun e he => (honly e he).notClient
  rw [clientTrace_append, clientTrace_append, hnone, hreceipt, clientTrace_map, List.nil_append,
    List.append_nil]

theorem ServerOp.IsReceipt.afterClaim {op : ServerOp} (h : op.IsReceipt) (controller : String) :
    op.AfterClaim controller := by
  cases op with
  | resultReceipt => trivial
  | _ => exact h.elim

/-- Between the claim and the verdict nothing is asked that is asked before the claim. -/
theorem Settling.afterClaim (h : Settling server caller args client claimed rest state) :
    ∀ e ∈ rest, ServerOp.AfterClaim args.controller e.op := by
  have hnow : ∀ n, ServerOp.AfterClaim args.controller (nowEvent n).op := fun _ => trivial
  have hintent : ∀ r, ServerOp.AfterClaim args.controller (intentEvent caller args r).op :=
    fun _ => trivial
  cases h with
  | lapsed now | unreadable now | refused now =>
      intro e he
      rw [List.mem_singleton.1 he]
      exact hnow now
  | notDurable now _ _ _ _ _ _ error =>
      intro e he
      rcases List.mem_pair.1 he with rfl | rfl
      · exact hnow now
      · exact hintent _
  | carriedOut now _ _ _ _ _ intent hlist u _ _ receipt honly =>
      subst hlist
      intro e he
      rcases List.mem_append.1 he with he | he
      · split_ifs at he
        · rcases List.mem_pair.1 he with rfl | rfl
          · exact hnow now
          · exact hintent _
        · rw [List.mem_singleton.1 he]
          exact hnow now
      · rcases List.mem_append.1 he with he | he
        · obtain ⟨e, -, rfl⟩ := List.mem_map.1 he
          rfl
        · exact (honly e he).afterClaim _

/-- After the claim no client is looked up. -/
theorem Settling.not_clientFor (h : Settling server caller args client claimed rest state)
    (controller : String) (client' : UnifiClient) : clientForEvent controller client' ∉ rest :=
  fun hmem => h.afterClaim _ hmem

/-- All that an apply call asks, when its claim is granted. -/
def settledTrace (args : ApplyChangeSetArgs) (client : UnifiClient)
    (status : Except CoordinatorError Unit) (claimed : ChangeSetRecord)
    (rest : List (Event ServerSig)) (last : Event ServerSig) : List (Event ServerSig) :=
  (beforeClaim args client status ++ claimEvent args claimed :: rest) ++ [last]

variable {status : Except CoordinatorError Unit} {answer : Except CoordinatorError Unit}
  {record : ChangeSetRecord}

theorem nowEvent_mem_settledTrace {n : Nat} : nowEvent n ∈ settledTrace args client status claimed
      rest (coordinatorEvent (.updateChangeSet record) answer) ↔ nowEvent n ∈ rest := by
  simp [settledTrace, beforeClaim, clientForEvent, coordinatorEvent, claimEvent, nowEvent]

theorem intentEvent_mem_settledTrace {r : Except String Unit} :
    intentEvent caller args r ∈ settledTrace args client status claimed rest
      (coordinatorEvent (.updateChangeSet record) answer) ↔ intentEvent caller args r ∈ rest := by
  simp [settledTrace, beforeClaim, clientForEvent, coordinatorEvent, claimEvent, intentEvent]

theorem clientTrace_settledTrace : clientTrace (settledTrace args client status claimed rest
    (coordinatorEvent (.updateChangeSet record) answer)) = clientTrace rest := by
  have hbefore : clientTrace (beforeClaim args client status ++ [claimEvent args claimed]) = [] :=
    rfl
  have hlast : clientTrace [coordinatorEvent (.updateChangeSet record) answer] = [] := rfl
  have hsplit : settledTrace args client status claimed rest
      (coordinatorEvent (.updateChangeSet record) answer) =
        (beforeClaim args client status ++ [claimEvent args claimed]) ++
          (rest ++ [coordinatorEvent (.updateChangeSet record) answer]) := by
    simp [settledTrace]
  rw [hsplit, clientTrace_append, hbefore, clientTrace_append, hlast, List.nil_append,
    List.append_nil]

/-- **A claimed change set is recorded as applied exactly if its plan was carried out and all of
it landed.** -/
theorem Settling.applied_iff (h : Settling server caller args client claimed rest state) :
    state = .applied ↔ ∃ outcome,
      CarriesOut server caller args claimed (settledTrace args client status claimed rest
        (coordinatorEvent (.updateChangeSet record) answer)) outcome ∧
      (outcome.state = .applied ∨ outcome.state = .appliedUnverified) := by
  constructor
  · intro hstate
    cases h with
    | lapsed | unreadable | refused | notDurable => cases hstate
    | carriedOut now hintime mutations preimage hplan hcheck intent hintent u outcome hrun receipt
        honly =>
        refine ⟨outcome, ⟨client, now, mutations, preimage, ?_, ?_, hintime, hplan, hcheck, ?_, ?_⟩,
          verdict_eq_applied.1 hstate⟩
        · simp [settledTrace, beforeClaim]
        · rw [nowEvent_mem_settledTrace]
          simp
        · intro hevidence
          rw [intentEvent_mem_settledTrace, hintent, if_pos hevidence]
          simp
        · rw [clientTrace_settledTrace, clientTrace_carriedOut hintent honly]
          exact hrun
  · rintro ⟨outcome, ⟨client', n, mutations', preimage', hclient, hn, hearly, hplan', hcheck',
      hdurable, hrun'⟩, houtcome⟩
    rw [nowEvent_mem_settledTrace] at hn
    have hclock := fun m hm => h.clock (n := n) (m := m) hn hm
    obtain rfl : client' = client := by
      have hnot := h.not_clientFor args.controller client'
      simp_all [settledTrace, beforeClaim, clientForEvent, claimEvent, coordinatorEvent]
    cases h with
    | lapsed now hlate =>
        have heq := hclock now List.mem_cons_self
        omega
    | unreadable now hintime message hplan => rw [hplan'] at hplan; cases hplan
    | refused now hintime mutations preimage hplan e hcheck =>
        rw [hplan'] at hplan
        cases hplan
        rw [hcheck'] at hcheck
        cases hcheck
    | notDurable now hintime mutations preimage hplan hcheck hevidence error =>
        have hok := hdurable hevidence
        rw [intentEvent_mem_settledTrace] at hok
        simp [nowEvent, intentEvent] at hok
    | carriedOut now hintime mutations preimage hplan hcheck intent hintent u outcome' hrun receipt
        honly =>
        rw [hplan'] at hplan
        cases hplan
        rw [clientTrace_settledTrace, clientTrace_carriedOut hintent honly] at hrun'
        obtain rfl := hrun.unique hrun'
        exact verdict_eq_applied.2 houtcome

/-- **Where the plan is not carried out, nothing is sent and the change set has failed.** -/
theorem Settling.not_carriedOut (h : Settling server caller args client claimed rest state)
    (hnot : NotCarriedOut server caller args claimed (settledTrace args client status claimed rest
      (coordinatorEvent (.updateChangeSet record) answer))) :
    state = .failed ∧ clientTrace (settledTrace args client status claimed rest
      (coordinatorEvent (.updateChangeSet record) answer)) = [] := by
  rw [clientTrace_settledTrace]
  cases hnot with
  | lapsed n hn hlate =>
      rw [nowEvent_mem_settledTrace] at hn
      have hclock := fun m hm => h.clock (n := n) (m := m) hn hm
      cases h with
      | lapsed | unreadable | refused | notDurable => exact ⟨rfl, rfl⟩
      | carriedOut now hintime =>
          have heq := hclock now (by simp)
          omega
  | unreadable message hplan =>
      cases h with
      | lapsed | unreadable | refused | notDurable => exact ⟨rfl, rfl⟩
      | carriedOut _ _ _ _ hplan' => rw [hplan'] at hplan; cases hplan
  | refused mutations preimage e hplan hcheck =>
      cases h with
      | lapsed | unreadable | refused | notDurable => exact ⟨rfl, rfl⟩
      | carriedOut _ _ _ _ hplan' hcheck' =>
          rw [hplan'] at hplan
          cases hplan
          rw [hcheck'] at hcheck
          cases hcheck
  | notDurable error hintent =>
      obtain ⟨hstate, htrace, -⟩ := h.intent (intentEvent_mem_settledTrace.1 hintent)
      exact ⟨hstate, htrace⟩

end Run

/-- **A claimed change set is settled.**  When an apply call whose claim was granted has returned,
its change set is recorded as applied or as failed, and stays so, in every order of calls: as
applied exactly if the plan was carried out and all of it landed, and as failed, without a single
request to the controller, if the window had closed, the plan did not read, it may not be written,
or its intent was not made durable. -/
theorem claimed_change_set_settles (hC : C.WritesStates)
    (h : p.Reachable server.handle (ServerStep C) init) {i : Nat} {args : ApplyChangeSetArgs}
    {claimed : ChangeSetRecord} {result : Except String Json}
    (hk : p.calls[i]? = some (.apply caller args)) (hclaim : (i, claimEvent args claimed) ∈ p.log)
    (hwrites : ∀ record answer,
      (i, coordinatorEvent (.updateChangeSet record) answer) ∈ p.log → answer = .ok ())
    (hreturned : (server.handle (.apply caller args)).Runs (ownEvents p.log i) result) :
    ∃ r, C.record p.world.store args.changeSetId = some r ∧
      (r.state = .applied ∨ r.state = .failed) ∧
      (r.state = .applied ↔ ∃ outcome,
        CarriesOut server caller args claimed (ownEvents p.log i) outcome ∧
          (outcome.state = .applied ∨ outcome.state = .appliedUnverified)) ∧
      (NotCarriedOut server caller args claimed (ownEvents p.log i) →
        r.state = .failed ∧ clientTrace (ownEvents p.log i) = []) := by
  obtain ⟨before, record, answer, hown⟩ := update_of_gives hreturned (mem_ownEvents.2 hclaim)
  have hbegins := h.begins hk
  rw [hown] at hbegins
  obtain ⟨-, caller', args', client, status, claimed', rest, state, hcall, rfl, rfl, hsettling⟩ :=
    settling_of_begins hbegins
  cases hcall
  -- The claim that was granted is the one the call went on with.
  obtain rfl : claimed' = claimed := by
    have hmem := mem_ownEvents.2 hclaim
    rw [hown] at hmem
    have hrest : claimEvent args claimed ∉ rest := fun hin =>
      (hsettling.afterClaim _ hin : False)
    simp_all [beforeClaim, claimEvent, clientForEvent, coordinatorEvent]
  have hupdate : (i, coordinatorEvent (.updateChangeSet { claimed' with state := state }) answer) ∈
      p.log := by
    refine mem_ownEvents.1 ?_
    rw [hown]
    simp
  obtain rfl := hwrites _ _ hupdate
  obtain ⟨r, hr, hstate⟩ := recorded_of_reachable hC h hupdate
  have hid : claimed'.id = args.changeSetId := (Claims.of_reachable hC h).claimedId hclaim
  have hsame : r.state = state := hstate
  refine ⟨r, hid ▸ hr, ?_⟩
  rw [hsame, hown]
  exact ⟨hsettling.state_cases, hsettling.applied_iff, hsettling.not_carriedOut⟩

end Pool

/-! ## A call that settles what it claimed -/

namespace MemoryStore

variable {s s' : MemoryStore}

/-- The states `applied` and `failed` change only when another is written. -/
theorem final_of_answer {op : CoordinatorOp} {a : op.Answer} (h : answer op s = (a, s'))
    {id : String} {r r' : ChangeSetRecord} (hr : s.sets.get? id = some r)
    (hr' : s'.sets.get? id = some r') (hfinal : r.state = .applied ∨ r.state = .failed) :
    r'.state = r.state ∨ ∃ record, op = .updateChangeSet record ∧ record.id = id := by
  have hkept : s.sets.get? id = some r' → r'.state = r.state := fun hstored =>
    congrArg _ (Option.some.inj (hstored.symm.trans hr))
  rcases changed_of_answer h with rfl | ⟨r₁, hfresh, rfl, -⟩ |
    ⟨r₀, r₁, hstored, rfl, hsame, -, hopen⟩
  · exact .inl (hkept hr')
  · left
    rcases get?_put_eq_some hr' with ⟨rfl, -⟩ | hr'
    · rw [hfresh] at hr
      cases hr
    · exact hkept hr'
  · rcases get?_put_eq_some hr' with ⟨rfl, -⟩ | hr'
    · rw [hsame.id] at hr ⊢
      obtain rfl : r = r₀ := Option.some.inj (hr.symm.trans hstored)
      -- What is final is not open, so its state was written.
      rcases hopen with hplanned | happroved | hwritten
      · rw [hplanned] at hfinal
        rcases hfinal with hfinal | hfinal <;> cases hfinal
      · rw [happroved] at hfinal
        rcases hfinal with hfinal | hfinal <;> cases hfinal
      · exact .inr hwritten
    · exact .inl (hkept hr')

/-- The coordinator in memory writes the states it is given, and keeps them. -/
theorem writesStates : coordinator.WritesStates where
  keyed := by
    intro s id r hr
    exact s.keyed hr
  written := by
    intro s r s' h
    have hanswer : answer (.updateChangeSet r) s = (.ok (), s') := h
    simp only [answer] at hanswer
    cases hr : s.sets.get? r.id with
    | none =>
        rw [hr] at hanswer
        cases hanswer
    | some r₀ =>
        rw [hr] at hanswer
        cases hanswer
        have hid := s.keyed hr
        refine ⟨{ r₀ with state := r.state }, ?_, rfl⟩
        rw [← hid]
        exact get?_put_self s { r₀ with state := r.state }
  final := fun h hr hr' hfinal => final_of_answer h hr hr' hfinal

end MemoryStore

/-- A controller that shows the policy, however it is asked. -/
def policyReply : (op : ClientOp) → op.Answer
  | .send _ => .ok ⟨200, "", .ok (.arr [createdPolicy])⟩
  | .cachedSiteUuid | .cachedVersion => .ok none
  | .cacheSiteUuid _ | .cacheVersion _ => .ok ()

/-- The reviewed calls over that controller. -/
def settledPool : CallPool MemoryStore.coordinator :=
  reviewedCalls.foldl (runCall plainServer.handle (oneController policyClient policyReply))
    ⟨emptyWorld, [], []⟩

theorem settledPool_reachable : settledPool.Reachable plainServer.handle
    (ServerStep MemoryStore.coordinator) emptyWorld := by
  refine reachable_runCall (reachable_runCall (reachable_runCall (reachable_runCall
    .init _ ?_) _ ?_) _ ?_) _ ?_
  all_goals rfl

/-- The first three of the calls, after which the policy is approved. -/
def approvedPool : CallPool MemoryStore.coordinator :=
  reviewedCalls.dropLast.foldl
    (runCall plainServer.handle (oneController policyClient policyReply)) ⟨emptyWorld, [], []⟩

/-- What the last of the calls asks and returns. -/
def settlingRun : Except String Json × List (Event ServerSig) ×
    ServerWorld MemoryStore.coordinator :=
  (plainServer.handle (.apply (humanWith "alice" "unifi_apply_change_set" none)
    ⟨"main", "cs-1"⟩)).eval (oneController policyClient policyReply).answer approvedPool.world

/-- The answers with which states were recorded. -/
def updateAnswers (log : List (Nat × Event ServerSig)) : List (Except CoordinatorError Unit) :=
  log.filterMap fun
    | (_, ⟨.coordinator (.updateChangeSet _), answer⟩) => some answer
    | _ => none

/-- The policy is created and seen, and the change set ends up applied. -/
theorem claimed_change_set_settles_policy : ∃ r,
    MemoryStore.coordinator.record settledPool.world.store "cs-1" = some r ∧
      (r.state = .applied ∨ r.state = .failed) := by
  have hk : settledPool.calls[3]? = some (.apply (humanWith "alice" "unifi_apply_change_set" none)
    ⟨"main", "cs-1"⟩) := rfl
  have hclaim : ∃ claimed, (3, claimEvent ⟨"main", "cs-1"⟩ claimed) ∈ settledPool.log :=
    ⟨_, List.mem_of_getElem? (i := 20) rfl⟩
  have hwrites : ∀ record answer,
      (3, coordinatorEvent (.updateChangeSet record) answer) ∈ settledPool.log →
        answer = .ok () := by
    intro record answer hmem
    have hanswer : answer ∈ updateAnswers settledPool.log :=
      List.mem_filterMap.2 ⟨_, hmem, rfl⟩
    exact List.mem_singleton.1 hanswer
  have hown : ownEvents settledPool.log 3 = settlingRun.2.1 := rfl
  have hreturned : (plainServer.handle (.apply (humanWith "alice" "unifi_apply_change_set" none)
      ⟨"main", "cs-1"⟩)).Runs (ownEvents settledPool.log 3) settlingRun.1 := by
    rw [hown]
    exact Program.eval_runs _ _ _
  obtain ⟨claimed, hclaim⟩ := hclaim
  obtain ⟨r, hr, hstate, -⟩ := claimed_change_set_settles MemoryStore.writesStates
    settledPool_reachable hk hclaim hwrites hreturned
  exact ⟨r, hr, hstate⟩

end UnifiMcp
