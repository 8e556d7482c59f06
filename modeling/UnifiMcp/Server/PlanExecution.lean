import UnifiMcp.Server.MemoryStore
import UnifiMcp.Changeset.CleanRollback

/-!
# Only approved plans are carried out

Whatever the order in which calls of the change-set tools run, what reaches a controller is
the plan of a stored change set.  `stagedPlan_of_stored` finds the call that staged it,
`reviewed_of_approved` the call that approved it by its digest, and
`writes_are_approved_plans` puts the two together with the claim that the writing call was
granted.
-/

namespace UnifiMcp

open Interaction Collections

variable {C : Coordinator} {server : UnifiServer}

/-- A stage call supplied the plan: the mutations are its own, and the digest is that of the
mutations together with their pre-image. -/
def StagedPlan (server : UnifiServer) (p : CallPool C) (r : ChangeSetRecord)
    (mutations : List StagedMutation) : Prop :=
  ∃ (i : Nat) (caller : Option CallerCtx) (args : StageChangeArgs) (preimage : Preimage),
    p.calls[i]? = some (.stage caller args) ∧
    args.changeSetId = r.id ∧ args.controller = r.device ∧ args.mutations = mutations ∧
    r.actions = (actionsFor mutations preimage).map StagedAction.toJson ∧
    server.mecmcp.changeSetDigest r.owner r.device
      (server.fingerprintOf (actionsFor mutations preimage)) r.actions = .ok r.digest

/-- A human other than the owner read the plan and approved it by its digest. -/
def Reviewed (p : CallPool C) (r : ChangeSetRecord) : Prop :=
  ∃ i caller args read answer, p.calls[i]? = some (.approve caller args) ∧
    args.changeSetId = r.id ∧ args.controller = r.device ∧
    approverActorType caller = .human ∧ principal caller ≠ r.owner ∧
    (i, coordinatorEvent (.changeSet r.id r.device) (.ok read)) ∈ p.log ∧ SamePlan read r ∧
    (i, coordinatorEvent (.approveChangeSet r.id r.device (principal caller) r.digest .human)
      answer) ∈ p.log

/-- A call may ask only what its tool asks. -/
theorem mayAsk_of_mem_log {init : ServerWorld C} {p : CallPool C}
    (h : p.Reachable server.handle (ServerStep C) init) {i : Nat} {e : Event ServerSig}
    (he : (i, e) ∈ p.log) :
    ∃ k, p.calls[i]? = some k ∧ (server.handle k).Begins (ownEvents p.log i) ∧
      e ∈ ownEvents p.log i ∧ k.MayAsk server.labMode e.op := by
  obtain ⟨k, hk⟩ := h.started he
  have hbegins := h.begins hk
  have hmem := mem_ownEvents.2 he
  exact ⟨k, hk, hbegins, hmem, (asks_handle k).of_begins hbegins e hmem⟩

section Reachable

variable {init : ServerWorld C} {p : CallPool C} {r : ChangeSetRecord}

/-- What is stored is the plan of a stage call. -/
theorem stagedPlan_of_stored (hlab : server.labMode = false) (hinit : init.Fresh)
    (h : p.Reachable server.handle (ServerStep C) init) {id : String}
    (hr : C.record p.world.store id = some r) :
    ∃ mutations, StagedPlan server p r mutations := by
  obtain ⟨-, i, r₀, hmem, hsame⟩ := (Ledger.of_reachable hlab hinit h).stored hr
  obtain ⟨k, hk, hbegins, hown, hmay⟩ := mayAsk_of_mem_log h hmem
  obtain ⟨caller, args, rfl⟩ := hmay
  obtain ⟨draft, now, preimage, -, -, hplan⟩ := insert_of_begins hbegins hown
  obtain ⟨hid, -, hdevice, -, hactions, hdigest, -⟩ := withPlan_ok hplan
  refine ⟨args.mutations, i, caller, args, preimage, hk, ?_, ?_, rfl, ?_, ?_⟩
  · exact (hsame.id.trans hid).symm
  · exact (hsame.device.trans hdevice).symm
  · exact hsame.actions.trans hactions
  · rw [hsame.owner, hsame.device, hsame.actions, hsame.digest]
    exact hdigest

/-- The mutations read back off a staged plan are those that were staged. -/
theorem StagedPlan.planOf {mutations mutations' : List StagedMutation} {preimage : Preimage}
    (hstaged : StagedPlan server p r mutations)
    (hplan : UnifiServer.planOf r = .ok (mutations', preimage)) : mutations' = mutations := by
  obtain ⟨_, _, _, preimage', _, _, _, _, hactions, -⟩ := hstaged
  unfold UnifiServer.planOf at hplan
  rw [hactions, mutationsOf_actionsFor, preimageOf_actionsFor] at hplan
  have hpair := Except.ok.inj hplan
  exact (Prod.mk.inj hpair).1.symm

/-- An approval is of a plan that the approver has read. -/
theorem reviewed_of_approved (hlab : server.labMode = false) (hinit : init.Fresh)
    (h : p.Reachable server.handle (ServerStep C) init)
    (hr : C.record p.world.store r.id = some r) (happroved : Approved p.log r) :
    Reviewed p r := by
  obtain ⟨i, approver, answer, -, hmem⟩ := happroved
  obtain ⟨k, hk, hbegins, hown, hmay⟩ := mayAsk_of_mem_log h hmem
  obtain ⟨caller, args, rfl, hcaller, hid, hdevice⟩ := hmay
  subst hcaller
  obtain ⟨read, hread, -, hdigest, hhuman, hother⟩ := approve_of_begins hbegins hown
  rw [hid, hdevice] at hread
  have hreadMem := mem_ownEvents.1 hread
  obtain ⟨r', hr', hsame⟩ := (Ledger.of_reachable hlab hinit h).read hreadMem
  obtain rfl : r' = r := Option.some.inj (hr'.symm.trans hr)
  refine ⟨i, caller, args, read, answer, hk, hid, hdevice, hhuman.symm, ?_, hreadMem, hsame, hmem⟩
  rw [hsame.owner]
  exact hother

/-- A write is sent by an apply call, for the controller it named, after a claim. -/
theorem write_of_mem_log (h : p.Reachable server.handle (ServerStep C) init) {i : Nat}
    {controller : String} {e : Event ClientSig} (he : (i, clientEvent controller e) ∈ p.log)
    (hwrite : ¬ ClientOp.Quiet e.op) :
    ∃ caller args claimed client mutations preimage,
      p.calls[i]? = some (.apply caller args) ∧ args.controller = controller ∧
      (i, clientForEvent controller client) ∈ p.log ∧
      (i, coordinatorEvent (.claimChangeSetForApply args.changeSetId controller)
        (.ok claimed)) ∈ p.log ∧
      UnifiServer.planOf claimed = .ok (mutations, preimage) ∧
      (applyOver client preimage mutations).Begins (clientTrace (ownEvents p.log i)) := by
  obtain ⟨k, hk, hbegins, hown, hmay⟩ := mayAsk_of_mem_log h he
  rcases (show e.op.Quiet ∨ ∃ caller args, k = .apply caller args ∧ args.controller = controller
    from hmay) with hquiet | ⟨caller, args, rfl, rfl⟩
  · exact absurd hquiet hwrite
  · obtain ⟨client, status, claimed, mutations, preimage, rest, heq, hplan, -, hrun, -⟩ :=
      sentByApply_of_begins hbegins hown
    have htrace : clientTrace (ownEvents p.log i) = clientTrace rest := by
      rw [heq]
      rfl
    refine ⟨caller, args, claimed, client, mutations, preimage, hk, rfl, mem_ownEvents.1 ?_,
      mem_ownEvents.1 ?_, hplan, by rwa [htrace]⟩
    · rw [heq]
      exact List.mem_cons_self
    · rw [heq]
      exact List.mem_append_right _ List.mem_cons_self

/-- **Only approved plans are carried out**, in every order of every number of calls.  A write
that reaches a controller is part of carrying out the plan of a change set that is stored for
that controller, that a stage call supplied and that a human other than its owner approved by
its digest; and no other call writes for that change set. -/
theorem writes_are_approved_plans (hlab : server.labMode = false) (hinit : init.Fresh)
    (h : p.Reachable server.handle (ServerStep C) init) {i : Nat} {controller : String}
    {e : Event ClientSig} (he : (i, clientEvent controller e) ∈ p.log)
    (hwrite : ¬ ClientOp.Quiet e.op) :
    ∃ caller args r client mutations preimage,
      p.calls[i]? = some (.apply caller args) ∧
      C.record p.world.store args.changeSetId = some r ∧ r.device = controller ∧
      StagedPlan server p r mutations ∧ Reviewed p r ∧
      UnifiServer.planOf r = .ok (mutations, preimage) ∧
      (i, clientForEvent controller client) ∈ p.log ∧
      (applyOver client preimage mutations).Begins (clientTrace (ownEvents p.log i)) ∧
      ∀ j controller' e' caller' args', (j, clientEvent controller' e') ∈ p.log →
        ¬ ClientOp.Quiet e'.op → p.calls[j]? = some (.apply caller' args') →
        args'.changeSetId = args.changeSetId → j = i := by
  obtain ⟨caller, args, claimed, client, mutations, preimage, hk, rfl, hclient, hclaim, hplan,
    hrun⟩ := write_of_mem_log h he hwrite
  have hledger := Ledger.of_reachable hlab hinit h
  obtain ⟨r, hr, hsame, hdevice, happroved, -⟩ := hledger.claimed hclaim
  obtain ⟨hid, -⟩ := hledger.stored hr
  have hplan' : UnifiServer.planOf r = .ok (mutations, preimage) := by
    unfold UnifiServer.planOf
    rw [hsame.actions]
    exact hplan
  obtain ⟨staged, hstaged⟩ := stagedPlan_of_stored hlab hinit h hr
  obtain rfl := hstaged.planOf hplan'
  have hreviewed : Reviewed p r :=
    reviewed_of_approved hlab hinit h (by rw [hid]; exact hr) happroved
  refine ⟨caller, args, r, client, mutations, preimage, hk, hr, hdevice, hstaged, hreviewed,
    hplan', hclient, hrun, ?_⟩
  intro j controller' e' caller' args' he' hwrite' hk' hsameId
  obtain ⟨caller'', args'', claimed', _, _, _, hk'', -, -, hclaim', -⟩ :=
    write_of_mem_log h he' hwrite'
  obtain ⟨-, rfl⟩ : caller'' = caller' ∧ args'' = args' := by
    have heq := Option.some.inj (hk''.symm.trans hk')
    cases heq
    exact ⟨rfl, rfl⟩
  rw [hsameId] at hclaim'
  exact hledger.claimedOnce hclaim' hclaim

end Reachable

/-! ## A run with a write -/

/-- A controller that answers a create with the single object it created. -/
def createReply : (op : ClientOp) → op.Answer
  | .send _ => .ok policyWrite.2
  | .cachedSiteUuid | .cachedVersion => .ok none
  | .cacheSiteUuid _ | .cacheVersion _ => .ok ()

/-- One principal creates and stages, another approves, and the first applies. -/
def reviewedCalls : List ChangeSetCall :=
  [.create (humanWith "alice" "unifi_create_change_set" none) ⟨"main", "block it"⟩,
    .stage (humanWith "alice" "unifi_stage_change" none)
      ⟨"main", "cs-1", [.create "firewall_policy" blockPolicy]⟩,
    .approve (humanWith "bob" "unifi_approve_change_set" none) ⟨"main", "cs-1", none⟩,
    .apply (humanWith "alice" "unifi_apply_change_set" none) ⟨"main", "cs-1"⟩]

/-- The pool after these calls. -/
def reviewedPool : CallPool MemoryStore.coordinator :=
  reviewedCalls.foldl (runCall plainServer.handle (oneController policyClient createReply))
    ⟨emptyWorld, [], []⟩

theorem reviewedPool_reachable : reviewedPool.Reachable plainServer.handle
    (ServerStep MemoryStore.coordinator) emptyWorld := by
  refine reachable_runCall (reachable_runCall (reachable_runCall (reachable_runCall
    .init _ ?_) _ ?_) _ ?_) _ ?_
  all_goals rfl

/-- The write of the last call. -/
theorem reviewedPool_writes :
    (3, clientEvent "main" (sendEvent policyWrite.1 (.ok policyWrite.2))) ∈ reviewedPool.log :=
  List.mem_of_getElem? (i := 22) rfl

theorem policyWrite_not_quiet :
    ¬ ClientOp.Quiet (sendEvent policyWrite.1 (.ok policyWrite.2)).op := by
  intro hquiet
  have hread : true = false := hquiet
  cases hread

/-- The policy that is created there was staged and approved. -/
theorem writes_are_approved_plans_reviewed :
    ∃ r mutations, MemoryStore.coordinator.record reviewedPool.world.store "cs-1" = some r ∧
      r.device = "main" ∧ StagedPlan plainServer reviewedPool r mutations ∧
      Reviewed reviewedPool r := by
  obtain ⟨caller, args, r, client, mutations, preimage, hk, hr, hdevice, hstaged, hreviewed, -⟩ :=
    writes_are_approved_plans rfl emptyWorld_fresh reviewedPool_reachable reviewedPool_writes
      policyWrite_not_quiet
  have hargs : args = ⟨"main", "cs-1"⟩ := by
    have heq : some (reviewedCalls.getLast (by simp [reviewedCalls])) = some (.apply caller args) :=
      hk
    cases heq
    rfl
  subst hargs
  exact ⟨r, mutations, hr, hdevice, hstaged, hreviewed⟩

end UnifiMcp
