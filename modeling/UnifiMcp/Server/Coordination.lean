import UnifiMcp.Interaction.Pool
import UnifiMcp.Server.ChangeSets
import UnifiMcp.Client.Store

/-!
# Calls that run side by side

`Coordinator` is what the handlers rely on of the shared change-set store: a stored change
set keeps its plan, and its state changes only in the ways `StateChange` lists.
`ServerStep` is the surroundings of the handlers over such a coordinator; the controllers,
the clock and the recorder may answer anything.

The calls that run are a pool, so every order of their questions is covered.  `asks_handle`
says what a call can ask, whatever it is answered.
-/

namespace UnifiMcp

open Interaction Collections

/-! ## The coordinator -/

/-- What never changes about a stored change set. -/
structure SamePlan (r r' : ChangeSetRecord) : Prop where
  id : r'.id = r.id
  owner : r'.owner = r.owner
  device : r'.device = r.device
  actions : r'.actions = r.actions
  digest : r'.digest = r.digest

theorem SamePlan.refl (r : ChangeSetRecord) : SamePlan r r := ⟨rfl, rfl, rfl, rfl, rfl⟩

theorem SamePlan.trans {r₁ r₂ r₃ : ChangeSetRecord} (h : SamePlan r₁ r₂) (h' : SamePlan r₂ r₃) :
    SamePlan r₁ r₃ :=
  ⟨h'.id.trans h.id, h'.owner.trans h.owner, h'.device.trans h.device,
    h'.actions.trans h.actions, h'.digest.trans h.digest⟩

/-- How a call can change the state of a stored change set. -/
inductive StateChange (op : CoordinatorOp) (r : ChangeSetRecord) (state : ChangeSetState) :
    Prop where
  | unchanged (new : state = r.state)
  /-- A human other than the owner approved this plan. -/
  | approved (approver : String)
      (call : op = .approveChangeSet r.id r.device approver r.digest .human)
      (planned : r.state = .planned) (other : approver ≠ r.owner) (new : state = .approved)
  /-- The owner waived the approval. -/
  | waived (approver digest : String) (call : op = .waiveApproval r.id r.device approver digest)
      (planned : r.state = .planned) (new : state = .approved)
  | claimed (call : op = .claimChangeSetForApply r.id r.device) (approved : r.state = .approved)
      (new : state = .applying)
  | updated (record : ChangeSetRecord) (call : op = .updateChangeSet record)
      (id : record.id = r.id) (new : state = record.state)
  /-- The change set lapsed. -/
  | retired (new : state ≠ .planned ∧ state ≠ .approved ∧ state ≠ .applying)

/-- A change-set coordinator, as far as the handlers rely on it. -/
structure Coordinator where
  Store : Type
  record : Store → String → Option ChangeSetRecord
  step : Store → (op : CoordinatorOp) → op.Answer → Store → Prop
  /-- A stored change set keeps its plan. -/
  stays : ∀ {s op a s' id r}, step s op a s' → record s id = some r →
    ∃ r', record s' id = some r' ∧ SamePlan r r' ∧ StateChange op r r'.state
  /-- A change set is read as it is stored, and for its own controller only. -/
  read : ∀ {s id device r s'}, step s (.changeSet id device) (.ok r) s' →
    record s id = some r ∧ r.device = device
  /-- Change sets are stored by `insert_change_set`. -/
  added : ∀ {s op a s' id r}, step s op a s' → record s id = none → record s' id = some r →
    (⟨op, a⟩ : (op : CoordinatorOp) × op.Answer) = ⟨.insertChangeSet r, .ok ()⟩ ∧ r.id = id
  /-- It refuses an id that is stored already. -/
  inserted : ∀ {s r s'}, step s (.insertChangeSet r) (.ok ()) s' →
    record s r.id = none ∧ record s' r.id = some r
  /-- A claim takes an approved change set of that controller, and returns it. -/
  claimed : ∀ {s id device r s'}, step s (.claimChangeSetForApply id device) (.ok r) s' →
    ∃ r₀, record s id = some r₀ ∧ r₀.state = .approved ∧ record s' id = some r ∧
      r.state = .applying ∧ r.device = device

/-! ## The surroundings -/

/-- The server's own state, and that of the coordinator. -/
structure ServerWorld (C : Coordinator) where
  store : C.Store
  drafts : SortedMap String Draft
  planLocked : Bool

/-- One question of a handler, with the surroundings before and after. -/
def ServerStep (C : Coordinator) (w : ServerWorld C) (e : Event ServerSig) (w' : ServerWorld C) :
    Prop :=
  match e with
  | ⟨.coordinator op, answer⟩ =>
      C.step w.store op answer w'.store ∧ w'.drafts = w.drafts ∧ w'.planLocked = w.planLocked
  | ⟨.holdDraft id draft now deadline, answer⟩ =>
      match answer with
      | .ok r => (r, w'.drafts) = holdDraft w.drafts id draft now deadline ∧
          w' = { w with drafts := w'.drafts }
      | .error _ => w' = w
  | ⟨.readDraft id, answer⟩ => w' = w ∧ (answer = none ∨ answer = w.drafts.get? id)
  | ⟨.releaseDraft id, _⟩ => w' = w ∨ w' = { w with drafts := w.drafts.erase id }
  | ⟨.lockPlan, _⟩ => w.planLocked = false ∧ w' = { w with planLocked := true }
  | ⟨.unlockPlan, _⟩ => w' = { w with planLocked := false }
  | _ => w' = w

/-- A call of the coordinator with its answer. -/
def coordinatorEvent (op : CoordinatorOp) (answer : op.Answer) : Event ServerSig :=
  ⟨.coordinator op, answer⟩

/-- A question of the client of one controller. -/
def clientEvent (controller : String) (e : Event ClientSig) : Event ServerSig :=
  ⟨.client controller e.op, e.answer⟩

/-- Looking a draft up. -/
def readDraftEvent (id : String) (answer : Option Draft) : Event ServerSig :=
  ⟨.readDraft id, answer⟩

/-- Holding a draft, without an error. -/
def holdDraftEvent (id : String) (draft : Draft) (now deadline : Nat) : Event ServerSig :=
  ⟨.holdDraft id draft now deadline, .ok (.ok ())⟩

/-- A reading of the clock. -/
def nowEvent (now : Nat) : Event ServerSig := ⟨.unixSecondsNow, now⟩

/-- A question for the coordinator. -/
def ServerOp.IsCoordinator : ServerOp → Prop
  | .coordinator _ => True
  | _ => False

/-- Only the coordinator's own calls change what it has stored. -/
theorem store_of_step {C : Coordinator} {w w' : ServerWorld C} {e : Event ServerSig}
    (h : ServerStep C w e w') :
    (∃ op answer, e = coordinatorEvent op answer ∧ C.step w.store op answer w'.store) ∨
      w'.store = w.store ∧ ¬ ServerOp.IsCoordinator e.op := by
  match e, h with
  | ⟨.coordinator op, answer⟩, h => exact .inl ⟨op, answer, rfl, h.1⟩
  | ⟨.holdDraft id draft now deadline, .ok r⟩, h => exact .inr ⟨by rw [h.2], not_false⟩
  | ⟨.holdDraft id draft now deadline, .error _⟩, h =>
      exact .inr ⟨by rw [show w' = w from h], not_false⟩
  | ⟨.readDraft id, _⟩, h => exact .inr ⟨by rw [h.1], not_false⟩
  | ⟨.releaseDraft id, _⟩, h =>
      refine .inr ⟨?_, not_false⟩
      rcases (show w' = w ∨ w' = _ from h) with h | h <;> rw [h]
  | ⟨.lockPlan, _⟩, h => exact .inr ⟨by rw [h.2], not_false⟩
  | ⟨.unlockPlan, _⟩, h => exact .inr ⟨by rw [show w' = _ from h], not_false⟩
  | ⟨.unixSecondsNow, _⟩, h | ⟨.newChangeSetId, _⟩, h | ⟨.clientFor _, _⟩, h
  | ⟨.clients, _⟩, h | ⟨.controllerNames, _⟩, h | ⟨.controllerNamed _, _⟩, h
  | ⟨.client _ _, _⟩, h | ⟨.proposal _ _ _ _, _⟩, h | ⟨.applyIntent _ _ _, _⟩, h
  | ⟨.resultReceipt _ _ _ _ _, _⟩, h => exact .inr ⟨by rw [show w' = w from h], not_false⟩

/-! ## What a call can ask -/

/-- The questions that matter below, and the calls that ask them. -/
def ChangeSetCall.MayAsk (labMode : Bool) (k : ChangeSetCall) : ServerOp → Prop
  | .coordinator (.insertChangeSet _) => ∃ caller args, k = .stage caller args
  | .coordinator (.approveChangeSet id device approver _ _) => ∃ caller args,
      k = .approve caller args ∧ principal caller = approver ∧ args.changeSetId = id ∧
        args.controller = device
  | .coordinator (.waiveApproval _ _ _ _) => labMode = true
  | .coordinator (.claimChangeSetForApply id device) =>
      ∃ caller args, k = .apply caller args ∧ args.changeSetId = id ∧ args.controller = device
  | .coordinator (.updateChangeSet record) =>
      (∃ caller args, k = .apply caller args) ∧ (record.state = .applied ∨ record.state = .failed)
  | .holdDraft _ draft _ _ => ∃ caller args, k = .create caller args ∧
      draft.owner = principal caller ∧ draft.controller = args.controller
  | .client controller op =>
      op.Quiet ∨ ∃ caller args, k = .apply caller args ∧ args.controller = controller
  | _ => True

section Asks

variable {P : ServerOp → Prop} {server : UnifiServer}

theorem asks_server {op : ServerOp} (h : P op) : (ServerM.ask op).Asks P := Fallible.asks_ask h

theorem asks_coordinator {op : CoordinatorOp} (h : P (.coordinator op)) :
    (ServerM.coordinator op).Asks P := Fallible.asks_ask h

theorem asks_orFail {ε α : Type} (message : ε → String) (r : Except ε α) :
    (orFail message r).Asks P :=
  Fallible.asks_ofExcept _

theorem asks_clientFor (controller : String) (h : P (.clientFor controller)) :
    (UnifiServer.clientFor controller).Asks P := by
  refine (asks_server h).bind fun answer => ?_
  rcases answer with e | (_ | client)
  · exact Fallible.asks_throw _
  · exact Fallible.asks_throw _
  · exact Fallible.asks_pure _

theorem asks_recordFor {id controller : String} (h : P (.coordinator (.changeSet id controller))) :
    (UnifiServer.recordFor id controller).Asks P :=
  (asks_coordinator h).bind fun _ => asks_orFail _ _

theorem asks_onController {α : Type} {controller : String} {Q : ClientOp → Prop}
    {p : Program ClientSig α} (hp : p.Asks Q) (h : ∀ op, Q op → P (.client controller op)) :
    (onController controller p).Asks P :=
  hp.interpret fun op hop => ⟨h op hop, fun _ => trivial⟩

theorem asks_withPlanLock {α : Type} {body : ServerM α} (hbody : body.Asks P)
    (hlock : P .lockPlan) (hunlock : P .unlockPlan) : (UnifiServer.withPlanLock body).Asks P := by
  refine (asks_server hlock).bind fun _ => ?_
  refine hbody.attempt.bind fun r => ?_
  exact (asks_server hunlock).bind fun _ => Fallible.asks_ofExcept _

theorem asks_draft {id controller : String} (hnow : P .unixSecondsNow) (hread : P (.readDraft id))
    (hrelease : P (.releaseDraft id)) : (server.draft id controller).Asks P := by
  refine (asks_server hnow).bind fun now => ?_
  refine (asks_server hread).bind fun held => ?_
  cases held.filter (·.controller = controller) with
  | none => exact Fallible.asks_pure _
  | some held =>
      dsimp only
      split_ifs
      · exact (asks_server hrelease).bind fun _ => Fallible.asks_pure _
      · exact Fallible.asks_pure _

theorem asks_findBlocker {draft : Draft} {records : List ChangeSetRecord}
    (hnow : P .unixSecondsNow) : (UnifiServer.findBlocker draft records).Asks P := by
  induction records with
  | nil => exact Fallible.asks_pure _
  | cons record rest ih =>
      refine Fallible.Asks.bind ?_ fun found => ?_
      · unfold UnifiServer.isBlocker
        split_ifs
        · exact Fallible.asks_pure _
        · cases record.state with
          | planned | approved => exact (asks_server hnow).bind fun _ => Fallible.asks_pure _
          | applying | applied | failed | other name => exact Fallible.asks_pure _
      · cases found
        · exact ih
        · exact Fallible.asks_pure _

theorem asks_hold {id : String} {draft : Draft} (hsets : P (.coordinator .changeSets))
    (hnow : P .unixSecondsNow) (hhold : ∀ now, P (.holdDraft id draft now server.approvalTtl)) :
    (server.hold id draft).Asks P := by
  refine (asks_coordinator hsets).bind fun records => ?_
  refine (asks_findBlocker hnow).bind fun blocker => ?_
  cases blocker with
  | some blocker => exact Fallible.asks_throw _
  | none =>
      refine (asks_server hnow).bind fun now => ?_
      refine (asks_server (hhold now)).bind fun r => ?_
      cases r with
      | error e => exact Fallible.asks_throw _
      | ok r => exact Fallible.asks_ofExcept _

theorem asks_lift {α : Type} {p : Program ServerSig α} (hp : p.Asks P) :
    Fallible.Asks P (ExceptT.lift p : ServerM α) := by
  unfold Fallible.Asks
  rw [ExceptT.run_lift, map_eq_pure_bind]
  exact hp.bind fun _ => trivial

/-- Capturing a pre-image reads the resources of the plan. -/
theorem asks_capturePreimage {c : UnifiClient} {Q : ClientOp → Prop} (h : c.AsksReads Q)
    (mutations : List StagedMutation) : (Preimage.capturePreimage c mutations).Asks Q := by
  have hresource : ∀ kind id, (Preimage.captureResource c kind id).Asks Q := by
    intro kind id
    refine (Fallible.asks_ofExcept _).bind fun k => ?_
    refine (h.site _).bind fun site => ?_
    refine ((h.single k _).attempt).bind fun answer => ?_
    exact (Fallible.asks_ofExcept _).bind fun raw => Fallible.asks_ofExcept _
  have hentries : (Preimage.captureEntries c mutations).Asks Q := by
    induction mutations with
    | nil => exact Fallible.asks_pure _
    | cons m rest ih =>
        cases m with
        | create kind body | restore backupId => exact ih
        | update kind id body | delete kind id =>
            refine (hresource kind id).bind fun resource => ?_
            exact ih.bind fun data => Fallible.asks_pure _
  exact hentries.bind fun data => Fallible.asks_pure _

theorem asks_refuseStage {id controller : String}
    (h : P (.coordinator (.changeSet id controller))) :
    (UnifiServer.refuseStage id controller).Asks P := by
  refine (asks_recordFor h).bind fun record => ?_
  split_ifs
  · exact Fallible.asks_throw _
  · exact Fallible.asks_throw _

theorem asks_publish {id : String} {staged : ChangeSetRecord} (hlock : P .lockPlan)
    (hunlock : P .unlockPlan) (hinsert : P (.coordinator (.insertChangeSet staged)))
    (hrelease : P (.releaseDraft id))
    (hproposal : P (.proposal id staged.device staged.owner staged.digest)) :
    (server.publish id staged).Asks P := by
  refine asks_withPlanLock ?_ hlock hunlock
  refine (asks_coordinator hinsert).bind fun answer => ?_
  refine (asks_orFail _ _).bind fun _ => ?_
  refine (asks_server hrelease).bind fun _ => ?_
  split_ifs
  · exact asks_server hproposal
  · exact Fallible.asks_pure _

/-- Creating a change set asks for its client, an id, the time and the stored change sets, and
then to hold the draft. -/
theorem asks_unifiCreateChangeSet {caller : Option CallerCtx} {args : CreateChangeSetArgs}
    (hclient : P (.clientFor args.controller)) (hid : P .newChangeSetId)
    (hnow : P .unixSecondsNow) (hsets : P (.coordinator .changeSets))
    (hhold : ∀ id created now, P (.holdDraft id
      ⟨args.controller, principal caller, args.description, created⟩ now server.approvalTtl)) :
    (server.unifiCreateChangeSet caller args).Asks P := by
  refine (Fallible.asks_ofExcept _).bind fun _ => ?_
  refine (asks_clientFor _ hclient).bind fun _ => ?_
  refine (Fallible.asks_ofExcept _).bind fun smallest => ?_
  split_ifs
  · exact Fallible.asks_throw _
  · refine (asks_server hid).bind fun id => ?_
    refine (asks_server hnow).bind fun created => ?_
    exact (asks_hold hsets hnow (hhold id created)).bind fun _ => Fallible.asks_pure _

/-- Staging asks for the draft or, where there is none, for the record; then for the client, the
pre-image and the time; and then to publish. -/
theorem asks_unifiStageChange {caller : Option CallerCtx} {args : StageChangeArgs}
    (hnow : P .unixSecondsNow) (hread : P (.readDraft args.changeSetId))
    (hrelease : P (.releaseDraft args.changeSetId))
    (hrecord : P (.coordinator (.changeSet args.changeSetId args.controller)))
    (hclient : P (.clientFor args.controller))
    (hcapture : ∀ client, (Preimage.capturePreimage client args.mutations).Asks fun op =>
      P (.client args.controller op))
    (hpublish : ∀ staged, (server.publish args.changeSetId staged).Asks P) :
    (server.unifiStageChange caller args).Asks P := by
  refine (Fallible.asks_ofExcept _).bind fun _ => ?_
  split_ifs
  · exact Fallible.asks_throw _
  · refine (asks_draft hnow hread hrelease).bind fun draft => ?_
    cases draft with
    | none => exact asks_refuseStage hrecord
    | some draft =>
        refine (asks_clientFor _ hclient).bind fun client => ?_
        refine (asks_orFail _ _).bind fun _ => ?_
        refine Fallible.Asks.bind (asks_lift (asks_onController (hcapture client)
          fun _ hop => hop)) fun captured => ?_
        refine (asks_orFail _ _).bind fun preimage => ?_
        refine (asks_server hnow).bind fun now => ?_
        refine (Fallible.asks_ofExcept _).bind fun staged => ?_
        refine (Fallible.asks_ofExcept _).bind fun _ => ?_
        exact (hpublish staged).bind fun _ => Fallible.asks_pure _

theorem asks_abandon {α : Type} (claimed : ChangeSetRecord) (message : String)
    (h : P (.coordinator (.updateChangeSet { claimed with state := .failed }))) :
    (UnifiServer.abandon claimed message : ServerM α).Asks P :=
  (asks_coordinator h).bind fun _ => Fallible.asks_throw _

/-- What an apply call asks once its claim is granted. -/
def ServerOp.AfterClaim (controller : String) : ServerOp → Prop
  | .coordinator (.updateChangeSet record) => record.state = .applied ∨ record.state = .failed
  | .client controller' _ => controller' = controller
  | .unixSecondsNow | .applyIntent _ _ _ | .resultReceipt _ _ _ _ _ => True
  | _ => False

theorem ServerOp.AfterClaim.mayAsk {op : ServerOp} {caller : Option CallerCtx}
    {args : ApplyChangeSetArgs} (h : op.AfterClaim args.controller) (labMode : Bool) :
    (ChangeSetCall.apply caller args).MayAsk labMode op := by
  match op, h with
  | .coordinator (.updateChangeSet record), h => exact ⟨⟨caller, args, rfl⟩, h⟩
  | .client controller op, h => exact .inr ⟨caller, args, rfl, Eq.symm h⟩
  | .unixSecondsNow, _ | .applyIntent _ _ _, _ | .resultReceipt _ _ _ _ _, _ => trivial

/-- What carrying out a claimed plan on a controller asks is among these questions. -/
structure AsksApply (P : ServerOp → Prop) (controller : String) (client : UnifiClient) :
    Prop where
  now : P .unixSecondsNow
  intent : ∀ id principal, P (.applyIntent id controller principal)
  receipt : ∀ id principal succeeded error,
    P (.resultReceipt id controller principal succeeded error)
  update : ∀ record : ChangeSetRecord, record.state = .applied ∨ record.state = .failed →
    P (.coordinator (.updateChangeSet record))
  run : ∀ preimage mutations,
    (applyOver client preimage mutations).Asks fun op => P (.client controller op)

section Apply

variable {caller : Option CallerCtx} {args : ApplyChangeSetArgs} {client : UnifiClient}

theorem AsksApply.execute (h : AsksApply P args.controller client) (claimed : ChangeSetRecord)
    (mutations : List StagedMutation) (preimage : Preimage) :
    (server.execute caller args client claimed mutations preimage).Asks P := by
  refine Fallible.Asks.bind (asks_lift (asks_onController (h.run preimage mutations)
    fun op hop => hop)) fun outcome => ?_
  have hupdate : ∀ ok : Bool, P (.coordinator
      (.updateChangeSet { claimed with state := if ok then .applied else .failed })) := by
    intro ok
    refine h.update _ ?_
    cases ok
    · exact .inr rfl
    · exact .inl rfl
  dsimp only
  split
  · refine (asks_server (h.receipt _ _ _ _)).bind fun _ => ?_
    exact (asks_coordinator (hupdate _)).bind fun _ => Fallible.asks_pure _
  · exact (asks_coordinator (hupdate _)).bind fun _ => Fallible.asks_pure _

theorem AsksApply.applyClaimed (h : AsksApply P args.controller client)
    (claimed : ChangeSetRecord) : (server.applyClaimed caller args client claimed).Asks P := by
  have habandon : ∀ message, (UnifiServer.abandon claimed message : ServerM Json).Asks P :=
    fun message => asks_abandon claimed message (h.update _ (.inr rfl))
  refine (asks_server h.now).bind fun now => ?_
  split
  · exact habandon _
  · cases UnifiServer.planOf claimed with
    | error message => exact habandon _
    | ok plan =>
        obtain ⟨mutations, preimage⟩ := plan
        dsimp only
        cases checkWritableFields server.mecmcp.number mutations with
        | error e => exact habandon _
        | ok _ =>
            dsimp only
            split_ifs
            · refine (asks_server (h.intent _ _)).bind fun intent => ?_
              rcases intent with error | _
              · exact habandon _
              · exact h.execute claimed mutations preimage
            · exact h.execute claimed mutations preimage

theorem asksApply_afterClaim (controller : String) :
    AsksApply (ServerOp.AfterClaim controller) controller client where
  now := trivial
  intent _ _ := trivial
  receipt _ _ _ _ := trivial
  update _ hstate := hstate
  run _ _ := (Program.asks_true _).mono fun _ _ => rfl

theorem asks_applyClaimed (claimed : ChangeSetRecord) :
    (server.applyClaimed caller args client claimed).Asks
      (ServerOp.AfterClaim args.controller) :=
  (asksApply_afterClaim _).applyClaimed claimed

end Apply

/-- Applying asks for the client, the state of the change set and the claim, and carries the
claimed plan out. -/
theorem asks_unifiApplyChangeSet {caller : Option CallerCtx} {args : ApplyChangeSetArgs}
    (hclient : P (.clientFor args.controller))
    (hstatus : P (.coordinator (.changeSetStatus args.changeSetId args.controller)))
    (hclaim : P (.coordinator (.claimChangeSetForApply args.changeSetId args.controller)))
    (hclaimed : ∀ client claimed, (server.applyClaimed caller args client claimed).Asks P) :
    (server.unifiApplyChangeSet caller args).Asks P := by
  refine (Fallible.asks_ofExcept _).bind fun _ => ?_
  refine (asks_clientFor _ hclient).bind fun client => ?_
  refine (asks_coordinator hstatus).bind fun status => ?_
  refine (asks_orFail _ _).bind fun _ => ?_
  refine (asks_coordinator hclaim).bind fun answer => ?_
  exact (asks_orFail _ _).bind fun claimed => hclaimed client claimed

/-- Approving asks for the record and then, under the plan lock, for the approval or the
waiver. -/
theorem asks_unifiApproveChangeSet {caller : Option CallerCtx} {args : ApproveChangeSetArgs}
    (hrecord : P (.coordinator (.changeSet args.changeSetId args.controller)))
    (hlock : P .lockPlan) (hunlock : P .unlockPlan)
    (hwaive : server.labMode = true → ∀ digest, P (.coordinator
      (.waiveApproval args.changeSetId args.controller (principal caller) digest)))
    (happrove : ∀ digest actorType, P (.coordinator
      (.approveChangeSet args.changeSetId args.controller (principal caller) digest actorType))) :
    (server.unifiApproveChangeSet caller args).Asks P := by
  refine (Fallible.asks_ofExcept _).bind fun _ => ?_
  split_ifs
  · exact Fallible.asks_throw _
  · refine (asks_recordFor hrecord).bind fun record => ?_
    split_ifs
    · exact Fallible.asks_throw _
    · cases record.preview with
      | none => exact Fallible.asks_throw _
      | some preview =>
          refine (Fallible.asks_ofExcept _).bind fun plan => ?_
          refine (asks_orFail _ _).bind fun _ => ?_
          have hdecide : (server.decideApproval caller args record).Asks P := by
            refine asks_withPlanLock ?_ hlock hunlock
            dsimp only
            split_ifs with _ hoff
            · exact Fallible.asks_throw _
            · refine (asks_coordinator (hwaive ?_ _)).bind fun _ => asks_orFail _ _
              simpa using hoff
            · exact (asks_coordinator (happrove _ _)).bind fun _ => asks_orFail _ _
          cases args.expectedDigest with
          | none => exact hdecide.bind fun _ => Fallible.asks_pure _
          | some expected =>
              dsimp only
              split_ifs
              · exact Fallible.asks_throw _
              · exact hdecide.bind fun _ => Fallible.asks_pure _

/-- **What each call can ask.** -/
theorem asks_handle (k : ChangeSetCall) : (server.handle k).Asks (k.MayAsk server.labMode) := by
  cases k with
  | create caller args =>
      exact asks_unifiCreateChangeSet trivial trivial trivial trivial fun _ _ _ =>
        ⟨caller, args, rfl, rfl, rfl⟩
  | stage caller args =>
      exact asks_unifiStageChange trivial trivial trivial trivial trivial
        (fun client => (asks_capturePreimage UnifiClient.asksReads_quiet args.mutations).mono
          fun _ hop => .inl hop)
        fun staged => asks_publish trivial trivial ⟨caller, args, rfl⟩ trivial trivial
  | approve caller args =>
      exact asks_unifiApproveChangeSet trivial trivial trivial (fun hlab _ => hlab)
        fun _ _ => ⟨caller, args, rfl, rfl, rfl, rfl⟩
  | apply caller args =>
      exact asks_unifiApplyChangeSet trivial trivial ⟨caller, args, rfl, rfl, rfl⟩
        fun _ claimed => (asks_applyClaimed claimed).mono fun _ hop => hop.mayAsk _

end Asks

end UnifiMcp
