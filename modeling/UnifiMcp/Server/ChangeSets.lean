import UnifiMcp.Server.Call

/-!
# The change-set tools

The handlers of `unifi_create_change_set`, `unifi_stage_change`,
`unifi_approve_change_set` and `unifi_apply_change_set`.  A handler that returns early
with an error is one that throws; what the tracing layer is told is left out.
-/

namespace UnifiMcp

open Interaction

/-- Arguments of `unifi_create_change_set`. -/
structure CreateChangeSetArgs where
  controller : String
  description : String

/-- Arguments of `unifi_stage_change`.  A mutation is specified as it is staged. -/
structure StageChangeArgs where
  controller : String
  changeSetId : String
  mutations : List StagedMutation

/-- Arguments of `unifi_approve_change_set`. -/
structure ApproveChangeSetArgs where
  controller : String
  changeSetId : String
  expectedDigest : Option String

/-- Arguments of `unifi_apply_change_set`. -/
structure ApplyChangeSetArgs where
  controller : String
  changeSetId : String

/-- The most bytes a stored preview may have. -/
def maxPreviewBytes : Nat := 256 * 1024

/-- Report a refusal of the coordinator. -/
def CoordinatorError.report (context : String) (error : CoordinatorError) : String :=
  s!"{context} ({error.field}): {error.message}"

/-- Go on with a value, or fail with a message. -/
def orFail {ε α : Type} (message : ε → String) (r : Except ε α) : ServerM α :=
  Fallible.ofExcept (r.mapError message)

/-- The refusal of a caller who could both stage and approve. -/
def combinedScopeRefused : String :=
  "two-person control: this caller holds both unifi_stage_change and " ++
    "unifi_approve_change_set; use separate callers for staging and approving"

/-- The message for a caller that is refused a second stage. -/
def alreadyStaged : String :=
  "this change set already has a staged plan; a change set's plan digest is fixed at " ++
    "creation (mecmcp v0.25.0), so it cannot be staged into a second time. Cancel it and " ++
    "create a new change set with all the mutations you want, or let it expire."

namespace UnifiServer

variable (server : UnifiServer)

/-- Refuse a call the caller's scopes do not allow. -/
def authorize (caller : Option CallerCtx) (tool controller : String) : ServerM Unit :=
  Fallible.ofExcept (server.mecmcp.authorizeCall caller tool (some controller))

/-- The client of a controller. -/
def clientFor (controller : String) : ServerM UnifiClient := do
  match ← ServerM.ask (.clientFor controller) with
  | .error _ => throw "clients lock poisoned"
  | .ok none => throw s!"unknown controller: {controller}"
  | .ok (some client) => pure client

/-- Fetch a change set, refusing a controller that does not own it. -/
def recordFor (changeSetId controller : String) : ServerM ChangeSetRecord := do
  let answer ← ServerM.coordinator (.changeSet changeSetId controller)
  orFail (CoordinatorError.report s!"change set {changeSetId} on {controller}") answer

/-- Read the plan back off a stored record. -/
def planOf (record : ChangeSetRecord) : Except String (List StagedMutation × Preimage) := do
  let mutations ← (mutationsOf record.actions).mapError fun e => s!"stored change set: {e.toString}"
  let preimage ← (preimageOf record.actions).mapError fun e => s!"stored change set: {e.toString}"
  pure (mutations, preimage)

/-! ## Drafts -/

/-- Whether a record keeps its owner from creating another change set there. -/
def isBlocker (draft : Draft) (record : ChangeSetRecord) : ServerM Bool :=
  if record.owner ≠ draft.owner ∨ record.device ≠ draft.controller then pure false
  else
    match record.state with
    | .applying => pure true
    | .planned | .approved => do
        let now ← ServerM.ask .unixSecondsNow
        pure (now < record.expiresAtUnix)
    | _ => pure false

/-- The first record that does. -/
def findBlocker (draft : Draft) : List ChangeSetRecord → ServerM (Option ChangeSetRecord)
  | [] => pure none
  | record :: rest => do
      if ← isBlocker draft record then pure (some record)
      else findBlocker draft rest

/-- Record a change set that has nothing staged yet. -/
def hold (id : String) (draft : Draft) : ServerM Unit := do
  let records ← ServerM.coordinator .changeSets
  match ← findBlocker draft records with
  | some blocker =>
      throw (s!"change set {blocker.id} on '{draft.controller}' is still " ++
        s!"{blocker.state.asStr}; finish or cancel it before creating another")
  | none =>
      let now ← ServerM.ask .unixSecondsNow
      match ← ServerM.ask (.holdDraft id draft now server.approvalTtl) with
      | .error _ => throw "drafts lock poisoned"
      | .ok r => Fallible.ofExcept r

/-- The draft for an id, if it is one, the caller named its controller, and it has not
lapsed. -/
def draft (changeSetId controller : String) : ServerM (Option Draft) := do
  let now ← ServerM.ask .unixSecondsNow
  match (← ServerM.ask (.readDraft changeSetId)).filter (·.controller = controller) with
  | none => pure none
  | some held =>
      if now - held.createdAtUnix ≥ server.approvalTtl then
        let _ ← ServerM.ask (.releaseDraft changeSetId)
        pure none
      else pure (some held)

/-! ## Plans -/

/-- The fingerprint of the controller state a plan was built against. -/
def fingerprintOf (actions : List StagedAction) : String :=
  "sha256:" ++ server.mecmcp.digestHex
    ((Json.arr (actions.filterMap (·.preimage))).compact server.mecmcp.number)

/-- Rewrite a record's plan, its fingerprint, its digest and its preview. -/
def withPlan (record : ChangeSetRecord) (mutations : List StagedMutation) (preimage : Preimage)
    (description : String) : Except String ChangeSetRecord := do
  let actions := actionsFor mutations preimage
  let fingerprint := server.fingerprintOf actions
  let artifact ← server.renderPreview record.device description mutations preimage
  let stored := actions.map StagedAction.toJson
  let digest ← (server.mecmcp.changeSetDigest record.owner record.device fingerprint
    stored).mapError fun e => s!"failed to digest the plan: {e}"
  pure { record with
    actions := stored
    expectedCandidateFingerprint := fingerprint
    digest := digest
    preview := some ⟨server.mecmcp.previewDigest artifact, artifact⟩ }

/-- Refuse a plan the state file could not be reloaded with. -/
def checkPlanLimits (record : ChangeSetRecord) : Except String Unit := do
  (server.mecmcp.validateChangeSetActions record.actions).mapError
    (CoordinatorError.report "staged plan refused")
  match record.preview with
  | some preview =>
      if preview.artifact.utf8ByteSize > maxPreviewBytes then
        .error (s!"the preview for this change set is {preview.artifact.utf8ByteSize} bytes, " ++
          s!"over the {maxPreviewBytes} the store accepts; stage fewer changes at once")
      else .ok ()
  | none => .ok ()

/-- Hold the lock that keeps approvals and the publishing of plans apart. -/
def withPlanLock {α : Type} (body : ServerM α) : ServerM α := do
  let _ ← ServerM.ask .lockPlan
  let r ← body.attempt
  let _ ← ServerM.ask .unlockPlan
  Fallible.ofExcept r

/-! ## The handlers -/

/-- `unifi_create_change_set`. -/
def unifiCreateChangeSet (caller : Option CallerCtx) (args : CreateChangeSetArgs) :
    ServerM Json := do
  server.authorize caller "unifi_create_change_set" args.controller
  let owner := principal caller
  let _ ← clientFor args.controller
  -- The description has to leave room for a preview of nothing.
  let smallest ← Fallible.ofExcept
    (server.renderPreview args.controller args.description [] (.fromResources []))
  if smallest.utf8ByteSize ≥ maxPreviewBytes then
    throw ("the description does not leave room for a preview: an empty change set carrying " ++
      s!"it already renders to {smallest.utf8ByteSize} bytes, against a cap of " ++
      s!"{maxPreviewBytes}")
  let id ← ServerM.ask .newChangeSetId
  let now ← ServerM.ask .unixSecondsNow
  server.hold id ⟨args.controller, owner, args.description, now⟩
  pure (.obj
    [("change_set_id", .str id), ("controller", .str args.controller),
      ("note", .str ("nothing is staged yet; a draft is held in memory and is lost on restart. " ++
        "It becomes a change set on the first unifi_stage_change.")),
      ("state", .str "draft")])

/-- The record a stage call stores, before it has a plan. -/
def baseRecord (args : StageChangeArgs) (owner : String) (now : Nat) : ChangeSetRecord where
  id := args.changeSetId
  owner := owner
  device := args.controller
  expectedCandidateFingerprint := ""
  actions := []
  digest := ""
  state := .planned
  approver := none
  expiresAtUnix := saturatingAdd now server.approvalTtl
  preview := none

/-- Store a change set and publish its proposal, under the plan lock. -/
def publish (changeSetId : String) (staged : ChangeSetRecord) : ServerM Unit :=
  withPlanLock do
    let answer ← ServerM.coordinator (.insertChangeSet staged)
    orFail (CoordinatorError.report "failed to store change set") answer
    let _ ← ServerM.ask (.releaseDraft changeSetId)
    if server.evidence then
      ServerM.ask (.proposal changeSetId staged.device staged.owner staged.digest)

/-- What a stage call answers when there is no draft to stage into. -/
def refuseStage (changeSetId controller : String) : ServerM Json := do
  let record ← recordFor changeSetId controller
  if record.state = .planned then throw alreadyStaged
  else
    throw (s!"change set is {record.state.asStr} and can no longer be staged into; " ++
      "create a new one")

/-- `unifi_stage_change`. -/
def unifiStageChange (caller : Option CallerCtx) (args : StageChangeArgs) : ServerM Json := do
  server.authorize caller "unifi_stage_change" args.controller
  if !server.labMode && holdsCombinedTwoPersonControlScope caller then
    throw combinedScopeRefused
  match ← server.draft args.changeSetId args.controller with
  | none => refuseStage args.changeSetId args.controller
  | some draft =>
      let client ← clientFor args.controller
      orFail (fun e => s!"staged mutation refused: {e.toString}")
        (checkWritableFields server.mecmcp.number args.mutations)
      let captured ← (ExceptT.lift (onController args.controller
        (Preimage.capturePreimage client args.mutations).run) :
          ServerM (Except UnifiError Preimage))
      let preimage ← orFail (fun e => s!"failed to capture pre-image: {e.toString}") captured
      let now ← ServerM.ask .unixSecondsNow
      -- The owner is that of the draft, whoever stages.
      let staged ← Fallible.ofExcept
        (server.withPlan (server.baseRecord args draft.owner now) args.mutations preimage
          draft.description)
      Fallible.ofExcept (server.checkPlanLimits staged)
      server.publish args.changeSetId staged
      pure (.obj
        [("change_set_id", .str args.changeSetId),
          ("staged_count", .ofNat args.mutations.length)])

/-- Approve, or waive the approval of one's own change set in lab mode. -/
def decideApproval (caller : Option CallerCtx) (args : ApproveChangeSetArgs)
    (record : ChangeSetRecord) : ServerM ApprovalOutcome :=
  withPlanLock do
    let approver := principal caller
    if approver = record.owner then
      if !server.labMode then
        throw "two-person control: the creating token cannot approve its own change set"
      let outcome ← ServerM.coordinator
        (.waiveApproval args.changeSetId args.controller approver record.digest)
      orFail (CoordinatorError.report "approval refused") outcome
    else
      let outcome ← ServerM.coordinator
        (.approveChangeSet args.changeSetId args.controller approver record.digest
          (approverActorType caller))
      orFail (CoordinatorError.report "approval refused") outcome

/-- `unifi_approve_change_set`. -/
def unifiApproveChangeSet (caller : Option CallerCtx) (args : ApproveChangeSetArgs) :
    ServerM Json := do
  server.authorize caller "unifi_approve_change_set" args.controller
  if !server.labMode && holdsCombinedTwoPersonControlScope caller then
    throw combinedScopeRefused
  let record ← recordFor args.changeSetId args.controller
  if record.actions.isEmpty then
    throw "change set has nothing staged; there is nothing to approve"
  match record.preview with
  | none =>
      throw ("approval refused: this change set has no stored preview, so there is nothing to " ++
        "review. Create it again.")
  | some preview =>
      let (mutations, _) ← Fallible.ofExcept (planOf record)
      orFail (fun e => s!"approval refused: {e.toString}")
        (checkWritableFields server.mecmcp.number mutations)
      if let some expected := args.expectedDigest then
        if expected ≠ record.digest then
          throw ("approval refused: the plan has changed since you read it. You named digest " ++
            s!"{expected}; the change set now holds {record.digest}. Read it again before " ++
            "approving.")
      let outcome ← server.decideApproval caller args record
      pure (.obj
        [("approval_waiver", outcome.approvalWaiver),
          ("approved_by", outcome.approver.elim .null .str),
          ("approved_digest", .str outcome.digest),
          ("change_set_id", .str outcome.changeSetId),
          ("expires_at_unix", .ofNat outcome.expiresAtUnix),
          ("preview", .str preview.artifact),
          ("state", .str outcome.state.asStr)])

/-- The name of a state of an apply. -/
def stateName : State → String
  | .applied => "applied"
  | .appliedUnverified => "applied_unverified"
  | .partialApply => "partial"
  | .partialRollbackFailed => "partial_rollback_failed"
  | .refusedStale => "refused_stale"

/-- Whether an apply counts as one that succeeded. -/
def succeeded : State → Bool
  | .applied | .appliedUnverified => true
  | .partialApply | .partialRollbackFailed | .refusedStale => false

/-- Record a claimed change set as failed, and refuse. -/
def abandon {α : Type} (claimed : ChangeSetRecord) (message : String) : ServerM α := do
  let _ ← ServerM.coordinator (.updateChangeSet { claimed with state := .failed })
  throw message

/-- Carry out the plan of a claimed change set, and record what came of it. -/
def execute (caller : Option CallerCtx) (args : ApplyChangeSetArgs) (client : UnifiClient)
    (claimed : ChangeSetRecord) (mutations : List StagedMutation) (preimage : Preimage) :
    ServerM Json := do
  let outcome ← (ExceptT.lift (onController args.controller
    (applyOver client preimage mutations)) : ServerM Outcome)
  let name := stateName outcome.state
  let ok := succeeded outcome.state
  if server.evidence then
    -- A receipt that cannot be made durable is reported and not refused.
    let _ ← ServerM.ask (.resultReceipt args.changeSetId args.controller (principal caller) ok
      (if ok then "" else name))
  let _ ← ServerM.coordinator
    (.updateChangeSet { claimed with state := if ok then .applied else .failed })
  pure (.obj
    [("attempted_and_failed", .ofNat outcome.attemptedAndFailed.length),
      ("change_set_id", .str args.changeSetId),
      ("failed", .ofNat outcome.failed.length),
      ("never_attempted", .ofNat outcome.neverAttempted.length),
      ("rollback_failures", .arr (outcome.rollbackFailures.map .str)),
      ("state", .str name),
      ("succeeded", .ofNat outcome.succeeded.length)])

/-- Go on with a change set that has been claimed. -/
def applyClaimed (caller : Option CallerCtx) (args : ApplyChangeSetArgs) (client : UnifiClient)
    (claimed : ChangeSetRecord) : ServerM Json := do
  let now ← ServerM.ask .unixSecondsNow
  if now ≥ claimed.expiresAtUnix then
    abandon claimed (s!"apply refused: the approval window closed at {claimed.expiresAtUnix}; " ++
      "nothing was written. Re-plan and re-approve before applying.")
  else
    match planOf claimed with
    | .error message => abandon claimed message
    | .ok (mutations, preimage) =>
        match checkWritableFields server.mecmcp.number mutations with
        | .error e => abandon claimed s!"apply refused: {e.toString}"
        | .ok () =>
            if server.evidence then
              match ← ServerM.ask (.applyIntent args.changeSetId args.controller
                  (principal caller)) with
              | .error error =>
                  abandon claimed ("apply refused: the SSDF apply-intent record could not be " ++
                    s!"made durable, so the write was not attempted: {error}")
              | .ok () => server.execute caller args client claimed mutations preimage
            else server.execute caller args client claimed mutations preimage

/-- `unifi_apply_change_set`: claim first, and only then read the plan. -/
def unifiApplyChangeSet (caller : Option CallerCtx) (args : ApplyChangeSetArgs) :
    ServerM Json := do
  server.authorize caller "unifi_apply_change_set" args.controller
  let client ← clientFor args.controller
  let status ← ServerM.coordinator (.changeSetStatus args.changeSetId args.controller)
  orFail (CoordinatorError.report "apply refused") status
  let answer ← ServerM.coordinator (.claimChangeSetForApply args.changeSetId args.controller)
  let claimed ← orFail (CoordinatorError.report "apply refused") answer
  server.applyClaimed caller args client claimed

end UnifiServer

/-- A call of one of the four tools. -/
inductive ChangeSetCall where
  | create (caller : Option CallerCtx) (args : CreateChangeSetArgs)
  | stage (caller : Option CallerCtx) (args : StageChangeArgs)
  | approve (caller : Option CallerCtx) (args : ApproveChangeSetArgs)
  | apply (caller : Option CallerCtx) (args : ApplyChangeSetArgs)

/-- The handler of a call. -/
def UnifiServer.handle (server : UnifiServer) :
    ChangeSetCall → Program ServerSig (Except String Json)
  | .create caller args => (server.unifiCreateChangeSet caller args).run
  | .stage caller args => (server.unifiStageChange caller args).run
  | .approve caller args => (server.unifiApproveChangeSet caller args).run
  | .apply caller args => (server.unifiApplyChangeSet caller args).run

end UnifiMcp
