import UnifiMcp.Server.Lookups
import UnifiMcp.Server.Settling

/-!
# Direct commits

A device or client command changes a controller in one call, past the review of change sets,
and needs direct-commit permission for that; each handler decides on its own which of its
actions do.  `writes_under_changeControl` is what the decisions come to when the policy is off:
in every run, what is not a `GET` is a write of a plan that an apply call had claimed and
checked, or one of the commands in `openCommands`.
-/

namespace UnifiMcp

open Interaction Collections

variable {server : UnifiServer} {kit : ReadKit}

/-- The check of the direct-commit policy refuses every call. -/
def UnifiServer.DirectCommitOff (server : UnifiServer) : Prop :=
  ∀ caller tool action target, ∃ message, server.directCommit caller tool action target =
    .error message

/-- The commands that need no direct commit, with their endpoints. -/
def openCommands : List (String × String) :=
  [("devmgr", "set-locate"), ("backup", "list-backups"), ("backup", "backup")]

/-- A `POST` of one of these commands to its endpoint. -/
def Request.IsOpenCommand (request : Request) : Prop :=
  request.method = .post ∧ ∃ command ∈ openCommands,
    request.template = s!"/proxy/network/api/s/\x7bsite\x7d/cmd/{command.1}" ∧
    (request.body.bind fun body => body.getStr? "cmd") = some command.2

/-- A question that writes nothing but open commands. -/
def ClientOp.WritesOpen : ClientOp → Prop
  | .send request => request.method ≠ .get → request.IsOpenCommand
  | _ => True

/-- The same of a question of the server. -/
def ServerOp.WritesOpen : ServerOp → Prop
  | .client _ op => op.WritesOpen
  | _ => True

theorem Method.isWrite_eq_false {method : Method} (h : method.isWrite = false) : method = .get := by
  cases method with
  | get => rfl
  | post | put | delete => cases h

theorem ClientOp.Quiet.writesOpen {op : ClientOp} (h : op.Quiet) : op.WritesOpen := by
  cases op with
  | send request => exact fun hwrite => absurd (Method.isWrite_eq_false h) hwrite
  | cachedSiteUuid | cacheSiteUuid uuid | cachedVersion | cacheVersion version => trivial

/-! ## Commands -/

section Client

variable {c : UnifiClient}

/-- An open command is all that posting it writes. -/
theorem asks_postCommand_open {endpoint cmd site : String} {rest : List (String × Json)}
    (h : (endpoint, cmd) ∈ openCommands) :
    (c.postCommand endpoint site (.obj (("cmd", .str cmd) :: rest))).Asks
      ClientOp.WritesOpen := by
  refine UnifiClient.asks_request (fun path _ => ?_) fun op hop => hop.quiet.writesOpen
  exact ⟨rfl, (endpoint, cmd), h, rfl, rfl⟩

/-- Locating a device. -/
theorem asks_locate {args : DeviceActionArgs} (h : args.action = .locate) :
    (c.deviceAction args).Asks ClientOp.WritesOpen := by
  have hcmd : ∀ site, c.deviceCommand args site = pure "set-locate" := fun site => by
    unfold UnifiClient.deviceCommand
    rw [h]
  unfold UnifiClient.deviceAction
  refine (Fallible.asks_ofExcept _).bind fun _ => ?_
  dsimp only
  rw [hcmd, pure_bind]
  exact asks_postCommand_open (by decide)

theorem asks_backupAction_open (args : BackupActionArgs) :
    (c.backupAction args).Asks ClientOp.WritesOpen := by
  unfold UnifiClient.backupAction
  refine (Fallible.asks_ofExcept _).bind fun _ => ?_
  cases args.action with
  | list =>
      refine (asks_postCommand_open (by decide)).bind fun raw => ?_
      exact (Fallible.asks_ofExcept _).bind fun _ => Fallible.asks_pure _
  | trigger => exact asks_postCommand_open (by decide)

end Client

/-! ## Handlers -/

/-- Nothing is asked once the gate is closed. -/
theorem asks_gate_off {α : Type} {P : ServerOp → Prop} (hoff : server.DirectCommitOff)
    {caller : Option CallerCtx} {tool action target : String} {f : Unit → ServerM α} :
    (server.gateDirectCommit caller tool action target true >>= f).Asks P := by
  obtain ⟨message, hrefused⟩ := hoff caller tool action target
  unfold UnifiServer.gateDirectCommit
  rw [if_pos rfl, hrefused]
  exact Fallible.asks_throw message

theorem asks_authorizeWriteSite {P : ServerOp → Prop} {caller : Option CallerCtx}
    {client : UnifiClient} {requested : Option String} :
    (UnifiServer.authorizeWriteSite caller client requested).Asks P :=
  (asks_orFail _ _).bind fun _ => Fallible.asks_pure _

/-- Of the device actions only a locate passes a closed gate. -/
theorem asks_unifiDeviceAction_off (hoff : server.DirectCommitOff) (caller : Option CallerCtx)
    (args : DeviceActionArgs) :
    (server.unifiDeviceAction caller args).Asks ServerOp.WritesOpen := by
  refine (Fallible.asks_ofExcept _).bind fun _ => ?_
  refine (asks_clientFor _ trivial).bind fun c => ?_
  refine asks_authorizeWriteSite.bind fun _ => ?_
  refine (asks_orFail _ _).bind fun _ => ?_
  cases haction : args.action with
  | restart | adopt | upgrade | portAction => exact asks_gate_off hoff
  | locate =>
      exact asks_gateDirectCommit.bind fun _ =>
        asks_onClient (asks_locate haction) fun op hop => hop

/-- No client action does. -/
theorem asks_unifiClientAction_off (hoff : server.DirectCommitOff) (caller : Option CallerCtx)
    (args : ClientActionArgs) :
    (server.unifiClientAction caller args).Asks ServerOp.WritesOpen := by
  refine (Fallible.asks_ofExcept _).bind fun _ => ?_
  refine (asks_clientFor _ trivial).bind fun c => ?_
  refine asks_authorizeWriteSite.bind fun _ => ?_
  refine (asks_orFail _ _).bind fun _ => ?_
  cases args.action with
  | block | unblock | reconnect => exact asks_gate_off hoff

theorem asks_unifiBackupAction (caller : Option CallerCtx) (args : BackupActionArgs) :
    (server.unifiBackupAction caller args).Asks ServerOp.WritesOpen := by
  refine (Fallible.asks_ofExcept _).bind fun _ => ?_
  refine (asks_clientFor _ trivial).bind fun c => ?_
  refine asks_authorizeWriteSite.bind fun _ => ?_
  exact asks_onClient (asks_backupAction_open args) fun op hop => hop

/-! ## Runs -/

/-- **The writes of one call** with the policy off. -/
theorem write_of_handleCall (hoff : server.DirectCommitOff) {k : ServerCall}
    {t : List (Event ServerSig)} (h : (server.handleCall kit k).Begins t) {controller : String}
    {e : Event ClientSig} (hmem : clientEvent controller e ∈ t) :
    e.op.WritesOpen ∨ ∃ caller args, k = .changeSet (.apply caller args) ∧
      args.controller = controller ∧ SentByApply server args t e := by
  cases k with
  | read caller call =>
      have hlookups : OneLookup ClientOp.ReadBy t := lookupsOnce_handleRead caller call t h
      obtain ⟨client, -, -, -, hquiet⟩ := hlookups.asked hmem
      exact .inl hquiet.writesOpen
  | changeSet call =>
      have hmay := (asks_handle call).of_begins h _ hmem
      rcases (show e.op.Quiet ∨ ∃ caller args, call = .apply caller args ∧
        args.controller = controller from hmay) with hquiet | ⟨caller, args, rfl, rfl⟩
      · exact .inl hquiet.writesOpen
      · exact .inr ⟨caller, args, rfl, rfl, sentByApply_of_begins h hmem⟩
  | deviceAction caller args =>
      exact .inl ((asks_unifiDeviceAction_off hoff caller args).of_begins h _ hmem)
  | clientAction caller args =>
      exact .inl ((asks_unifiClientAction_off hoff caller args).of_begins h _ hmem)
  | backupAction caller args =>
      exact .inl ((asks_unifiBackupAction caller args).of_begins h _ hmem)

/-- **Nothing bypasses change control with the policy off**, in every run of any calls and
whatever is answered: a request that is not a `GET` is an open command, or an apply call sent it
to the controller it names, in carrying out the plan it had claimed and checked. -/
theorem writes_under_changeControl (hoff : server.DirectCommitOff) {σ : Type}
    {step : σ → Event ServerSig → σ → Prop} {init : σ} {p : Pool ServerSig σ ServerCall}
    (h : p.Reachable (server.handleCall kit) step init) {i : Nat} {controller : String}
    {request : Request} {answer : Except HttpError Response}
    (hmem : (i, clientEvent controller (sendEvent request answer)) ∈ p.log)
    (hwrite : request.method ≠ .get) :
    request.IsOpenCommand ∨ ∃ caller args,
      p.calls[i]? = some (.changeSet (.apply caller args)) ∧ args.controller = controller ∧
      SentByApply server args (ownEvents p.log i) (sendEvent request answer) := by
  obtain ⟨k, hk⟩ := h.started hmem
  rcases write_of_handleCall hoff (h.begins hk) (mem_ownEvents.2 hmem) with
    hopen | ⟨caller, args, rfl, hcontroller, hsent⟩
  · exact .inl ((show request.method ≠ .get → request.IsOpenCommand from hopen) hwrite)
  · exact .inr ⟨caller, args, hk, hcontroller, hsent⟩

/-! ## A run -/

/-- The policy is off. -/
def gatedServer : UnifiServer :=
  { plainServer with directCommit := fun _ _ _ _ => .error "direct commits are disabled" }

/-- The pool after a change set was staged, approved and applied there. -/
def gatedPool : Pool ServerSig (ServerWorld MemoryStore.coordinator) ServerCall :=
  (reviewedCalls.map ServerCall.changeSet).foldl
    (runCall (gatedServer.handleCall .plain) (oneController policyClient createReply))
    ⟨emptyWorld, [], []⟩

theorem gatedPool_reachable : gatedPool.Reachable (gatedServer.handleCall .plain)
    (ServerStep MemoryStore.coordinator) emptyWorld := by
  refine reachable_runCall (reachable_runCall (reachable_runCall (reachable_runCall
    .init _ ?_) _ ?_) _ ?_) _ ?_
  all_goals rfl

/-- The policy that is created there is no open command. -/
theorem writes_under_changeControl_reviewed : ∃ caller args,
    gatedPool.calls[3]? = some (.changeSet (.apply caller args)) ∧ args.controller = "main" ∧
      SentByApply gatedServer args (ownEvents gatedPool.log 3)
        (sendEvent policyWrite.1 (.ok policyWrite.2)) := by
  have hoff : gatedServer.DirectCommitOff := fun _ _ _ _ => ⟨_, rfl⟩
  have hsent : (3, clientEvent "main" (sendEvent policyWrite.1 (.ok policyWrite.2))) ∈
      gatedPool.log := List.mem_of_getElem? (i := 22) rfl
  refine (writes_under_changeControl hoff gatedPool_reachable hsent (by decide)).resolve_left ?_
  rintro ⟨-, command, -, -, hbody⟩
  cases hbody

end UnifiMcp
