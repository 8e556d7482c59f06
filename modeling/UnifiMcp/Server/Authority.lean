import UnifiMcp.Server.DirectCommit
import UnifiMcp.Server.Evidence
import UnifiMcp.Server.Settling

/-!
# What a call may touch

Every tool checks its caller first, for the tool and for the controller that the call names.
`handleCall_refused` says that a caller who is refused there has asked nothing of anybody, and
`asks_handleCall` that a caller who is not asks about the named controller only: its client, its
change sets, its drafts and its records.  `calls_stay_in_authority` is this over every order of
the calls of all tools, and `status`, `list_controllers` and `add_controller`, which name no
controller, ask no more than what the inventory shows.

That a change set which is settled belongs to the named controller is not seen from the call
alone, since the record it settles is what the coordinator answered (`device_of_claimed`).
-/

namespace UnifiMcp

open Interaction Collections

variable {C : Coordinator} {server : UnifiServer} {kit : ReadKit}

/-! ## What a call names -/

/-- The tool of a call. -/
def ReadCall.tool : ReadCall → String
  | .listResources _ => "unifi_list_resources"
  | .getResource _ => "unifi_get_resource"
  | .queryStats _ => "unifi_query_stats"
  | .search _ => "unifi_search"
  | .listSites _ => "unifi_list_sites"
  | .listControllers => "unifi_list_controllers"
  | .addController => "unifi_add_controller"
  | .status => "unifimcp_status"
  | .siteHealthReport _ => "unifi_site_health_report"
  | .topologyReport _ => "unifi_topology_report"
  | .trafficFlowReport _ => "unifi_traffic_flow_report"
  | .clientTroubleshoot _ => "unifi_client_troubleshoot"
  | .diffChangeSet _ => "unifi_diff_change_set"
  | .validateChangeSet _ => "unifi_validate_change_set"
  | .getChangeSet _ => "unifi_get_change_set"

/-- The controller a call names, if it names one. -/
def ReadCall.controller : ReadCall → Option String
  | .listResources args => some args.controller
  | .getResource args => some args.controller
  | .queryStats args => some args.controller
  | .search args => some args.controller
  | .listSites args => some args.controller
  | .siteHealthReport args => some args.controller
  | .topologyReport args => some args.controller
  | .trafficFlowReport args => some args.controller
  | .clientTroubleshoot args => some args.controller
  | .diffChangeSet args => some args.controller
  | .validateChangeSet args => some args.controller
  | .getChangeSet args => some args.controller
  | .listControllers | .addController | .status => none

/-- The tool of a call of a change-set tool. -/
def ChangeSetCall.tool : ChangeSetCall → String
  | .create _ _ => "unifi_create_change_set"
  | .stage _ _ => "unifi_stage_change"
  | .approve _ _ => "unifi_approve_change_set"
  | .apply _ _ => "unifi_apply_change_set"

/-- The controller it names. -/
def ChangeSetCall.controller : ChangeSetCall → String
  | .create _ args => args.controller
  | .stage _ args => args.controller
  | .approve _ args => args.controller
  | .apply _ args => args.controller

namespace ServerCall

/-- Who makes a call. -/
def caller : ServerCall → Option CallerCtx
  | .read caller _ => caller
  | .changeSet call => call.caller
  | .deviceAction caller _ | .clientAction caller _ | .backupAction caller _ => caller

/-- The tool of a call. -/
def tool : ServerCall → String
  | .read _ call => call.tool
  | .changeSet call => call.tool
  | .deviceAction _ _ => "unifi_device_action"
  | .clientAction _ _ => "unifi_client_action"
  | .backupAction _ _ => "unifi_backup_action"

/-- The controller a call names, if it names one. -/
def controller : ServerCall → Option String
  | .read _ call => call.controller
  | .changeSet call => some call.controller
  | .deviceAction _ args => some args.controller
  | .clientAction _ args => some args.controller
  | .backupAction _ args => some args.controller

/-- Every call is of a tool that the server registers. -/
theorem tool_mem (k : ServerCall) : k.tool ∈ toolNames := by
  cases k with
  | read caller call => cases call <;> simp [tool, ReadCall.tool, toolNames]
  | changeSet call => cases call <;> simp [tool, ChangeSetCall.tool, toolNames]
  | deviceAction _ _ | clientAction _ _ | backupAction _ _ => simp [tool, toolNames]

end ServerCall

/-- Whether the caller's scopes allow the call. -/
def UnifiServer.permits (server : UnifiServer) (k : ServerCall) : Except String Unit :=
  server.mecmcp.authorizeCall k.caller k.tool k.controller

/-- **A call that is refused asks nothing.** -/
theorem handleCall_refused {k : ServerCall} {e : String} (h : server.permits k = .error e) :
    server.handleCall kit k = .done (.error e) := by
  have hrefused : ∀ {α : Type} {r : Except String Unit} (f : Unit → ServerM α),
      r = .error e → (Fallible.ofExcept r >>= f : ServerM α).run = .done (.error e) := by
    rintro α r f rfl
    rfl
  cases k with
  | read caller call => cases call <;> exact hrefused _ h
  | changeSet call => cases call <;> exact hrefused _ h
  | deviceAction _ _ | clientAction _ _ | backupAction _ _ => exact hrefused _ h

/-! ## What a question concerns -/

/-- A call of the coordinator about change sets of one controller.  The list of all change sets
is read to see whether the owner has another one there. -/
def CoordinatorOp.Concerns (controller : String) : CoordinatorOp → Prop
  | .changeSets => True
  | .changeSet _ device | .changeSetStatus _ device | .claimChangeSetForApply _ device
  | .approveChangeSet _ device _ _ _ | .waiveApproval _ device _ _ => device = controller
  | .insertChangeSet record | .updateChangeSet record => record.device = controller

/-- A question about one controller, or about none in particular. -/
def ServerOp.Concerns (controller : String) : ServerOp → Prop
  | .coordinator op => op.Concerns controller
  | .holdDraft _ draft _ _ => draft.controller = controller
  | .clientFor name | .client name _ => name = controller
  | .proposal _ name _ _ | .applyIntent _ name _ | .resultReceipt _ name _ _ _ => name = controller
  | .clients | .controllerNames | .controllerNamed _ => False
  | .unixSecondsNow | .newChangeSetId | .readDraft _ | .releaseDraft _ | .lockPlan
  | .unlockPlan => True

/-- A question about the inventory, or a read of one of its controllers. -/
def ServerOp.Surveys : ServerOp → Prop
  | .clients | .controllerNames | .controllerNamed _ => True
  | .client _ op => op.Quiet
  | _ => False

/-- A question that a tool which changes nothing asks. -/
def ServerOp.Reads (controller : Option String) : ServerOp → Prop
  | .coordinator (.changeSet _ device) | .coordinator (.changeSetStatus _ device) =>
      controller = some device
  | .unixSecondsNow | .readDraft _ | .releaseDraft _ => controller ≠ none
  | .clientFor name => controller = some name
  | .client name _ => controller = none ∨ controller = some name
  | .clients | .controllerNames | .controllerNamed _ => controller = none
  | _ => False

/-- A question that a tool which acts on one controller asks. -/
def ServerOp.Acts (controller : String) : ServerOp → Prop
  | .clientFor name | .client name _ => name = controller
  | _ => False

theorem ServerOp.Acts.concerns {controller : String} {op : ServerOp} (h : op.Acts controller) :
    op.Concerns controller := by
  cases op with
  | clientFor _ | client _ _ => exact h
  | _ => exact h.elim

theorem ServerOp.Reads.concerns {controller : String} {op : ServerOp}
    (h : op.Reads (some controller)) : op.Concerns controller := by
  match op, h with
  | .coordinator (.changeSet _ _), h | .coordinator (.changeSetStatus _ _), h =>
      exact (Option.some.inj h).symm
  | .unixSecondsNow, _ | .readDraft _, _ | .releaseDraft _, _ => trivial
  | .clientFor _, h => exact (Option.some.inj h).symm
  | .client _ _, .inr h => exact (Option.some.inj h).symm

theorem ServerOp.Reads.unlocked {controller : Option String} {op : ServerOp}
    (h : op.Reads controller) : op.Unlocked := by
  match op, h with
  | .coordinator (.changeSet _ _), _ | .coordinator (.changeSetStatus _ _), _
  | .unixSecondsNow, _ | .readDraft _, _ | .releaseDraft _, _ | .clientFor _, _
  | .client _ _, _ | .clients, _ | .controllerNames, _ | .controllerNamed _, _ =>
      exact ⟨rfl, id⟩

/-! ## Tools that change nothing -/

theorem reads_clientFor (controller : String) :
    ServerOp.Reads (some controller) (.clientFor controller) := rfl

theorem reads_changeSet (id controller : String) :
    ServerOp.Reads (some controller) (.coordinator (.changeSet id controller)) := rfl

theorem reads_inventory {op : ServerOp} (h : op ∈ [.clients, .controllerNames] ∨
    ∃ name, op = .controllerNamed name) : ServerOp.Reads none op := by
  rcases h with h | ⟨name, rfl⟩
  · rcases List.mem_pair.1 h with rfl | rfl <;> rfl
  · rfl

/-- A tool that reads one controller. -/
theorem asks_readTool {caller : Option CallerCtx} {tool controller : String}
    {read : UnifiClient → ClientM Json} :
    (server.readTool caller tool controller read).Asks (ServerOp.Reads (some controller)) := by
  refine (Fallible.asks_ofExcept _).bind fun _ => ?_
  refine (asks_clientFor _ (reads_clientFor controller)).bind fun client => ?_
  exact asks_onClient (Program.asks_true _) fun _ _ => .inr rfl

theorem asks_controllerViews_reads (names : List String) :
    (UnifiServer.controllerViews names).Asks (ServerOp.Reads none) := by
  induction names with
  | nil => exact Fallible.asks_pure _
  | cons name rest ih =>
      refine (asks_server (reads_inventory (.inr ⟨name, rfl⟩))).bind fun answer => ?_
      cases answer with
      | none => exact Fallible.asks_throw _
      | some controller => exact ih.bind fun _ => Fallible.asks_pure _

theorem asks_controllerStatuses_reads (entries : List (String × UnifiClient)) :
    (UnifiServer.controllerStatuses entries).Asks (ServerOp.Reads none) := by
  induction entries with
  | nil => exact Fallible.asks_pure _
  | cons e rest ih =>
      refine Fallible.Asks.bind (asks_lift (asks_onController (Program.asks_true _)
        fun _ _ => .inl rfl)) fun version => ?_
      exact ih.bind fun _ => Fallible.asks_pure _

theorem asks_checkLiveZones (controller : String) (mutations : List StagedMutation) :
    (UnifiServer.checkLiveZones kit controller mutations).Asks
      (ServerOp.Reads (some controller)) := by
  refine (asks_clientFor _ (reads_clientFor controller)).bind fun client => ?_
  refine Fallible.Asks.bind (asks_lift (asks_onController (Program.asks_true _)
    fun _ _ => .inr rfl)) fun listed => ?_
  refine (asks_orFail _ _).bind fun raw => ?_
  exact (asks_orFail _ _).bind fun zones => asks_orFail _ _

theorem asks_unifiValidateChangeSet (caller : Option CallerCtx)
    (args : ValidateChangeSetArgs) : (server.unifiValidateChangeSet kit caller args).Asks
      (ServerOp.Reads (some args.controller)) := by
  refine (Fallible.asks_ofExcept _).bind fun _ => ?_
  refine (asks_recordFor (reads_changeSet _ _)).bind fun record => ?_
  refine (Fallible.asks_ofExcept _).bind fun plan => ?_
  refine (asks_orFail _ _).bind fun _ => (asks_orFail _ _).bind fun _ => ?_
  refine (asks_orFail _ _).bind fun _ => ?_
  dsimp only
  split_ifs
  · exact (asks_checkLiveZones _ _).bind fun _ => Fallible.asks_pure _
  · exact Fallible.asks_pure _

theorem asks_unifiGetChangeSet_reads (caller : Option CallerCtx) (args : GetChangeSetArgs) :
    (server.unifiGetChangeSet kit caller args).Asks
      (ServerOp.Reads (some args.controller)) := by
  have hnamed : some args.controller ≠ none := nofun
  refine (Fallible.asks_ofExcept _).bind fun _ => ?_
  refine (asks_draft hnamed hnamed hnamed).bind fun draft => ?_
  cases draft with
  | some draft => exact Fallible.asks_pure _
  | none =>
      have hstatus : ServerOp.Reads (some args.controller)
          (.coordinator (.changeSetStatus args.changeSetId args.controller)) := rfl
      refine (asks_coordinator hstatus).bind fun status => ?_
      refine (asks_orFail _ _).bind fun _ => ?_
      exact (asks_recordFor (reads_changeSet _ _)).bind fun record => Fallible.asks_pure _

theorem asks_handleRead_reads (caller : Option CallerCtx) (call : ReadCall) :
    (server.handleRead kit caller call).Asks (ServerOp.Reads call.controller) := by
  cases call with
  | listResources _ | getResource _ | queryStats _ | search _ | listSites _
  | siteHealthReport _ | topologyReport _ | trafficFlowReport _ | clientTroubleshoot _ =>
      exact asks_readTool
  | listControllers =>
      refine (Fallible.asks_ofExcept _).bind fun _ => ?_
      refine (asks_server (reads_inventory (.inl (by simp)))).bind fun names => ?_
      exact (asks_controllerViews_reads names).bind fun _ => Fallible.asks_pure _
  | addController => exact (Fallible.asks_ofExcept _).bind fun _ => Fallible.asks_throw _
  | status =>
      refine (Fallible.asks_ofExcept _).bind fun _ => ?_
      refine (asks_server (reads_inventory (.inl (by simp)))).bind fun answer => ?_
      cases answer with
      | error e => exact Fallible.asks_throw _
      | ok clients =>
          exact (asks_controllerStatuses_reads _).bind fun _ => Fallible.asks_pure _
  | diffChangeSet args =>
      refine (Fallible.asks_ofExcept _).bind fun _ => ?_
      refine (asks_recordFor (reads_changeSet _ _)).bind fun record => ?_
      refine (Fallible.asks_ofExcept _).bind fun plan => ?_
      exact (asks_orFail _ _).bind fun diff => Fallible.asks_pure _
  | validateChangeSet args => exact asks_unifiValidateChangeSet caller args
  | getChangeSet args => exact asks_unifiGetChangeSet_reads caller args

/-! ## Change sets and actions -/

/-- What a sequence goes on with, when its first part is known. -/
theorem asks_ofExcept_bind {α β : Type} {P : ServerOp → Prop} {r : Except String α}
    {f : α → ServerM β} (h : ∀ a, r = .ok a → (f a).Asks P) :
    (Fallible.ofExcept r >>= f).Asks P := by
  cases r with
  | ok a => exact h a rfl
  | error e => exact Fallible.asks_throw _

/-- A question about a controller, or the one that settles a change set, whose record is what
the coordinator answered. -/
def ServerOp.ConcernsOrSettles (controller : String) (op : ServerOp) : Prop :=
  op.Concerns controller ∨ ∃ record, op = .coordinator (.updateChangeSet record)

theorem asks_stage_concerns (caller : Option CallerCtx) (args : StageChangeArgs) :
    (server.unifiStageChange caller args).Asks
      (ServerOp.ConcernsOrSettles args.controller) := by
  refine (Fallible.asks_ofExcept _).bind fun _ => ?_
  split_ifs
  · exact Fallible.asks_throw _
  · refine (asks_draft (.inl trivial) (.inl trivial) (.inl trivial)).bind fun draft => ?_
    cases draft with
    | none => exact asks_refuseStage (.inl rfl)
    | some draft =>
        refine (asks_clientFor _ (.inl rfl)).bind fun client => ?_
        refine (asks_orFail _ _).bind fun _ => ?_
        refine Fallible.Asks.bind (asks_lift (asks_onController (Program.asks_true _)
          fun _ _ => .inl rfl)) fun captured => ?_
        refine (asks_orFail _ _).bind fun preimage => ?_
        refine (asks_server (.inl trivial)).bind fun now => ?_
        refine asks_ofExcept_bind fun staged hplan => ?_
        -- The record that is stored is for the controller the call named.
        have hdevice : staged.device = args.controller := (withPlan_ok hplan).2.2.1
        refine (Fallible.asks_ofExcept _).bind fun _ => ?_
        exact (asks_publish (.inl trivial) (.inl trivial) (.inl hdevice) (.inl trivial)
          (.inl hdevice)).bind fun _ => Fallible.asks_pure _

theorem asksApply_concerns (controller : String) (client : UnifiClient) :
    AsksApply (ServerOp.ConcernsOrSettles controller) controller client where
  now := .inl trivial
  intent _ _ := .inl rfl
  receipt _ _ _ _ := .inl rfl
  update record _ := .inr ⟨record, rfl⟩
  run _ _ := (Program.asks_true _).mono fun _ _ => .inl rfl

theorem asks_handle_concerns (k : ChangeSetCall) :
    (server.handle k).Asks (ServerOp.ConcernsOrSettles k.controller) := by
  cases k with
  | create caller args =>
      exact asks_unifiCreateChangeSet (.inl rfl) (.inl trivial) (.inl trivial) (.inl trivial)
        fun _ _ _ => .inl rfl
  | stage caller args => exact asks_stage_concerns caller args
  | approve caller args =>
      exact asks_unifiApproveChangeSet (.inl rfl) (.inl trivial) (.inl trivial)
        (fun _ _ => .inl rfl) fun _ _ => .inl rfl
  | apply caller args =>
      exact asks_unifiApplyChangeSet (.inl rfl) (.inl rfl) (.inl rfl)
        fun _ claimed => (asksApply_concerns _ _).applyClaimed claimed

/-- A tool that acts looks its client up, and asks nobody else. -/
theorem asks_action {caller : Option CallerCtx} {controller : String}
    {requested : Option String} {check : Except String Unit} {rest : UnifiClient → ServerM Json}
    (hrest : ∀ c, (rest c).Asks (ServerOp.Acts controller)) :
    Fallible.Asks (ServerOp.Acts controller) (do
      Fallible.ofExcept check
      let client ← UnifiServer.clientFor controller
      let _ ← UnifiServer.authorizeWriteSite caller client requested
      rest client : ServerM Json) := by
  have hlookup : ServerOp.Acts controller (.clientFor controller) := rfl
  refine (Fallible.asks_ofExcept _).bind fun _ => (asks_clientFor _ hlookup).bind fun c => ?_
  exact Fallible.Asks.bind ((asks_orFail _ _).bind fun _ => Fallible.asks_pure _) fun _ => hrest c

theorem asks_onClient_acts {α : Type} {controller : String} (x : ClientM α) :
    (onClient controller x).Asks (ServerOp.Acts controller) :=
  asks_onClient (Program.asks_true _) fun _ _ => rfl

theorem asks_unifiDeviceAction_acts (caller : Option CallerCtx) (args : DeviceActionArgs) :
    (server.unifiDeviceAction caller args).Asks (ServerOp.Acts args.controller) :=
  asks_action fun _ => (asks_orFail _ _).bind fun _ => asks_gateDirectCommit.bind fun _ =>
    asks_onClient_acts _

theorem asks_unifiClientAction_acts (caller : Option CallerCtx) (args : ClientActionArgs) :
    (server.unifiClientAction caller args).Asks (ServerOp.Acts args.controller) :=
  asks_action fun _ => (asks_orFail _ _).bind fun _ => asks_gateDirectCommit.bind fun _ =>
    asks_onClient_acts _

theorem asks_unifiBackupAction_acts (caller : Option CallerCtx) (args : BackupActionArgs) :
    (server.unifiBackupAction caller args).Asks (ServerOp.Acts args.controller) :=
  asks_action fun _ => asks_onClient_acts _

/-- **What a call asks is about the controller it names**, whatever it is answered. -/
theorem asks_handleCall (k : ServerCall) {controller : String}
    (hk : k.controller = some controller) :
    (server.handleCall kit k).Asks (ServerOp.ConcernsOrSettles controller) := by
  cases k with
  | read caller call =>
      refine Program.Asks.mono (asks_handleRead_reads caller call) fun op hop => .inl ?_
      have hcall : call.controller = some controller := hk
      rw [hcall] at hop
      exact hop.concerns
  | changeSet call =>
      obtain rfl : call.controller = controller := Option.some.inj hk
      exact asks_handle_concerns call
  | deviceAction caller args =>
      obtain rfl : args.controller = controller := Option.some.inj hk
      exact Program.Asks.mono (asks_unifiDeviceAction_acts caller args)
        fun _ hop => .inl hop.concerns
  | clientAction caller args =>
      obtain rfl : args.controller = controller := Option.some.inj hk
      exact Program.Asks.mono (asks_unifiClientAction_acts caller args)
        fun _ hop => .inl hop.concerns
  | backupAction caller args =>
      obtain rfl : args.controller = controller := Option.some.inj hk
      exact Program.Asks.mono (asks_unifiBackupAction_acts caller args)
        fun _ hop => .inl hop.concerns

/-- The client that a call asks is that of the controller it names. -/
theorem client_of_begins {k : ServerCall} {controller name : String} {t : List (Event ServerSig)}
    (hk : k.controller = some controller) (h : (server.handleCall kit k).Begins t)
    {e : Event ClientSig} (hmem : clientEvent name e ∈ t) : name = controller := by
  rcases (asks_handleCall k hk).of_begins h _ hmem with hconcerns | ⟨record, hop⟩
  · exact hconcerns
  · cases hop

/-- What a call asks that names no controller shows the inventory, or reads what is there. -/
theorem asks_handleCall_survey (k : ServerCall) (hk : k.controller = none) :
    (server.handleCall kit k).Asks ServerOp.Surveys := by
  cases k with
  | changeSet _ | deviceAction _ _ | clientAction _ _ | backupAction _ _ => cases hk
  | read caller call =>
      have hcall : call.controller = none := hk
      have hreads : (server.handleRead kit caller call).Asks (ServerOp.Reads none) :=
        hcall ▸ asks_handleRead_reads caller call
      have hquiet : (server.handleRead kit caller call).Asks ServerOp.SendsNoWrite :=
        asks_handleRead caller call
      refine Program.asks_of_begins fun t ht e he => ?_
      have hop := hreads.of_begins ht e he
      have hsends := hquiet.of_begins ht e he
      generalize e.op = op at hop hsends
      match op, hop, hsends with
      | .client _ _, _, hsends => exact hsends
      | .clients, _, _ | .controllerNames, _, _ | .controllerNamed _, _, _ => trivial
      | .unixSecondsNow, hop, _ | .readDraft _, hop, _ | .releaseDraft _, hop, _ =>
          exact absurd rfl hop

/-! ## Every order of calls -/

/-- A pool of calls of all tools. -/
abbrev ServerPool (C : Coordinator) : Type := Pool ServerSig (ServerWorld C) ServerCall

/-- What was claimed is of the controller it was claimed for. -/
theorem device_of_claimed {κ : Type} {code : κ → Program ServerSig (Except String Json)}
    {init : ServerWorld C} {p : Pool ServerSig (ServerWorld C) κ}
    (h : p.Reachable code (ServerStep C) init) {i : Nat} {id device : String}
    {r : ChangeSetRecord}
    (hmem : (i, coordinatorEvent (.claimChangeSetForApply id device) (.ok r)) ∈ p.log) :
    r.device = device := by
  induction h with
  | init => cases hmem
  | start _ _ ih => exact ih hmem
  | turn _ _ _ answered ih =>
      rcases mem_log_append hmem with hold | ⟨-, rfl⟩
      · exact ih hold
      · obtain ⟨-, -, -, -, -, hdevice⟩ := C.claimed answered.1
        exact hdevice

/-- A change set is stored under its own id. -/
theorem id_of_stored {κ : Type} {code : κ → Program ServerSig (Except String Json)}
    {init : ServerWorld C} {p : Pool ServerSig (ServerWorld C) κ} (hinit : init.Fresh)
    (h : p.Reachable code (ServerStep C) init) {id : String} {r : ChangeSetRecord}
    (hr : C.record p.world.store id = some r) : r.id = id := by
  induction h generalizing r with
  | init =>
      rw [hinit.1] at hr
      cases hr
  | start _ _ ih => exact ih hr
  | turn _ _ _ answered ih =>
      rcases record_before answered hr with ⟨-, hid, -⟩ | ⟨r₀, hr₀, hsame, -⟩
      · exact hid
      · exact hsame.id.trans (ih hr₀)

/-- Only an apply call settles a change set, and what it settles it has claimed. -/
theorem claim_of_settled {init : ServerWorld C} {p : ServerPool C}
    (h : p.Reachable (server.handleCall kit) (ServerStep C) init) {i : Nat} {k : ServerCall}
    {record : ChangeSetRecord} {answer : Except CoordinatorError Unit}
    (hk : p.calls[i]? = some k)
    (hmem : (i, coordinatorEvent (.updateChangeSet record) answer) ∈ p.log) :
    ∃ caller args claimed state, k = .changeSet (.apply caller args) ∧
      (i, claimEvent args claimed) ∈ p.log ∧ record = { claimed with state := state } := by
  have hbegins := h.begins hk
  have hown := mem_ownEvents.2 hmem
  have hnot : ∀ {P : ServerOp → Prop}, (server.handleCall kit k).Asks P →
      P (.coordinator (.updateChangeSet record)) := fun hasks => hasks.of_begins hbegins _ hown
  cases k with
  | read caller call => exact (hnot (asks_handleRead_reads caller call)).elim
  | changeSet call =>
      obtain ⟨before, after, hsplit⟩ := List.append_of_mem hown
      rw [hsplit] at hbegins
      have hsettling := settling_of_begins (k := call) hbegins
      obtain ⟨-, caller, args, client, status, claimed, rest, state, rfl, rfl, rfl, -⟩ := hsettling
      refine ⟨caller, args, claimed, state, rfl, mem_ownEvents.1 ?_, rfl⟩
      rw [hsplit]
      simp
  | deviceAction caller args => exact (hnot (asks_unifiDeviceAction_acts caller args)).elim
  | clientAction caller args => exact (hnot (asks_unifiClientAction_acts caller args)).elim
  | backupAction caller args => exact (hnot (asks_unifiBackupAction_acts caller args)).elim

/-- What is settled now was claimed before. -/
theorem claimed_before {init : ServerWorld C} {p : ServerPool C}
    (h : p.Reachable (server.handleCall kit) (ServerStep C) init) {i : Nat} {k : ServerCall}
    {record : ChangeSetRecord} {answer : Except CoordinatorError Unit} {world : ServerWorld C}
    (hk : p.calls[i]? = some k)
    (begun : (server.handleCall kit k).Begins
      (ownEvents p.log i ++ [coordinatorEvent (.updateChangeSet record) answer]))
    (answered : ServerStep C p.world (coordinatorEvent (.updateChangeSet record) answer) world) :
    ∃ caller args claimed state, k = .changeSet (.apply caller args) ∧
      (i, claimEvent args claimed) ∈ p.log ∧ record = { claimed with state := state } := by
  obtain ⟨caller, args, claimed, state, happly, hclaim, hrecord⟩ :=
    claim_of_settled (h.turn hk begun answered) hk
      (List.mem_append_right _ (List.mem_singleton.2 rfl))
  refine ⟨caller, args, claimed, state, happly, ?_, hrecord⟩
  rcases mem_log_append hclaim with hold | ⟨-, heq⟩
  · exact hold
  · cases heq

/-- **Calls stay within their authority.**  In every order of the calls of all tools, a call that
has asked anything has been allowed to its caller for its tool and its controller; if it names a
controller, what it asks concerns that controller and no other; and if it names none, it shows the
inventory and reads the controllers there. -/
theorem calls_stay_in_authority {init : ServerWorld C} {p : ServerPool C}
    (h : p.Reachable (server.handleCall kit) (ServerStep C) init) {i : Nat}
    {e : Event ServerSig} (he : (i, e) ∈ p.log) :
    ∃ k, p.calls[i]? = some k ∧ server.permits k = .ok () ∧
      (∀ controller, k.controller = some controller → ServerOp.Concerns controller e.op) ∧
      (k.controller = none → ServerOp.Surveys e.op) := by
  obtain ⟨k, hk⟩ := h.started he
  have hbegins := h.begins hk
  have hown := mem_ownEvents.2 he
  refine ⟨k, hk, ?_, fun controller hnamed => ?_, fun hnone => ?_⟩
  · cases hpermits : server.permits k with
    | ok _ => rfl
    | error message =>
        rw [handleCall_refused hpermits] at hbegins
        cases hasked : ownEvents p.log i with
        | nil => rw [hasked] at hown; cases hown
        | cons e' t => rw [hasked] at hbegins; exact hbegins.elim
  · rcases (asks_handleCall k hnamed).of_begins hbegins e hown with hop | ⟨record, hop⟩
    · exact hop
    · -- The record that is settled is the one that was claimed on that controller.
      obtain ⟨op, answer⟩ := e
      cases hop
      obtain ⟨caller, args, claimed, state, rfl, hclaim, rfl⟩ := claim_of_settled h hk he
      have hdevice : claimed.device = args.controller := device_of_claimed h hclaim
      exact hdevice.trans (Option.some.inj hnamed)
  · exact (asks_handleCall_survey k hnone).of_begins hbegins e hown

/-- The write of the gated calls was allowed, and went to the controller it was allowed for. -/
theorem calls_stay_in_authority_gated : ∃ k, gatedPool.calls[3]? = some k ∧
    gatedServer.permits k = .ok () ∧ k.controller = some "main" := by
  have hsent : (3, clientEvent "main" (sendEvent policyWrite.1 (.ok policyWrite.2))) ∈
      gatedPool.log := List.mem_of_getElem? (i := 22) rfl
  obtain ⟨k, hk, hpermits, hnamed, hnone⟩ := calls_stay_in_authority gatedPool_reachable hsent
  refine ⟨k, hk, hpermits, ?_⟩
  cases hcontroller : k.controller with
  | none =>
      have hquiet : ClientOp.Quiet (sendEvent policyWrite.1 (.ok policyWrite.2)).op :=
        hnone hcontroller
      exact absurd hquiet policyWrite_not_quiet
  | some controller => exact congrArg some (hnamed controller hcontroller).symm

end UnifiMcp
