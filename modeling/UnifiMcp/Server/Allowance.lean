import UnifiMcp.Client.Spending
import UnifiMcp.Server.Authority

/-!
# How many requests a call sends

No answer of a controller makes a call go on for ever: `ServerCall.allowance` says from the
arguments alone how many requests each tool can send, whatever it is answered.  Two tools cannot
know from their arguments how much they will find, and are granted more by an answer: the status
tool one request for each client of the server, and an apply call eight for each action of the
change set that it has claimed.  `requests_are_bounded` is this in every run of any calls; an
apply call that is refused its claim sends nothing.
-/

namespace UnifiMcp

open Interaction Collections

variable {server : UnifiServer} {kit : ReadKit}

/-! ## The tariff -/

/-- A request to a controller costs one. -/
def ServerOp.price : ServerOp → Nat
  | .client _ op => op.price
  | _ => 0

/-- What an answer grants. -/
def requestsGranted : Event ServerSig → Nat
  | ⟨.clients, .ok clients⟩ => clients.entries.length
  | ⟨.coordinator (.claimChangeSetForApply _ _), .ok claimed⟩ => 8 * claimed.actions.length
  | _ => 0

/-- The tariff of a call. -/
def serverTariff : Tariff ServerSig := ⟨ServerOp.price, requestsGranted⟩

/-- How many requests have been sent. -/
def requestsSent (t : List (Event ServerSig)) : Nat := serverTariff.spent t

/-- How many requests a tool that changes nothing can send. -/
def ReadCall.allowance : ReadCall → Nat
  | .listResources _ | .getResource _ | .queryStats _ | .validateChangeSet _ => 2
  | .search _ => 53
  | .listSites _ => 1
  | .siteHealthReport _ | .topologyReport _ => 6
  | .trafficFlowReport _ => 4
  | .clientTroubleshoot _ => 8
  | .listControllers | .addController | .status | .diffChangeSet _ | .getChangeSet _ => 0

/-- How many requests a change-set tool can send without a claim. -/
def ChangeSetCall.allowance : ChangeSetCall → Nat
  | .stage _ args => 2 * args.mutations.length
  | .create _ _ | .approve _ _ | .apply _ _ => 0

/-- How many requests a call can send, by its arguments. -/
def ServerCall.allowance : ServerCall → Nat
  | .read _ call => call.allowance
  | .changeSet call => call.allowance
  | .deviceAction _ _ => 4
  | .clientAction _ _ | .backupAction _ _ => 2

/-! ## The handlers -/

theorem affords_onController {α : Type} {controller : String} {p : Program ClientSig α} {n : Nat}
    (h : p.Affords clientTariff n) : (onController controller p).Affords serverTariff n :=
  Program.Affords.interpret (fun _ => rfl) (fun _ => ⟨Nat.le_refl _, fun _ => trivial⟩) h

theorem affords_lift_onController {α : Type} {controller : String} {p : Program ClientSig α}
    {n : Nat} (h : p.Affords clientTariff n) :
    Fallible.Affords serverTariff (ExceptT.lift (onController controller p) : ServerM α) n :=
  Fallible.Affords.lift (affords_onController h)

theorem affords_onClient {α : Type} {controller : String} {x : ClientM α} {n : Nat}
    (h : SendsAtMost x n) : (onClient controller x).Affords serverTariff n :=
  (affords_lift_onController h).bind_rest (Nat.le_refl n) fun _ => Fallible.affords_ofExcept _ _

theorem affords_readTool {caller : Option CallerCtx} {tool controller : String}
    {read : UnifiClient → ClientM Json} {n : Nat} (h : ∀ c, SendsAtMost (read c) n) :
    (server.readTool caller tool controller read).Affords serverTariff n := by
  refine .free_bind (Fallible.asks_ofExcept _) fun _ => ?_
  exact .free_bind (asks_clientFor _ rfl) fun client => affords_onClient (h client)

/-- The status tool asks each client for the version once. -/
theorem affords_controllerStatuses (entries : List (String × UnifiClient)) :
    (UnifiServer.controllerStatuses entries).Affords serverTariff entries.length := by
  induction entries with
  | nil => exact Fallible.affords_pure _ _
  | cons e rest ih =>
      rw [List.length_cons]
      refine Fallible.Affords.bind_rest (affords_lift_onController
        UnifiClient.sendsAtMost_fetchVersionIfAbsent) (Nat.le_add_left 1 _) fun version => ?_
      exact ih.bind_rest (Nat.le_refl _) fun _ => Fallible.affords_pure _ _

theorem affords_unifimcpStatus (caller : Option CallerCtx) :
    (server.unifimcpStatus caller).Affords serverTariff 0 := by
  refine .free_bind (Fallible.asks_ofExcept _) fun _ => ?_
  refine Fallible.Affords.ask_bind (Nat.le_refl 0) fun answer => ?_
  cases answer with
  | error e => exact Fallible.affords_throw _ _
  | ok clients =>
      refine ((affords_controllerStatuses clients.entries).bind_rest ?_ fun _ =>
        Fallible.affords_pure _ _)
      exact Nat.le_add_left _ _

theorem affords_unifiValidateChangeSet (caller : Option CallerCtx)
    (args : ValidateChangeSetArgs) :
    (server.unifiValidateChangeSet kit caller args).Affords serverTariff 2 := by
  refine .free_bind (Fallible.asks_ofExcept _) fun _ => ?_
  refine .free_bind (asks_recordFor rfl) fun record => ?_
  refine .free_bind (Fallible.asks_ofExcept _) fun plan => ?_
  refine .free_bind (asks_orFail _ _) fun _ => .free_bind (asks_orFail _ _) fun _ => ?_
  refine .free_bind (asks_orFail _ _) fun _ => ?_
  dsimp only
  split_ifs
  · refine Fallible.Affords.bind_rest (m := 2) ?_ (Nat.le_refl 2) fun _ =>
      Fallible.affords_pure _ _
    refine .free_bind (asks_clientFor _ rfl) fun client => ?_
    refine Fallible.Affords.bind_rest (affords_lift_onController
      (UnifiClient.sendsAtMost_listResources _)) (Nat.le_refl 2) fun listed => ?_
    refine .free_bind (asks_orFail _ _) fun raw => ?_
    exact .free_bind (asks_orFail _ _) fun zones => .of_free (asks_orFail _ _) _
  · exact Fallible.affords_pure _ _

/-- What reads nothing of a controller sends nothing. -/
theorem free_of_apart {op : ServerOp} (h : op.Apart) : serverTariff.Free op := by
  cases op with
  | client controller op => exact h.elim
  | _ => rfl

theorem affords_handleRead (caller : Option CallerCtx) (call : ReadCall) :
    (server.handleRead kit caller call).Affords serverTariff call.allowance := by
  cases call with
  | listResources args =>
      exact affords_readTool fun _ => UnifiClient.sendsAtMost_listResources args
  | getResource args => exact affords_readTool fun _ => UnifiClient.sendsAtMost_getResource args
  | queryStats args => exact affords_readTool fun _ => UnifiClient.sendsAtMost_queryStats args
  | search args => exact affords_readTool fun _ => UnifiClient.sendsAtMost_search args
  | listSites args => exact affords_readTool fun _ => UnifiClient.sendsAtMost_listSites args
  | siteHealthReport args =>
      exact affords_readTool fun _ => (UnifiClient.sendsAtMost_siteHealthReport args).map _
  | topologyReport args =>
      exact affords_readTool fun _ => (UnifiClient.sendsAtMost_topologyReport args).map _
  | trafficFlowReport args =>
      exact affords_readTool fun _ => (UnifiClient.sendsAtMost_trafficFlowReport args).map _
  | clientTroubleshoot args =>
      exact affords_readTool fun _ => (UnifiClient.sendsAtMost_clientTroubleshoot args).map _
  | listControllers =>
      refine .of_free ((Fallible.asks_ofExcept _).bind fun _ => ?_) 0
      have hnames : serverTariff.Free .controllerNames := rfl
      refine (asks_server hnames).bind fun names => ?_
      exact ((asks_controllerViews names).mono fun _ => free_of_apart).bind fun _ =>
        Fallible.asks_pure _
  | addController =>
      exact .of_free ((Fallible.asks_ofExcept _).bind fun _ => Fallible.asks_throw _) 0
  | status => exact affords_unifimcpStatus caller
  | diffChangeSet args =>
      refine .free_bind (Fallible.asks_ofExcept _) fun _ => ?_
      refine .free_bind (asks_recordFor rfl) fun record => ?_
      refine .free_bind (Fallible.asks_ofExcept _) fun plan => ?_
      exact .free_bind (asks_orFail _ _) fun diff => Fallible.affords_pure _ _
  | validateChangeSet args => exact affords_unifiValidateChangeSet caller args
  | getChangeSet args =>
      exact .of_free ((asks_unifiGetChangeSet caller args).mono fun _ => free_of_apart) 0

/-- A plan that is read back has a mutation for each action. -/
theorem length_of_planOf {r : ChangeSetRecord} {mutations : List StagedMutation}
    {preimage : Preimage} (h : UnifiServer.planOf r = .ok (mutations, preimage)) :
    mutations.length = r.actions.length := by
  obtain ⟨read, hread, hrest⟩ := bind_eq_ok.1 h
  obtain ⟨_, -, hpair⟩ := bind_eq_ok.1 hrest
  cases hpair
  cases hread' : mutationsOf r.actions with
  | error e =>
      rw [hread'] at hread
      cases hread
  | ok read =>
      rw [hread'] at hread
      cases hread
      obtain ⟨actions, hactions, hmutations⟩ := bind_eq_ok.1 hread'
      cases hmutations
      rw [List.length_map, length_of_actionsOf hactions]

/-- A claim grants what carrying out its plan takes. -/
theorem affords_applyClaimed (caller : Option CallerCtx) (args : ApplyChangeSetArgs)
    (client : UnifiClient) (claimed : ChangeSetRecord) :
    (server.applyClaimed caller args client claimed).Affords serverTariff
      (8 * claimed.actions.length) := by
  have habandon : ∀ message, (UnifiServer.abandon claimed message : ServerM Json).Affords
      serverTariff (8 * claimed.actions.length) := fun message =>
    .of_free (asks_abandon (P := serverTariff.Free) claimed message rfl) _
  have hexecute : ∀ mutations preimage, UnifiServer.planOf claimed = .ok (mutations, preimage) →
      (server.execute caller args client claimed mutations preimage).Affords serverTariff
        (8 * claimed.actions.length) := by
    intro mutations preimage hplan
    rw [← length_of_planOf hplan]
    refine Fallible.Affords.bind_rest (affords_lift_onController
      (affords_applyOver client preimage mutations)) (Nat.le_refl _) fun outcome => ?_
    dsimp only
    split
    · refine .free_bind (asks_server rfl) fun _ => ?_
      exact .free_bind (asks_coordinator rfl) fun _ => Fallible.affords_pure _ _
    · exact .free_bind (asks_coordinator rfl) fun _ => Fallible.affords_pure _ _
  refine .free_bind (asks_server rfl) fun now => ?_
  split
  · exact habandon _
  · cases hplan : UnifiServer.planOf claimed with
    | error message => exact habandon _
    | ok plan =>
        obtain ⟨mutations, preimage⟩ := plan
        dsimp only
        cases checkWritableFields server.mecmcp.number mutations with
        | error e => exact habandon _
        | ok _ =>
            dsimp only
            split_ifs
            · refine .free_bind (asks_server rfl) fun intent => ?_
              rcases intent with error | _
              · exact habandon _
              · exact hexecute mutations preimage hplan
            · exact hexecute mutations preimage hplan

theorem affords_unifiApplyChangeSet (caller : Option CallerCtx) (args : ApplyChangeSetArgs) :
    (server.unifiApplyChangeSet caller args).Affords serverTariff 0 := by
  refine .free_bind (Fallible.asks_ofExcept _) fun _ => ?_
  refine .free_bind (asks_clientFor _ rfl) fun client => ?_
  refine .free_bind (asks_coordinator rfl) fun status => .free_bind (asks_orFail _ _) fun _ => ?_
  refine Fallible.Affords.ask_bind (Nat.le_refl 0) fun answer => ?_
  cases answer with
  | error e => exact Fallible.affords_throw _ _
  | ok claimed =>
      exact (affords_applyClaimed caller args client claimed).mono (Nat.le_add_left _ _)

theorem affords_unifiStageChange (caller : Option CallerCtx) (args : StageChangeArgs) :
    (server.unifiStageChange caller args).Affords serverTariff (2 * args.mutations.length) := by
  refine .free_bind (Fallible.asks_ofExcept _) fun _ => ?_
  split_ifs
  · exact Fallible.affords_throw _ _
  · refine .free_bind (asks_draft rfl rfl rfl) fun draft => ?_
    cases draft with
    | none => exact .of_free (asks_refuseStage (P := serverTariff.Free) rfl) _
    | some draft =>
        refine .free_bind (asks_clientFor _ rfl) fun client => ?_
        refine .free_bind (asks_orFail _ _) fun _ => ?_
        refine Fallible.Affords.bind_rest (affords_lift_onController
          (UnifiClient.sendsAtMost_capturePreimage args.mutations)) (Nat.le_refl _)
          fun captured => ?_
        refine .free_bind (asks_orFail _ _) fun preimage => ?_
        refine .free_bind (asks_server rfl) fun now => ?_
        refine .free_bind (Fallible.asks_ofExcept _) fun staged => ?_
        refine .free_bind (Fallible.asks_ofExcept _) fun _ => ?_
        exact .free_bind (asks_publish rfl rfl rfl rfl rfl) fun _ => Fallible.affords_pure _ _

theorem affords_handle (k : ChangeSetCall) :
    (server.handle k).Affords serverTariff k.allowance := by
  cases k with
  | create caller args =>
      exact .of_free (asks_unifiCreateChangeSet (P := serverTariff.Free) rfl rfl rfl rfl
        fun _ _ _ => rfl) 0
  | stage caller args => exact affords_unifiStageChange caller args
  | approve caller args =>
      exact .of_free (asks_unifiApproveChangeSet (P := serverTariff.Free) rfl rfl rfl
        (fun _ _ => rfl) fun _ _ => rfl) 0
  | apply caller args => exact affords_unifiApplyChangeSet caller args

/-- A tool that acts sends what its client sends. -/
theorem affords_action {caller : Option CallerCtx} {controller : String}
    {requested : Option String} {check : Except String Unit} {rest : UnifiClient → ServerM Json}
    {n : Nat} (hrest : ∀ c, (rest c).Affords serverTariff n) :
    Fallible.Affords serverTariff (do
      Fallible.ofExcept check
      let client ← UnifiServer.clientFor controller
      let _ ← UnifiServer.authorizeWriteSite caller client requested
      rest client : ServerM Json) n := by
  refine .free_bind (Fallible.asks_ofExcept _) fun _ => ?_
  refine .free_bind (asks_clientFor _ rfl) fun client => ?_
  exact .free_bind ((asks_orFail _ _).bind fun _ => Fallible.asks_pure _) fun _ => hrest client

/-- **Every call keeps to its allowance.** -/
theorem affords_handleCall (k : ServerCall) :
    (server.handleCall kit k).Affords serverTariff k.allowance := by
  cases k with
  | read caller call => exact affords_handleRead caller call
  | changeSet call => exact affords_handle call
  | deviceAction caller args =>
      exact affords_action fun _ => .free_bind (asks_orFail _ _) fun _ =>
        .free_bind asks_gateDirectCommit fun _ =>
          affords_onClient (UnifiClient.sendsAtMost_deviceAction args)
  | clientAction caller args =>
      exact affords_action fun _ => .free_bind (asks_orFail _ _) fun _ =>
        .free_bind asks_gateDirectCommit fun _ =>
          affords_onClient (UnifiClient.sendsAtMost_clientAction args)
  | backupAction caller args =>
      exact affords_action fun _ =>
        affords_onClient (UnifiClient.sendsAtMost_backupAction args)

/-- **No call goes on for ever.**  In every run of any calls and whatever is answered, a call has
sent no more requests than its arguments allow and its answers have granted. -/
theorem requests_are_bounded {σ : Type} {step : σ → Event ServerSig → σ → Prop} {init : σ}
    {p : Pool ServerSig σ ServerCall} (h : p.Reachable (server.handleCall kit) step init) {i : Nat}
    {k : ServerCall} (hk : p.calls[i]? = some k) :
    requestsSent (ownEvents p.log i) ≤
      k.allowance + serverTariff.earned (ownEvents p.log i) :=
  (affords_handleCall k).spent_le (h.begins hk)

/-- The gated apply call sends what it needs of what its claim has granted. -/
theorem requests_are_bounded_gated :
    0 < requestsSent (ownEvents gatedPool.log 3) ∧
      requestsSent (ownEvents gatedPool.log 3) ≤ 8 := by
  have hcall : gatedPool.calls[3]? = some (.changeSet
      (.apply (humanWith "alice" "unifi_apply_change_set" none) ⟨"main", "cs-1"⟩)) := rfl
  have hbound := requests_are_bounded gatedPool_reachable hcall
  have hgranted : serverTariff.earned (ownEvents gatedPool.log 3) = 8 := by decide +kernel
  rw [hgranted] at hbound
  exact ⟨by decide +kernel, hbound⟩

end UnifiMcp
