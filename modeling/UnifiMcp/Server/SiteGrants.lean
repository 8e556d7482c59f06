import UnifiMcp.Server.PlanExecution
import UnifiMcp.Server.Actions
import UnifiMcp.Client.WriteSites

/-!
# The sites a token writes to

A token may carry a grant that names the sites it may write to.  The action tools check the
site of a call against it; `unifi_apply_change_set` does not, and writes to the site its
controller is configured with.  `write_site` says this of one call, and `writesInGrant_iff` of
every run: writes stay within the grants exactly when those of apply calls do.
-/

namespace UnifiMcp

open Interaction Collections

variable {server : UnifiServer}

/-- A question that, if it is a write request, names this site. -/
def ServerOp.WritesTo (site : String) : ServerOp → Prop
  | .client _ op => op.WritesTo site
  | _ => True

/-! ## The action tools -/

section Client

variable {c : UnifiClient} {P : ClientOp → Prop}

/-- What the actions at a site ask: the list of its devices and a command. -/
structure UnifiClient.AsksCommands (c : UnifiClient) (P : ClientOp → Prop) (site : String) :
    Prop where
  devices : (c.get .privateV1 "/proxy/network/api/s/{site}/stat/device" [("site", site)] []).Asks P
  command : ∀ endpoint ∈ ["devmgr", "stamgr", "backup"], ∀ body,
    (c.postCommand endpoint site body).Asks P

theorem asks_findPrivateDevice {site mac : String} (h : c.AsksCommands P site) :
    (findPrivateDevice c site mac).Asks P := by
  refine h.devices.bind fun raw => ?_
  refine (Fallible.asks_ofExcept _).bind fun data => ?_
  split
  · exact Fallible.asks_pure _
  · exact Fallible.asks_throw _

theorem asks_deviceAction {args : DeviceActionArgs}
    (h : c.AsksCommands P (args.site.getD c.controller.site)) :
    (c.deviceAction args).Asks P := by
  refine (Fallible.asks_ofExcept _).bind fun _ => ?_
  refine Fallible.Asks.bind ?_ fun cmd => h.command "devmgr" (by decide) _
  unfold UnifiClient.deviceCommand
  cases args.action with
  | restart | locate => exact Fallible.asks_pure _
  | adopt | upgrade | portAction =>
      exact (asks_findPrivateDevice h).bind fun device => Fallible.asks_ofExcept _

theorem asks_clientAction {args : ClientActionArgs}
    (h : c.AsksCommands P (args.site.getD c.controller.site)) :
    (c.clientAction args).Asks P :=
  (Fallible.asks_ofExcept _).bind fun _ => h.command "stamgr" (by decide) _

theorem asks_backupAction {args : BackupActionArgs}
    (h : c.AsksCommands P (args.site.getD c.controller.site)) :
    (c.backupAction args).Asks P := by
  have hcommand : ∀ body, (c.postCommand "backup" (args.site.getD c.controller.site) body).Asks P :=
    h.command "backup" (by decide)
  refine (Fallible.asks_ofExcept _).bind fun _ => ?_
  cases args.action with
  | list =>
      exact (hcommand _).bind fun raw =>
        (Fallible.asks_ofExcept _).bind fun _ => Fallible.asks_pure _
  | trigger => exact hcommand _

/-- The commands at a site write to that site. -/
theorem asksCommands_writesTo (site : String) : c.AsksCommands (ClientOp.WritesTo site) site :=
  ⟨UnifiClient.asks_get.mono fun _ hop => hop.1.writesTo site,
    fun _ _ _ => UnifiClient.asks_request_writesTo⟩

end Client

theorem asks_onClient {α : Type} {controller : String} {Q : ClientOp → Prop} {P : ServerOp → Prop}
    {x : ClientM α} (hx : x.Asks Q) (h : ∀ op, Q op → P (.client controller op)) :
    (onClient controller x).Asks P :=
  Fallible.Asks.bind (asks_lift (asks_onController hx h)) fun _ => asks_orFail _ _

theorem asks_onClient_writesTo {α : Type} {controller site : String} {x : ClientM α}
    (hx : x.Asks (ClientOp.WritesTo site)) :
    (onClient controller x).Asks (ServerOp.WritesTo site) :=
  asks_onClient hx fun _ hop => hop

theorem asks_gateDirectCommit {P : ServerOp → Prop} {caller : Option CallerCtx}
    {tool action target : String} {required : Bool} :
    (server.gateDirectCommit caller tool action target required).Asks P := by
  unfold UnifiServer.gateDirectCommit
  split_ifs
  · exact Fallible.asks_ofExcept _
  · exact Fallible.asks_pure _

theorem authorizeWriteSite_gives {caller : Option CallerCtx} {client : UnifiClient}
    {requested : Option String} {t : List (Event ServerSig)} {site : String}
    (h : (UnifiServer.authorizeWriteSite caller client requested).Gives t (.ok site)) :
    authorizeSite caller (requested.getD client.controller.site) = .ok () := by
  obtain ⟨t₁, t₂, _, rfl, h₁, -⟩ := Fallible.gives_bind_ok.1 h
  have hok := (Fallible.gives_ofExcept.1 h₁).2
  cases hauth : authorizeSite caller (requested.getD client.controller.site) with
  | ok u => rfl
  | error e =>
      rw [hauth] at hok
      cases hok

/-- A handler that resolves a site, checks it and only then acts on it. -/
theorem checked_of_begins {caller : Option CallerCtx} {controller : String}
    (requested : Option String) {check : ServerM Unit} {rest : UnifiClient → ServerM Json}
    (hcheck : check.Asks ServerOp.NotClient)
    (hrest : ∀ client, (rest client).Asks
      (ServerOp.WritesTo (requested.getD client.controller.site)))
    {t : List (Event ServerSig)}
    (h : Fallible.Begins (do
      check
      let client ← UnifiServer.clientFor controller
      let _ ← UnifiServer.authorizeWriteSite caller client requested
      rest client) t)
    {e : Event ServerSig} (he : e ∈ t) (hclient : ¬ ServerOp.NotClient e.op) :
    ∃ site, authorizeSite caller site = .ok () ∧ ServerOp.WritesTo site e.op := by
  obtain ⟨-, t₁, h₁, he₁⟩ := Fallible.begins_skip hcheck h he hclient
  obtain ⟨client, t₂, h₂, he₂⟩ :=
    Fallible.begins_skip (asks_clientFor _ trivial) h₁ he₁ hclient
  obtain ⟨t₃, t₄, site, rfl, h₃, h₄, he₄, -⟩ :=
    Fallible.begins_bind_of_mem (P := ServerOp.NotClient)
      ((asks_orFail _ _).bind fun _ => Fallible.asks_pure _) h₂ he₂ hclient
  exact ⟨_, authorizeWriteSite_gives h₃, (hrest client).of_begins h₄ e he₄⟩

/-! ## Applying -/

/-- Anything but looking a client up. -/
def ServerOp.NotClientFor : ServerOp → Prop
  | .clientFor _ => False
  | _ => True

theorem ServerOp.AfterClaim.notClientFor {op : ServerOp} {controller : String}
    (h : op.AfterClaim controller) : op.NotClientFor := by
  match op, h with
  | .coordinator (.updateChangeSet _), _ | .client _ _, _ | .unixSecondsNow, _
  | .applyIntent _ _ _, _ | .resultReceipt _ _ _ _ _, _ => trivial

/-- An apply call that has asked its client something has looked up no other. -/
theorem clientFor_unique {caller : Option CallerCtx} {args : ApplyChangeSetArgs}
    {t : List (Event ServerSig)} (h : (server.unifiApplyChangeSet caller args).Begins t)
    {asked controller controller' : String} {e : Event ClientSig} {client client' : UnifiClient}
    (hasked : clientEvent asked e ∈ t) (hmem : clientForEvent controller client ∈ t)
    (hmem' : clientForEvent controller' client' ∈ t) : client = client' := by
  obtain ⟨before, after, rfl⟩ := List.append_of_mem hasked
  obtain ⟨found, status, claimed, rest, rfl, happlied⟩ := begins_apply h id
  -- None of the questions after the claim looks a client up.
  have hlater : ∀ e' ∈ rest ++ clientEvent asked e :: after, ServerOp.NotClientFor e'.op :=
    ((asks_applyClaimed claimed).mono fun op hop => hop.notClientFor).of_begins happlied
  have honly : ∀ {controller client}, clientForEvent controller client ∈
      (beforeClaim args found status ++ claimEvent args claimed :: rest) ++
        clientEvent asked e :: after → client = found := by
    intro controller client hmem
    rw [List.append_assoc, List.cons_append] at hmem
    rcases List.mem_cons.1 hmem with heq | hmem
    · cases heq
      rfl
    · rcases List.mem_cons.1 hmem with heq | hmem
      · cases heq
      · rcases List.mem_cons.1 hmem with heq | hmem
        · cases heq
        · exact absurd (hlater _ hmem) id
  rw [honly hmem, honly hmem']

/-! ## One call -/

/-- **Where a call writes**: to a site that was checked against its caller's grant, or, for an
apply call, to the site its controller is configured with. -/
theorem write_site {k : ToolCall} {t : List (Event ServerSig)}
    (h : (server.handleTool k).Begins t) {controller : String} {e : Event ClientSig}
    (hmem : clientEvent controller e ∈ t) (hwrite : ¬ ClientOp.Quiet e.op) :
    ((∀ call, k ≠ .changeSet call) ∧
        ∃ site, authorizeSite k.caller site = .ok () ∧ ClientOp.WritesTo site e.op) ∨
      ∃ caller args client, k = .changeSet (.apply caller args) ∧
        clientForEvent args.controller client ∈ t ∧
        ClientOp.WritesTo client.controller.site e.op := by
  have hclient : ¬ ServerOp.NotClient (clientEvent controller e).op := fun h => h
  cases k with
  | changeSet call =>
      have hmay := (asks_handle call).of_begins h _ hmem
      rcases (show e.op.Quiet ∨ ∃ caller args, call = .apply caller args ∧
        args.controller = controller from hmay) with hquiet | ⟨caller, args, rfl, rfl⟩
      · exact absurd hquiet hwrite
      · obtain ⟨client, status, claimed, mutations, preimage, rest, rfl, -, hwritable, hrun,
          htrace⟩ := sentByApply_of_begins h hmem
        have hoff : ∀ m ∈ mutations, m.OffIntegration := fun m hm =>
          offIntegration_of_checkWritable (checkWritable_of_mem hwritable hm)
        exact .inr ⟨caller, args, client, rfl, List.mem_cons_self,
          (asks_applyOver hoff preimage).of_begins hrun e htrace⟩
  | deviceAction caller args =>
      refine .inl ⟨nofun, checked_of_begins args.site (Fallible.asks_ofExcept _)
        (fun client => ?_) h hmem hclient⟩
      refine (asks_orFail _ _).bind fun _ => ?_
      exact asks_gateDirectCommit.bind fun _ =>
        asks_onClient_writesTo (asks_deviceAction (asksCommands_writesTo _))
  | clientAction caller args =>
      refine .inl ⟨nofun, checked_of_begins args.site (Fallible.asks_ofExcept _)
        (fun client => ?_) h hmem hclient⟩
      refine (asks_orFail _ _).bind fun _ => ?_
      exact asks_gateDirectCommit.bind fun _ =>
        asks_onClient_writesTo (asks_clientAction (asksCommands_writesTo _))
  | backupAction caller args =>
      exact .inl ⟨nofun, checked_of_begins args.site (Fallible.asks_ofExcept _)
        (fun client => asks_onClient_writesTo (asks_backupAction (asksCommands_writesTo _)))
        h hmem hclient⟩
  | other caller body reads => exact absurd (reads.of_begins h _ hmem) hwrite

/-! ## Runs -/

/-- The grant a call is made with. -/
def ToolCall.grant (k : ToolCall) : Option UnifiGrant := k.caller.bind CallerCtx.grant

/-- Every write request of a call whose caller carries a grant names a site that the grant
allows. -/
def WritesInGrant {σ : Type} (p : Pool ServerSig σ ToolCall) : Prop :=
  ∀ i k grant controller request answer, p.calls[i]? = some k → k.grant = some grant →
    (i, clientEvent controller (sendEvent request answer)) ∈ p.log →
    request.method.isWrite = true →
    ∃ site, request.site? = some site ∧ grant.allowsSubject site = true

/-- An apply call that writes, and whose caller carries a grant, is on a controller whose
configured site the grant allows. -/
def AppliesInGrant {σ : Type} (p : Pool ServerSig σ ToolCall) : Prop :=
  ∀ i caller args grant client controller request answer,
    p.calls[i]? = some (.changeSet (.apply caller args)) →
    (ToolCall.changeSet (.apply caller args)).grant = some grant →
    (i, clientForEvent args.controller client) ∈ p.log →
    (i, clientEvent controller (sendEvent request answer)) ∈ p.log →
    request.method.isWrite = true → grant.allowsSubject client.controller.site = true

theorem allowsSubject_of_authorizeSite {k : ToolCall} {grant : UnifiGrant} {site : String}
    (hgrant : k.grant = some grant) (h : authorizeSite k.caller site = .ok ()) :
    grant.allowsSubject site = true := by
  obtain ⟨caller, hcaller, hgrant'⟩ := Option.bind_eq_some_iff.1 hgrant
  unfold authorizeSite at h
  rw [hcaller] at h
  dsimp only at h
  rw [hgrant'] at h
  dsimp only at h
  split_ifs at h with hallows
  exact hallows

theorem writesTo_send {request : Request} {answer : Except HttpError Response} {site : String}
    (h : ClientOp.WritesTo site (sendEvent request answer).op)
    (hwrite : request.method.isWrite = true) : request.site? = some site :=
  h hwrite

/-- **Writes stay within the grants exactly when those of apply calls do**, in every run of
every number of calls and whatever is answered. -/
theorem writesInGrant_iff {σ : Type} {step : σ → Event ServerSig → σ → Prop} {init : σ}
    {p : Pool ServerSig σ ToolCall} (h : p.Reachable server.handleTool step init) :
    WritesInGrant p ↔ AppliesInGrant p := by
  have hloud : ∀ {request : Request} {answer : Except HttpError Response},
      request.method.isWrite = true → ¬ ClientOp.Quiet (sendEvent request answer).op := by
    intro request answer hwrite hquiet
    have hread : request.method.isWrite = false := hquiet
    rw [hread] at hwrite
    cases hwrite
  constructor
  · intro hall i caller args grant client controller request answer hk hgrant hlookup hmem hwrite
    obtain ⟨site, hsite, hallows⟩ := hall i _ grant controller request answer hk hgrant hmem hwrite
    have hbegins := h.begins hk
    rcases write_site hbegins (mem_ownEvents.2 hmem) (hloud hwrite) with
      ⟨hnot, -⟩ | ⟨caller', args', client', heq, hlookup', hto⟩
    · exact absurd rfl (hnot _)
    · cases heq
      have hsame :=
        clientFor_unique hbegins (mem_ownEvents.2 hmem) (mem_ownEvents.2 hlookup) hlookup'
      subst hsame
      rw [writesTo_send hto hwrite] at hsite
      exact Option.some.inj hsite ▸ hallows
  · intro happlies i k grant controller request answer hk hgrant hmem hwrite
    rcases write_site (h.begins hk) (mem_ownEvents.2 hmem) (hloud hwrite) with
      ⟨-, site, hauth, hto⟩ | ⟨caller, args, client, rfl, hlookup, hto⟩
    · exact ⟨site, writesTo_send hto hwrite, allowsSubject_of_authorizeSite hgrant hauth⟩
    · exact ⟨_, writesTo_send hto hwrite, happlies i caller args grant client controller request
        answer hk hgrant (mem_ownEvents.1 hlookup) hmem hwrite⟩

section Scopes

variable {σ : Type} {p : Pool ServerSig σ ToolCall}

/-- Where a caller's grant is an allowlist, the sites written to are on it. -/
theorem WritesInGrant.of_allowlist (h : WritesInGrant p) {i : Nat} {k : ToolCall}
    {grant : UnifiGrant} {sites : List String} (hk : p.calls[i]? = some k)
    (hgrant : k.grant = some grant) (hscope : grant.sites.IsAllowlist sites) {controller : String}
    {request : Request} {answer : Except HttpError Response}
    (hmem : (i, clientEvent controller (sendEvent request answer)) ∈ p.log)
    (hwrite : request.method.isWrite = true) : ∃ site ∈ sites, request.site? = some site := by
  obtain ⟨site, hsite, hallows⟩ := h i k grant controller request answer hk hgrant hmem hwrite
  exact ⟨site, (hscope site).1 hallows, hsite⟩

/-- Where every grant is a wildcard, apply calls write where they may. -/
theorem appliesInGrant_of_wildcard
    (h : ∀ k ∈ p.calls, ∀ grant ∈ k.grant, grant.sites.IsWildcard) : AppliesInGrant p := by
  intro i caller args grant client _ _ _ hk hgrant _ _ _
  exact h _ (List.mem_of_getElem? hk) grant hgrant client.controller.site

end Scopes

/-! ## Two runs -/

/-- A grant for one site. -/
def branchGrant : UnifiGrant := ⟨⟨fun site => site = "branch"⟩⟩

theorem isAllowlist_branchGrant : branchGrant.sites.IsAllowlist ["branch"] := fun name => by
  rw [List.mem_singleton]
  exact decide_eq_true_iff

/-- A token for that site locates a device there. -/
def locateCall : ToolCall :=
  .deviceAction (humanWith "carol" "unifi_device_action" (some branchGrant))
    ⟨"main", "aa:bb:cc:dd:ee:ff", .locate, none, none, none, none, some "branch"⟩

/-- The client it is sent with. -/
def branchClient : UnifiClient :=
  { policyClient with expandPath := fun _ _ => .ok "/proxy/network/api/s/branch/cmd/devmgr" }

/-- The pool after that call. -/
def locatePool : Pool ServerSig (ServerWorld MemoryStore.coordinator) ToolCall :=
  runCall plainServer.handleTool (oneController branchClient createReply) ⟨emptyWorld, [], []⟩
    locateCall

theorem writesInGrant_iff_locate : WritesInGrant locatePool := by
  have hreachable : locatePool.Reachable plainServer.handleTool
      (ServerStep MemoryStore.coordinator) emptyWorld := reachable_runCall .init _ rfl
  refine (writesInGrant_iff hreachable).2 ?_
  intro i caller args grant client controller request answer hk
  have hcalls : locatePool.calls = [locateCall] := rfl
  rw [hcalls] at hk
  have heq := List.mem_singleton.1 (List.mem_of_getElem? hk)
  cases heq

/-- The same token applies a change set of a controller that is configured with another site. -/
def outOfGrantCalls : List ToolCall :=
  (reviewedCalls.take 3).map .changeSet ++
    [.changeSet (.apply (humanWith "carol" "unifi_apply_change_set" (some branchGrant))
      ⟨"main", "cs-1"⟩)]

/-- The pool after these calls. -/
def outOfGrantPool : Pool ServerSig (ServerWorld MemoryStore.coordinator) ToolCall :=
  outOfGrantCalls.foldl (runCall plainServer.handleTool (oneController policyClient createReply))
    ⟨emptyWorld, [], []⟩

theorem outOfGrantPool_reachable : outOfGrantPool.Reachable plainServer.handleTool
    (ServerStep MemoryStore.coordinator) emptyWorld := by
  refine reachable_runCall (reachable_runCall (reachable_runCall (reachable_runCall
    .init _ ?_) _ ?_) _ ?_) _ ?_
  all_goals rfl

/-- The write of the apply call is to a site outside the grant of its caller. -/
theorem not_writesInGrant :
    branchGrant.sites.IsAllowlist ["branch"] ∧
      outOfGrantPool.Reachable plainServer.handleTool (ServerStep MemoryStore.coordinator)
        emptyWorld ∧ ¬ WritesInGrant outOfGrantPool := by
  refine ⟨isAllowlist_branchGrant, outOfGrantPool_reachable, fun h => ?_⟩
  obtain ⟨site, hsite, hallows⟩ := h 3 _ branchGrant "main" policyWrite.1 (.ok policyWrite.2)
    rfl rfl (List.mem_of_getElem? (i := 22) rfl) rfl
  have hdefault : site = "default" := (Option.some.inj hsite).symm
  subst hdefault
  exact absurd ((isAllowlist_branchGrant "default").1 hallows) (by decide)

end UnifiMcp
