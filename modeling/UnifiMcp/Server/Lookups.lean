import UnifiMcp.Client.Surfaces
import UnifiMcp.Server.Reads
import UnifiMcp.Server.SiteGrants
import UnifiMcp.Tools.SiteLegs

/-!
# The clients a call looks up

Every handler looks clients up once at most, and puts no question to a controller except
through what it found.  `OneLookup` says this of what a call has asked, with what the
questions through a found client may be as a parameter, and `lookupsOnce_handleCall` is the
statement over all tools: whatever is asked through a client is a question of that client, so
that its requests are those that `UnifiClient.Sends` describes.  The tools that change nothing
write nothing either (`lookupsOnce_handleRead`), which is all that a `ToolCall` keeps of them:
`reachable_toTool` brings what holds of pools of tool calls to the calls there are.
-/

namespace UnifiMcp

open Interaction Collections

variable {server : UnifiServer} {kit : ReadKit}

/-! ## Lookups -/

/-- A question for clients. -/
def ServerOp.IsLookup : ServerOp → Prop
  | .clientFor _ | .clients => True
  | _ => False

/-- A question neither for clients nor to one. -/
def ServerOp.Apart : ServerOp → Prop
  | .clientFor _ | .clients | .client _ _ => False
  | _ => True

/-- A question that goes to a controller only through its client among these. -/
def ServerOp.Through (Q : UnifiClient → ClientOp → Prop) (found : String → Option UnifiClient) :
    ServerOp → Prop
  | .client controller op => ∃ client, found controller = some client ∧ Q client op
  | .clientFor _ | .clients => False
  | _ => True

/-- The clients that an event found, by the names of their controllers. -/
def foundIn : Event ServerSig → String → Option UnifiClient
  | ⟨.clientFor controller, .ok (some client)⟩ => fun name =>
      if name = controller then some client else none
  | ⟨.clients, .ok clients⟩ => clients.get?
  | _ => fun _ => none

/-- This client was found under the name of its controller. -/
def LooksUp (t : List (Event ServerSig)) (controller : String) (client : UnifiClient) : Prop :=
  ∃ e ∈ t, foundIn e controller = some client

/-- At most one lookup, and nothing put to a controller except through what it found. -/
inductive OneLookup (Q : UnifiClient → ClientOp → Prop) : List (Event ServerSig) → Prop where
  | apart {t : List (Event ServerSig)} (h : ∀ e ∈ t, ServerOp.Apart e.op) : OneLookup Q t
  | lookup {before after : List (Event ServerSig)} {e : Event ServerSig}
      (h : ∀ e ∈ before, ServerOp.Apart e.op) (lookup : ServerOp.IsLookup e.op)
      (through : ∀ e' ∈ after, ServerOp.Through Q (foundIn e) e'.op) :
      OneLookup Q (before ++ e :: after)

variable {Q Q' : UnifiClient → ClientOp → Prop}

theorem ServerOp.Through.mono {found : String → Option UnifiClient} {op : ServerOp}
    (h : op.Through Q found) (hQ : ∀ client op, Q client op → Q' client op) :
    op.Through Q' found := by
  cases op with
  | client _ op =>
      obtain ⟨c, hfound, hop⟩ := h
      exact ⟨c, hfound, hQ c op hop⟩
  | clientFor _ | clients => exact h
  | _ => trivial

theorem OneLookup.mono {t : List (Event ServerSig)} (h : OneLookup Q t)
    (hQ : ∀ client op, Q client op → Q' client op) : OneLookup Q' t := by
  cases h with
  | apart h => exact .apart h
  | lookup h hlookup through => exact .lookup h hlookup fun e he => (through e he).mono hQ

theorem OneLookup.prepend {t₁ t₂ : List (Event ServerSig)}
    (h₁ : ∀ e ∈ t₁, ServerOp.Apart e.op) (h₂ : OneLookup Q t₂) : OneLookup Q (t₁ ++ t₂) := by
  cases h₂ with
  | apart h => exact .apart fun e he => (List.mem_append.1 he).elim (h₁ e) (h e)
  | @lookup before after e h hlookup through =>
      rw [← List.append_assoc]
      exact .lookup (fun e he => (List.mem_append.1 he).elim (h₁ e) (h e)) hlookup through

/-- Only a lookup finds a client. -/
theorem isLookup_of_foundIn {e : Event ServerSig} {controller : String} {client : UnifiClient}
    (h : foundIn e controller = some client) : ServerOp.IsLookup e.op := by
  obtain ⟨op, answer⟩ := e
  cases op with
  | clientFor _ | clients => trivial
  | _ => cases h

theorem ServerOp.Apart.not_isLookup {op : ServerOp} (h : op.Apart) : ¬ op.IsLookup := by
  cases op with
  | clientFor _ | clients => exact h.elim
  | _ => exact id

theorem ServerOp.Through.not_isLookup {op : ServerOp} {found : String → Option UnifiClient}
    (h : op.Through Q found) : ¬ op.IsLookup := by
  cases op with
  | clientFor _ | clients => exact h.elim
  | _ => exact id

/-- **What is asked of a controller is asked through the one client found for it.** -/
theorem OneLookup.asked {t : List (Event ServerSig)} (h : OneLookup Q t) {controller : String}
    {e : Event ClientSig} (hmem : clientEvent controller e ∈ t) :
    ∃ client, LooksUp t controller client ∧
      (∀ client', LooksUp t controller client' → client' = client) ∧ Q client e.op := by
  cases h with
  | apart h => exact (h _ hmem).elim
  | @lookup before after found h hlookup through =>
      have hafter : clientEvent controller e ∈ after := by
        rcases List.mem_append.1 hmem with hmem | hmem
        · exact (h _ hmem).elim
        · rcases List.mem_cons.1 hmem with rfl | hmem
          · exact hlookup.elim
          · exact hmem
      obtain ⟨client, hfound, hop⟩ := through _ hafter
      refine ⟨client, ⟨found, by simp, hfound⟩, ?_, hop⟩
      rintro client' ⟨e', he', hfound'⟩
      have hlookup' := isLookup_of_foundIn hfound'
      rcases List.mem_append.1 he' with he' | he'
      · exact absurd hlookup' (h _ he').not_isLookup
      · rcases List.mem_cons.1 he' with rfl | he'
        · exact Option.some.inj (hfound'.symm.trans hfound)
        · exact absurd hlookup' (through _ he').not_isLookup

/-! ## Handlers -/

/-- Whatever a handler has asked, there was at most one lookup. -/
def LookupsOnce {α : Type} (Q : UnifiClient → ClientOp → Prop) (x : ServerM α) : Prop :=
  ∀ t, x.Begins t → OneLookup Q t

section Rules

variable {α β : Type}

theorem LookupsOnce.mono {x : ServerM α} (h : LookupsOnce Q x)
    (hQ : ∀ client op, Q client op → Q' client op) : LookupsOnce Q' x :=
  fun t ht => (h t ht).mono hQ

theorem lookupsOnce_of_asks {x : ServerM α} (h : x.Asks ServerOp.Apart) : LookupsOnce Q x :=
  fun _ ht => .apart (h.of_begins ht)

/-- A first part without clients. -/
theorem LookupsOnce.bind {x : ServerM α} {f : α → ServerM β} (hx : x.Asks ServerOp.Apart)
    (hf : ∀ a, LookupsOnce Q (f a)) : LookupsOnce Q (x >>= f) := by
  intro t ht
  rcases Fallible.begins_bind.1 ht with h | ⟨t₁, t₂, a, rfl, h₁, h₂⟩
  · exact .apart (hx.of_begins h)
  · exact (hf a t₂ h₂).prepend (hx.of_mem h₁)

/-- Nothing is asked after it. -/
theorem LookupsOnce.bind_pure {x : ServerM α} (hx : LookupsOnce Q x) (g : α → β) :
    LookupsOnce Q (x >>= fun a => pure (g a)) := by
  intro t ht
  rcases Fallible.begins_bind.1 ht with h | ⟨t₁, t₂, a, rfl, h₁, h₂⟩
  · exact hx t h
  · rw [Fallible.begins_pure h₂, List.append_nil]
    exact hx t₁ h₁.begins

/-- A lookup, and then what goes through what it found. -/
theorem lookupsOnce_lookup {op : ServerOp} (hop : op.IsLookup) {f : op.Answer → ServerM β}
    (hf : ∀ answer, (f answer).Asks (ServerOp.Through Q (foundIn ⟨op, answer⟩))) :
    LookupsOnce Q (ServerM.ask op >>= f) := by
  intro t ht
  cases t with
  | nil => exact .apart fun e he => absurd he List.not_mem_nil
  | cons e t =>
      obtain ⟨answer, rfl, ht⟩ := ht
      have hfirst : ∀ e ∈ ([] : List (Event ServerSig)), ServerOp.Apart e.op :=
        fun e he => absurd he List.not_mem_nil
      have hthrough : ∀ e ∈ t, ServerOp.Through Q (foundIn ⟨op, answer⟩) e.op :=
        (hf answer).of_begins ht
      exact OneLookup.lookup hfirst hop hthrough

/-- What goes through the client of one controller. -/
theorem through_client {controller : String} {c : UnifiClient} {op : ClientOp} (h : Q c op) :
    ServerOp.Through Q (foundIn (clientForEvent controller c)) (.client controller op) :=
  ⟨c, if_pos rfl, h⟩

theorem lookupsOnce_clientFor {controller : String} {f : UnifiClient → ServerM β}
    (hf : ∀ c, (f c).Asks (ServerOp.Through Q (foundIn (clientForEvent controller c)))) :
    LookupsOnce Q (UnifiServer.clientFor controller >>= f) := by
  have hlookup : ServerOp.IsLookup (.clientFor controller) := trivial
  unfold UnifiServer.clientFor
  rw [bind_assoc]
  refine lookupsOnce_lookup hlookup fun answer => ?_
  rcases answer with error | (_ | c)
  · exact Fallible.asks_throw _
  · exact Fallible.asks_throw _
  · exact hf c

theorem asks_onClient_through {controller : String} {c : UnifiClient} {x : ClientM α}
    (hx : x.Asks (Q c)) :
    (onClient controller x).Asks
      (ServerOp.Through Q (foundIn (clientForEvent controller c))) :=
  asks_onClient hx fun _ hop => through_client hop

end Rules

/-! ## Tools that change nothing -/

namespace UnifiClient

variable {c : UnifiClient} {tools : Toolkit} {P : ClientOp → Prop}

theorem AsksReads.siteOr (h : c.AsksReads P) (site : Option String) (surface : ApiSurface) :
    (c.siteOr site surface).Asks P := by
  cases site with
  | some site => exact Fallible.asks_pure _
  | none => exact h.site surface

theorem AsksReads.listResources (h : c.AsksReads P) (args : ListResourcesArgs) :
    (c.listResources tools args).Asks P := by
  refine (Fallible.asks_ofExcept _).bind fun page => ?_
  refine (h.siteOr _ _).bind fun site => ?_
  refine (h.collection _ _ _).bind fun raw => ?_
  exact (Fallible.asks_ofExcept _).bind fun parsed => Fallible.asks_pure _

theorem AsksReads.getResource (h : c.AsksReads P) (args : GetResourceArgs) :
    (c.getResource tools args).Asks P := by
  refine (h.siteOr _ _).bind fun site => ?_
  refine (h.single _ _).bind fun raw => ?_
  exact (Fallible.asks_ofExcept _).bind fun parsed => Fallible.asks_pure _

theorem asks_listSites (args : ListSitesArgs) :
    (c.listSites args).Asks (ClientOp.ReadBy c) :=
  (asks_get_readBy serves_sitesPath).bind fun _ => Fallible.asks_ofExcept _

theorem serves_endpoint (subject : StatsSubject) :
    ApiSurface.privateV1.Serves subject.endpoint := by
  cases subject <;> decide +kernel

theorem asks_queryStats (args : QueryStatsArgs) :
    (c.queryStats tools args).Asks (ClientOp.ReadBy c) := by
  have hrest : ∀ site, (do
      let raw ← c.getAt .privateV1 args.subject.endpoint site (windowQuery args.start args.end)
      let data ← enveloped raw
      Fallible.ofExcept (statsPage tools.toRedactor tools.page args.subject data args.offset
        args.limit) : ClientM Json).Asks (ClientOp.ReadBy c) := fun site =>
    (asks_get_readBy (serves_endpoint _)).bind fun raw =>
      (Fallible.asks_ofExcept _).bind fun data => Fallible.asks_ofExcept _
  unfold UnifiClient.queryStats
  cases args.site with
  | some site => exact hrest site
  | none => exact (asks_defaultSiteFor_readBy _).bind hrest

/-- The legs of a report are reads. -/
theorem asksLegs_readBy {uuid name : String} : c.AsksLegs (ClientOp.ReadBy c) uuid name :=
  ⟨fun h => asks_get_readBy h, fun _ h => asks_get_readBy h⟩

theorem asks_report (report : SiteReport) :
    (report.run c tools).Asks (ClientOp.ReadBy c) := by
  rw [report.run_eq]
  exact (asks_defaultSiteFor_readBy _).bind fun _ => asksLegs_readBy.runAt report

theorem asks_controllerVersion : c.controllerVersion.Asks (ClientOp.ReadBy c) :=
  asksVersion_readBy.fetch

end UnifiClient

/-- A tool that reads one controller. -/
theorem lookupsOnce_readTool {caller : Option CallerCtx} {tool controller : String}
    {read : UnifiClient → ClientM Json} (hread : ∀ c, (read c).Asks (Q c)) :
    LookupsOnce Q (server.readTool caller tool controller read) := by
  refine LookupsOnce.bind (Fallible.asks_ofExcept _) fun _ => ?_
  exact lookupsOnce_clientFor fun c => asks_onClient_through (hread c)

theorem asks_controllerViews (names : List String) :
    (UnifiServer.controllerViews names).Asks ServerOp.Apart := by
  induction names with
  | nil => exact Fallible.asks_pure _
  | cons name rest ih =>
      refine (asks_server trivial).bind fun answer => ?_
      cases answer with
      | none => exact Fallible.asks_throw _
      | some controller => exact ih.bind fun _ => Fallible.asks_pure _

/-- The status tool asks every client it found for the version. -/
theorem asks_controllerStatuses {clients : SortedMap String UnifiClient}
    (entries : List (String × UnifiClient))
    (hentries : ∀ e ∈ entries, clients.get? e.1 = some e.2) :
    (UnifiServer.controllerStatuses entries).Asks
      (ServerOp.Through ClientOp.ReadBy (foundIn ⟨.clients, .ok clients⟩)) := by
  induction entries with
  | nil => exact Fallible.asks_pure _
  | cons e rest ih =>
      have hfound := hentries e List.mem_cons_self
      refine Fallible.Asks.bind (asks_lift (asks_onController
        UnifiClient.asks_controllerVersion fun op hop => ⟨e.2, hfound, hop⟩)) fun version => ?_
      exact (ih fun e he => hentries e (List.mem_cons_of_mem _ he)).bind fun _ =>
        Fallible.asks_pure _

theorem lookupsOnce_unifimcpStatus (caller : Option CallerCtx) :
    LookupsOnce ClientOp.ReadBy (server.unifimcpStatus caller) := by
  have hlookup : ServerOp.IsLookup .clients := trivial
  refine LookupsOnce.bind (Fallible.asks_ofExcept _) fun _ => ?_
  refine lookupsOnce_lookup hlookup fun answer => ?_
  cases answer with
  | error e => exact Fallible.asks_throw _
  | ok clients =>
      refine (asks_controllerStatuses clients.entries fun e he => ?_).bind fun _ =>
        Fallible.asks_pure _
      exact SortedMap.get?_eq_some.2 he

theorem lookupsOnce_checkLiveZones (controller : String) (mutations : List StagedMutation) :
    LookupsOnce ClientOp.ReadBy (UnifiServer.checkLiveZones kit controller mutations) := by
  refine lookupsOnce_clientFor fun c => ?_
  refine Fallible.Asks.bind (asks_lift (asks_onController
    (UnifiClient.asksReads_readBy.listResources _) fun op hop => through_client hop))
    fun listed => ?_
  refine (asks_orFail _ _).bind fun raw => ?_
  exact (asks_orFail _ _).bind fun zones => asks_orFail _ _

theorem lookupsOnce_unifiValidateChangeSet (caller : Option CallerCtx)
    (args : ValidateChangeSetArgs) :
    LookupsOnce ClientOp.ReadBy (server.unifiValidateChangeSet kit caller args) := by
  refine LookupsOnce.bind (Fallible.asks_ofExcept _) fun _ => ?_
  refine LookupsOnce.bind (asks_recordFor trivial) fun record => ?_
  refine LookupsOnce.bind (Fallible.asks_ofExcept _) fun plan => ?_
  refine LookupsOnce.bind (asks_orFail _ _) fun _ => ?_
  refine LookupsOnce.bind (asks_orFail _ _) fun _ => ?_
  refine LookupsOnce.bind (asks_orFail _ _) fun _ => ?_
  dsimp only
  split_ifs
  · exact (lookupsOnce_checkLiveZones args.controller plan.1).bind_pure _
  · exact lookupsOnce_of_asks (Fallible.asks_pure _)

theorem asks_unifiGetChangeSet (caller : Option CallerCtx) (args : GetChangeSetArgs) :
    (server.unifiGetChangeSet kit caller args).Asks ServerOp.Apart := by
  refine (Fallible.asks_ofExcept _).bind fun _ => ?_
  refine (asks_draft trivial trivial trivial).bind fun draft => ?_
  cases draft with
  | some draft => exact Fallible.asks_pure _
  | none =>
      refine (asks_coordinator trivial).bind fun status => ?_
      refine (asks_orFail _ _).bind fun _ => ?_
      exact (asks_recordFor trivial).bind fun record => Fallible.asks_pure _

/-- **A tool that changes nothing writes nothing.** -/
theorem lookupsOnce_handleRead (caller : Option CallerCtx) (call : ReadCall) :
    LookupsOnce ClientOp.ReadBy (server.handleRead kit caller call) := by
  cases call with
  | listResources args =>
      exact lookupsOnce_readTool fun c => UnifiClient.asksReads_readBy.listResources args
  | getResource args =>
      exact lookupsOnce_readTool fun c => UnifiClient.asksReads_readBy.getResource args
  | queryStats args => exact lookupsOnce_readTool fun c => UnifiClient.asks_queryStats args
  | search args => exact lookupsOnce_readTool fun c => UnifiClient.asks_report (.search args)
  | listSites args => exact lookupsOnce_readTool fun c => UnifiClient.asks_listSites args
  | listControllers =>
      refine lookupsOnce_of_asks ((Fallible.asks_ofExcept _).bind fun _ => ?_)
      refine (asks_server trivial).bind fun names => ?_
      exact (asks_controllerViews names).bind fun _ => Fallible.asks_pure _
  | addController =>
      exact lookupsOnce_of_asks ((Fallible.asks_ofExcept _).bind fun _ => Fallible.asks_throw _)
  | status => exact lookupsOnce_unifimcpStatus caller
  | siteHealthReport args =>
      exact lookupsOnce_readTool fun c => UnifiClient.asks_report (.siteHealth args)
  | topologyReport args =>
      exact lookupsOnce_readTool fun c => UnifiClient.asks_report (.topology args)
  | trafficFlowReport args =>
      exact lookupsOnce_readTool fun c => UnifiClient.asks_report (.trafficFlow args)
  | clientTroubleshoot args =>
      exact lookupsOnce_readTool fun c => UnifiClient.asks_report (.clientTroubleshoot args)
  | diffChangeSet args =>
      refine lookupsOnce_of_asks ((Fallible.asks_ofExcept _).bind fun _ => ?_)
      refine (asks_recordFor trivial).bind fun record => ?_
      refine (Fallible.asks_ofExcept _).bind fun plan => ?_
      exact (asks_orFail _ _).bind fun diff => Fallible.asks_pure _
  | validateChangeSet args => exact lookupsOnce_unifiValidateChangeSet caller args
  | getChangeSet args => exact lookupsOnce_of_asks (asks_unifiGetChangeSet caller args)

/-! ## Change sets and actions -/

theorem asksApply_through (controller : String) (c : UnifiClient) :
    AsksApply (ServerOp.Through ClientOp.SentBy (foundIn (clientForEvent controller c)))
      controller c where
  now := trivial
  intent _ _ := trivial
  receipt _ _ _ _ := trivial
  update _ _ := trivial
  run preimage mutations :=
    (asks_applyOver_sentBy c preimage mutations).mono fun _ hop => through_client hop

/-- A stage call reads what its plan addresses. -/
theorem lookupsOnce_unifiStageChange (caller : Option CallerCtx) (args : StageChangeArgs) :
    LookupsOnce ClientOp.SentBy (server.unifiStageChange caller args) := by
  refine LookupsOnce.bind (Fallible.asks_ofExcept _) fun _ => ?_
  split_ifs
  · exact lookupsOnce_of_asks (Fallible.asks_throw _)
  · refine LookupsOnce.bind (asks_draft trivial trivial trivial) fun draft => ?_
    cases draft with
    | none =>
        exact lookupsOnce_of_asks (asks_refuseStage trivial)
    | some draft =>
        refine lookupsOnce_clientFor fun c => ?_
        refine (asks_orFail _ _).bind fun _ => ?_
        refine Fallible.Asks.bind (asks_lift (asks_onController
          (asks_capturePreimage UnifiClient.asksReads_sentBy args.mutations)
          fun op hop => through_client hop)) fun captured => ?_
        refine (asks_orFail _ _).bind fun preimage => ?_
        refine (asks_server trivial).bind fun now => ?_
        refine (Fallible.asks_ofExcept _).bind fun staged => ?_
        refine (Fallible.asks_ofExcept _).bind fun _ => ?_
        exact (asks_publish trivial trivial trivial trivial trivial).bind fun _ =>
          Fallible.asks_pure _

/-- An apply call carries its plan out. -/
theorem lookupsOnce_unifiApplyChangeSet (caller : Option CallerCtx)
    (args : ApplyChangeSetArgs) :
    LookupsOnce ClientOp.SentBy (server.unifiApplyChangeSet caller args) := by
  refine LookupsOnce.bind (Fallible.asks_ofExcept _) fun _ => ?_
  refine lookupsOnce_clientFor fun c => ?_
  refine (asks_coordinator trivial).bind fun status => ?_
  refine (asks_orFail _ _).bind fun _ => ?_
  refine (asks_coordinator trivial).bind fun answer => ?_
  exact (asks_orFail _ _).bind fun claimed => (asksApply_through _ c).applyClaimed claimed

theorem lookupsOnce_handle (call : ChangeSetCall) :
    LookupsOnce ClientOp.SentBy (server.handle call : ServerM Json) := by
  cases call with
  | create caller args =>
      refine LookupsOnce.bind (Fallible.asks_ofExcept _) fun _ => ?_
      refine lookupsOnce_clientFor fun c => ?_
      refine (Fallible.asks_ofExcept _).bind fun smallest => ?_
      split_ifs
      · exact Fallible.asks_throw _
      · refine (asks_server trivial).bind fun id => ?_
        refine (asks_server trivial).bind fun now => ?_
        exact (asks_hold trivial trivial fun now => trivial).bind fun _ => Fallible.asks_pure _
  | stage caller args => exact lookupsOnce_unifiStageChange caller args
  | approve caller args =>
      exact lookupsOnce_of_asks (asks_unifiApproveChangeSet trivial trivial trivial
        (fun _ _ => trivial) fun _ _ => trivial)
  | apply caller args => exact lookupsOnce_unifiApplyChangeSet caller args

theorem serves_command : ∀ endpoint ∈ ["devmgr", "stamgr", "backup"],
    ApiSurface.privateV1.Serves
      s!"/proxy/network/api/s/\x7bsite\x7d/cmd/{endpoint}" := by
  decide +kernel

/-- Commands go to the private surface. -/
theorem asksCommands_sentBy {c : UnifiClient} (site : String) :
    c.AsksCommands (ClientOp.SentBy c) site :=
  ⟨(UnifiClient.asks_get_readBy UnifiClient.serves_deviceStats).mono fun _ hop => hop.1,
    fun endpoint hmem _ => UnifiClient.asks_request_sentBy (serves_command endpoint hmem)⟩

/-- A tool that resolves a site and checks it before it acts. -/
theorem lookupsOnce_checked {caller : Option CallerCtx} {controller : String}
    {requested : Option String} {check : ServerM Unit} {rest : UnifiClient → ServerM Json}
    (hcheck : check.Asks ServerOp.Apart)
    (hrest : ∀ c, (rest c).Asks
      (ServerOp.Through ClientOp.SentBy (foundIn (clientForEvent controller c)))) :
    LookupsOnce ClientOp.SentBy (do
      check
      let client ← UnifiServer.clientFor controller
      let _ ← UnifiServer.authorizeWriteSite caller client requested
      rest client) := by
  refine LookupsOnce.bind hcheck fun _ => lookupsOnce_clientFor fun c => ?_
  refine Fallible.Asks.bind ((asks_orFail _ _).bind fun _ => ?_) fun _ => hrest c
  exact Fallible.asks_pure _

/-- **Every tool looks clients up once at most**, and what it asks a controller is a question
of the client it found. -/
theorem lookupsOnce_handleCall (k : ServerCall) :
    LookupsOnce ClientOp.SentBy (server.handleCall kit k : ServerM Json) := by
  cases k with
  | read caller call => exact (lookupsOnce_handleRead caller call).mono fun _ _ hop => hop.1
  | changeSet call => exact lookupsOnce_handle call
  | deviceAction caller args =>
      refine lookupsOnce_checked (Fallible.asks_ofExcept _) fun c => ?_
      refine (asks_orFail _ _).bind fun _ => asks_gateDirectCommit.bind fun _ => ?_
      exact asks_onClient_through (asks_deviceAction (asksCommands_sentBy _))
  | clientAction caller args =>
      refine lookupsOnce_checked (Fallible.asks_ofExcept _) fun c => ?_
      refine (asks_orFail _ _).bind fun _ => asks_gateDirectCommit.bind fun _ => ?_
      exact asks_onClient_through (asks_clientAction (asksCommands_sentBy _))
  | backupAction caller args =>
      refine lookupsOnce_checked (Fallible.asks_ofExcept _) fun c => ?_
      exact asks_onClient_through (asks_backupAction (asksCommands_sentBy _))

/-! ## All tools as tool calls -/

/-- The tools that change nothing are what `ToolCall.other` keeps of them. -/
theorem asks_handleRead (caller : Option CallerCtx) (call : ReadCall) :
    (server.handleRead kit caller call).Asks ServerOp.SendsNoWrite := by
  refine Program.asks_of_begins fun t ht e he => ?_
  have hlookups : OneLookup ClientOp.ReadBy t := lookupsOnce_handleRead caller call t ht
  obtain ⟨op, answer⟩ := e
  cases op with
  | client controller op =>
      have hmem : clientEvent controller ⟨op, answer⟩ ∈ t := he
      obtain ⟨client, -, -, -, hquiet⟩ := hlookups.asked hmem
      exact hquiet
  | _ => trivial

/-- A call of any tool as a `ToolCall`. -/
def ServerCall.toTool (server : UnifiServer) (kit : ReadKit) : ServerCall → ToolCall
  | .read caller call => .other caller (server.handleRead kit caller call) (asks_handleRead _ _)
  | .changeSet call => .changeSet call
  | .deviceAction caller args => .deviceAction caller args
  | .clientAction caller args => .clientAction caller args
  | .backupAction caller args => .backupAction caller args

/-- **What holds of every pool of tool calls holds of the calls there are.** -/
theorem reachable_toTool {σ : Type} {step : σ → Event ServerSig → σ → Prop} {init : σ}
    {p : Pool ServerSig σ ServerCall} (h : p.Reachable (server.handleCall kit) step init) :
    Pool.Reachable server.handleTool step init
      ⟨p.world, p.calls.map (ServerCall.toTool server kit), p.log⟩ := by
  refine h.map fun k => ?_
  cases k with
  | read _ _ | changeSet _ | deviceAction _ _ | clientAction _ _ | backupAction _ _ => rfl

end UnifiMcp
