import UnifiMcp.Changeset.Bystanders
import UnifiMcp.Server.ChangeControl
import UnifiMcp.Server.Commands
import UnifiMcp.Server.ShownPlan

/-!
# What no plan addresses stays as it is

In every run of calls of all tools a write request that addresses a resource is part of an apply
call, and it is for a resource that the claimed plan addresses or for one that a create of that
plan was said to have made (`touched_resources_are_planned`); this needs nothing of the
controllers.

`unplanned_resources_stay` is the same over controllers that hold resources.  A controller may do
what it is sent or not, and may fail to say so; what is relied upon is that a create takes an id
that is not in use and that its answer names no other.  Then a resource that no stage call
addresses, and that no command bears on, is held to the end of the run as it was at its start.
-/

namespace UnifiMcp

open Interaction

variable {C : Coordinator} {server : UnifiServer} {kit : ReadKit}

/-! ## What a request is for -/

/-- An apply call was about to send a write request for this resource: it is one of the plan that
was claimed, or one that a create of the plan was said to have made, and on the site of the
controller. -/
def TouchedBy (k : ServerCall) (before : List (Event ServerSig)) (controller : String)
    (key : Key) : Prop :=
  ∃ caller args client claimed mutations preimage,
    k = .changeSet (.apply caller args) ∧ args.controller = controller ∧
    clientForEvent controller client ∈ before ∧ claimEvent args claimed ∈ before ∧
    UnifiServer.planOf claimed = .ok (mutations, preimage) ∧
    key.2.1 = client.controller.site ∧
    (Addresses mutations (key.1.name, key.2.2) ∨
      (∃ body, .create key.1.name body ∈ mutations) ∧
        CreatedIn (clientTrace before) key.1.name key.2.2)

/-- A command addresses no resource. -/
theorem not_at_command {c : UnifiClient} {command : Command} {confirms t : List (Event ClientSig)}
    {request : Request} {answer : Except HttpError Response}
    (h : SentCommand c command confirms request answer t) (key : Key) : ¬ request.At key := by
  obtain ⟨path, after, rfl, -, -⟩ := h
  intro hat
  cases congrArg List.length hat.2

/-- **What one call touches.** -/
theorem touchedBy_of_begins {k : ServerCall} {before after : List (Event ServerSig)}
    {controller : String} {request : Request} {answer : Except HttpError Response} {key : Key}
    (h : (server.handleCall kit k).Begins
      (before ++ clientEvent controller (sendEvent request answer) :: after))
    (hwrite : request.method ≠ .get) (hat : request.At key) :
    TouchedBy k before controller key := by
  have hmem : clientEvent controller (sendEvent request answer) ∈
      before ++ clientEvent controller (sendEvent request answer) :: after :=
    List.mem_append_right _ List.mem_cons_self
  by_cases happly : ∃ caller args, k = .changeSet (.apply caller args)
  · obtain ⟨caller, args, rfl⟩ := happly
    have hcontroller : controller = args.controller := client_of_begins rfl h hmem
    obtain ⟨client, status, claimed, rest, rfl, happlied⟩ := begins_apply h id
    rcases clientTrace_applyClaimed happlied with hnone |
      ⟨mutations, preimage, hplan, hwritable, hrun⟩
    · have hsent : sendEvent request answer ∈ clientTrace
          (rest ++ clientEvent controller (sendEvent request answer) :: after) :=
        mem_clientTrace (List.mem_append_right _ List.mem_cons_self)
      rw [hnone] at hsent
      cases hsent
    · have hrun : (applyOver client preimage mutations).Begins
          (clientTrace rest ++ sendEvent request answer :: clientTrace after) := by
        rw [clientTrace_append] at hrun
        exact hrun
      have hsends : request.method.isWrite = true := by
        cases hmethod : request.method with
        | get => exact absurd hmethod hwrite
        | post | put | delete => rfl
      have hsite : request.site? = some client.controller.site :=
        (asks_applyOver (fun m hm => offIntegration_of_checkWritable
          (checkWritable_of_mem hwritable hm)) preimage).of_begins hrun _
          (List.mem_append_right _ List.mem_cons_self) hsends
      have hnamed : request.site? = some key.2.1 := by
        unfold Request.site?
        rw [hat.2]
        rfl
      refine ⟨caller, args, client, claimed, mutations, preimage, rfl, hcontroller.symm, ?_, ?_,
        hplan, Option.some.inj (hnamed.symm.trans hsite), ?_⟩
      · rw [hcontroller]
        exact List.mem_append_left _ List.mem_cons_self
      · exact List.mem_append_right _ List.mem_cons_self
      · rw [clientTrace_append]
        exact touched_of_begins hrun hsends hat
  · obtain ⟨command, client, confirms, -, -, -, -, -, -, hcommand⟩ :=
      commanded_of_begins h (fun caller args heq => happly ⟨caller, args, heq⟩) hmem hwrite
    exact absurd hat (not_at_command hcommand key)

/-- **What is touched is planned**, in every run of any calls and whatever is answered. -/
theorem touched_resources_are_planned {σ : Type} {step : σ → Event ServerSig → σ → Prop}
    {init : σ} {p : Pool ServerSig σ ServerCall}
    (h : p.Reachable (server.handleCall kit) step init)
    {before after : List (Nat × Event ServerSig)} {i : Nat} {controller : String}
    {request : Request} {answer : Except HttpError Response} {key : Key}
    (hsplit : p.log = before ++ (i, clientEvent controller (sendEvent request answer)) :: after)
    (hwrite : request.method ≠ .get) (hat : request.At key) :
    ∃ k, p.calls[i]? = some k ∧ TouchedBy k (ownEvents before i) controller key := by
  have hmem : (i, clientEvent controller (sendEvent request answer)) ∈ p.log := by
    rw [hsplit]
    exact List.mem_append_right _ List.mem_cons_self
  obtain ⟨k, hk⟩ := h.started hmem
  have hbegins := h.begins hk
  rw [hsplit, ownEvents_append, ownEvents_cons_self] at hbegins
  exact ⟨k, hk, touchedBy_of_begins hbegins hwrite hat⟩

/-! ## Controllers that hold resources -/

/-- The resources of one controller. -/
abbrev HeldByKey : Type := Key → Option Json

/-- What a controller may do with a request, and answer.  It need not do what it is sent, whatever
it answers, and it need not answer what it has done; but a create that is answered with an id has
taken that id, which was not in use on any site.  A command may change what commands bear on. -/
inductive Handled (bears : Key → Prop) (held : HeldByKey) (request : Request)
    (answer : Except HttpError Response) : HeldByKey → Prop where
  | ignored (unnamed : ∀ kind id, ¬ CreatedIn [sendEvent request answer] kind id) :
      Handled bears held request answer held
  | put (key : Key) (v : Json) (method : request.method = .put) (address : request.At key) :
      Handled bears held request answer (Function.update held key (some v))
  | delete (key : Key) (method : request.method = .delete) (address : request.At key) :
      Handled bears held request answer (Function.update held key none)
  | created (k : ResourceKind) (site id : String) (v : Json)
      (template : request.template = k.pathTemplate)
      (unused : ∀ site', held (k, site', id) = none)
      (named : ∀ id', CreatedIn [sendEvent request answer] k.name id' → id' = id) :
      Handled bears held request answer (Function.update held (k, site, id) (some v))
  | command (held' : HeldByKey) (template : ∀ k : ResourceKind, request.template ≠ k.pathTemplate)
      (others : ∀ key, ¬ bears key → held' key = held key) :
      Handled bears held request answer held'

/-- One question of a handler, with the controllers before and after.  Several names of the
inventory may reach one controller. -/
def HoldingStep {ι : Type} [DecidableEq ι] (reaches : String → ι) (bears : Key → Prop)
    (w : ι → HeldByKey) (e : Event ServerSig) (w' : ι → HeldByKey) : Prop :=
  match e with
  | ⟨.client controller (.send request), answer⟩ =>
      ∃ held', Handled bears (w (reaches controller)) request answer held' ∧
        w' = Function.update w (reaches controller) held'
  | _ => w' = w

section Handled

variable {bears : Key → Prop} {held held' : HeldByKey} {request : Request}
  {answer : Except HttpError Response} {key : Key} {v : Json}

/-- What is created has an id that was not in use. -/
theorem Handled.not_createdIn (h : Handled bears held request answer held')
    (hheld : held key = some v) :
    ¬ CreatedIn [sendEvent request answer] key.1.name key.2.2 := by
  rintro hcreated
  obtain ⟨k', request', response, raw, hname, hmem, hpost, htemplate, -⟩ := id hcreated
  obtain rfl := ResourceKind.name_injective hname
  cases List.mem_singleton.1 hmem
  cases h with
  | ignored unnamed => exact unnamed _ _ hcreated
  | put key' v' method _ => cases hpost.symm.trans method
  | delete key' method _ => cases hpost.symm.trans method
  | created k site id v' template unused named =>
      obtain rfl : key.1 = k := ResourceKind.pathTemplate_injective (htemplate.symm.trans template)
      have hnone := unused key.2.1
      rw [← named _ hcreated, hheld] at hnone
      cases hnone
  | command held' template _ => exact template _ htemplate

/-- **What is held under a key changes only by a write request for it.** -/
theorem Handled.stays (h : Handled bears held request answer held') (hheld : held key = some v)
    (hbears : ¬ bears key) (hspared : request.method ≠ .get → ¬ request.At key) :
    held' key = some v := by
  cases h with
  | ignored _ => exact hheld
  | put key' v' method address =>
      have hne : key ≠ key' := by
        rintro rfl
        exact hspared (by rw [method]; nofun) address
      rw [Function.update_of_ne hne, hheld]
  | delete key' method address =>
      have hne : key ≠ key' := by
        rintro rfl
        exact hspared (by rw [method]; nofun) address
      rw [Function.update_of_ne hne, hheld]
  | created k site id v' _ unused _ =>
      have hne : key ≠ (k, site, id) := by
        rintro rfl
        rw [unused site] at hheld
        cases hheld
      rw [Function.update_of_ne hne, hheld]
  | command held' _ others => rw [others key hbears, hheld]

end Handled

/-! ## Plans that were staged -/

/-- A stage call was given the plan of a change set, for its controller. -/
def PlannedBy (calls : List ServerCall) (r : ChangeSetRecord) : Prop :=
  ∃ stager mutations preimage, .changeSet (.stage stager ⟨r.device, r.id, mutations⟩) ∈ calls ∧
    r.actions = (actionsFor mutations preimage).map StagedAction.toJson

/-- What is stored, and what was claimed, was staged. -/
structure PlansStaged (p : ServerPool C) : Prop where
  stored : ∀ {id r}, C.record p.world.store id = some r → PlannedBy p.calls r
  claimed : ∀ {i id device r},
    (i, coordinatorEvent (.claimChangeSetForApply id device) (.ok r)) ∈ p.log →
      r.device = device ∧ PlannedBy p.calls r

section Staged

variable {init : ServerWorld C} {p : ServerPool C}

theorem PlannedBy.samePlan {calls : List ServerCall} {r r' : ChangeSetRecord}
    (h : PlannedBy calls r) (hsame : SamePlan r r') : PlannedBy calls r' := by
  unfold PlannedBy at h ⊢
  rw [hsame.device, hsame.id, hsame.actions]
  exact h

theorem PlannedBy.later {calls : List ServerCall} {r : ChangeSetRecord} (h : PlannedBy calls r)
    (k : ServerCall) : PlannedBy (calls ++ [k]) r := by
  obtain ⟨stager, mutations, preimage, hmem, hactions⟩ := h
  exact ⟨stager, mutations, preimage, List.mem_append_left _ hmem, hactions⟩

/-- **One question keeps to it.** -/
theorem PlansStaged.turn (hp : PlansStaged p) {i : Nat} {k : ServerCall} {e : Event ServerSig}
    {world : ServerWorld C} (call : p.calls[i]? = some k)
    (begun : (server.handleCall kit k).Begins (ownEvents p.log i ++ [e]))
    (answered : ServerStep C p.world e world) :
    PlansStaged (⟨world, p.calls, p.log ++ [(i, e)]⟩ : ServerPool C) := by
  have hstored : ∀ {id r}, C.record world.store id = some r → PlannedBy p.calls r := by
    intro id r hr
    rcases record_before answered hr with ⟨-, -, rfl⟩ | ⟨r₀, hr₀, hsame, -⟩
    · obtain ⟨stager, mutations, d, now, preimage, rfl, -, -, hplan⟩ :=
        stage_of_begins begun (List.mem_append_right _ (List.mem_singleton.2 rfl))
      obtain ⟨-, -, -, -, hactions, -⟩ := withPlan_ok hplan
      exact ⟨stager, mutations, preimage, List.mem_of_getElem? call, hactions⟩
    · exact (hp.stored hr₀).samePlan hsame
  refine ⟨hstored, ?_⟩
  intro j id device r hmem
  rcases mem_log_append hmem with hold | ⟨-, rfl⟩
  · exact hp.claimed hold
  · obtain ⟨-, -, -, hr, -, hdevice⟩ := C.claimed answered.1
    exact ⟨hdevice, hstored hr⟩

/-- **Every plan was staged**, in every order of the calls of all tools. -/
theorem PlansStaged.of_reachable (hinit : init.Fresh)
    (h : p.Reachable (server.handleCall kit) (ServerStep C) init) : PlansStaged p := by
  induction h with
  | init =>
      refine ⟨fun {id r} hr => ?_, fun hmem => ?_⟩
      · rw [hinit.1 id] at hr
        cases hr
      · cases hmem
  | start k _ ih =>
      exact ⟨fun hr => (ih.stored hr).later k,
        fun hmem => ⟨(ih.claimed hmem).1, (ih.claimed hmem).2.later k⟩⟩
  | turn _ call begun answered ih => exact ih.turn call begun answered

end Staged

/-! ## The frame -/

section Frame

variable {ι : Type} {reaches : String → ι} {bears : Key → Prop}

/-- Calls that run over controllers that hold resources. -/
abbrev NetworkedPool (C : Coordinator) (ι : Type) : Type :=
  Pool ServerSig (ServerWorld C × (ι → HeldByKey)) ServerCall

/-- No stage call for this controller addresses the resource. -/
def Unplanned (reaches : String → ι) (calls : List ServerCall) (x : ι) (key : Key) : Prop :=
  ∀ caller args, .changeSet (.stage caller args) ∈ calls → reaches args.controller = x →
    ¬ Addresses args.mutations (key.1.name, key.2.2)

/-- The resource is held as it was, and no create was answered with the id of it. -/
structure LeftAlone (reaches : String → ι) (p : NetworkedPool C ι) (x : ι) (key : Key)
    (v : Json) : Prop where
  held : p.world.2 x key = some v
  unnamed : ∀ {i controller e}, (i, clientEvent controller e) ∈ p.log → reaches controller = x →
    ¬ CreatedIn [e] key.1.name key.2.2

variable {p : NetworkedPool C ι} {x : ι} {key : Key} {v : Json}

/-- A call that is about to ask something does not touch the resource. -/
theorem spared_of_begins (hstaged : PlansStaged (⟨p.world.1, p.calls, p.log⟩ : ServerPool C))
    (hp : LeftAlone reaches p x key v) (hplans : Unplanned reaches p.calls x key) {i : Nat}
    {k : ServerCall} {controller : String} (hreaches : reaches controller = x) {request : Request}
    {answer : Except HttpError Response}
    (begun : (server.handleCall kit k).Begins
      (ownEvents p.log i ++ [clientEvent controller (sendEvent request answer)]))
    (hwrite : request.method ≠ .get) : ¬ request.At key := by
  intro hat
  obtain ⟨caller, args, client, claimed, mutations, preimage, rfl, rfl, -, hclaim, hplan, -,
    haddressed | ⟨-, hcreated⟩⟩ := touchedBy_of_begins begun hwrite hat
  · obtain ⟨hdevice, stager, mutations', preimage', hstage, hactions⟩ :=
      hstaged.claimed (mem_ownEvents.1 hclaim)
    rw [hdevice, mutations_of_planOf hactions hplan] at hstage
    exact hplans _ _ hstage hreaches haddressed
  · -- What the call was told before, it was told by the same controller.
    obtain ⟨e, he, hnamed⟩ := createdIn_iff_exists.1 hcreated
    rw [← sentTrace_map_snd] at he
    obtain ⟨⟨controller', e⟩, hsent, rfl⟩ := List.mem_map.1 he
    have hmem : clientEvent controller' e ∈ ownEvents p.log i := mem_sentTrace.1 hsent
    have hcontroller : controller' = args.controller := client_of_begins rfl begun.of_append hmem
    exact hp.unnamed (mem_ownEvents.1 hmem) (hcontroller ▸ hreaches) hnamed

/-- What a longer log says of the id is what its last entry says. -/
theorem LeftAlone.unnamed_concat (hp : LeftAlone reaches p x key v) {i : Nat}
    {e : Event ServerSig}
    (hlast : ∀ {controller e'}, clientEvent controller e' = e → reaches controller = x →
      ¬ CreatedIn [e'] key.1.name key.2.2) {j : Nat} {controller : String} {e' : Event ClientSig}
    (hmem : (j, clientEvent controller e') ∈ p.log ++ [(i, e)])
    (hreaches : reaches controller = x) : ¬ CreatedIn [e'] key.1.name key.2.2 := by
  rcases mem_log_append hmem with hold | ⟨-, heq⟩
  · exact hp.unnamed hold hreaches
  · exact hlast heq hreaches

variable [DecidableEq ι]

/-- One question of a handler, with the server and the controllers before and after. -/
def NetworkedStep (C : Coordinator) (reaches : String → ι) (bears : Key → Prop)
    (w : ServerWorld C × (ι → HeldByKey)) (e : Event ServerSig)
    (w' : ServerWorld C × (ι → HeldByKey)) : Prop :=
  ServerStep C w.1 e w'.1 ∧ HoldingStep reaches bears w.2 e w'.2

/-- **One question leaves the resource as it is.** -/
theorem LeftAlone.turn
    (hstaged : PlansStaged (⟨p.world.1, p.calls, p.log⟩ : ServerPool C))
    (hp : LeftAlone reaches p x key v) (hplans : Unplanned reaches p.calls x key)
    (hbears : ¬ bears key) {i : Nat} {k : ServerCall} {e : Event ServerSig}
    {world : ServerWorld C × (ι → HeldByKey)}
    (begun : (server.handleCall kit k).Begins (ownEvents p.log i ++ [e]))
    (answered : NetworkedStep C reaches bears p.world e world) :
    LeftAlone reaches (⟨world, p.calls, p.log ++ [(i, e)]⟩ : NetworkedPool C ι) x key v := by
  by_cases hsend : ∃ controller request answer,
      e = clientEvent controller (sendEvent request answer)
  · obtain ⟨controller, request, answer, rfl⟩ := hsend
    obtain ⟨held', hhandled, hworld⟩ := answered.2
    by_cases hreaches : reaches controller = x
    · subst hreaches
      refine ⟨?_, hp.unnamed_concat fun {controller' e'} heq _ => ?_⟩
      · rw [hworld, Function.update_self]
        exact hhandled.stays hp.held hbears (spared_of_begins hstaged hp hplans rfl begun)
      · obtain ⟨op, answer'⟩ := e'
        cases heq
        exact hhandled.not_createdIn hp.held
    · refine ⟨?_, hp.unnamed_concat fun {controller' e'} heq hsame => ?_⟩
      · rw [hworld, Function.update_of_ne (Ne.symm hreaches)]
        exact hp.held
      · obtain ⟨op, answer'⟩ := e'
        cases heq
        exact absurd hsame hreaches
  · have hworld : world.2 = p.world.2 := by
      obtain ⟨op, answer⟩ := e
      cases op with
      | client controller op =>
          cases op with
          | send request => exact absurd ⟨controller, request, answer, rfl⟩ hsend
          | _ => exact answered.2
      | _ => exact answered.2
    refine ⟨by rw [hworld]; exact hp.held, hp.unnamed_concat fun {controller' e'} heq _ => ?_⟩
    rintro ⟨-, request, response, -, -, hcreate, -⟩
    rw [← List.mem_singleton.1 hcreate] at heq
    exact hsend ⟨controller', request, _, heq.symm⟩

/-- **What no plan addresses stays as it is**, in every order of the calls of all tools and over
controllers that carry out what they are sent or not, and say so or not.  A resource that a
controller holds, that no stage call for this controller addresses and that no command bears on is
held at the end as it was at the start, whatever was created, rolled back or commanded there. -/
theorem unplanned_resources_stay {init : ServerWorld C} {networks : ι → HeldByKey}
    (hinit : init.Fresh)
    (h : p.Reachable (server.handleCall kit) (NetworkedStep C reaches bears) (init, networks))
    (hheld : networks x key = some v) (hbears : ¬ bears key)
    (hplans : Unplanned reaches p.calls x key) : p.world.2 x key = some v := by
  suffices hp : LeftAlone reaches p x key v from hp.held
  induction h with
  | init => exact ⟨hheld, fun hmem => by cases hmem⟩
  | start k _ ih =>
      have hp := ih fun caller args hmem => hplans caller args (List.mem_append_left _ hmem)
      exact ⟨hp.held, hp.unnamed⟩
  | turn h _ begun answered ih =>
      have hstaged := PlansStaged.of_reachable hinit (h.simulate fun hstep => hstep.1)
      exact (ih hplans).turn hstaged hplans hbears begun answered

end Frame

/-! ## A policy that is deleted beside another -/

/-- The policy `p1` is staged to be deleted, and that is reviewed and applied. -/
def deletingCalls : List ServerCall :=
  [.changeSet (.create (humanWith "alice" "unifi_create_change_set" none) ⟨"main", "drop it"⟩),
    .changeSet (.stage (humanWith "alice" "unifi_stage_change" none)
      ⟨"main", "cs-1", [.delete "firewall_policy" "p1"]⟩),
    .changeSet (.approve (humanWith "bob" "unifi_approve_change_set" none)
      ⟨"main", "cs-1", none⟩),
    .changeSet (.apply (humanWith "alice" "unifi_apply_change_set" none) ⟨"main", "cs-1"⟩)]

/-- The pool after these calls. -/
def deletingPool : ServerPool MemoryStore.coordinator :=
  deletingCalls.foldl
    (runCall (plainServer.handleCall .plain) (oneController policyClient createReply))
    ⟨emptyWorld, [], []⟩

theorem deletingPool_reachable : deletingPool.Reachable (plainServer.handleCall .plain)
    (ServerStep MemoryStore.coordinator) emptyWorld := by
  refine reachable_runCalls .init _ ?_
  decide +kernel

/-- The one write of these calls. -/
def deleteRequest : Request :=
  policyClient.requestOf .delete ResourceKind.firewallPolicy.singleResourceTemplate
    [("site", "default"), ("id", "p1")] [] none
    "/proxy/network/v2/api/site/default/firewall-policies"

set_option maxRecDepth 20000 in
theorem deletingPool_splits : deletingPool.log = deletingPool.log.take 24 ++
    (3, clientEvent "main" (sendEvent deleteRequest (.ok policyWrite.2))) ::
      deletingPool.log.drop 25 := rfl

/-- The policy that is deleted there is one of the plan that was claimed. -/
theorem touched_resources_are_planned_deleted : ∃ k, deletingPool.calls[3]? = some k ∧
    TouchedBy k (ownEvents (deletingPool.log.take 24) 3) "main"
      (.firewallPolicy, "default", "p1") :=
  touched_resources_are_planned deletingPool_reachable deletingPool_splits nofun ⟨rfl, rfl⟩

/-- Whether a question is no write request. -/
def ServerOp.writesNothing : ServerOp → Bool
  | .client _ (.send request) => !request.method.isWrite
  | _ => true

/-- Questions that are no write requests leave the controllers as they are. -/
theorem path_of_writesNothing {ι : Type} [DecidableEq ι] {reaches : String → ι}
    {bears : Key → Prop} (w : ι → HeldByKey) {t : List (Nat × Event ServerSig)}
    (h : t.all (fun e => e.2.op.writesNothing) = true) :
    Path (HoldingStep reaches bears) w (t.map Prod.snd) w := by
  induction t with
  | nil => exact .nil
  | cons e t ih =>
      obtain ⟨hfirst, hrest⟩ := Bool.and_eq_true_iff.1 h
      refine .cons ?_ (ih hrest)
      obtain ⟨i, op, answer⟩ := e
      cases op with
      | client controller op =>
          cases op with
          | send request =>
              have hnot : (!request.method.isWrite) = true := hfirst
              have hread : request.method.isWrite = false := by simpa using hnot
              refine ⟨_, .ignored fun kind id => not_createdIn fun e he => ?_,
                (Function.update_eq_self _ _).symm⟩
              rw [List.mem_singleton.1 he]
              intro hpost
              rw [show request.method = .post from hpost] at hread
              cases hread
          | _ => rfl
      | _ => rfl

/-- A controller that holds two policies. -/
def twoPolicies : HeldByKey := fun key =>
  if key.1 = .firewallPolicy ∧ (key.2.2 = "p1" ∨ key.2.2 = "p2") then some createdPolicy else none

/-- The calls, over that controller. -/
def networkedPool : NetworkedPool MemoryStore.coordinator Unit :=
  ⟨(deletingPool.world, fun _ =>
    Function.update twoPolicies (.firewallPolicy, "default", "p1") none),
    deletingPool.calls, deletingPool.log⟩

theorem networkedPool_reachable : networkedPool.Reachable (plainServer.handleCall .plain)
    (NetworkedStep MemoryStore.coordinator (fun _ => ()) fun _ => False)
    (emptyWorld, fun _ => twoPolicies) := by
  refine deletingPool_reachable.beside ?_
  rw [deletingPool_splits, List.map_append, List.map_cons]
  refine path_append.2 ⟨_, path_of_writesNothing _ (by decide +kernel), .cons ?_
    (path_of_writesNothing _ (by decide +kernel))⟩
  exact ⟨_, .delete (.firewallPolicy, "default", "p1") rfl ⟨rfl, rfl⟩, funext fun _ => rfl⟩

/-- One policy is deleted there, and the other stays. -/
theorem unplanned_resources_stay_deleted :
    networkedPool.world.2 () (.firewallPolicy, "default", "p1") = none ∧
      networkedPool.world.2 () (.firewallPolicy, "default", "p2") = some createdPolicy := by
  refine ⟨rfl, ?_⟩
  refine unplanned_resources_stay emptyWorld_fresh networkedPool_reachable rfl (fun h => h) ?_
  intro caller args hmem _
  have hcalls : .changeSet (.stage caller args) ∈ deletingCalls := hmem
  simp only [deletingCalls, List.mem_cons, List.not_mem_nil, or_false, reduceCtorEq,
    ServerCall.changeSet.injEq, ChangeSetCall.stage.injEq, false_or] at hcalls
  rw [hcalls.2]
  decide

end UnifiMcp
