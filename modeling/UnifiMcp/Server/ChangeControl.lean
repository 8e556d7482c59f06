import UnifiMcp.Interaction.ChangeControl
import UnifiMcp.Server.Authority

/-!
# The change-set tools carry out change control

The four change-set tools, over any coordinator and run side by side in any order, do what
`ChangeControl` says and nothing else: `refines_changeControl` finds for every pool of calls that
can be reached a history of change control in which each step is explained by the entry of the
log at its place (`Explains`), and in which the changes come out as the coordinator has them
(`ShowsChange`).  Lab mode is where an owner may waive the approval.  A change set that is stored
under the state `applying` after a claim that was answered with an error counts as lapsed: nobody
will carry it out.

`writes_are_sanctioned` reads what change control says back off the log.
-/

namespace UnifiMcp

open Interaction Collections ChangeControl

variable {C : Coordinator} {server : UnifiServer}

/-! ## What the levels have to do with each other -/

/-- A plan as it is stored. -/
structure FiledPlan where
  device : String
  actions : List Json
  digest : String

/-- The plan of a stored change set. -/
def ChangeSetRecord.filed (r : ChangeSetRecord) : FiledPlan := ⟨r.device, r.actions, r.digest⟩

theorem SamePlan.filed {r r' : ChangeSetRecord} (h : SamePlan r r') : r'.filed = r.filed := by
  unfold ChangeSetRecord.filed
  rw [h.device, h.actions, h.digest]

/-- A question for the client of a controller. -/
abbrev ClientQuestion : Type := String × Event ClientSig

/-- What a call has asked controllers, in order. -/
def sentTrace (t : List (Event ServerSig)) : List ClientQuestion :=
  t.filterMap fun
    | ⟨.client controller op, answer⟩ => some (controller, ⟨op, answer⟩)
    | _ => none

/-- Carrying out a plan begins with these questions, all for the controller of the plan. -/
def FiledPlan.Carries (server : UnifiServer) (plan : FiledPlan) (sent : List ClientQuestion) :
    Prop :=
  (∀ q ∈ sent, q.1 = plan.device) ∧ ∃ client mutations preimage,
    mutationsOf plan.actions = .ok mutations ∧ preimageOf plan.actions = .ok preimage ∧
    checkWritableFields server.mecmcp.number mutations = .ok () ∧
    (applyOver client preimage mutations).Begins (sent.map Prod.snd)

/-- A change set as change control knows it. -/
abbrev FiledChange : Type := ChangeControl.Change String FiledPlan ClientQuestion

/-- A step of change control over change sets. -/
abbrev FiledLabel : Type := Label String String FiledPlan ClientQuestion

/-- The state of a stored change set, and how far it has come. -/
inductive ShowsPhase : ChangeSetState → Phase → Prop where
  | planned : ShowsPhase .planned .planned
  | approved : ShowsPhase .approved .approved
  | applying : ShowsPhase .applying .applying
  | lapsed {state : ChangeSetState} (notPlanned : state ≠ .planned)
      (notApproved : state ≠ .approved) : ShowsPhase state .lapsed
  | settled {state : ChangeSetState} (notPlanned : state ≠ .planned)
      (notApproved : state ≠ .approved) : ShowsPhase state .settled

/-- A stored change set shows how far it has come. -/
structure ShowsChange (id : String) (r : ChangeSetRecord) (c : FiledChange) : Prop where
  id : r.id = id
  owner : c.owner = r.owner
  plan : c.plan = r.filed
  phase : ShowsPhase r.state c.phase

/-- The stored change sets are those that change control knows. -/
inductive ShownAs (id : String) : Option ChangeSetRecord → Option FiledChange → Prop where
  | none : ShownAs id none none
  | some {r : ChangeSetRecord} {c : FiledChange} (shows : ShowsChange id r c) :
      ShownAs id (some r) (some c)

/-- Anything but an apply call. -/
def ChangeSetCall.NotApply (k : ChangeSetCall) : Prop := ∀ caller args, k ≠ .apply caller args

/-- A question that is no step of change control: it stores and claims nothing, and what it asks
a controller is not part of an apply and changes nothing. -/
structure Uneventful (calls : List ChangeSetCall) (i : Nat) (e : Event ServerSig) : Prop where
  notStored : ∀ r, e ≠ insertEvent r
  notClaimed : ∀ id device r,
    e ≠ coordinatorEvent (.claimChangeSetForApply id device) (.ok r)
  quiet : ∀ controller e', e = clientEvent controller e' →
    ClientOp.Quiet e'.op ∧ ∃ k, calls[i]? = some k ∧ k.NotApply

/-- What a question of a call is to change control. -/
inductive Explains (calls : List ChangeSetCall) : Nat × Event ServerSig → FiledLabel → Prop where
  | staged (i : Nat) (r : ChangeSetRecord) :
      Explains calls (i, insertEvent r) (.act i r.id (.stage r.owner r.filed))
  | approved (i : Nat) (id approver : String) (plan : FiledPlan)
      (answer : Except CoordinatorError ApprovalOutcome) :
      Explains calls (i, coordinatorEvent
        (.approveChangeSet id plan.device approver plan.digest .human) answer)
        (.act i id (.approve approver plan))
  | waived (i : Nat) (id owner : String) (plan : FiledPlan)
      (answer : Except CoordinatorError ApprovalOutcome) :
      Explains calls (i, coordinatorEvent (.waiveApproval id plan.device owner plan.digest) answer)
        (.act i id (.waive owner plan))
  | claimed (i : Nat) (id device : String) (r : ChangeSetRecord) :
      Explains calls (i, coordinatorEvent (.claimChangeSetForApply id device) (.ok r))
        (.act i id .claim)
  | sent (i : Nat) (caller : Option CallerCtx) (args : ApplyChangeSetArgs) (controller : String)
      (e : Event ClientSig) (call : calls[i]? = some (.apply caller args)) :
      Explains calls (i, clientEvent controller e) (.act i args.changeSetId (.send (controller, e)))
  | settled (i : Nat) (record : ChangeSetRecord) (answer : Except CoordinatorError Unit) :
      Explains calls (i, coordinatorEvent (.updateChangeSet record) answer)
        (.act i record.id .settle)
  | idle (i : Nat) (e : Event ServerSig) (uneventful : Uneventful calls i e) :
      Explains calls (i, e) .idle

/-- The changes come out as the coordinator has them, and a call that was granted a claim has
sent for its change what it has asked controllers. -/
structure Refines (p : CallPool C) (s : String → Option FiledChange) : Prop where
  shown : ∀ id, ShownAs id (C.record p.world.store id) (s id)
  claims : ∀ i id device r,
    (i, coordinatorEvent (.claimChangeSetForApply id device) (.ok r)) ∈ p.log →
      ∃ c, s id = some c ∧ r.id = id ∧ r.device = device ∧ c.plan = r.filed ∧
        c.claimant = some i ∧ c.sent = sentTrace (ownEvents p.log i)

/-! ## What a call sends -/

theorem sentTrace_append (t₁ t₂ : List (Event ServerSig)) :
    sentTrace (t₁ ++ t₂) = sentTrace t₁ ++ sentTrace t₂ :=
  List.filterMap_append

theorem sentTrace_concat_client (t : List (Event ServerSig)) (controller : String)
    (e : Event ClientSig) :
    sentTrace (t ++ [clientEvent controller e]) = sentTrace t ++ [(controller, e)] :=
  sentTrace_append t _

/-- A question that is for no controller. -/
theorem sentTrace_concat {e : Event ServerSig} (h : ServerOp.NotClient e.op)
    (t : List (Event ServerSig)) : sentTrace (t ++ [e]) = sentTrace t := by
  have hnone : sentTrace [e] = [] := by
    obtain ⟨op, answer⟩ := e
    cases op with
    | client controller op => exact h.elim
    | _ => rfl
  rw [sentTrace_append, hnone, List.append_nil]

theorem mem_sentTrace {t : List (Event ServerSig)} {q : ClientQuestion} :
    q ∈ sentTrace t ↔ clientEvent q.1 q.2 ∈ t := by
  unfold sentTrace
  rw [List.mem_filterMap]
  constructor
  · rintro ⟨⟨op, answer⟩, hmem, hq⟩
    cases op with
    | client controller op =>
        cases hq
        exact hmem
    | _ => cases hq
  · intro hmem
    exact ⟨_, hmem, rfl⟩

theorem sentTrace_map_snd (t : List (Event ServerSig)) :
    (sentTrace t).map Prod.snd = clientTrace t := by
  induction t with
  | nil => rfl
  | cons e t ih =>
      obtain ⟨op, answer⟩ := e
      cases op with
      | client controller op => exact congrArg _ ih
      | _ => exact ih

theorem planOf_eq_ok {r : ChangeSetRecord} {mutations : List StagedMutation} {preimage : Preimage}
    (h : UnifiServer.planOf r = .ok (mutations, preimage)) :
    mutationsOf r.actions = .ok mutations ∧ preimageOf r.actions = .ok preimage := by
  unfold UnifiServer.planOf at h
  cases hmutations : mutationsOf r.actions with
  | error e => rw [hmutations] at h; cases h
  | ok mutations' =>
      cases hpreimage : preimageOf r.actions with
      | error e => rw [hmutations, hpreimage] at h; cases h
      | ok preimage' =>
          rw [hmutations, hpreimage] at h
          obtain ⟨rfl, rfl⟩ := Prod.mk.inj (Except.ok.inj h)
          exact ⟨rfl, rfl⟩

/-! ## Waivers -/

/-- Anything but a waiver. -/
def ServerOp.NotWaive : ServerOp → Prop
  | .coordinator (.waiveApproval _ _ _ _) => False
  | _ => True

/-- The waivers of an owner, of the plan of one record, in lab mode. -/
def ServerOp.WaivesOnly (server : UnifiServer) (args : ApproveChangeSetArgs)
    (record : ChangeSetRecord) : ServerOp → Prop
  | .coordinator (.waiveApproval id _ owner digest) =>
      id = args.changeSetId ∧ owner = record.owner ∧ digest = record.digest ∧
        server.labMode = true
  | _ => True

theorem asks_decideApproval_waives {caller : Option CallerCtx} {args : ApproveChangeSetArgs}
    {record : ChangeSetRecord} : (server.decideApproval caller args record).Asks
      (ServerOp.WaivesOnly server args record) := by
  refine asks_withPlanLock ?_ trivial trivial
  dsimp only
  split_ifs with howner hoff
  · exact Fallible.asks_throw _
  · refine (asks_coordinator ?_).bind fun _ => asks_orFail _ _
    exact ⟨rfl, howner, rfl, by simpa using hoff⟩
  · exact (asks_coordinator trivial).bind fun _ => asks_orFail _ _

/-- **What is behind a waiver**: a record that was read before, of that owner and with that
digest, in lab mode. -/
theorem waive_of_begins {k : ChangeSetCall} {t : List (Event ServerSig)}
    (h : (server.handle k).Begins t) {id device owner digest : String}
    {answer : Except CoordinatorError ApprovalOutcome}
    (hmem : coordinatorEvent (.waiveApproval id device owner digest) answer ∈ t) :
    server.labMode = true ∧ ∃ device record,
      coordinatorEvent (.changeSet id device) (.ok record) ∈ t ∧ owner = record.owner ∧
        digest = record.digest := by
  obtain ⟨⟨caller, args, rfl⟩, -⟩ := decision_of_begins h hmem (.waived _ _ _ _ _)
  obtain ⟨record, t', hread, hdecide, hmem'⟩ :=
    decided_of_begins (P := ServerOp.NotWaive) h trivial hmem fun h => h
  obtain ⟨rfl, howner, hdigest, hlab⟩ := asks_decideApproval_waives.of_begins hdecide _ hmem'
  exact ⟨hlab, args.controller, record, hread, howner, hdigest⟩

/-! ## One question for the coordinator -/

/-- What a question for the coordinator does to one change. -/
inductive Next (server : UnifiServer) (calls : List ChangeSetCall) (i : Nat)
    (e : Event ServerSig) (id : String) (c c' : Option FiledChange) : Prop where
  | lapses (lapses : Lapses c c') (notStored : ∀ r, e = insertEvent r → r.id ≠ id)
      (notClaimed : ∀ device r,
        e ≠ coordinatorEvent (.claimChangeSetForApply id device) (.ok r))
  | does (act : Act String FiledPlan ClientQuestion)
      (does : Does (server.labMode = true) (FiledPlan.Carries server) i act c c')
      (explains : Explains calls (i, e) (.act i id act))

theorem ShowsPhase.planned_of {phase : Phase} (h : ShowsPhase .planned phase) :
    phase = .planned := by
  cases h with
  | planned => rfl
  | lapsed notPlanned _ | settled notPlanned _ => exact absurd rfl notPlanned

theorem ShowsPhase.approved_of {phase : Phase} (h : ShowsPhase .approved phase) :
    phase = .approved := by
  cases h with
  | approved => rfl
  | lapsed _ notApproved | settled _ notApproved => exact absurd rfl notApproved

theorem ShowsChange.samePlan {id : String} {r r' : ChangeSetRecord} {c : FiledChange}
    (h : ShowsChange id r c) (hsame : SamePlan r r') {phase : Phase} {claimant : Option Nat}
    (hphase : ShowsPhase r'.state phase) :
    ShowsChange id r' { c with phase := phase, claimant := claimant } where
  id := hsame.id.trans h.id
  owner := h.owner.trans hsame.owner.symm
  plan := h.plan.trans hsame.filed.symm
  phase := hphase

/-- What settles a change records its state. -/
theorem Explains.of_settle {calls : List ChangeSetCall} {x : Nat × Event ServerSig} {i : Nat}
    {id : String} (h : Explains calls x (.act i id .settle)) :
    ∃ record answer, x = (i, coordinatorEvent (.updateChangeSet record) answer) := by
  cases h with
  | settled _ record answer => exact ⟨record, answer, rfl⟩

/-- Change sets are stored as planned. -/
theorem planned_of_insert {k : ChangeSetCall} {t : List (Event ServerSig)}
    (h : (server.handle k).Begins t) {r : ChangeSetRecord} (hmem : insertEvent r ∈ t) :
    r.state = .planned := by
  obtain ⟨caller, args, rfl⟩ := (asks_handle k).of_begins h _ hmem
  obtain ⟨draft, now, preimage, -, -, hplan⟩ := insert_of_begins h hmem
  exact (withPlan_ok hplan).2.2.2.1

section Turn

variable {init : ServerWorld C} {p : CallPool C} {labels : List FiledLabel}
  {s : String → Option FiledChange} {i : Nat} {k : ChangeSetCall} {world : ServerWorld C}
  {op : CoordinatorOp} {a : op.Answer} {id : String}

/-- A change set that is not stored. -/
theorem next_of_absent (begun : (server.handle k).Begins (ownEvents p.log i ++
      [coordinatorEvent op a])) (answered : ServerStep C p.world (coordinatorEvent op a) world)
    (hr : C.record p.world.store id = none) :
    ∃ c', ShownAs id (C.record world.store id) c' ∧
      Next server p.calls i (coordinatorEvent op a) id none c' := by
  cases hr' : C.record world.store id with
  | none =>
      refine ⟨none, .none, .lapses (.stays none) ?_ ?_⟩
      · rintro r heq rfl
        cases heq
        rw [(C.inserted answered.1).2] at hr'
        cases hr'
      · intro device r heq
        cases heq
        obtain ⟨r₀, hr₀, -⟩ := C.claimed answered.1
        rw [hr₀] at hr
        cases hr
  | some r =>
      obtain ⟨hop, rfl⟩ := C.added answered.1 hr hr'
      cases hop
      have hplanned : r.state = .planned := planned_of_insert begun (by simp [insertEvent])
      refine ⟨some ⟨r.owner, r.filed, .planned, none, []⟩, .some ⟨rfl, rfl, rfl, ?_⟩, ?_⟩
      · rw [hplanned]
        exact .planned
      · exact .does _ (.stage r.owner r.filed) (.staged i r)

/-- A call that goes on has not settled the change it has claimed. -/
theorem unsettled_of_mine (hrun : Run (server.labMode = true) (FiledPlan.Carries server) labels s)
    (hlog : List.Forall₂ (Explains p.calls) p.log labels) {e : Event ServerSig}
    (begun : (server.handle k).Begins (ownEvents p.log i ++ [e])) {c : FiledChange}
    (hc : s id = some c) (hmine : c.claimant = some i) : c.Unsettled := by
  have hsanctioned := (accounted_of_run hrun).sanctioned _ c hc
  cases hphase : c.phase with
  | applying => exact .inl hphase
  | lapsed => exact .inr hphase
  | planned => exact nomatch (hsanctioned.unclaimed (.inl hphase)).symm.trans hmine
  | approved => exact nomatch (hsanctioned.unclaimed (.inr hphase)).symm.trans hmine
  | settled =>
      obtain ⟨call, hcall, hmem⟩ := hsanctioned.settled hphase
      cases hcall.symm.trans hmine
      obtain ⟨x, he, hexplains⟩ := exists_mem_of_forall₂ hlog.flip hmem
      obtain ⟨record, answer, rfl⟩ := Explains.of_settle hexplains
      -- The question that settles a change is the last one of its call.
      obtain ⟨before, after, hsplit⟩ := List.append_of_mem (mem_ownEvents.2 he)
      rw [hsplit, List.append_assoc] at begun
      obtain ⟨hnil, -⟩ := settling_of_begins begun
      exact absurd hnil (by simp)

/-- The call that settles a change has claimed it. -/
theorem mine_of_update (hR : Refines p s) {record : ChangeSetRecord}
    {answer : Except CoordinatorError Unit}
    (begun : (server.handle k).Begins (ownEvents p.log i ++
      [coordinatorEvent (.updateChangeSet record) answer])) :
    (record.state = .applied ∨ record.state = .failed) ∧
      ∃ c, s record.id = some c ∧ c.claimant = some i := by
  obtain ⟨-, caller, args, client, status, claimed, rest, state, rfl, hown, rfl, hsettling⟩ :=
    settling_of_begins begun
  have hclaim : (i, claimEvent args claimed) ∈ p.log := by
    refine mem_ownEvents.1 ?_
    rw [hown]
    simp
  obtain ⟨c, hc, hid, -, -, hmine, -⟩ := hR.claims _ _ _ _ hclaim
  refine ⟨hsettling.state_cases, c, ?_, hmine⟩
  have hid' : ({ claimed with state := state } : ChangeSetRecord).id = args.changeSetId := hid
  rw [hid', hc]

/-- A change set that is stored. -/
theorem next_of_stored (h : p.Reachable server.handle (ServerStep C) init)
    (hrun : Run (server.labMode = true) (FiledPlan.Carries server) labels s)
    (hlog : List.Forall₂ (Explains p.calls) p.log labels) (hR : Refines p s)
    (begun : (server.handle k).Begins (ownEvents p.log i ++ [coordinatorEvent op a]))
    (answered : ServerStep C p.world (coordinatorEvent op a) world) {r : ChangeSetRecord}
    (hr : C.record p.world.store id = some r) {c : FiledChange} (hc : s id = some c)
    (hshows : ShowsChange id r c) :
    ∃ c', ShownAs id (C.record world.store id) c' ∧
      Next server p.calls i (coordinatorEvent op a) id (some c) c' := by
  obtain ⟨r', hr', hsame, hchange⟩ := C.stays answered.1 hr
  rw [hr']
  have hnotStored : ∀ r₀, coordinatorEvent op a = insertEvent r₀ → r₀.id ≠ id := by
    rintro r₀ heq rfl
    cases heq
    rw [(C.inserted answered.1).1] at hr
    cases hr
  have hclaimed : ∀ {device r₀}, coordinatorEvent op a =
      coordinatorEvent (.claimChangeSetForApply id device) (.ok r₀) →
        r.state = .approved ∧ r'.state = .applying := by
    intro device r₀ heq
    cases heq
    obtain ⟨r₁, hr₁, happroved, hr₂, happlying, -⟩ := C.claimed answered.1
    cases hr₁.symm.trans hr
    cases hr₂.symm.trans hr'
    exact ⟨happroved, happlying⟩
  cases hchange with
  | unchanged hnew =>
      refine ⟨some c, .some (hshows.samePlan hsame (hnew ▸ hshows.phase)),
        .lapses (.stays _) hnotStored ?_⟩
      intro device r₀ heq
      obtain ⟨happroved, happlying⟩ := hclaimed heq
      rw [hnew, happroved] at happlying
      cases happlying
  | retired hnew =>
      have hnotClaimed : ∀ device r₀, coordinatorEvent op a ≠
          coordinatorEvent (.claimChangeSetForApply id device) (.ok r₀) :=
        fun device r₀ heq => hnew.2.2 (hclaimed heq).2
      by_cases hphase : c.phase = .settled
      · refine ⟨some c, .some (hshows.samePlan hsame ?_),
          .lapses (.stays _) hnotStored hnotClaimed⟩
        rw [hphase]
        exact .settled hnew.1 hnew.2.1
      · exact ⟨_, .some (hshows.samePlan hsame (.lapsed hnew.1 hnew.2.1)),
          .lapses (.lapses c hphase) hnotStored hnotClaimed⟩
  | approved approver call planned other hnew =>
      subst call
      have hshown : ShowsChange id r' { c with phase := .approved } :=
        hshows.samePlan hsame (hnew ▸ ShowsPhase.approved)
      obtain ⟨rfl, howner, hplan, hphase⟩ := hshows
      refine ⟨_, .some hshown, .does (.approve approver c.plan)
        (.approve c approver ?_ (howner ▸ other)) ?_⟩
      · rw [planned] at hphase
        exact hphase.planned_of
      · rw [hplan]
        exact .approved i r.id approver r.filed a
  | waived approver digest call planned hnew =>
      subst call
      have hshown : ShowsChange id r' { c with phase := .approved } :=
        hshows.samePlan hsame (hnew ▸ ShowsPhase.approved)
      obtain ⟨rfl, howner, hplan, hphase⟩ := hshows
      obtain ⟨hlab, device, record, hread, hself, hdigest⟩ :=
        waive_of_begins begun (List.mem_append_right _ (List.mem_singleton.2 rfl))
      -- What was read is what is stored.
      have hread : coordinatorEvent (.changeSet r.id device) (.ok record) ∈ ownEvents p.log i := by
        rcases List.mem_append.1 hread with hread | hread
        · exact hread
        · cases List.mem_singleton.1 hread
      have hfiled : Filed init p.world p.log := .of_reachable h
      obtain ⟨r₁, hr₁, hsame₁⟩ := hfiled.revealed (mem_ownEvents.1 hread) (.read r.id device record)
      cases hr₁.symm.trans hr
      obtain rfl : c.owner = approver := (howner.trans hsame₁.owner).trans hself.symm
      obtain rfl : r.digest = digest := hsame₁.digest.trans hdigest.symm
      refine ⟨_, .some hshown, .does (.waive c.owner c.plan) (.waive c ?_ hlab) ?_⟩
      · rw [planned] at hphase
        exact hphase.planned_of
      · rw [hplan]
        exact .waived i r.id c.owner r.filed a
  | claimed call approved hnew =>
      subst call
      have hphase := hshows.phase
      rw [approved] at hphase
      have hid := hshows.id
      subst hid
      rcases a with error | r₀
      · -- The claim took effect, and the call that made it has failed.
        refine ⟨_, .some (hshows.samePlan hsame (.lapsed ?_ ?_)),
          .lapses (.lapses c ?_) hnotStored fun device r₀ heq => by cases heq⟩
        · rw [hnew]; exact nofun
        · rw [hnew]; exact nofun
        · rw [hphase.approved_of]; exact nofun
      · exact ⟨_, .some (hshows.samePlan hsame (hnew ▸ ShowsPhase.applying)),
          .does .claim (.claim c hphase.approved_of) (.claimed i r.id r.device r₀)⟩
  | updated record call hid hnew =>
      subst call
      obtain ⟨hstate, c₁, hc₁, hmine⟩ := mine_of_update hR begun
      obtain rfl : record.id = id := hid.trans hshows.id
      cases hc₁.symm.trans hc
      refine ⟨_, .some (hshows.samePlan hsame (.settled ?_ ?_)), .does .settle
        (.settle c hmine (unsettled_of_mine hrun hlog begun hc hmine)) (.settled i record a)⟩
      all_goals
        rw [hnew]
        rcases hstate with hstate | hstate <;> rw [hstate] <;> exact nofun

/-- The change set that a question for the coordinator names. -/
def CoordinatorOp.names : CoordinatorOp → Option String
  | .insertChangeSet r | .updateChangeSet r => some r.id
  | .approveChangeSet id _ _ _ _ | .waiveApproval id _ _ _ | .claimChangeSetForApply id _ => some id
  | .changeSets | .changeSet _ _ | .changeSetStatus _ _ => none

/-- What a question for the coordinator does, it does to the change set that it names. -/
theorem Explains.names {calls : List ChangeSetCall} {j : Nat}
    {act : Act String FiledPlan ClientQuestion}
    (h : Explains calls (i, coordinatorEvent op a) (.act j id act)) : op.names = some id := by
  generalize hx : (i, coordinatorEvent op a) = x at h
  cases h <;> cases hx <;> rfl

/-- It sends nothing to a controller. -/
theorem Explains.not_send {calls : List ChangeSetCall} {j : Nat} {req : ClientQuestion}
    (h : Explains calls (i, coordinatorEvent op a) (.act j id (.send req))) : False := by
  generalize hx : (i, coordinatorEvent op a) = x at h
  cases h
  cases hx

theorem Explains.of_claim {calls : List ChangeSetCall} {j : Nat} {device : String}
    {r : ChangeSetRecord} {act : Act String FiledPlan ClientQuestion}
    (h : Explains calls (i, coordinatorEvent (.claimChangeSetForApply id device) (.ok r))
      (.act j id act)) : act = .claim := by
  generalize hx : (i, coordinatorEvent (.claimChangeSetForApply id device) (.ok r)) = x at h
  cases h <;> cases hx
  rfl

/-- A claim is of the change set that the call names. -/
theorem id_of_claim {t : List (Event ServerSig)} {caller : Option CallerCtx}
    {args : ApplyChangeSetArgs} (h : (server.handle (.apply caller args)).Begins t)
    {device : String} {answer : Except CoordinatorError ChangeSetRecord}
    (hmem : coordinatorEvent (.claimChangeSetForApply id device) answer ∈ t) :
    args.changeSetId = id := by
  obtain ⟨caller', args', hcall, hid, -⟩ := (asks_handle _).of_begins h _ hmem
  cases hcall
  exact hid

/-- Before its claim a call sends nothing. -/
theorem sentTrace_before_claim (hR : Refines p s) {device : String}
    {answer : Except CoordinatorError ChangeSetRecord}
    (begun : (server.handle k).Begins (ownEvents p.log i ++
      [coordinatorEvent (.claimChangeSetForApply id device) answer]))
    (hnone : ∀ c, s id = some c → c.claimant = none) : sentTrace (ownEvents p.log i) = [] := by
  obtain ⟨caller, args, rfl, hid, -⟩ := (asks_handle k).of_begins begun
    (coordinatorEvent (.claimChangeSetForApply id device) answer) (by simp)
  refine List.eq_nil_iff_forall_not_mem.2 fun q hq => ?_
  obtain ⟨client, status, claimed, mutations, preimage, rest, hown, -⟩ :=
    sentByApply_of_begins begun.of_append (mem_sentTrace.1 hq)
  have hclaim : (i, claimEvent args claimed) ∈ p.log := by
    refine mem_ownEvents.1 ?_
    rw [hown]
    simp
  obtain ⟨c, hc, -, -, -, hmine, -⟩ := hR.claims _ _ _ _ hclaim
  rw [hid] at hc
  exact nomatch (hnone c hc).symm.trans hmine

theorem sentTrace_ownEvents {log : List (Nat × Event ServerSig)} {e : Event ServerSig} {j : Nat}
    (h : j = i → ServerOp.NotClient e.op) :
    sentTrace (ownEvents (log ++ [(i, e)]) j) = sentTrace (ownEvents log j) := by
  by_cases hj : j = i
  · subst hj
    rw [ownEvents_concat_self, sentTrace_concat (h rfl)]
  · rw [ownEvents_concat_of_ne log (Ne.symm hj)]

/-- **One question for the coordinator is one step of change control.** -/
theorem refines_coordinator (h : p.Reachable server.handle (ServerStep C) init)
    (hrun : Run (server.labMode = true) (FiledPlan.Carries server) labels s)
    (hlog : List.Forall₂ (Explains p.calls) p.log labels) (hR : Refines p s)
    (begun : (server.handle k).Begins (ownEvents p.log i ++ [coordinatorEvent op a]))
    (answered : ServerStep C p.world (coordinatorEvent op a) world) :
    ∃ l s', Step (server.labMode = true) (FiledPlan.Carries server) s l s' ∧
      Explains p.calls (i, coordinatorEvent op a) l ∧
      Refines ⟨world, p.calls, p.log ++ [(i, coordinatorEvent op a)]⟩ s' := by
  have hnext : ∀ id, ∃ c', ShownAs id (C.record world.store id) c' ∧
      Next server p.calls i (coordinatorEvent op a) id (s id) c' := by
    intro id
    have hshown := hR.shown id
    generalize hr : C.record p.world.store id = before at hshown
    generalize hc : s id = c at hshown ⊢
    cases hshown with
    | none => exact next_of_absent begun answered hr
    | some hshows => exact next_of_stored h hrun hlog hR begun answered hr hc hshows
  choose s' hshown hnext using hnext
  have hsanctioned := (accounted_of_run hrun).sanctioned
  have hquiet : ServerOp.NotClient (coordinatorEvent op a).op := trivial
  have hrefines : Refines ⟨world, p.calls, p.log ++ [(i, coordinatorEvent op a)]⟩ s' := by
    refine ⟨hshown, fun j id device r hmem => ?_⟩
    rcases mem_log_append hmem with hold | ⟨rfl, heq⟩
    · obtain ⟨c, hc, hid, hdevice, hplan, hmine, hsent⟩ := hR.claims j id device r hold
      have hkept : ∃ c', s' id = some c' ∧ Kept c c' := by
        cases hnext id with
        | lapses lapses => exact lapses.kept hc
        | does act does explains =>
            refine does.kept hc ?_ fun req hact => (hact ▸ explains).not_send
            rintro rfl
            -- What has been claimed is not approved any more.
            exact nomatch ((hsanctioned id c hc).unclaimed
              (.inr (does.approved hc).1)).symm.trans hmine
      obtain ⟨c', hc', hkept⟩ := hkept
      refine ⟨c', hc', hid, hdevice, hkept.plan.trans hplan, hkept.claimant.trans hmine, ?_⟩
      rw [hkept.sent, hsent, sentTrace_ownEvents fun _ => hquiet]
    · cases heq
      cases hnext id with
      | lapses _ _ notClaimed => exact absurd rfl (notClaimed device r)
      | does act does explains =>
          obtain rfl := explains.of_claim
          obtain ⟨-, -, -, hr, -, hdevice⟩ := C.claimed answered.1
          have hnew := hshown id
          generalize hc : s id = before at does
          generalize hc' : s' id = after at does
          cases does with
          | claim c approved =>
              rw [hr, hc'] at hnew
              cases hnew with
              | some hshows =>
                  have hnone := (hsanctioned id c hc).unclaimed (.inr approved)
                  refine ⟨_, rfl, hshows.id, hdevice, hshows.plan, rfl, ?_⟩
                  rw [sentTrace_ownEvents fun _ => hquiet, sentTrace_before_claim hR begun ?_]
                  · exact (hsanctioned id c hc).nothing_sent hnone
                  · intro c₁ hc₁
                    cases hc₁.symm.trans hc
                    exact hnone
  by_cases hact : ∃ id act, Does (server.labMode = true) (FiledPlan.Carries server) i act (s id)
      (s' id) ∧ Explains p.calls (i, coordinatorEvent op a) (.act i id act)
  · obtain ⟨id, act, does, explains⟩ := hact
    refine ⟨_, s', .act s' i id act does fun id' hne => ?_, explains, hrefines⟩
    cases hnext id' with
    | lapses lapses => exact lapses
    | does act' _ explains' =>
        exact absurd (Option.some.inj (explains'.names.symm.trans explains.names)) hne
  · refine ⟨.idle, s', .idle s' fun id => ?_, .idle _ _ ⟨?_, ?_, ?_⟩, hrefines⟩
    · cases hnext id with
      | lapses lapses => exact lapses
      | does act does explains => exact absurd ⟨id, act, does, explains⟩ hact
    · intro r heq
      cases hnext r.id with
      | lapses _ notStored _ => exact notStored r heq rfl
      | does act does explains => exact hact ⟨r.id, act, does, explains⟩
    · intro id device r heq
      cases hnext id with
      | lapses _ _ notClaimed => exact notClaimed device r heq
      | does act does explains => exact hact ⟨id, act, does, explains⟩
    · intro controller e' heq
      cases heq

/-! ## Questions for others -/

/-- A question for others than the coordinator, and of controllers only what changes nothing. -/
theorem uneventful_of {calls : List ChangeSetCall} {e : Event ServerSig}
    (hnot : ¬ ServerOp.IsCoordinator e.op)
    (hquiet : ∀ controller e', e = clientEvent controller e' →
      ClientOp.Quiet e'.op ∧ ∃ k, calls[i]? = some k ∧ k.NotApply) : Uneventful calls i e where
  notStored := by
    rintro r rfl
    exact hnot trivial
  notClaimed := by
    rintro id device r rfl
    exact hnot trivial
  quiet := hquiet

/-- A question that is nothing to change control. -/
theorem refines_idle (hR : Refines p s) {e : Event ServerSig}
    (answered : ServerStep C p.world e world) (hnot : ¬ ServerOp.IsCoordinator e.op)
    (hclient : ∀ id device r,
      (i, coordinatorEvent (.claimChangeSetForApply id device) (.ok r)) ∈ p.log →
        ServerOp.NotClient e.op) :
    Refines ⟨world, p.calls, p.log ++ [(i, e)]⟩ s := by
  have hstore : world.store = p.world.store := by
    rcases store_of_step answered with ⟨op, answer, rfl, -⟩ | ⟨hstore, -⟩
    · exact absurd trivial hnot
    · exact hstore
  refine ⟨fun id => ?_, fun j id device r hmem => ?_⟩
  · rw [hstore]
    exact hR.shown id
  · rcases mem_log_append hmem with hold | ⟨-, rfl⟩
    · obtain ⟨c, hc, hid, hdevice, hplan, hmine, hsent⟩ := hR.claims j id device r hold
      refine ⟨c, hc, hid, hdevice, hplan, hmine, ?_⟩
      rw [hsent, sentTrace_ownEvents ?_]
      rintro rfl
      exact hclient id device r hold
    · exact absurd trivial hnot

/-- What an apply call asks a controller is for the controller it names, and part of carrying out
the plan of the change it has claimed. -/
theorem carries_of_sent {args : ApplyChangeSetArgs} {caller : Option CallerCtx}
    (begun : (server.handle (.apply caller args)).Begins (ownEvents p.log i))
    {controller : String} {e : Event ClientSig}
    (hmem : clientEvent controller e ∈ ownEvents p.log i) :
    ∃ claimed, (i, claimEvent args claimed) ∈ p.log ∧ (claimed.device = args.controller →
      claimed.filed.Carries server (sentTrace (ownEvents p.log i))) := by
  obtain ⟨client, status, claimed, mutations, preimage, rest, hown, hplan, hwritable, hbegins, -⟩ :=
    sentByApply_of_begins begun hmem
  refine ⟨claimed, mem_ownEvents.1 ?_, fun hdevice => ⟨fun q hq => ?_, client, mutations,
    preimage, (planOf_eq_ok hplan).1, (planOf_eq_ok hplan).2, hwritable, ?_⟩⟩
  · rw [hown]
    simp
  · -- The call asks no other controller.
    have hasked := mem_sentTrace.1 hq
    rcases (asks_handle_concerns _).of_begins begun _ hasked with hnamed | ⟨record, hop⟩
    · exact Eq.trans hnamed hdevice.symm
    · cases hop
  · rw [sentTrace_map_snd, hown]
    exact hbegins

/-- **One question of an apply call for a controller is one step of change control.** -/
theorem refines_sent (hrun : Run (server.labMode = true) (FiledPlan.Carries server) labels s)
    (hlog : List.Forall₂ (Explains p.calls) p.log labels) (hR : Refines p s)
    {caller : Option CallerCtx} {args : ApplyChangeSetArgs}
    (hk : p.calls[i]? = some (.apply caller args)) {controller : String} {e : Event ClientSig}
    (begun : (server.handle (.apply caller args)).Begins
      (ownEvents p.log i ++ [clientEvent controller e]))
    (answered : ServerStep C p.world (clientEvent controller e) world) :
    ∃ s', Step (server.labMode = true) (FiledPlan.Carries server) s
        (.act i args.changeSetId (.send (controller, e))) s' ∧
      Refines ⟨world, p.calls, p.log ++ [(i, clientEvent controller e)]⟩ s' := by
  have hown := ownEvents_concat_self p.log i (clientEvent controller e)
  have hstore : world.store = p.world.store := by
    have hworld : world = p.world := answered
    rw [hworld]
  rw [← hown] at begun
  obtain ⟨claimed, hclaim, hcarries⟩ := carries_of_sent (p := ⟨world, p.calls, _⟩) begun
    (by rw [hown]; exact List.mem_append_right _ (List.mem_singleton.2 rfl))
  rw [hown] at begun
  have hclaim : (i, claimEvent args claimed) ∈ p.log := by
    rcases mem_log_append hclaim with hclaim | ⟨-, heq⟩
    · exact hclaim
    · cases heq
  obtain ⟨c, hc, -, hdevice, hplan, hmine, hsent⟩ := hR.claims _ _ _ _ hclaim
  have hlonger : c.sent ++ [(controller, e)] =
      sentTrace (ownEvents (p.log ++ [(i, clientEvent controller e)]) i) := by
    rw [hown, sentTrace_concat_client, hsent]
  let s' := fun id =>
    if id = args.changeSetId then some { c with sent := c.sent ++ [(controller, e)] } else s id
  have hs' : s' args.changeSetId = some { c with sent := c.sent ++ [(controller, e)] } :=
    if_pos rfl
  have hother : ∀ {id}, id ≠ args.changeSetId → s' id = s id := fun hid => if_neg hid
  refine ⟨s', .act s' i args.changeSetId _ ?_ fun id hid => ?_, fun id => ?_,
    fun j id device r hmem => ?_⟩
  · rw [hc, hs']
    refine .send c (controller, e) hmine (unsettled_of_mine hrun hlog begun hc hmine) ?_
    rw [hplan, hlonger]
    exact hcarries hdevice
  · rw [hother hid]
    exact .stays _
  · rw [hstore]
    by_cases hid : id = args.changeSetId
    · subst hid
      have hshown := hR.shown args.changeSetId
      rw [hc] at hshown
      rw [hs']
      generalize C.record p.world.store args.changeSetId = stored at hshown ⊢
      cases hshown with
      | some hshows => exact .some ⟨hshows.id, hshows.owner, hshows.plan, hshows.phase⟩
    · rw [hother hid]
      exact hR.shown id
  · rcases mem_log_append hmem with hold | ⟨-, heq⟩
    · obtain ⟨c₁, hc₁, hid, hdevice₁, hplan₁, hmine₁, hsent₁⟩ := hR.claims j id device r hold
      by_cases hsame : id = args.changeSetId
      · subst hsame
        cases hc₁.symm.trans hc
        cases hmine₁.symm.trans hmine
        exact ⟨_, hs', hid, hdevice₁, hplan₁, hmine₁, hlonger⟩
      · refine ⟨c₁, (hother hsame).trans hc₁, hid, hdevice₁, hplan₁, hmine₁, ?_⟩
        rw [hsent₁, sentTrace_ownEvents ?_]
        rintro rfl
        -- A call claims no change set but the one it names.
        exact absurd (id_of_claim begun (List.mem_append_left _ (mem_ownEvents.2 hold))).symm hsame
    · cases heq

/-- **One question of a call is one step of change control.** -/
theorem refines_turn (h : p.Reachable server.handle (ServerStep C) init)
    (hrun : Run (server.labMode = true) (FiledPlan.Carries server) labels s)
    (hlog : List.Forall₂ (Explains p.calls) p.log labels) (hR : Refines p s)
    (hk : p.calls[i]? = some k) {e : Event ServerSig}
    (begun : (server.handle k).Begins (ownEvents p.log i ++ [e]))
    (answered : ServerStep C p.world e world) :
    ∃ l s', Step (server.labMode = true) (FiledPlan.Carries server) s l s' ∧
      Explains p.calls (i, e) l ∧ Refines ⟨world, p.calls, p.log ++ [(i, e)]⟩ s' := by
  have hidle : ¬ ServerOp.IsCoordinator e.op →
      (∀ controller e', e = clientEvent controller e' →
        ClientOp.Quiet e'.op ∧ ∃ k, p.calls[i]? = some k ∧ k.NotApply) →
      (∀ id device r,
        (i, coordinatorEvent (.claimChangeSetForApply id device) (.ok r)) ∈ p.log →
          ServerOp.NotClient e.op) →
      ∃ l s', Step (server.labMode = true) (FiledPlan.Carries server) s l s' ∧
        Explains p.calls (i, e) l ∧ Refines ⟨world, p.calls, p.log ++ [(i, e)]⟩ s' :=
    fun hnot hquiet hclient => ⟨.idle, s, .idle s fun id => .stays _,
      .idle _ _ (uneventful_of hnot hquiet), refines_idle hR answered hnot hclient⟩
  by_cases hcoordinator : ServerOp.IsCoordinator e.op
  · obtain ⟨op, answer⟩ := e
    cases op with
    | coordinator op => exact refines_coordinator h hrun hlog hR begun answered
    | _ => exact hcoordinator.elim
  by_cases hclient : ∃ controller e', e = clientEvent controller e'
  · obtain ⟨controller, e', rfl⟩ := hclient
    have hmay := (asks_handle k).of_begins begun (clientEvent controller e') (by simp)
    by_cases happly : ∃ caller args, k = .apply caller args
    · obtain ⟨caller, args, rfl⟩ := happly
      obtain ⟨s', hstep, hR'⟩ := refines_sent hrun hlog hR hk begun answered
      exact ⟨_, s', hstep, .sent i caller args controller e' hk, hR'⟩
    · refine hidle hcoordinator ?_ ?_
      · obtain ⟨op, answer⟩ := e'
        rintro controller' ⟨op', answer'⟩ heq
        cases heq
        rcases hmay with hquiet | ⟨caller, args, hcall, -⟩
        · exact ⟨hquiet, k, hk, fun caller args hcall => happly ⟨caller, args, hcall⟩⟩
        · exact absurd ⟨caller, args, hcall⟩ happly
      · intro id device r hclaim
        obtain ⟨caller, args, hcall, -⟩ := (asks_handle k).of_begins begun _
          (List.mem_append_left _ (mem_ownEvents.2 hclaim))
        exact absurd ⟨caller, args, hcall⟩ happly
  · refine hidle hcoordinator (fun controller e' heq => absurd ⟨controller, e', heq⟩ hclient) ?_
    intro _ _ _ _
    obtain ⟨op, answer⟩ := e
    cases op with
    | client controller op => exact absurd ⟨controller, ⟨op, answer⟩, rfl⟩ hclient
    | _ => trivial

end Turn

/-! ## Every run -/

section Reachable

variable {init : ServerWorld C} {p : CallPool C}

/-- **The change-set tools refine change control**, with lab mode and without.  For every pool of
calls that can be reached from nothing stored there is a history of change control whose steps
are explained one by one by what the calls have asked, and whose changes are the change sets that
the coordinator has stored: each with its owner and its plan, and as far as its state says. -/
theorem refines_changeControl (hinit : init.Fresh)
    (h : p.Reachable server.handle (ServerStep C) init) :
    ∃ (labels : List FiledLabel) (s : String → Option FiledChange),
      Run (server.labMode = true) (FiledPlan.Carries server) labels s ∧
      List.Forall₂ (Explains p.calls) p.log labels ∧ Refines p s := by
  have hfresh : Refines (⟨init, [], []⟩ : CallPool C) fun _ => none := by
    refine ⟨fun id => ?_, nofun⟩
    rw [hinit.1]
    exact .none
  refine h.refines hfresh (fun k _ hR => ⟨hR.shown, hR.claims⟩) ?_
    fun h hrun hlog hR hk begun answered => refines_turn h hrun hlog hR hk begun answered
  intro calls x l k hexplains
  have hstarted : ∀ {i : Nat} {k' : ChangeSetCall}, calls[i]? = some k' →
      (calls ++ [k])[i]? = some k' := by
    intro i k' hk'
    rw [List.getElem?_append_left (List.getElem?_eq_some_iff.1 hk').1, hk']
  cases hexplains with
  | sent i caller args controller e call => exact .sent i caller args controller e (hstarted call)
  | staged i r => exact .staged i r
  | approved i id approver plan answer => exact .approved i id approver plan answer
  | waived i id owner plan answer => exact .waived i id owner plan answer
  | claimed i id device r => exact .claimed i id device r
  | settled i record answer => exact .settled i record answer
  | idle i e uneventful =>
      refine .idle i e ⟨uneventful.notStored, uneventful.notClaimed, fun controller e' heq => ?_⟩
      obtain ⟨hquiet, k', hk', hnot⟩ := uneventful.quiet controller e' heq
      exact ⟨hquiet, k', hstarted hk', hnot⟩

/-! ## What is behind a write -/

/-- The change set that a call carries out. -/
def ChangeSetCall.applies : ChangeSetCall → Option String
  | .apply _ args => some args.changeSetId
  | _ => none

/-- What an entry of the log asks a controller for a change set. -/
def questionFor (calls : List ChangeSetCall) (id : String) (x : Nat × Event ServerSig) :
    Option ClientQuestion :=
  match x.2 with
  | ⟨.client controller op, answer⟩ =>
      if calls[x.1]?.bind ChangeSetCall.applies = some id then some (controller, ⟨op, answer⟩)
      else none
  | _ => none

/-- What the apply calls of one change set have asked controllers, in the order of the log. -/
def sentFor (calls : List ChangeSetCall) (id : String) (log : List (Nat × Event ServerSig)) :
    List ClientQuestion :=
  log.filterMap (questionFor calls id)

/-- Change control has seen all that was sent for a change set. -/
theorem request_eq_questionFor {calls : List ChangeSetCall} {x : Nat × Event ServerSig}
    {l : FiledLabel} (h : Explains calls x l) (id : String) :
    l.request id = questionFor calls id x := by
  cases h with
  | sent i caller args controller e call =>
      have happlies : calls[i]?.bind ChangeSetCall.applies = some args.changeSetId := by
        rw [call]
        rfl
      have hsame : args.changeSetId = id ↔ calls[i]?.bind ChangeSetCall.applies = some id := by
        rw [happlies, Option.some_inj]
      exact if_congr hsame rfl rfl
  | idle i e uneventful =>
      obtain ⟨op, answer⟩ := e
      cases op with
      | client controller op =>
          obtain ⟨-, k, hk, hnot⟩ := uneventful.quiet controller ⟨op, answer⟩ rfl
          have happlies : calls[i]?.bind ChangeSetCall.applies = none := by
            rw [hk]
            cases k with
            | apply caller args => exact absurd rfl (hnot caller args)
            | _ => rfl
          exact (if_neg (by rw [happlies]; exact nofun)).symm
      | _ => rfl
  | staged | approved | waived | claimed | settled => rfl

theorem requests_eq_sentFor {calls : List ChangeSetCall} {log : List (Nat × Event ServerSig)}
    {labels : List FiledLabel} (h : List.Forall₂ (Explains calls) log labels) (id : String) :
    requests id labels = sentFor calls id log := by
  induction h with
  | nil => rfl
  | cons hexplains _ ih =>
      unfold requests sentFor at ih ⊢
      rw [List.filterMap_cons, List.filterMap_cons, request_eq_questionFor hexplains, ih]

/-- Consent to the plan of a stored change set: a human other than its owner calls for its approval
or, in lab mode, the owner for the waiver.  The call counts whatever it is answered, because a
coordinator may have taken the consent down and answer with an error all the same. -/
inductive Consents (labMode : Bool) (r : ChangeSetRecord) : Nat × Event ServerSig → Prop where
  | approved (i : Nat) (approver : String) (answer : Except CoordinatorError ApprovalOutcome)
      (other : approver ≠ r.owner) :
      Consents labMode r (i, coordinatorEvent
        (.approveChangeSet r.id r.device approver r.digest .human) answer)
  | waived (i : Nat) (answer : Except CoordinatorError ApprovalOutcome) (lab : labMode = true) :
      Consents labMode r (i, coordinatorEvent
        (.waiveApproval r.id r.device r.owner r.digest) answer)

section Explains

variable {calls : List ChangeSetCall} {x : Nat × Event ServerSig} {i : Nat}
  {id who : String} {plan : FiledPlan}

/-- What stages a change stores its change set. -/
theorem Explains.of_stage (h : Explains calls x (.act i id (.stage who plan))) :
    ∃ r, x = (i, insertEvent r) ∧ r.id = id ∧ r.owner = who ∧ r.filed = plan := by
  cases h with
  | staged _ r => exact ⟨r, rfl, rfl, rfl, rfl⟩

theorem Explains.of_approve (h : Explains calls x (.act i id (.approve who plan))) :
    ∃ answer, x = (i, coordinatorEvent
      (.approveChangeSet id plan.device who plan.digest .human) answer) := by
  cases h with
  | approved _ _ _ _ answer => exact ⟨answer, rfl⟩

theorem Explains.of_waive (h : Explains calls x (.act i id (.waive who plan))) :
    ∃ answer, x = (i, coordinatorEvent (.waiveApproval id plan.device who plan.digest) answer) := by
  cases h with
  | waived _ _ _ _ answer => exact ⟨answer, rfl⟩

theorem Explains.of_claimed (h : Explains calls x (.act i id .claim)) :
    ∃ device r, x = (i, coordinatorEvent (.claimChangeSetForApply id device) (.ok r)) := by
  cases h with
  | claimed _ _ device r => exact ⟨device, r, rfl⟩

/-- What agrees to a change consents to its change set. -/
theorem Explains.consents {l : FiledLabel} (h : Explains calls x l) {r : ChangeSetRecord}
    (hagrees : Agrees (server.labMode = true) r.id r.owner r.filed l) :
    Consents server.labMode r x := by
  cases hagrees with
  | approved call who other =>
      obtain ⟨answer, rfl⟩ := h.of_approve
      exact .approved call who answer other
  | waived call allowed =>
      obtain ⟨answer, rfl⟩ := h.of_waive
      exact .waived call answer allowed

/-- What is asked of a controller is sent for the change set of its apply call. -/
theorem Explains.of_client {l : FiledLabel} {controller : String} {e : Event ClientSig}
    (h : Explains calls (i, clientEvent controller e) l) :
    (∃ caller args, calls[i]? = some (.apply caller args) ∧
        l = .act i args.changeSetId (.send (controller, e))) ∨
      ClientOp.Quiet e.op ∧ ∃ k, calls[i]? = some k ∧ k.NotApply := by
  generalize hx : (i, clientEvent controller e) = x at h
  obtain ⟨op, answer⟩ := e
  cases h with
  | sent j caller args controller' e' call =>
      obtain ⟨op', answer'⟩ := e'
      cases hx
      exact .inl ⟨caller, args, call, rfl⟩
  | idle j e' uneventful =>
      cases hx
      exact .inr (uneventful.quiet controller ⟨op, answer⟩ rfl)
  | _ => cases hx

end Explains

/-- While a call still asks, no state has been recorded for the change set it has claimed. -/
theorem not_updated (h : p.Reachable server.handle (ServerStep C) init)
    {s : String → Option FiledChange} (hR : Refines p s)
    {before after : List (Nat × Event ServerSig)} {i j : Nat} {e : Event ServerSig}
    (hlog : p.log = before ++ (i, e) :: after) {id device : String}
    {claimed record : ChangeSetRecord}
    (hclaimed : (i, coordinatorEvent (.claimChangeSetForApply id device) (.ok claimed)) ∈ p.log)
    {answer : Except CoordinatorError Unit}
    (hmem : (j, coordinatorEvent (.updateChangeSet record) answer) ∈ before) : record.id ≠ id := by
  intro hsame
  have hupdate : (j, coordinatorEvent (.updateChangeSet record) answer) ∈ p.log := by
    rw [hlog]
    exact List.mem_append_left _ hmem
  obtain ⟨k, hk⟩ := h.started hupdate
  have hbegins := h.begins hk
  rw [hlog, ownEvents_append] at hbegins
  obtain ⟨b₁, b₂, hsplit⟩ := List.append_of_mem (mem_ownEvents.2 hmem)
  rw [hsplit, List.append_assoc] at hbegins
  obtain ⟨hlast, caller, args, client, status, claimed', rest, state, -, hown, rfl, -⟩ :=
    settling_of_begins hbegins
  have hclaimed' : (j, claimEvent args claimed') ∈ p.log := by
    rw [hlog]
    refine List.mem_append_left _ (mem_ownEvents.1 ?_)
    rw [hsplit, hown]
    simp
  obtain ⟨c, hc, -, -, -, hmine, -⟩ := hR.claims _ _ _ _ hclaimed
  obtain ⟨c', hc', hid, -, -, hmine', -⟩ := hR.claims _ _ _ _ hclaimed'
  have hsame' : claimed'.id = id := hsame
  rw [hid.symm.trans hsame', hc] at hc'
  cases hc'
  cases hmine'.symm.trans hmine
  -- The call that records the state asks nothing more.
  have hagain : e ∈ ownEvents ((i, e) :: after) i := mem_ownEvents.2 List.mem_cons_self
  rw [(List.append_eq_nil_iff.1 hlast).2] at hagain
  cases hagain

/-- **Every write has been consented to, in lab mode and out of it.**  When a write goes to a
controller, it is of an apply call; before it, in this order, the change set of that call was
stored, its plan was consented to, and the call was granted the claim; all that has been asked of
controllers for this change set, by whichever calls, is for its own controller and is the
beginning of carrying out that plan; no other call has written for it, and nobody has recorded a
state for it yet. -/
theorem writes_are_sanctioned (hinit : init.Fresh)
    (h : p.Reachable server.handle (ServerStep C) init)
    {before after : List (Nat × Event ServerSig)} {i : Nat} {controller : String}
    {e : Event ClientSig} (hlog : p.log = before ++ (i, clientEvent controller e) :: after)
    (hwrite : ¬ ClientOp.Quiet e.op) :
    ∃ caller args r j consent device claimed, p.calls[i]? = some (.apply caller args) ∧
      r.id = args.changeSetId ∧ Consents server.labMode r consent ∧
      [(j, insertEvent r), consent, (i, coordinatorEvent
        (.claimChangeSetForApply args.changeSetId device) (.ok claimed))].Sublist before ∧
      r.filed.Carries server (sentFor p.calls args.changeSetId before ++ [(controller, e)]) ∧
      (∀ j controller' e' caller' args', (j, clientEvent controller' e') ∈ before →
        p.calls[j]? = some (.apply caller' args') → args'.changeSetId = args.changeSetId →
          j = i) ∧
      ∀ j record answer, (j, coordinatorEvent (.updateChangeSet record) answer) ∈ before →
        record.id ≠ args.changeSetId := by
  obtain ⟨labels, s, hrun, hlabels, hR⟩ := refines_changeControl hinit h
  rw [hlog] at hlabels
  obtain ⟨lbefore, l, lafter, rfl, hbefore, hexplains, -⟩ := exists_split_of_forall₂ hlabels
  rcases hexplains.of_client with ⟨caller, args, hk, rfl⟩ | ⟨hquiet, -⟩
  · obtain ⟨owner, plan, j, l, hagrees, hsub, hcarries, honly, -⟩ := sent_of_run hrun
    obtain ⟨xs, hxs, hboth⟩ := exists_sublist_of_forall₂ hbefore hsub
    obtain ⟨x₁, xs₁, hstage, hboth₁, rfl⟩ := List.forall₂_cons_right_iff.1 hboth
    obtain ⟨x₂, xs₂, hagree, hboth₂, rfl⟩ := List.forall₂_cons_right_iff.1 hboth₁
    obtain ⟨x₃, xs₃, hclaim, hboth₃, rfl⟩ := List.forall₂_cons_right_iff.1 hboth₂
    obtain rfl := List.forall₂_nil_right_iff.1 hboth₃
    obtain ⟨r, rfl, hid, rfl, rfl⟩ := hstage.of_stage
    obtain ⟨device, claimed, rfl⟩ := hclaim.of_claimed
    rw [← hid] at hagrees
    have hclaimed : (i, coordinatorEvent (.claimChangeSetForApply args.changeSetId device)
        (.ok claimed)) ∈ p.log := by
      rw [hlog]
      exact List.mem_append_left _ (hxs.subset (by simp))
    refine ⟨caller, args, r, j, x₂, device, claimed, hk, hid, hagree.consents hagrees, hxs, ?_,
      ?_, ?_⟩
    · rw [← requests_eq_sentFor hbefore]
      exact hcarries
    · intro j' controller' e' caller' args' hmem hk' hsame
      obtain ⟨l', hl', hexplains'⟩ := exists_mem_of_forall₂ hbefore hmem
      rcases hexplains'.of_client with ⟨caller'', args'', hk'', rfl⟩ | ⟨-, k, hk'', hnot⟩
      · cases hk''.symm.trans hk'
        rw [hsame] at hl'
        exact honly _ _ hl'
      · cases hk''.symm.trans hk'
        exact absurd rfl (hnot caller' args')
    · exact fun j' record answer hmem => not_updated h hR hlog hclaimed hmem
  · exact absurd hquiet hwrite

end Reachable

/-! ## The reviewed calls -/

theorem refines_changeControl_reviewed : ∃ (labels : List FiledLabel)
    (s : String → Option FiledChange),
    Run (plainServer.labMode = true) (FiledPlan.Carries plainServer) labels s ∧
      List.Forall₂ (Explains reviewedPool.calls) reviewedPool.log labels ∧
      Refines reviewedPool s :=
  refines_changeControl emptyWorld_fresh reviewedPool_reachable

/-- The write of the reviewed calls was stored, consented to and claimed before. -/
theorem writes_are_sanctioned_reviewed : ∃ r j consent device claimed,
    Consents plainServer.labMode r consent ∧
      [(j, insertEvent r), consent, (3, coordinatorEvent
        (.claimChangeSetForApply "cs-1" device) (.ok claimed))].Sublist
          (reviewedPool.log.take 22) := by
  have hsplit : reviewedPool.log = reviewedPool.log.take 22 ++
      (3, clientEvent "main" (sendEvent policyWrite.1 (.ok policyWrite.2))) ::
        reviewedPool.log.drop 23 := rfl
  obtain ⟨caller, args, r, j, consent, device, claimed, hk, -, hconsents, hsub, -⟩ :=
    writes_are_sanctioned emptyWorld_fresh reviewedPool_reachable hsplit policyWrite_not_quiet
  have hargs : args = ⟨"main", "cs-1"⟩ := by
    have heq : some (reviewedCalls.getLast (by simp [reviewedCalls])) = some (.apply caller args) :=
      hk
    cases heq
    rfl
  subst hargs
  exact ⟨r, j, consent, device, claimed, hconsents, hsub⟩

end UnifiMcp
