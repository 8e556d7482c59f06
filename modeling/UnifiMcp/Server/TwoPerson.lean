import UnifiMcp.Server.PlanExecution

/-!
# Who staged, and who approves

The owner of a stored change set is that of the draft it was staged into, and so the
principal that created the draft; approving compares the approver with this owner.  In a run
in which drafts are staged into only by those who created them, that keeps everybody from
approving mutations of their own (`owner_is_stager`).  Nothing in the handlers keeps a run to
that: `staged_by_another` is one in which the second principal stages and then approves.
-/

namespace UnifiMcp

open Interaction Collections

variable {C : Coordinator} {server : UnifiServer}

/-- Call `i` is the stage call that supplied the mutations of a stored change set. -/
def StagedBy (p : CallPool C) (i : Nat) (caller : Option CallerCtx) (args : StageChangeArgs)
    (r : ChangeSetRecord) : Prop :=
  p.calls[i]? = some (.stage caller args) ∧ mutationsOf r.actions = .ok args.mutations ∧
    ∃ r₀, (i, coordinatorEvent (.insertChangeSet r₀) (.ok ())) ∈ p.log ∧ SamePlan r₀ r

/-- Every stored change set is owned by the principal that staged its mutations. -/
def OwnedByStagers (p : CallPool C) : Prop :=
  ∀ id r, C.record p.world.store id = some r →
    (∃ i caller args, StagedBy p i caller args r) ∧
      ∀ i caller args, StagedBy p i caller args r → r.owner = principal caller

/-- Nobody has approved mutations that they staged. -/
def NoSelfApproval (p : CallPool C) : Prop :=
  ∀ i caller args digest actorType outcome j caller' args' r,
    p.calls[i]? = some (.approve caller args) →
    (i, coordinatorEvent (.approveChangeSet args.changeSetId args.controller (principal caller)
      digest actorType) (.ok outcome)) ∈ p.log →
    C.record p.world.store args.changeSetId = some r → StagedBy p j caller' args' r →
    principal caller ≠ principal caller'

/-- A draft that a stage call stores a change set from was created by the same principal. -/
def StagedByCreators (p : CallPool C) : Prop :=
  ∀ i caller args j caller' args' draft now deadline r,
    p.calls[i]? = some (.create caller args) → p.calls[j]? = some (.stage caller' args') →
    (i, holdDraftEvent args'.changeSetId draft now deadline) ∈ p.log →
    (j, readDraftEvent args'.changeSetId (some draft)) ∈ p.log →
    (j, coordinatorEvent (.insertChangeSet r) (.ok ())) ∈ p.log →
    principal caller = principal caller'

section Reachable

variable {init : ServerWorld C} {p : CallPool C}

/-- What is stored is what one stage call supplied. -/
theorem exists_stagedBy (hlab : server.labMode = false) (hinit : init.Fresh)
    (h : p.Reachable server.handle (ServerStep C) init) {id : String} {r : ChangeSetRecord}
    (hr : C.record p.world.store id = some r) : ∃ i caller args, StagedBy p i caller args r := by
  obtain ⟨-, i, r₀, hmem, hsame⟩ := (Ledger.of_reachable hlab hinit h).stored hr
  obtain ⟨k, hk, hbegins, hown, hmay⟩ := mayAsk_of_mem_log h hmem
  obtain ⟨caller, args, rfl⟩ := hmay
  obtain ⟨draft, now, preimage, -, -, hplan⟩ := insert_of_begins hbegins hown
  obtain ⟨-, -, -, -, hactions, -⟩ := withPlan_ok hplan
  refine ⟨i, caller, args, hk, ?_, r₀, hmem, hsame⟩
  rw [hsame.actions, hactions, mutationsOf_actionsFor]

/-- The owner of a stored change set is the principal that created its draft. -/
theorem owner_is_creator (hlab : server.labMode = false) (hinit : init.Fresh)
    (h : p.Reachable server.handle (ServerStep C) init) {r : ChangeSetRecord} {j : Nat}
    {caller' : Option CallerCtx} {args' : StageChangeArgs}
    (hstaged : StagedBy p j caller' args' r) :
    ∃ i caller args draft now deadline r₀, p.calls[i]? = some (.create caller args) ∧
      (i, holdDraftEvent args'.changeSetId draft now deadline) ∈ p.log ∧
      (j, readDraftEvent args'.changeSetId (some draft)) ∈ p.log ∧
      (j, coordinatorEvent (.insertChangeSet r₀) (.ok ())) ∈ p.log ∧
      r.owner = principal caller := by
  obtain ⟨hk', -, r₀, hmem, hsame⟩ := hstaged
  obtain ⟨draft, now', preimage, hread, -, hplan⟩ :=
    insert_of_begins (h.begins hk') (mem_ownEvents.2 hmem)
  have howner := (withPlan_ok hplan).2.1
  have hreadMem := mem_ownEvents.1 hread
  obtain ⟨i, now, deadline, hheld⟩ := (Ledger.of_reachable hlab hinit h).readDraft hreadMem
  obtain ⟨k, hk, -, -, hmay⟩ := mayAsk_of_mem_log h hheld
  obtain ⟨caller, args, rfl, hdraft, -⟩ := hmay
  exact ⟨i, caller, args, draft, now, deadline, r₀, hk, hheld, hreadMem, hmem,
    (hsame.owner.trans howner).trans hdraft⟩

/-- **The owner is the stager, where drafts are staged into by their creators**, and then nobody
approves mutations of their own. -/
theorem owner_is_stager (hlab : server.labMode = false) (hinit : init.Fresh)
    (h : p.Reachable server.handle (ServerStep C) init) (hcreators : StagedByCreators p) :
    OwnedByStagers p ∧ NoSelfApproval p := by
  have howner : ∀ {r i caller args}, StagedBy p i caller args r → r.owner = principal caller := by
    intro r j caller' args' hstaged
    obtain ⟨i, caller, args, draft, now, deadline, r₀, hk, hheld, hread, hstored, howner⟩ :=
      owner_is_creator hlab hinit h hstaged
    exact howner.trans (hcreators i caller args j caller' args' draft now deadline r₀ hk
      hstaged.1 hheld hread hstored)
  constructor
  · intro id r hr
    exact ⟨exists_stagedBy hlab hinit h hr, fun i caller args => howner⟩
  · intro i caller args digest actorType outcome j caller' args' r hk hmem hr hstaged hself
    obtain ⟨read, hread, -, -, -, hother⟩ := approve_of_begins (h.begins hk) (mem_ownEvents.2 hmem)
    obtain ⟨r', hr', hsame⟩ := (Ledger.of_reachable hlab hinit h).read (mem_ownEvents.1 hread)
    obtain rfl : r' = r := Option.some.inj (hr'.symm.trans hr)
    -- The approver was compared with the owner of the record that was read.
    apply hother
    rw [hself, ← howner hstaged, hsame.owner]

end Reachable

/-- In the run of `reviewedPool` one principal creates and stages. -/
theorem reviewedPool_stagedByCreators : StagedByCreators reviewedPool := by
  have halice : ∀ k ∈ reviewedCalls, ∀ caller,
      ((∃ args, k = .create caller args) ∨ ∃ args, k = .stage caller args) →
        principal caller = "alice" := by
    intro k hk caller h
    simp only [reviewedCalls, List.mem_cons, List.not_mem_nil, or_false] at hk
    rcases hk with rfl | rfl | rfl | rfl <;> rcases h with ⟨args, h⟩ | ⟨args, h⟩ <;> cases h <;> rfl
  intro i caller args j caller' args' draft now deadline r hk hk' _ _ _
  have hcalls : reviewedPool.calls = reviewedCalls := rfl
  rw [hcalls] at hk hk'
  rw [halice _ (List.mem_of_getElem? hk) caller (.inl ⟨args, rfl⟩),
    halice _ (List.mem_of_getElem? hk') caller' (.inr ⟨args', rfl⟩)]

theorem owner_is_stager_reviewed : OwnedByStagers reviewedPool ∧ NoSelfApproval reviewedPool :=
  owner_is_stager rfl emptyWorld_fresh reviewedPool_reachable reviewedPool_stagedByCreators

/-! ## A principal that approves what it staged -/

/-- One principal creates; another stages, and after its scope has changed approves. -/
def selfApprovalCalls : List ChangeSetCall :=
  [.create (humanWith "alice" "unifi_create_change_set" none) ⟨"main", "block it"⟩,
    .stage (humanWith "bob" "unifi_stage_change" none)
      ⟨"main", "cs-1", [.create "firewall_policy" blockPolicy]⟩,
    .approve (humanWith "bob" "unifi_approve_change_set" none) ⟨"main", "cs-1", none⟩]

/-- The pool after these calls. -/
def selfApprovalPool : CallPool MemoryStore.coordinator :=
  selfApprovalCalls.foldl (runCall plainServer.handle (oneController policyClient createReply))
    ⟨emptyWorld, [], []⟩

theorem selfApprovalPool_reachable : selfApprovalPool.Reachable plainServer.handle
    (ServerStep MemoryStore.coordinator) emptyWorld := by
  refine reachable_runCall (reachable_runCall (reachable_runCall .init _ ?_) _ ?_) _ ?_
  all_goals rfl

/-- The change set as it is stored in the end. -/
def selfApprovedRecord : ChangeSetRecord where
  id := "cs-1"
  owner := "alice"
  device := "main"
  expectedCandidateFingerprint := "sha256:3"
  actions := (actionsFor [.create "firewall_policy" blockPolicy] (.fromResources [])).map
    StagedAction.toJson
  digest := "sha256:1"
  state := .approved
  approver := some "bob"
  expiresAtUnix := 3600
  preview := some ⟨"sha256:2", "preview"⟩

theorem selfApproved_stored :
    MemoryStore.coordinator.record selfApprovalPool.world.store "cs-1" =
      some selfApprovedRecord := rfl

theorem selfApproved_stagedBy : StagedBy selfApprovalPool 1
    (humanWith "bob" "unifi_stage_change" none)
    ⟨"main", "cs-1", [.create "firewall_policy" blockPolicy]⟩ selfApprovedRecord := by
  refine ⟨rfl, mutationsOf_actionsFor _ _,
    { selfApprovedRecord with state := .planned, approver := none }, ?_, rfl, rfl, rfl, rfl, rfl⟩
  exact List.mem_of_getElem? (i := 11) rfl

/-- A run in which the owner is not the stager, who approves mutations of its own. -/
theorem staged_by_another :
    plainServer.labMode = false ∧ emptyWorld.Fresh ∧
      selfApprovalPool.Reachable plainServer.handle (ServerStep MemoryStore.coordinator)
        emptyWorld ∧
      ¬ OwnedByStagers selfApprovalPool ∧ ¬ NoSelfApproval selfApprovalPool := by
  refine ⟨rfl, emptyWorld_fresh, selfApprovalPool_reachable, ?_, ?_⟩
  · intro h
    have howner := (h _ _ selfApproved_stored).2 1 _ _ selfApproved_stagedBy
    exact absurd howner (by decide)
  · intro h
    refine h 2 (humanWith "bob" "unifi_approve_change_set" none) ⟨"main", "cs-1", none⟩ "sha256:1"
      .human ⟨"cs-1", .approved, some "bob", .null, 3600, "sha256:1"⟩ 1 _ _ _ rfl ?_
      selfApproved_stored selfApproved_stagedBy rfl
    exact List.mem_of_getElem? (i := 16) rfl

end UnifiMcp
