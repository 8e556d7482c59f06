import UnifiMcp.Interaction.Mutex
import UnifiMcp.Server.StageCall

/-!
# What an approval attests to

The coordinator copies into the approval it emits what the recorder last heard of the change
set.  Storing a plan and telling the recorder of it are two questions, and between them there
is the plan lock only.  `approvals_match_proposals` says that it is enough: whenever an approval
is emitted, the last proposal of that change set carries the digest that is approved.
-/

namespace UnifiMcp

open Interaction Collections

variable {C : Coordinator} {server : UnifiServer} {caller : Option CallerCtx}

/-! ## The plan lock -/

/-- The plan lock, with what is asked under it only. -/
def planLock : Lock ServerSig where
  effect
    | .lockPlan => some true
    | .unlockPlan => some false
    | _ => none
  guarded
    | .coordinator (.insertChangeSet _) | .coordinator (.approveChangeSet _ _ _ _ _)
    | .coordinator (.waiveApproval _ _ _ _) | .proposal _ _ _ _ => True
    | _ => False

/-- A question that neither takes the plan lock nor gives it back. -/
def ServerOp.LeavesLock (op : ServerOp) : Prop := planLock.effect op = none

/-- A question that has nothing to do with the plan lock. -/
def ServerOp.Unlocked (op : ServerOp) : Prop := op.LeavesLock ∧ ¬ planLock.guarded op

theorem planLock_keptBy : planLock.KeptBy (ServerStep C) ServerWorld.planLocked where
  acquired := by
    rintro w ⟨op, answer⟩ w' h heffect
    cases op with
    | lockPlan => exact ⟨h.1, by rw [h.2]⟩
    | _ => cases heffect
  kept := by
    rintro w ⟨op, answer⟩ w' h heffect
    cases op with
    | coordinator op => exact h.2.2
    | lockPlan | unlockPlan => cases heffect
    | readDraft id => rw [h.1]
    | releaseDraft id => rcases (show w' = w ∨ w' = _ from h) with h | h <;> rw [h]
    | holdDraft id draft now deadline =>
        rcases answer with e | r
        · rw [show w' = w from h]
        · rw [h.2]
    | _ => rw [show w' = w from h]

theorem brackets_of_unlocked {α : Type} {x : ServerM α}
    (hx : x.Asks ServerOp.Unlocked) : Fallible.Brackets planLock false false x :=
  Fallible.brackets_of_asks (hx.mono fun _ hop => ⟨hop.1, fun h => absurd h hop.2⟩)

/-- What is done under the plan lock gives it back. -/
theorem brackets_withPlanLock {α : Type} {body : ServerM α}
    (hbody : body.Asks ServerOp.LeavesLock) :
    Fallible.Brackets planLock false false (UnifiServer.withPlanLock body) := by
  refine Fallible.brackets_ask_bind.2 ⟨⟨?_, False.elim⟩, fun _ => ?_⟩
  · rintro b heffect
    cases heffect
    rfl
  have hheld : Fallible.Brackets planLock true true body :=
    Fallible.brackets_of_asks (hbody.mono fun _ hop => ⟨hop, fun _ => rfl⟩)
  refine hheld.attempt_bind fun r => ?_
  refine Fallible.brackets_ask_bind.2 ⟨⟨?_, False.elim⟩, fun _ => rfl⟩
  rintro b heffect
  cases heffect
  rfl

theorem asks_unlocked_create (caller : Option CallerCtx) (args : CreateChangeSetArgs) :
    (server.unifiCreateChangeSet caller args).Asks ServerOp.Unlocked :=
  asks_unifiCreateChangeSet ⟨rfl, id⟩ ⟨rfl, id⟩ ⟨rfl, id⟩ ⟨rfl, id⟩ fun _ _ _ => ⟨rfl, id⟩

theorem asks_unlocked_apply (caller : Option CallerCtx) (args : ApplyChangeSetArgs) :
    (server.unifiApplyChangeSet caller args).Asks ServerOp.Unlocked := by
  refine asks_unifiApplyChangeSet ⟨rfl, id⟩ ⟨rfl, id⟩ ⟨rfl, id⟩ fun client claimed => ?_
  have happly : AsksApply ServerOp.Unlocked args.controller client :=
    ⟨⟨rfl, id⟩, fun _ _ => ⟨rfl, id⟩, fun _ _ _ _ => ⟨rfl, id⟩, fun _ _ => ⟨rfl, id⟩,
      fun _ _ => (Program.asks_true _).mono fun _ _ => ⟨rfl, id⟩⟩
  exact happly.applyClaimed claimed

theorem brackets_stage (caller : Option CallerCtx) (args : StageChangeArgs) :
    Fallible.Brackets planLock false false (server.unifiStageChange caller args) := by
  have quiet : ∀ {α : Type} {x : ServerM α}, x.Asks ServerOp.Unlocked →
      Fallible.Brackets planLock false false x := brackets_of_unlocked
  refine (quiet (Fallible.asks_ofExcept _)).bind fun _ => ?_
  split_ifs
  · exact quiet (Fallible.asks_throw _)
  refine (quiet (asks_draft ⟨rfl, id⟩ ⟨rfl, id⟩ ⟨rfl, id⟩)).bind fun draft => ?_
  cases draft with
  | none => exact quiet (asks_refuseStage ⟨rfl, id⟩)
  | some draft =>
      refine (quiet (asks_clientFor _ ⟨rfl, id⟩)).bind fun client => ?_
      refine (quiet (asks_orFail _ _)).bind fun _ => ?_
      refine (quiet (asks_lift (asks_onController (Program.asks_true _)
        fun _ _ => ⟨rfl, id⟩))).bind fun captured => ?_
      refine (quiet (asks_orFail _ _)).bind fun preimage => ?_
      have hclock : ServerOp.Unlocked .unixSecondsNow := ⟨rfl, id⟩
      refine (quiet (asks_server hclock)).bind fun now => ?_
      refine (quiet (Fallible.asks_ofExcept _)).bind fun staged => ?_
      refine (quiet (Fallible.asks_ofExcept _)).bind fun _ => ?_
      refine (brackets_withPlanLock ?_).bind fun _ => quiet (Fallible.asks_pure _)
      have hleaves : ∀ op, ServerOp.LeavesLock (.coordinator op) := fun _ => rfl
      refine (asks_coordinator (hleaves _)).bind fun answer => ?_
      refine (asks_orFail _ _).bind fun _ => ?_
      have hrelease : ServerOp.LeavesLock (.releaseDraft args.changeSetId) := rfl
      refine (asks_server hrelease).bind fun _ => ?_
      split_ifs
      · exact asks_server (rfl : ServerOp.LeavesLock (.proposal _ _ _ _))
      · exact Fallible.asks_pure _

theorem brackets_approve (caller : Option CallerCtx) (args : ApproveChangeSetArgs) :
    Fallible.Brackets planLock false false (server.unifiApproveChangeSet caller args) := by
  have quiet : ∀ {α : Type} {x : ServerM α}, x.Asks ServerOp.Unlocked →
      Fallible.Brackets planLock false false x := brackets_of_unlocked
  have hdecide : ∀ record, Fallible.Brackets planLock false false
      (server.decideApproval caller args record) := by
    intro record
    have hleaves : ∀ op, ServerOp.LeavesLock (.coordinator op) := fun _ => rfl
    refine brackets_withPlanLock ?_
    dsimp only
    split_ifs
    · exact Fallible.asks_throw _
    · exact (asks_coordinator (hleaves _)).bind fun _ => asks_orFail _ _
    · exact (asks_coordinator (hleaves _)).bind fun _ => asks_orFail _ _
  refine (quiet (Fallible.asks_ofExcept _)).bind fun _ => ?_
  split_ifs
  · exact quiet (Fallible.asks_throw _)
  refine (quiet (asks_recordFor ⟨rfl, id⟩)).bind fun record => ?_
  split_ifs
  · exact quiet (Fallible.asks_throw _)
  cases record.preview with
  | none => exact quiet (Fallible.asks_throw _)
  | some preview =>
      refine (quiet (Fallible.asks_ofExcept _)).bind fun plan => ?_
      refine (quiet (asks_orFail _ _)).bind fun _ => ?_
      cases args.expectedDigest with
      | none => exact (hdecide record).bind fun _ => quiet (Fallible.asks_pure _)
      | some expected =>
          dsimp only
          split_ifs
          · exact quiet (Fallible.asks_throw _)
          · exact (hdecide record).bind fun _ => quiet (Fallible.asks_pure _)

/-- **Every handler keeps to the plan lock**: it takes it at most once at a time, gives it back,
and stores, publishes and approves under it only. -/
theorem brackets_handle (k : ChangeSetCall) : (server.handle k).Brackets planLock false false := by
  cases k with
  | create caller args => exact brackets_of_unlocked (asks_unlocked_create caller args)
  | stage caller args => exact brackets_stage caller args
  | approve caller args => exact brackets_approve caller args
  | apply caller args => exact brackets_of_unlocked (asks_unlocked_apply caller args)

/-! ## What a stage call publishes -/

/-- What only looks has nothing to do with the plan lock. -/
theorem ServerOp.OnlyLooks.unlocked {op : ServerOp} (h : op.OnlyLooks) : op.Unlocked := by
  cases op with
  | coordinator op =>
      cases op with
      | changeSet _ _ => exact ⟨rfl, False.elim⟩
      | _ => exact h.elim
  | unixSecondsNow | readDraft _ | clientFor _ | client _ _ => exact ⟨rfl, False.elim⟩
  | _ => exact h.elim

/-- A stage call asks nothing under the plan lock, or ends with publishing. -/
theorem StageRun.publishes {args : StageChangeArgs} {t : List (Event ServerSig)}
    {r : Except String Json} (h : StageRun server args t r) :
    (∀ e ∈ t, e.op.Unlocked) ∨ ∃ before staged answer,
      t = before ++ publishTrace server args.changeSetId staged answer ∧
        (∀ e ∈ before, e.op.OnlyLooks) ∧ staged.id = args.changeSetId := by
  have hlookup : ∀ {now held t}, (∀ e ∈ t, e.op.OnlyLooks) →
      ∀ e ∈ nowEvent now :: readDraftEvent args.changeSetId held :: t, e.op.OnlyLooks := by
    intro now held t ht e he
    rcases List.mem_cons.1 he with rfl | he
    · trivial
    · rcases List.mem_cons.1 he with rfl | he
      · trivial
      · exact ht e he
  cases h with
  | refused message => exact .inl fun e he => by cases he
  | noDraft message now held absent looks =>
      exact .inl fun e he => (hlookup looks e he).unlocked
  | @lapsed t message now draft controller lapsed looks =>
      refine .inl fun e he => ?_
      by_cases hrelease : e = releaseDraftEvent args.changeSetId
      · subst hrelease
        exact ⟨rfl, False.elim⟩
      · have hmem : e ∈ nowEvent now :: readDraftEvent args.changeSetId (some draft) :: t := by
          simpa [hrelease] using he
        exact (hlookup looks e hmem).unlocked
  | drafted now draft controller live tail =>
      cases tail with
      | stopped message refused looks => exact .inl fun e he => (hlookup looks e he).unlocked
      | published before planned preimage staged answer trace looks plan result =>
          subst trace
          exact .inr ⟨_, staged, answer, rfl, hlookup looks, (withPlan_ok plan).1⟩

/-- A stage call that has asked something under the plan lock has begun to publish. -/
theorem publishing_of_begins {args : StageChangeArgs} {t : List (Event ServerSig)}
    (h : (server.unifiStageChange caller args).Begins t) {e : Event ServerSig} (he : e ∈ t)
    (hguarded : planLock.guarded e.op) :
    ∃ before u rest staged answer, t = before ++ u ∧
      publishTrace server args.changeSetId staged answer = u ++ rest ∧ e ∈ u ∧
      (∀ e ∈ before, e.op.OnlyLooks) ∧ staged.id = args.changeSetId := by
  obtain ⟨t', r, hrun⟩ := Program.Begins.complete h
  rcases (stageRun_of_gives hrun).publishes with hunlocked |
    ⟨before, staged, answer, hsplit, looks, hid⟩
  · exact absurd hguarded (hunlocked e (List.mem_append_left _ he)).2
  · rcases List.append_eq_append_iff.1 hsplit with ⟨rest, rfl, -⟩ | ⟨u, rfl, htrace⟩
    · have hlooks := looks e (List.mem_append_left _ he)
      exact absurd hguarded hlooks.unlocked.2
    · refine ⟨before, u, t', staged, answer, rfl, htrace, ?_, looks, hid⟩
      rcases List.mem_append.1 he with he | he
      · exact absurd hguarded (looks e he).unlocked.2
      · exact he

section Publishing

variable {args : StageChangeArgs} {t : List (Event ServerSig)}

/-- With evidence recorded, what is asked after a plan was stored. -/
theorem publishTrace_ok (hevidence : server.evidence = true) (id : String)
    (staged : ChangeSetRecord) :
    publishTrace server id staged (.ok ()) =
      [lockPlanEvent, insertEvent staged, releaseDraftEvent id,
        proposalEvent id staged.device staged.owner staged.digest, unlockPlanEvent] := by
  rw [publishTrace, if_pos hevidence]
  rfl

/-- Only a plan whose insert was granted is stored. -/
theorem answer_of_insert {id : String} {staged r : ChangeSetRecord}
    {answer : Except CoordinatorError Unit}
    (h : insertEvent r ∈ publishTrace server id staged answer) : answer = .ok () ∧ r = staged := by
  cases answer with
  | error e =>
      simp [publishTrace, insertEvent, coordinatorEvent, lockPlanEvent, unlockPlanEvent] at h
  | ok _ =>
      unfold publishTrace at h
      split_ifs at h <;> simpa [insertEvent, coordinatorEvent, lockPlanEvent, unlockPlanEvent,
        releaseDraftEvent, proposalEvent] using h

/-- Only then is it published. -/
theorem answer_of_proposal {id id' device owner digest : String} {staged : ChangeSetRecord}
    {answer : Except CoordinatorError Unit}
    (h : proposalEvent id' device owner digest ∈ publishTrace server id staged answer) :
    answer = .ok () ∧ id' = id ∧ device = staged.device ∧ owner = staged.owner ∧
      digest = staged.digest := by
  cases answer with
  | error e =>
      simp [publishTrace, proposalEvent, coordinatorEvent, lockPlanEvent, unlockPlanEvent] at h
  | ok _ =>
      unfold publishTrace at h
      split_ifs at h
      · simpa [insertEvent, coordinatorEvent, lockPlanEvent, unlockPlanEvent, releaseDraftEvent,
          proposalEvent] using h
      · simp [insertEvent, coordinatorEvent, lockPlanEvent, unlockPlanEvent, releaseDraftEvent,
          proposalEvent] at h

/-- Between storing its plan and publishing it a stage call holds the plan lock. -/
theorem proposal_of_insert (hevidence : server.evidence = true)
    (h : (server.unifiStageChange caller args).Begins t) {r : ChangeSetRecord}
    (hmem : insertEvent r ∈ t) :
    proposalEvent r.id r.device r.owner r.digest ∈ t ∨ planLock.holds false t = true := by
  obtain ⟨before, u, rest, staged, answer, rfl, htrace, hu, looks, hid⟩ :=
    publishing_of_begins h hmem trivial
  have hbefore : planLock.holds false before = false :=
    planLock.holds_of_forall fun e he => (looks e he).unlocked.1
  obtain ⟨rfl, rfl⟩ := answer_of_insert (htrace ▸ List.mem_append_left rest hu)
  rw [planLock.holds_append, hbefore]
  rw [publishTrace_ok hevidence, ← hid] at htrace
  -- The call has got as far as the insert, the release, the proposal or the end.
  rcases u with _ | ⟨e₁, _ | ⟨e₂, _ | ⟨e₃, _ | ⟨e₄, u⟩⟩⟩⟩
  · cases hu
  · cases htrace
    simp [insertEvent, coordinatorEvent, lockPlanEvent] at hu
  · cases htrace
    exact .inr rfl
  · cases htrace
    exact .inr rfl
  · simp only [List.cons_append, List.cons.injEq] at htrace
    obtain ⟨-, -, -, rfl, -⟩ := htrace
    exact .inl (by simp)

/-- What a stage call publishes it has stored. -/
theorem insert_of_proposal (h : (server.unifiStageChange caller args).Begins t)
    {id device owner digest : String} (hmem : proposalEvent id device owner digest ∈ t) :
    ∃ r, insertEvent r ∈ t ∧ r.id = id ∧ r.digest = digest := by
  obtain ⟨before, u, rest, staged, answer, rfl, htrace, hu, looks, hid⟩ :=
    publishing_of_begins h hmem trivial
  obtain ⟨rfl, rfl, rfl, rfl, rfl⟩ := answer_of_proposal (htrace ▸ List.mem_append_left rest hu)
  refine ⟨staged, List.mem_append_right _ ?_, hid, rfl⟩
  rcases u with _ | ⟨e₁, _ | ⟨e₂, u⟩⟩
  · cases hu
  · obtain ⟨rfl, -⟩ := List.cons.inj htrace
    cases List.mem_singleton.1 hu
  · obtain ⟨-, htail⟩ := List.cons.inj htrace
    obtain ⟨rfl, -⟩ := List.cons.inj htail
    simp

/-- A stage call whose insert is refused publishes nothing. -/
theorem no_proposal_of_refused (h : (server.unifiStageChange caller args).Begins t)
    {r : ChangeSetRecord} {error : CoordinatorError}
    (hmem : coordinatorEvent (.insertChangeSet r) (.error error) ∈ t)
    {id device owner digest : String} : proposalEvent id device owner digest ∉ t := by
  intro hproposal
  obtain ⟨before, u, rest, staged, answer, rfl, htrace, hu, looks, hid⟩ :=
    publishing_of_begins h hproposal trivial
  obtain ⟨rfl, -⟩ := answer_of_proposal (htrace ▸ List.mem_append_left rest hu)
  have hrefused : coordinatorEvent (.insertChangeSet r) (.error error) ∈
      publishTrace server args.changeSetId staged (.ok ()) := by
    rcases List.mem_append.1 hmem with hmem | hmem
    · exact (looks _ hmem).elim
    · rw [htrace]
      exact List.mem_append_left _ hmem
  unfold publishTrace at hrefused
  split_ifs at hrefused <;> simp [insertEvent, coordinatorEvent, lockPlanEvent, unlockPlanEvent,
    releaseDraftEvent, proposalEvent] at hrefused

end Publishing

/-! ## What an approve call decides -/

/-- The approvals and waivers of one plan. -/
def ServerOp.DecidesOnly (args : ApproveChangeSetArgs) (record : ChangeSetRecord) :
    ServerOp → Prop
  | .coordinator (.approveChangeSet id _ _ digest _) | .coordinator (.waiveApproval id _ _ digest)
    => id = args.changeSetId ∧ digest = record.digest
  | .coordinator (.insertChangeSet _) | .proposal _ _ _ _ => False
  | _ => True

theorem asks_decideApproval_only {args : ApproveChangeSetArgs} {record : ChangeSetRecord} :
    (server.decideApproval caller args record).Asks (ServerOp.DecidesOnly args record) := by
  refine asks_withPlanLock ?_ trivial trivial
  dsimp only
  split_ifs
  · exact Fallible.asks_throw _
  · exact (asks_coordinator ⟨rfl, rfl⟩).bind fun _ => asks_orFail _ _
  · exact (asks_coordinator ⟨rfl, rfl⟩).bind fun _ => asks_orFail _ _

/-- The coordinator approves a plan by its digest, or waives its approval, and emits an
approval. -/
inductive Decides : Event ServerSig → String → String → Prop where
  | approved (id device approver digest : String) (actorType : ActorType)
      (answer : Except CoordinatorError ApprovalOutcome) :
      Decides (coordinatorEvent (.approveChangeSet id device approver digest actorType) answer) id
        digest
  | waived (id device approver digest : String) (answer : Except CoordinatorError ApprovalOutcome) :
      Decides (coordinatorEvent (.waiveApproval id device approver digest) answer) id digest

theorem Decides.guarded {e : Event ServerSig} {id digest : String} (h : Decides e id digest) :
    planLock.guarded e.op := by
  cases h <;> trivial

theorem Decides.not_mem_publishTrace {e : Event ServerSig} {id digest id' : String}
    (h : Decides e id digest) {staged : ChangeSetRecord}
    {answer : Except CoordinatorError Unit} : e ∉ publishTrace server id' staged answer := by
  intro hmem
  rcases answer with error | ⟨⟨⟩⟩
  · cases h <;> simp [publishTrace, coordinatorEvent, lockPlanEvent, unlockPlanEvent] at hmem
  · unfold publishTrace at hmem
    cases h <;> split_ifs at hmem <;> simp [insertEvent, coordinatorEvent, lockPlanEvent,
      unlockPlanEvent, releaseDraftEvent, proposalEvent] at hmem

/-- What is behind a decision: an approve call that read the record with that digest. -/
theorem decision_of_begins {k : ChangeSetCall} {t : List (Event ServerSig)}
    (h : (server.handle k).Begins t) {e : Event ServerSig} (he : e ∈ t) {id digest : String}
    (hdecides : Decides e id digest) :
    (∃ caller args, k = .approve caller args) ∧ ∃ device record,
      coordinatorEvent (.changeSet id device) (.ok record) ∈ t ∧ digest = record.digest := by
  have hguarded := hdecides.guarded
  cases k with
  | create caller args =>
      exact absurd hguarded ((asks_unlocked_create caller args).of_begins h e he).2
  | apply caller args =>
      exact absurd hguarded ((asks_unlocked_apply caller args).of_begins h e he).2
  | stage caller args =>
      obtain ⟨before, u, rest, staged, answer, rfl, htrace, hu, -⟩ :=
        publishing_of_begins h he hguarded
      have hmem : e ∈ publishTrace server args.changeSetId staged answer := by
        rw [htrace]
        exact List.mem_append_left _ hu
      exact absurd hmem hdecides.not_mem_publishTrace
  | approve caller args =>
      obtain ⟨record, t', hread, hdecide, hmem⟩ :=
        decided_of_begins (P := ServerOp.Unlocked) h ⟨rfl, False.elim⟩ he fun h => h.2 hguarded
      have honly := asks_decideApproval_only.of_begins hdecide e hmem
      refine ⟨⟨caller, args, rfl⟩, args.controller, record, ?_⟩
      cases hdecides with
      | approved | waived =>
          obtain ⟨rfl, rfl⟩ := honly
          exact ⟨hread, rfl⟩

/-! ## Every run -/

/-- The digest that the recorder is told, if it is told of a plan of this change set. -/
def proposedDigest (id : String) : Event ServerSig → Option String
  | ⟨.proposal id' _ _ digest, _⟩ => if id' = id then some digest else none
  | _ => none

/-- What the recorder last heard of a change set. -/
def lastProposal (log : List (Nat × Event ServerSig)) (id : String) : Option String :=
  (log.filterMap fun e => proposedDigest id e.2).getLast?

theorem proposedDigest_eq_some {id digest : String} {e : Event ServerSig}
    (h : proposedDigest id e = some digest) :
    ∃ device owner, e = proposalEvent id device owner digest := by
  obtain ⟨op, answer⟩ := e
  cases op with
  | proposal id' device owner digest' =>
      simp only [proposedDigest] at h
      split_ifs at h with hid
      cases h
      subst hid
      exact ⟨device, owner, rfl⟩
  | _ => cases h

/-- Where a change set is proposed, and with one digest only, that is what was heard last. -/
theorem lastProposal_eq {log : List (Nat × Event ServerSig)} {id digest : String}
    (hsome : ∃ i device owner, (i, proposalEvent id device owner digest) ∈ log)
    (hall : ∀ i device owner digest', (i, proposalEvent id device owner digest') ∈ log →
      digest' = digest) : lastProposal log id = some digest := by
  obtain ⟨i, device, owner, hmem⟩ := hsome
  have hheard : digest ∈ log.filterMap fun e => proposedDigest id e.2 :=
    List.mem_filterMap.2 ⟨_, hmem, if_pos rfl⟩
  have hlast := List.getLast?_eq_getLast_of_ne_nil (List.ne_nil_of_mem hheard)
  obtain ⟨⟨j, e⟩, he, hdigest⟩ :=
    List.mem_filterMap.1 (List.getLast_mem (List.ne_nil_of_mem hheard))
  obtain ⟨device', owner', rfl⟩ := proposedDigest_eq_some hdigest
  rw [lastProposal, hlast, hall j device' owner' _ he]

/-- What the log says of the stored change sets, whatever was stored at the start. -/
structure Filed (init w : ServerWorld C) (log : List (Nat × Event ServerSig)) : Prop where
  stored : ∀ {id r}, C.record w.store id = some r → C.record init.store id = none →
    ∃ i r₀, (i, insertEvent r₀) ∈ log ∧ r₀.id = id ∧ SamePlan r₀ r
  revealed : ∀ {i e id r₀}, (i, e) ∈ log → Reveals e id r₀ →
    ∃ r, C.record w.store id = some r ∧ SamePlan r₀ r

theorem Filed.of_reachable {init : ServerWorld C} {p : CallPool C}
    (h : p.Reachable server.handle (ServerStep C) init) : Filed init p.world p.log := by
  induction h with
  | init => exact ⟨fun hr hnone => absurd (hnone.symm.trans hr) nofun, fun hmem => nomatch hmem⟩
  | start _ _ ih => exact ih
  | @turn p i k e world _ _ _ answered ih =>
      refine ⟨fun {id r'} hr' hnone => ?_, revealed_turn ih.revealed answered⟩
      rcases record_before answered hr' with ⟨-, hid, rfl⟩ | ⟨r, hr, hsame, -⟩
      · exact ⟨i, r', List.mem_append_right _ (List.mem_singleton.2 rfl), hid, .refl r'⟩
      · obtain ⟨j, r₀, hmem, hid, hsame₀⟩ := ih.stored hr hnone
        exact ⟨j, r₀, List.mem_append_left _ hmem, hid, hsame₀.trans hsame⟩

section Reachable

variable {init : ServerWorld C} {p : CallPool C}

/-- A call that has asked something only stage calls ask under the plan lock is one. -/
theorem stage_of_publishing (h : p.Reachable server.handle (ServerStep C) init) {i : Nat}
    {e : Event ServerSig} (hmem : (i, e) ∈ p.log)
    (honly : (∃ r answer, e = coordinatorEvent (.insertChangeSet r) answer) ∨
      ∃ id device owner digest, e = proposalEvent id device owner digest) :
    ∃ caller args, p.calls[i]? = some (.stage caller args) ∧
      (server.unifiStageChange caller args).Begins (ownEvents p.log i) := by
  obtain ⟨k, hk⟩ := h.started hmem
  have hbegins := h.begins hk
  have hown := mem_ownEvents.2 hmem
  have hguarded : planLock.guarded e.op := by
    rcases honly with ⟨r, answer, rfl⟩ | ⟨id, device, owner, digest, rfl⟩ <;> trivial
  cases k with
  | create caller args =>
      exact absurd hguarded ((asks_unlocked_create caller args).of_begins hbegins e hown).2
  | apply caller args =>
      exact absurd hguarded ((asks_unlocked_apply caller args).of_begins hbegins e hown).2
  | stage caller args => exact ⟨caller, args, hk, hbegins⟩
  | approve caller args =>
      obtain ⟨record, t', -, hdecide, he⟩ :=
        decided_of_begins (P := ServerOp.Unlocked) hbegins ⟨rfl, False.elim⟩ hown
          fun h => h.2 hguarded
      have hdecides := asks_decideApproval_only.of_begins hdecide e he
      rcases honly with ⟨r, answer, rfl⟩ | ⟨id, device, owner, digest, rfl⟩ <;>
        exact hdecides.elim

/-- When a plan is decided on, the recorder has last heard of that plan. -/
theorem lastProposal_of_decision (hevidence : server.evidence = true)
    (h : p.Reachable server.handle (ServerStep C) init) {i : Nat} {k : ChangeSetCall}
    {e : Event ServerSig} (begun : (server.handle k).Begins (ownEvents p.log i ++ [e]))
    (hk : p.calls[i]? = some k) {id digest : String} (hdecides : Decides e id digest)
    (hnew : C.record init.store id = none) : lastProposal p.log id = some digest := by
  obtain ⟨⟨caller, args, rfl⟩, device, record, hread, rfl⟩ :=
    decision_of_begins begun (List.mem_append_right _ (List.mem_singleton.2 rfl)) hdecides
  have hread : coordinatorEvent (.changeSet id device) (.ok record) ∈ ownEvents p.log i := by
    rcases List.mem_append.1 hread with hread | hread
    · exact hread
    · obtain rfl := List.mem_singleton.1 hread
      cases hdecides
  have hfiled : Filed init p.world p.log := .of_reachable h
  obtain ⟨r, hr, hsame⟩ := hfiled.revealed (mem_ownEvents.1 hread) (.read id device record)
  have hkept : ∀ {j r₀}, (j, insertEvent r₀) ∈ p.log → r₀.id = id → r₀.digest = record.digest := by
    intro j r₀ hmem hid
    obtain ⟨r', hr', hsame'⟩ := hfiled.revealed hmem (.inserted r₀)
    rw [hid, hr] at hr'
    cases hr'
    exact hsame'.digest.symm.trans hsame.digest
  refine lastProposal_eq ?_ ?_
  · -- The plan was stored by a stage call that has published it: else it held the plan lock.
    obtain ⟨j, r₀, hinsert, hid, -⟩ := hfiled.stored hr hnew
    obtain ⟨caller', args', hj, hstage⟩ := stage_of_publishing h hinsert (.inl ⟨r₀, .ok (), rfl⟩)
    rcases proposal_of_insert hevidence hstage (mem_ownEvents.2 hinsert) with hproposal | hheld
    · rw [hid, hkept hinsert hid] at hproposal
      exact ⟨j, _, _, mem_ownEvents.1 hproposal⟩
    · obtain rfl : i = j :=
        h.alone planLock_keptBy brackets_handle begun hdecides.guarded hheld
      cases hj.symm.trans hk
  · intro j device' owner digest' hproposal
    obtain ⟨caller', args', -, hstage⟩ :=
      stage_of_publishing h hproposal (.inr ⟨_, _, _, _, rfl⟩)
    obtain ⟨r₀, hinsert, hid, rfl⟩ := insert_of_proposal hstage (mem_ownEvents.2 hproposal)
    exact hkept (mem_ownEvents.1 hinsert) hid

/-- **An approval attests to the plan it approves.**  In every order of the calls of one process
run: whenever the coordinator emits an approval of a change set that was not stored at the
start, the last proposal of that change set carries the digest that is approved; and a stage
call whose insert is refused publishes no proposal. -/
theorem approvals_match_proposals (hevidence : server.evidence = true)
    (h : p.Reachable server.handle (ServerStep C) init) :
    (∀ before i e after id digest, p.log = before ++ (i, e) :: after → Decides e id digest →
      C.record init.store id = none → lastProposal before id = some digest) ∧
    ∀ i r error, (i, coordinatorEvent (.insertChangeSet r) (.error error)) ∈ p.log →
      ∀ id device owner digest, (i, proposalEvent id device owner digest) ∉ p.log := by
  constructor
  · induction h with
    | init =>
        intro before i e after id digest hlog
        simp at hlog
    | start _ _ ih => exact ih
    | @turn p j k e' world h call begun answered ih =>
        intro before i e after id digest hlog hdecides hnew
        rcases List.eq_nil_or_concat after with rfl | ⟨after', last, rfl⟩
        · -- The newest entry of the log.
          obtain ⟨rfl, hlast⟩ := List.append_inj' hlog rfl
          cases hlast
          exact lastProposal_of_decision hevidence h begun call hdecides hnew
        · refine ih before i e after' id digest ?_ hdecides hnew
          rw [List.concat_eq_append, ← List.cons_append, ← List.append_assoc] at hlog
          exact (List.append_inj' hlog rfl).1
  · intro i r error hrefused id device owner digest hproposal
    obtain ⟨caller, args, -, hstage⟩ := stage_of_publishing h hrefused (.inl ⟨r, _, rfl⟩)
    exact no_proposal_of_refused hstage (mem_ownEvents.2 hrefused) (mem_ownEvents.2 hproposal)

end Reachable

/-! ## A plan that is approved -/

/-- A server that records evidence. -/
def recordingServer : UnifiServer := { plainServer with evidence := true }

/-- One principal has created and staged, and another has approved. -/
def attestedPool : CallPool MemoryStore.coordinator :=
  (reviewedCalls.take 3).foldl
    (runCall recordingServer.handle (oneController policyClient createReply)) ⟨emptyWorld, [], []⟩

theorem attestedPool_reachable : attestedPool.Reachable recordingServer.handle
    (ServerStep MemoryStore.coordinator) emptyWorld := by
  refine reachable_runCall (reachable_runCall (reachable_runCall .init _ ?_) _ ?_) _ ?_
  all_goals rfl

/-- The approval of this run comes after the proposal of the plan that it approves. -/
theorem approvals_match_proposals_approved : ∃ before i e after,
    attestedPool.log = before ++ (i, e) :: after ∧ Decides e "cs-1" "sha256:1" ∧
      lastProposal before "cs-1" = some "sha256:1" := by
  have hsplit : attestedPool.log = attestedPool.log.take 17 ++
      (2, coordinatorEvent (.approveChangeSet "cs-1" "main" "bob" "sha256:1" .human)
        (.ok ⟨"cs-1", .approved, some "bob", .null, 3600, "sha256:1"⟩)) ::
          [(2, unlockPlanEvent)] := rfl
  exact ⟨_, _, _, _, hsplit, .approved _ _ _ _ _ _,
    (approvals_match_proposals rfl attestedPool_reachable).1 _ _ _ _ _ _ hsplit
      (.approved _ _ _ _ _ _) rfl⟩

end UnifiMcp
