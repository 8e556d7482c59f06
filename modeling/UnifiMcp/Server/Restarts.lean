import UnifiMcp.Interaction.Restart
import UnifiMcp.Server.ChangeControl
import UnifiMcp.Server.ShownPlan

/-!
# A server that is started again

A server can come to an end at any moment, in the middle of calls, and be started again with
another configuration.  The drafts and the plan lock go with it; the coordinator reads its change
sets back, and a change set that was being applied is not one that can be applied again.
`Chronicle` follows the stored change sets through all lives of a server and every order of the
calls of all tools.  From it: of all calls of all lives one at most carries out a change set
(`applied_once_over_restarts`), and what it carries out was staged in this life or an earlier one
and consented to since, and it started before the approval time that was set then had gone by
(`applied_as_agreed_over_restarts`).
-/

namespace UnifiMcp

open Interaction Collections

variable {C : Coordinator} {server : UnifiServer} {kit : ReadKit}

/-! ## Being started again -/

/-- What a server is started with. -/
structure ServerConfig where
  server : UnifiServer
  kit : ReadKit

/-- The handlers of a server. -/
def ServerConfig.code (c : ServerConfig) (k : ServerCall) :
    Program ServerSig (Except String Json) :=
  c.server.handleCall c.kit k

/-- The lives of a server. -/
abbrev ServerLives (C : Coordinator) : Type :=
  Lives ServerSig (ServerWorld C) ServerCall ServerConfig

/-- A server has been started again: nothing is held and the lock is free, and the coordinator has
read its change sets back, some of them lapsed. -/
structure Restarted (w w' : ServerWorld C) : Prop where
  stays : ∀ {id r}, C.record w.store id = some r → ∃ r', C.record w'.store id = some r' ∧
    SamePlan r r' ∧ r'.expiresAtUnix = r.expiresAtUnix ∧
      (r'.state = r.state ∨ r'.state ≠ .planned ∧ r'.state ≠ .approved ∧ r'.state ≠ .applying)
  added : ∀ {id}, C.record w.store id = none → C.record w'.store id = none
  drafts : ∀ id, w'.drafts.get? id = none
  unlocked : w'.planLocked = false

/-- A coordinator that keeps the deadline of a change set, unless it is told to record another. -/
def Coordinator.KeepsDeadlines (C : Coordinator) : Prop := C.Keeps ChangeSetRecord.expiresAtUnix

/-! ## What a call was told of the time -/

/-- The plan that is made has the deadline of the record it is made for. -/
theorem expiresAtUnix_withPlan {record r : ChangeSetRecord} {mutations : List StagedMutation}
    {preimage : Preimage} {description : String}
    (h : server.withPlan record mutations preimage description = .ok r) :
    r.expiresAtUnix = record.expiresAtUnix := by
  unfold UnifiServer.withPlan at h
  obtain ⟨artifact, -, h⟩ := bind_eq_ok.1 h
  obtain ⟨digest, -, h⟩ := bind_eq_ok.1 h
  cases h
  rfl

/-- What is staged has its deadline from a time that the call was told. -/
theorem told_of_stage {caller : Option CallerCtx} {args : StageChangeArgs}
    {t : List (Event ServerSig)} (h : (server.unifiStageChange caller args).Begins t)
    {r : ChangeSetRecord} (hmem : insertEvent r ∈ t) :
    ∃ now, nowEvent now ∈ t ∧ r.expiresAtUnix = saturatingAdd now server.approvalTtl := by
  have hnot : ¬ ServerOp.NotInsert (insertEvent r).op := id
  have hquiet : ∀ {α : Type} (x : Except String α),
      (Fallible.ofExcept x : ServerM α).Asks ServerOp.NotInsert := fun x =>
    Fallible.asks_ofExcept x
  obtain ⟨t₁, t₂, -, rfl, -, h₂, hmem₂, -⟩ :=
    Fallible.begins_bind_of_mem (hquiet _) h hmem hnot
  split_ifs at h₂
  · rw [Fallible.begins_throw h₂] at hmem₂
    cases hmem₂
  · obtain ⟨t₃, t₄, draft, rfl, -, h₄, hmem₄, -⟩ :=
      Fallible.begins_bind_of_mem (P := ServerOp.NotInsert) (asks_draft trivial trivial trivial)
        h₂ hmem₂ hnot
    cases draft with
    | none =>
        have hrefuse : (UnifiServer.refuseStage args.changeSetId args.controller).Asks
            ServerOp.NotInsert := asks_refuseStage trivial
        exact absurd (hrefuse.of_begins h₄ _ hmem₄) hnot
    | some draft =>
        obtain ⟨t₅, t₆, client, rfl, -, h₆, hmem₆, -⟩ :=
          Fallible.begins_bind_of_mem (P := ServerOp.NotInsert) (asks_clientFor _ trivial) h₄ hmem₄
            hnot
        obtain ⟨t₇, t₈, -, rfl, -, h₈, hmem₈, -⟩ :=
          Fallible.begins_bind_of_mem (P := ServerOp.NotInsert) (asks_orFail _ _) h₆ hmem₆ hnot
        obtain ⟨t₉, t₁₀, captured, rfl, -, h₁₀, hmem₁₀, -⟩ :=
          Fallible.begins_bind_of_mem (P := ServerOp.NotInsert)
            (asks_lift (asks_onController (Program.asks_true _) fun _ _ => trivial)) h₈ hmem₈ hnot
        obtain ⟨t₁₁, t₁₂, preimage, rfl, -, h₁₂, hmem₁₂, -⟩ :=
          Fallible.begins_bind_of_mem (P := ServerOp.NotInsert) (asks_orFail _ _) h₁₀ hmem₁₀ hnot
        -- Here the time is asked for.
        rcases Fallible.begins_ask_bind.1 h₁₂ with rfl | ⟨now, rest, rfl, h₁₃⟩
        · cases hmem₁₂
        · have hmem₁₃ : insertEvent r ∈ rest := by
            refine (List.mem_cons.1 hmem₁₂).resolve_left fun heq => ?_
            cases heq
          obtain ⟨t₁₄, t₁₅, staged, rfl, h₁₄, h₁₅, hmem₁₅, -⟩ :=
            Fallible.begins_bind_of_mem (hquiet _) h₁₃ hmem₁₃ hnot
          obtain ⟨-, t₁₆, h₁₆, hmem₁₆⟩ := Fallible.begins_skip (hquiet _) h₁₅ hmem₁₅ hnot
          have hpublish : (server.publish args.changeSetId staged).Asks
              (ServerOp.InsertsOnly staged) :=
            asks_publish trivial trivial rfl trivial trivial
          have honly : r = staged :=
            (hpublish.bind fun _ => Fallible.asks_pure _).of_begins h₁₆ _ hmem₁₆
          refine ⟨now, by simp [nowEvent], ?_⟩
          rw [honly, expiresAtUnix_withPlan (Fallible.gives_ofExcept.1 h₁₄).2]
          rfl

/-- What carries a plan out was told a time before its deadline. -/
theorem told_of_applyClaimed {caller : Option CallerCtx} {args : ApplyChangeSetArgs}
    {client : UnifiClient} {claimed : ChangeSetRecord} {t : List (Event ServerSig)}
    (h : (server.applyClaimed caller args client claimed).Begins t) {e : Event ClientSig}
    (hmem : e ∈ clientTrace t) : ∃ now, nowEvent now ∈ t ∧ now < claimed.expiresAtUnix := by
  rcases Fallible.begins_ask_bind.1 h with rfl | ⟨now, rest, rfl, hrest⟩
  · cases hmem
  · refine ⟨now, List.mem_cons_self, Nat.lt_of_not_le fun hlate => ?_⟩
    rw [if_pos hlate] at hrest
    have hnone : clientTrace rest = [] :=
      clientTrace_eq_nil ((asks_abandon claimed _ trivial).of_begins hrest)
    have htrace : clientTrace (nowEvent now :: rest) = clientTrace rest := rfl
    rw [show clientTrace (⟨.unixSecondsNow, now⟩ :: rest) = _ from htrace, hnone] at hmem
    cases hmem

/-! ## A chronicle of all lives -/

/-- A stage call of a life supplied the plan of a change set, and its deadline is the approval time
of that life after a time that the call was told. -/
def StagedIn (l : ServerLives C) (m : Nat) (r : ChangeSetRecord) : Prop :=
  ∃ (n : Nat) (c : ServerConfig) (stager : Option CallerCtx) (mutations : List StagedMutation)
      (preimage : Preimage) (now : Nat),
    l.Made m n c (.changeSet (.stage stager ⟨r.device, r.id, mutations⟩)) ∧
    l.Asked m n (nowEvent now) ∧
    r.actions = (actionsFor mutations preimage).map StagedAction.toJson ∧
    r.expiresAtUnix = saturatingAdd now c.server.approvalTtl

/-- Between two lives there was consent to a change set, by the rules of the life it was given
in.  Like `Consents` this is about the call and not about its answer, and it goes by lives alone:
where the consent stands among the calls of one life is said by the change control of that
life. -/
def Consented (l : ServerLives C) (first last : Nat) (r : ChangeSetRecord) : Prop :=
  ∃ (m j : Nat) (c : ServerConfig) (k : ServerCall) (e : Event ServerSig), first ≤ m ∧ m ≤ last ∧
    l.Made m j c k ∧ l.Asked m j e ∧ Consents c.server.labMode r (j, e)

/-- What is stored after some lives, and what its claims have left of it. -/
structure Chronicle (l : ServerLives C) : Prop where
  stored : ∀ {id r}, C.record l.pool.world.store id = some r → r.id = id ∧
    ∃ m, StagedIn l m r ∧
      (r.state = .approved ∨ r.state = .applying → Consented l m l.past.length r)
  read : ∀ {j id device r₀},
    (j, coordinatorEvent (.changeSet id device) (.ok r₀)) ∈ l.pool.log →
      ∃ r, C.record l.pool.world.store id = some r ∧ SamePlan r₀ r
  claimed : ∀ {m i id device r₀},
    l.Asked m i (coordinatorEvent (.claimChangeSetForApply id device) (.ok r₀)) →
      ∃ r, C.record l.pool.world.store id = some r ∧ SamePlan r₀ r ∧ r.state ≠ .planned ∧
        r.state ≠ .approved ∧ ∃ first, StagedIn l first r₀ ∧ Consented l first m r₀
  claimedOnce : ∀ {m m' i i' id device device' r r'},
    l.Asked m i (coordinatorEvent (.claimChangeSetForApply id device) (.ok r)) →
      l.Asked m' i' (coordinatorEvent (.claimChangeSetForApply id device') (.ok r')) →
        m = m' ∧ i = i'

section Later

variable {l l' : ServerLives C} {r r' : ChangeSetRecord} {m first last last' : Nat}

theorem StagedIn.samePlan (h : StagedIn l m r) (hsame : SamePlan r r')
    (hdeadline : r'.expiresAtUnix = r.expiresAtUnix) : StagedIn l m r' := by
  unfold StagedIn at h ⊢
  rw [hsame.device, hsame.id, hsame.actions, hdeadline]
  exact h

theorem StagedIn.later (h : StagedIn l m r) (hext : Lives.Extends l l') : StagedIn l' m r := by
  obtain ⟨n, c, stager, mutations, preimage, now, hmade, hasked, hrest⟩ := h
  exact ⟨n, c, stager, mutations, preimage, now, hext.made hmade, hext.asked hasked, hrest⟩

theorem StagedIn.le {past : List (ServerConfig × ServerPool C)} {c : ServerConfig}
    {p : ServerPool C} (h : StagedIn (⟨past, c, p⟩ : ServerLives C) m r) : m ≤ past.length := by
  obtain ⟨n, c, stager, mutations, preimage, now, -, hasked, -⟩ := h
  exact hasked.le

theorem Consents.samePlan {labMode : Bool} {x : Nat × Event ServerSig}
    (h : Consents labMode r x) (hsame : SamePlan r r') : Consents labMode r' x := by
  cases h with
  | approved i approver answer other =>
      rw [← hsame.id, ← hsame.device, ← hsame.digest]
      exact .approved i approver answer (hsame.owner ▸ other)
  | waived i answer lab =>
      rw [← hsame.id, ← hsame.device, ← hsame.digest, ← hsame.owner]
      exact .waived i answer lab

theorem Consented.samePlan (h : Consented l first last r) (hsame : SamePlan r r') :
    Consented l first last r' := by
  obtain ⟨m, j, c, k, e, hfirst, hlast, hmade, hasked, hconsents⟩ := h
  exact ⟨m, j, c, k, e, hfirst, hlast, hmade, hasked, hconsents.samePlan hsame⟩

theorem Consented.later (h : Consented l first last r) (hext : Lives.Extends l l')
    (hlast : last ≤ last') : Consented l' first last' r := by
  obtain ⟨m, j, c, k, e, hfirst, hm, hmade, hasked, hconsents⟩ := h
  exact ⟨m, j, c, k, e, hfirst, hm.trans hlast, hext.made hmade, hext.asked hasked, hconsents⟩

end Later

section Steps

variable {init : ServerWorld C} {past : List (ServerConfig × ServerPool C)} {c : ServerConfig}
  {p : ServerPool C}

theorem Chronicle.fresh (hinit : init.Fresh) :
    Chronicle (⟨[], c, ⟨init, [], []⟩⟩ : ServerLives C) where
  stored hr := by rw [hinit.1] at hr; cases hr
  read hmem := by cases hmem
  claimed hasked := by cases Lives.asked_current.1 (Nat.le_zero.1 hasked.le ▸ hasked)
  claimedOnce hasked := by cases Lives.asked_current.1 (Nat.le_zero.1 hasked.le ▸ hasked)

theorem Chronicle.start (hl : Chronicle ⟨past, c, p⟩) (k : ServerCall) :
    Chronicle ⟨past, c, ⟨p.world, p.calls ++ [k], p.log⟩⟩ where
  stored hr := by
    obtain ⟨hid, m, hstaged, hconsented⟩ := hl.stored hr
    exact ⟨hid, m, hstaged.later (.start k), fun hstate =>
      (hconsented hstate).later (.start k) le_rfl⟩
  read hmem := hl.read hmem
  claimed hasked := by
    obtain ⟨r, hr, hsame, hplanned, happroved, first, hstaged, hconsented⟩ :=
      hl.claimed hasked.of_start
    exact ⟨r, hr, hsame, hplanned, happroved, first, hstaged.later (.start k),
      hconsented.later (.start k) le_rfl⟩
  claimedOnce hasked hasked' := hl.claimedOnce hasked.of_start hasked'.of_start

/-- A server that is started again has the same chronicle. -/
theorem Chronicle.restart (hl : Chronicle ⟨past, c, p⟩) (c' : ServerConfig)
    {world : ServerWorld C} (hagain : Restarted p.world world) :
    Chronicle ⟨past ++ [(c, p)], c', ⟨world, [], []⟩⟩ where
  stored := by
    intro id r' hr'
    cases hr : C.record p.world.store id with
    | none =>
        rw [hagain.added hr] at hr'
        cases hr'
    | some r =>
        obtain ⟨r'', hr'', hsame, hdeadline, hstate⟩ := hagain.stays hr
        obtain rfl : r'' = r' := Option.some.inj (hr''.symm.trans hr')
        obtain ⟨hid, m, hstaged, hconsented⟩ := hl.stored hr
        refine ⟨hsame.id.trans hid, m, (hstaged.samePlan hsame hdeadline).later (.restart c' world),
          fun happroved => ?_⟩
        have hbefore : r.state = .approved ∨ r.state = .applying := by
          rcases hstate with heq | ⟨-, hnot, hnot'⟩
          · rwa [heq] at happroved
          · exact absurd happroved (not_or.2 ⟨hnot, hnot'⟩)
        refine ((hconsented hbefore).samePlan hsame).later (.restart c' world) ?_
        rw [List.length_append]
        exact Nat.le_add_right _ _
  read hmem := by cases hmem
  claimed := by
    intro m i id device r₀ hasked
    obtain ⟨r, hr, hsame, hplanned, happroved, first, hstaged, hconsented⟩ :=
      hl.claimed hasked.of_restart
    obtain ⟨r', hr', hsame', -, hstate⟩ := hagain.stays hr
    have hgone : r'.state ≠ .planned ∧ r'.state ≠ .approved := by
      rcases hstate with heq | ⟨hnot, hnot', -⟩
      · rw [heq]
        exact ⟨hplanned, happroved⟩
      · exact ⟨hnot, hnot'⟩
    exact ⟨r', hr', hsame.trans hsame', hgone.1, hgone.2, first,
      hstaged.later (.restart c' world), hconsented.later (.restart c' world) le_rfl⟩
  claimedOnce hasked hasked' := hl.claimedOnce hasked.of_restart hasked'.of_restart

section Turn

variable {i : Nat} {k : ServerCall} {e : Event ServerSig} {world : ServerWorld C}

/-- What a turn asks is asked in the life the server is in. -/
theorem asked_turn : (⟨past, c, ⟨world, p.calls, p.log ++ [(i, e)]⟩⟩ : ServerLives C).Asked
    past.length i e :=
  Lives.asked_current.2 (List.mem_append_right _ (List.mem_singleton.2 rfl))

/-- What a call was asked to record is the end of an apply. -/
theorem updates_of_begins (begun : (c.code k).Begins (ownEvents p.log i ++ [e]))
    (record : ChangeSetRecord) (hop : e.op = .coordinator (.updateChangeSet record)) :
    record.state = .applied ∨ record.state = .failed := by
  have hmem : e ∈ ownEvents p.log i ++ [e] := List.mem_append_right _ (List.mem_singleton.2 rfl)
  obtain ⟨call, -, hmay⟩ := changeSet_of_begins begun hmem (by rw [hop]; exact fun _ h => h)
    (by rw [hop]; exact fun _ h => h)
  rw [hop] at hmay
  exact hmay.2

/-- A change set that has just been stored was staged by the call that stored it. -/
theorem stagedIn_of_insert (call : p.calls[i]? = some k) {r : ChangeSetRecord}
    (begun : (c.code k).Begins (ownEvents p.log i ++ [insertEvent r])) :
    r.state = .planned ∧ StagedIn (⟨past, c, p⟩ : ServerLives C) past.length r := by
  have hmem : insertEvent r ∈ ownEvents p.log i ++ [insertEvent r] :=
    List.mem_append_right _ (List.mem_singleton.2 rfl)
  obtain ⟨stager, mutations, d, now', preimage, rfl, -, -, hplan⟩ := stage_of_begins begun hmem
  obtain ⟨-, -, -, hstate, hactions, -⟩ := withPlan_ok hplan
  have hstage : (c.server.unifiStageChange stager ⟨r.device, r.id, mutations⟩).Begins
      (ownEvents p.log i ++ [insertEvent r]) := begun
  obtain ⟨now, hnow, hdeadline⟩ := told_of_stage hstage hmem
  have htold : (i, nowEvent now) ∈ p.log := by
    refine mem_ownEvents.1 ((List.mem_append.1 hnow).resolve_right fun heq => ?_)
    cases List.mem_singleton.1 heq
  exact ⟨hstate, i, c, stager, mutations, preimage, now, Lives.made_current.2 ⟨rfl, call⟩,
    Lives.asked_current.2 htold, hactions, hdeadline⟩

/-- What is recorded of a change set is recorded with the deadline of its claim. -/
theorem claimed_of_update (hl : Chronicle ⟨past, c, p⟩)
    (hpool : p.Reachable c.code (ServerStep C) init) (call : p.calls[i]? = some k)
    {record : ChangeSetRecord} {answer : Except CoordinatorError Unit}
    (begun : (c.code k).Begins (ownEvents p.log i ++
      [coordinatorEvent (.updateChangeSet record) answer]))
    (answered : ServerStep C p.world (coordinatorEvent (.updateChangeSet record) answer) world)
    {r : ChangeSetRecord} (hr : C.record p.world.store record.id = some r) :
    ∃ claimed first, SamePlan claimed r ∧ record.expiresAtUnix = claimed.expiresAtUnix ∧
      StagedIn ⟨past, c, p⟩ first claimed ∧
      Consented ⟨past, c, p⟩ first past.length claimed := by
  obtain ⟨caller, args, claimed, state, rfl, hclaim, rfl⟩ :=
    claimed_before hpool call begun answered
  obtain ⟨r', hr', hsame, -, -, first, hstaged, hconsented⟩ :=
    hl.claimed (Lives.asked_current.2 hclaim)
  have hid : claimed.id = args.changeSetId := hsame.id.symm.trans (hl.stored hr').1
  have hr'' : C.record p.world.store claimed.id = some r := hr
  rw [hid, hr'] at hr''
  cases hr''
  exact ⟨claimed, first, hsame, rfl, hstaged, hconsented⟩

/-- A change set that is approved or being applied after a turn has been consented to. -/
theorem consented_after (hl : Chronicle ⟨past, c, p⟩) (call : p.calls[i]? = some k)
    (begun : (c.code k).Begins (ownEvents p.log i ++ [e])) {r r' : ChangeSetRecord} {first : Nat}
    (hr : C.record p.world.store r.id = some r) (hsame : SamePlan r r')
    (hchange : StateStep e r r'.state) (hfirst : first ≤ past.length)
    (hbefore : r.state = .approved ∨ r.state = .applying →
      Consented ⟨past, c, p⟩ first past.length r)
    (hafter : r'.state = .approved ∨ r'.state = .applying) :
    Consented ⟨past, c, ⟨world, p.calls, p.log ++ [(i, e)]⟩⟩ first past.length r' := by
  have hkept : r.state = .approved ∨ r.state = .applying →
      Consented ⟨past, c, ⟨world, p.calls, p.log ++ [(i, e)]⟩⟩ first past.length r' :=
    fun hstate => ((hbefore hstate).samePlan hsame).later (.turn i e world) le_rfl
  have hnew : Consents c.server.labMode r (i, e) →
      Consented ⟨past, c, ⟨world, p.calls, p.log ++ [(i, e)]⟩⟩ first past.length r' :=
    fun hconsents => ⟨past.length, i, c, k, e, hfirst, le_rfl,
      Lives.made_current.2 ⟨rfl, call⟩, asked_turn, hconsents.samePlan hsame⟩
  rcases hchange with hstate | ⟨op, answer, rfl, hchange⟩
  · exact hkept (hstate ▸ hafter)
  · cases hchange with
    | unchanged hstate => exact hkept (hstate ▸ hafter)
    | approved approver hop planned other =>
        subst hop
        exact hnew (.approved i approver answer other)
    | waived approver digest hop planned =>
        subst hop
        have hmem : coordinatorEvent (.waiveApproval r.id r.device approver digest) answer ∈
            ownEvents p.log i ++ [coordinatorEvent (.waiveApproval r.id r.device approver digest)
              answer] := List.mem_append_right _ (List.mem_singleton.2 rfl)
        obtain ⟨set, rfl, -⟩ := changeSet_of_begins begun hmem (fun _ h => h) fun _ h => h
        have hset : (c.server.handle set).Begins _ := begun
        obtain ⟨hlab, device, read, hread, rfl, rfl⟩ := waive_of_begins hset hmem
        have hread' : (i, coordinatorEvent (.changeSet r.id device) (.ok read)) ∈ p.log := by
          refine mem_ownEvents.1 ((List.mem_append.1 hread).resolve_right fun heq => ?_)
          cases List.mem_singleton.1 heq
        obtain ⟨r₀, hr₀, hsame₀⟩ := hl.read hread'
        obtain rfl : r₀ = r := Option.some.inj (hr₀.symm.trans hr)
        refine hnew ?_
        rw [← hsame₀.owner, ← hsame₀.digest]
        exact .waived i answer hlab
    | claimed hop approved => exact hkept (.inl approved)
    | updated record hop hid hstate =>
        subst hop
        rcases updates_of_begins begun record rfl with h | h <;> rw [hstate, h] at hafter <;>
          rcases hafter with h' | h' <;> cases h'
    | retired hstate =>
        rcases hafter with h | h
        · exact absurd h hstate.2.1
        · exact absurd h hstate.2.2

/-- A change set that is stored after a turn and was stored before has been staged, and consented
to if need be. -/
theorem stored_after (hdeadlines : C.KeepsDeadlines) (hl : Chronicle ⟨past, c, p⟩)
    (hpool : p.Reachable c.code (ServerStep C) init) (call : p.calls[i]? = some k)
    (begun : (c.code k).Begins (ownEvents p.log i ++ [e])) (answered : ServerStep C p.world e world)
    {id : String} {r r' : ChangeSetRecord} (hr : C.record p.world.store id = some r)
    (hr' : C.record world.store id = some r') (hsame : SamePlan r r')
    (hchange : StateStep e r r'.state) :
    ∃ m, StagedIn ⟨past, c, ⟨world, p.calls, p.log ++ [(i, e)]⟩⟩ m r' ∧
      (r'.state = .approved ∨ r'.state = .applying →
        Consented ⟨past, c, ⟨world, p.calls, p.log ++ [(i, e)]⟩⟩ m past.length r') := by
  obtain ⟨rfl, m, hstaged, hconsented⟩ := hl.stored hr
  have hext : Lives.Extends (⟨past, c, p⟩ : ServerLives C)
      ⟨past, c, ⟨world, p.calls, p.log ++ [(i, e)]⟩⟩ := .turn i e world
  rcases Coordinator.Keeps.after hdeadlines answered hr hr' with
    hdeadline | ⟨record, answer, rfl, hid, hdeadline⟩
  · exact ⟨m, (hstaged.samePlan hsame hdeadline).later hext, fun hafter =>
      consented_after hl call begun hr hsame hchange hstaged.le hconsented hafter⟩
  · obtain ⟨claimed, first, hclaimed, htime, hstaged', hconsented'⟩ :=
      claimed_of_update hl hpool call begun answered (by rw [hid]; exact hr)
    have hsame' := hclaimed.trans hsame
    exact ⟨first, (hstaged'.samePlan hsame' (hdeadline.trans htime)).later hext, fun _ =>
      (hconsented'.samePlan hsame').later hext le_rfl⟩

/-- **One turn keeps the chronicle.** -/
theorem Chronicle.turn (hdeadlines : C.KeepsDeadlines) (hl : Chronicle ⟨past, c, p⟩)
    (hpool : p.Reachable c.code (ServerStep C) init) (call : p.calls[i]? = some k)
    (begun : (c.code k).Begins (ownEvents p.log i ++ [e]))
    (answered : ServerStep C p.world e world) :
    Chronicle ⟨past, c, ⟨world, p.calls, p.log ++ [(i, e)]⟩⟩ where
  stored := by
    intro id r' hr'
    rcases record_before answered hr' with ⟨-, hid, rfl⟩ | ⟨r, hr, hsame, hchange⟩
    · obtain ⟨hplanned, hstaged⟩ : r'.state = .planned ∧
          StagedIn (⟨past, c, p⟩ : ServerLives C) past.length r' := stagedIn_of_insert call begun
      refine ⟨hid, past.length, hstaged.later (.turn i _ world), fun hstate => ?_⟩
      rw [hplanned] at hstate
      rcases hstate with h | h <;> cases h
    · exact ⟨hsame.id.trans (hl.stored hr).1,
        stored_after hdeadlines hl hpool call begun answered hr hr' hsame hchange⟩
  read := by
    intro j id device r₀ hmem
    rcases mem_log_append hmem with hold | ⟨-, rfl⟩
    · obtain ⟨r, hr, hsame⟩ := hl.read hold
      obtain ⟨r', hr', hsame', -⟩ := record_after answered hr
      exact ⟨r', hr', hsame.trans hsame'⟩
    · obtain ⟨r', hr', hsame, -⟩ := record_after answered (C.read answered.1).1
      exact ⟨r', hr', hsame⟩
  claimed := by
    intro m j id device r₀ hasked
    have hext : Lives.Extends (⟨past, c, p⟩ : ServerLives C)
        ⟨past, c, ⟨world, p.calls, p.log ++ [(i, e)]⟩⟩ := .turn i e world
    rcases hasked.of_turn with hold | ⟨rfl, -, rfl⟩
    · obtain ⟨r, hr, hsame, hplanned, happroved, first, hstaged, hconsented⟩ := hl.claimed hold
      obtain ⟨r', hr', hsame', hchange⟩ := record_after answered hr
      obtain ⟨hplanned', happroved'⟩ :=
        claimed_of_stateStep (updates_of_begins begun) hchange ⟨hplanned, happroved⟩
      exact ⟨r', hr', hsame.trans hsame', hplanned', happroved', first, hstaged.later hext,
        hconsented.later hext le_rfl⟩
    · obtain ⟨r, hr, hstate, hr₀, happlying, -⟩ := C.claimed answered.1
      obtain ⟨r', hr', hsame, hchange⟩ := record_after answered hr
      obtain rfl : r' = r₀ := Option.some.inj (hr'.symm.trans hr₀)
      obtain ⟨first, hstaged, hconsented⟩ :=
        stored_after hdeadlines hl hpool call begun answered hr hr' hsame hchange
      refine ⟨r', hr', .refl r', ?_, ?_, first, hstaged, hconsented (.inr happlying)⟩
      · rw [happlying]
        exact nofun
      · rw [happlying]
        exact nofun
  claimedOnce := by
    have hgone : ∀ {m j id device r device' r'},
        (⟨past, c, p⟩ : ServerLives C).Asked m j
          (coordinatorEvent (.claimChangeSetForApply id device) (.ok r)) →
            e ≠ coordinatorEvent (.claimChangeSetForApply id device') (.ok r') := by
      rintro m j id device r device' r' hold rfl
      obtain ⟨r₁, hr₁, -, -, hnot, -⟩ := hl.claimed hold
      obtain ⟨r₂, hr₂, hstate, -⟩ := C.claimed answered.1
      obtain rfl : r₁ = r₂ := Option.some.inj (hr₁.symm.trans hr₂)
      exact hnot hstate
    intro m m' j j' id device device' r r' hasked hasked'
    rcases hasked.of_turn with hold | ⟨rfl, rfl, he⟩
    · rcases hasked'.of_turn with hold' | ⟨-, -, he'⟩
      · exact hl.claimedOnce hold hold'
      · exact absurd he'.symm (hgone hold)
    · rcases hasked'.of_turn with hold' | ⟨rfl, rfl, -⟩
      · exact absurd he.symm (hgone hold')
      · exact ⟨rfl, rfl⟩

end Turn

end Steps

/-! ## Every order of calls and restarts -/

section Reachable

variable {init : ServerWorld C} {l : ServerLives C}

/-- The chronicle holds in all lives of a server. -/
theorem Chronicle.of_reachable (hdeadlines : C.KeepsDeadlines) (hinit : init.Fresh)
    (h : l.Reachable ServerConfig.code (ServerStep C) Restarted init) : Chronicle l := by
  induction h with
  | init c => exact .fresh hinit
  | start k _ ih => exact ih.start k
  | turn h call begun answered ih =>
      obtain ⟨world, hpool⟩ := h.of_life Lives.getElem?_all_length
      exact ih.turn hdeadlines hpool call begun answered
  | restart c' _ hagain ih => exact ih.restart c' hagain

variable {m i : Nat} {c : ServerConfig} {caller : Option CallerCtx} {args : ApplyChangeSetArgs}

/-- What an apply call asks a controller, it asks after its claim, to carry out the plan of what it
claimed, and before the deadline of that. -/
theorem claimed_of_asked (h : l.Reachable ServerConfig.code (ServerStep C) Restarted init)
    (hk : l.Made m i c (.changeSet (.apply caller args))) {controller : String}
    {e : Event ClientSig} (he : l.Asked m i (clientEvent controller e)) :
    ∃ client claimed mutations preimage now, l.Asked m i (claimEvent args claimed) ∧
      claimed.device = args.controller ∧ controller = args.controller ∧
      UnifiServer.planOf claimed = .ok (mutations, preimage) ∧
      (applyOver client preimage mutations).Begins (clientTrace (l.trace m i)) ∧
      l.Asked m i (nowEvent now) ∧ now < claimed.expiresAtUnix := by
  have hbegins := h.begins hk
  have hown := Lives.mem_trace.2 he
  have happly : (c.server.unifiApplyChangeSet caller args).Begins (l.trace m i) := hbegins
  obtain ⟨before, after, hsplit⟩ := List.append_of_mem hown
  rw [hsplit] at happly
  obtain ⟨client, status, claimed, rest, hbefore, hclaimed⟩ := begins_apply happly id
  have hclaim : l.Asked m i (claimEvent args claimed) := by
    refine Lives.mem_trace.1 ?_
    rw [hsplit, hbefore]
    simp
  have htrace : clientTrace (l.trace m i) =
      clientTrace (rest ++ clientEvent controller e :: after) := by
    rw [hsplit, hbefore, List.append_assoc]
    rfl
  have hmem : e ∈ clientTrace (rest ++ clientEvent controller e :: after) :=
    mem_clientTrace (List.mem_append_right rest List.mem_cons_self)
  obtain ⟨now, hnow, hintime⟩ := told_of_applyClaimed hclaimed hmem
  rcases clientTrace_applyClaimed hclaimed with hnone | ⟨mutations, preimage, hplan, -, hrun⟩
  · exact absurd hnone (List.ne_nil_of_mem hmem)
  · have hdevice : claimed.device = args.controller := by
      obtain ⟨⟨c', p⟩, hlife, hlog⟩ := hclaim
      obtain ⟨world, hpool⟩ := h.of_life hlife
      exact device_of_claimed hpool hlog
    have hcontroller : controller = args.controller := client_of_begins rfl hbegins hown
    refine ⟨client, claimed, mutations, preimage, now, hclaim, hdevice, hcontroller, hplan,
      htrace ▸ hrun, Lives.mem_trace.1 ?_, hintime⟩
    rw [hsplit, hbefore, List.append_assoc]
    exact List.mem_append_right _ (List.mem_cons_of_mem _ hnow)

/-- **A change set is carried out once**, over all lives of a server, whatever it is started again
with, wherever its calls stood when it came to an end, and in every order of the calls: two apply
calls that have asked a controller anything for one change set are one call of one life. -/
theorem applied_once_over_restarts (hdeadlines : C.KeepsDeadlines) (hinit : init.Fresh)
    (h : l.Reachable ServerConfig.code (ServerStep C) Restarted init)
    (hk : l.Made m i c (.changeSet (.apply caller args))) {controller : String}
    {e : Event ClientSig} (he : l.Asked m i (clientEvent controller e)) {m' i' : Nat}
    {c' : ServerConfig} {caller' : Option CallerCtx} {args' : ApplyChangeSetArgs}
    (hk' : l.Made m' i' c' (.changeSet (.apply caller' args'))) {controller' : String}
    {e' : Event ClientSig} (he' : l.Asked m' i' (clientEvent controller' e'))
    (hid : args'.changeSetId = args.changeSetId) : m' = m ∧ i' = i := by
  have hl := Chronicle.of_reachable hdeadlines hinit h
  obtain ⟨-, claimed, -, -, -, hclaim, -⟩ := claimed_of_asked h hk he
  obtain ⟨-, claimed', -, -, -, hclaim', -⟩ := claimed_of_asked h hk' he'
  have hclaim'' : l.Asked m' i' (coordinatorEvent
      (.claimChangeSetForApply args.changeSetId args'.controller) (.ok claimed')) := hid ▸ hclaim'
  exact hl.claimedOnce hclaim'' hclaim

/-- **What is carried out is what was agreed on, and in time**, over all lives of a server: an apply
call that has asked a controller anything carries out the mutations that a stage call of this life
or an earlier one supplied for that controller, after a consent to them that was given since by the
rules of the life it was given in, and it started before the approval time of the life of the stage
call had gone by since then. -/
theorem applied_as_agreed_over_restarts (hdeadlines : C.KeepsDeadlines) (hinit : init.Fresh)
    (h : l.Reachable ServerConfig.code (ServerStep C) Restarted init)
    (hk : l.Made m i c (.changeSet (.apply caller args))) {controller : String}
    {e : Event ClientSig} (he : l.Asked m i (clientEvent controller e)) :
    ∃ (client : UnifiClient) (preimage : Preimage) (mutations : List StagedMutation)
      (first n : Nat) (c₀ : ServerConfig) (stager : Option CallerCtx) (staged now : Nat)
      (r : ChangeSetRecord),
      (applyOver client preimage mutations).Begins (clientTrace (l.trace m i)) ∧
      l.Made first n c₀ (.changeSet (.stage stager ⟨controller, args.changeSetId, mutations⟩)) ∧
      l.Asked first n (nowEvent staged) ∧ l.Asked m i (nowEvent now) ∧
      now < saturatingAdd staged c₀.server.approvalTtl ∧
      r.id = args.changeSetId ∧ r.device = controller ∧
      UnifiServer.planOf r = .ok (mutations, preimage) ∧ Consented l first m r := by
  have hl := Chronicle.of_reachable hdeadlines hinit h
  obtain ⟨client, claimed, mutations, preimage, now, hclaim, hdevice, rfl, hplan, hrun, hnow,
    hintime⟩ := claimed_of_asked h hk he
  obtain ⟨r, hr, hsame, -, -, first, hstaged, hconsented⟩ := hl.claimed hclaim
  obtain ⟨n, c₀, stager, mutations', preimage', staged, hmade, htold, hactions, hdeadline⟩ :=
    hstaged
  obtain rfl : mutations' = mutations := mutations_of_planOf hactions hplan
  have hid : claimed.id = args.changeSetId := hsame.id.symm.trans (hl.stored hr).1
  rw [hdevice, hid] at hmade
  exact ⟨client, preimage, mutations', first, n, c₀, stager, staged, now, claimed, hrun, hmade,
    htold, hnow, hdeadline ▸ hintime, hid, hdevice, hplan, hconsented⟩

end Reachable

/-! ## A change set that is carried out after a restart -/

theorem memoryStore_keepsDeadlines : MemoryStore.coordinator.KeepsDeadlines :=
  fun h hr hr' => .inl (MemoryStore.kept_of_answer (fun _ _ _ => rfl) h hr hr')

/-- What a server is started with first: it records no evidence. -/
def plainConfig : ServerConfig := ⟨plainServer, .plain⟩

/-- What it is started with again: it does. -/
def recordingConfig : ServerConfig := ⟨recordingServer, .plain⟩

/-- The first life: a change set is staged and approved. -/
def firstLife : ServerPool MemoryStore.coordinator :=
  ((reviewedCalls.take 3).map ServerCall.changeSet).foldl
    (runCall plainConfig.code (oneController policyClient createReply)) ⟨emptyWorld, [], []⟩

/-- What is left of it. -/
def leftWorld : ServerWorld MemoryStore.coordinator := ⟨firstLife.world.store, .empty, false⟩

/-- The second life: the change set is applied. -/
def secondLife : ServerPool MemoryStore.coordinator :=
  ((reviewedCalls.drop 3).map ServerCall.changeSet).foldl
    (runCall recordingConfig.code (oneController policyClient createReply)) ⟨leftWorld, [], []⟩

/-- Both lives. -/
def resumedLives : ServerLives MemoryStore.coordinator :=
  ⟨[(plainConfig, firstLife)], recordingConfig, secondLife⟩

theorem restarted_leftWorld : Restarted firstLife.world leftWorld where
  stays hr := ⟨_, hr, .refl _, rfl, .inl rfl⟩
  added hr := hr
  drafts _ := rfl
  unlocked := rfl

theorem resumedLives_reachable : resumedLives.Reachable ServerConfig.code
    (ServerStep MemoryStore.coordinator) Restarted emptyWorld := by
  have hfirst : firstLife.Reachable plainConfig.code (ServerStep MemoryStore.coordinator)
      emptyWorld := by
    refine reachable_runCalls .init _ ?_
    decide +kernel
  have hsecond : secondLife.Reachable recordingConfig.code (ServerStep MemoryStore.coordinator)
      leftWorld := by
    refine reachable_runCalls .init _ ?_
    decide +kernel
  have hstart : (⟨[], plainConfig, firstLife⟩ : ServerLives MemoryStore.coordinator).Reachable
      ServerConfig.code (ServerStep MemoryStore.coordinator) Restarted emptyWorld :=
    (Lives.Reachable.init plainConfig).extend hfirst
  exact (hstart.restart recordingConfig restarted_leftWorld).extend hsecond

/-- The apply call of the second life. -/
theorem resumedLives_applies : resumedLives.Made 1 0 recordingConfig (.changeSet (.apply
    (humanWith "alice" "unifi_apply_change_set" none) ⟨"main", "cs-1"⟩)) :=
  ⟨secondLife, rfl, rfl⟩

/-- It writes. -/
theorem resumedLives_writes :
    resumedLives.Asked 1 0 (clientEvent "main" (sendEvent policyWrite.1 (.ok policyWrite.2))) :=
  ⟨(recordingConfig, secondLife), rfl, List.mem_of_getElem? (i := 5) rfl⟩

/-- No other call of the two lives asks a controller anything for the change set. -/
theorem applied_once_over_restarts_resumed :
    ¬ ∃ m i c caller args controller e, resumedLives.Made m i c (.changeSet (.apply caller args)) ∧
      resumedLives.Asked m i (clientEvent controller e) ∧ args.changeSetId = "cs-1" ∧
        (m, i) ≠ (1, 0) := by
  rintro ⟨m, i, c, caller, args, controller, e, hk, he, hid, hne⟩
  obtain ⟨rfl, rfl⟩ := applied_once_over_restarts memoryStore_keepsDeadlines emptyWorld_fresh
    resumedLives_reachable resumedLives_applies resumedLives_writes hk he hid
  exact hne rfl

/-- What it writes was staged and approved in an earlier life or in its own. -/
theorem applied_as_agreed_over_restarts_resumed : ∃ first n c stager mutations staged r,
    resumedLives.Made first n c (.changeSet (.stage stager ⟨"main", "cs-1", mutations⟩)) ∧
      resumedLives.Asked first n (nowEvent staged) ∧ r.id = "cs-1" ∧
        Consented resumedLives first 1 r := by
  obtain ⟨client, preimage, mutations, first, n, c, stager, staged, now, r, -, hmade, htold, -, -,
    hid, -, -, hconsented⟩ := applied_as_agreed_over_restarts memoryStore_keepsDeadlines
      emptyWorld_fresh resumedLives_reachable resumedLives_applies resumedLives_writes
  exact ⟨first, n, c, stager, mutations, staged, r, hmade, htold, hid, hconsented⟩

end UnifiMcp
