import UnifiMcp.Server.OnePending
import UnifiMcp.Server.PlanExecution

/-!
# What a stage call leaves behind

A stage call looks its draft up, captures a pre-image and makes a plan of it; only then does it
store the plan and let the draft go.  `StageRun` lists the ways a call can go, each with the
questions it asked, and `stageRun_of_gives` says that there are no others.  What a call leaves
behind is read off them: one that is refused leaves the stored change sets and the drafts as it
found them, apart from a draft that had lapsed, and one that succeeds has stored its plan under
the id and removed the draft (`stageLeaves`).
-/

namespace UnifiMcp

open Interaction Collections

variable {C : Coordinator} {server : UnifiServer} {caller : Option CallerCtx}

/-! ## The ways a stage call can go -/

/-- Forgetting a draft. -/
def releaseDraftEvent (id : String) : Event ServerSig := ⟨.releaseDraft id, ()⟩

/-- Taking the plan lock. -/
def lockPlanEvent : Event ServerSig := ⟨.lockPlan, ()⟩

/-- Giving the plan lock back. -/
def unlockPlanEvent : Event ServerSig := ⟨.unlockPlan, ()⟩

/-- Telling the recorder of a plan. -/
def proposalEvent (id device owner digest : String) : Event ServerSig :=
  ⟨.proposal id device owner digest, ()⟩

/-- The questions that leave the stored change sets, the drafts and the plan lock alone. -/
def ServerOp.OnlyLooks : ServerOp → Prop
  | .coordinator (.changeSet _ _) | .unixSecondsNow | .readDraft _ | .clientFor _
  | .client _ _ => True
  | _ => False

/-- What publishing a plan asks, by the answer to its insert. -/
def publishTrace (server : UnifiServer) (id : String) (staged : ChangeSetRecord) :
    Except CoordinatorError Unit → List (Event ServerSig)
  | .error e =>
      [lockPlanEvent, coordinatorEvent (.insertChangeSet staged) (.error e), unlockPlanEvent]
  | .ok () =>
      [lockPlanEvent, insertEvent staged, releaseDraftEvent id] ++
        (if server.evidence then [proposalEvent id staged.device staged.owner staged.digest]
          else []) ++ [unlockPlanEvent]

/-- The call stopped before it published a plan, or published one. -/
inductive StageTail (server : UnifiServer) (args : StageChangeArgs) (draft : Draft)
    (t : List (Event ServerSig)) (r : Except String Json) : Prop where
  | stopped (message : String) (refused : r = .error message) (looks : ∀ e ∈ t, e.op.OnlyLooks)
  | published (before : List (Event ServerSig)) (now : Nat) (preimage : Preimage)
      (staged : ChangeSetRecord) (answer : Except CoordinatorError Unit)
      (trace : t = before ++ publishTrace server args.changeSetId staged answer)
      (looks : ∀ e ∈ before, e.op.OnlyLooks)
      (plan : server.withPlan (server.baseRecord args draft.owner now) args.mutations preimage
        draft.description = .ok staged)
      (result : (∃ v, r = .ok v) ↔ answer = .ok ())

/-- The ways a stage call can go. -/
inductive StageRun (server : UnifiServer) (args : StageChangeArgs) :
    List (Event ServerSig) → Except String Json → Prop where
  /-- The caller may not stage. -/
  | refused (message : String) : StageRun server args [] (.error message)
  | noDraft {t : List (Event ServerSig)} (message : String) (now : Nat) (held : Option Draft)
      (absent : held.filter (·.controller = args.controller) = none)
      (looks : ∀ e ∈ t, e.op.OnlyLooks) :
      StageRun server args
        (nowEvent now :: readDraftEvent args.changeSetId held :: t) (.error message)
  /-- The draft had lapsed. -/
  | lapsed {t : List (Event ServerSig)} (message : String) (now : Nat) (draft : Draft)
      (controller : draft.controller = args.controller)
      (lapsed : ¬ draft.LiveAt server.approvalTtl now) (looks : ∀ e ∈ t, e.op.OnlyLooks) :
      StageRun server args
        (nowEvent now :: readDraftEvent args.changeSetId (some draft) ::
          releaseDraftEvent args.changeSetId :: t) (.error message)
  | drafted {t : List (Event ServerSig)} {r : Except String Json} (now : Nat) (draft : Draft)
      (controller : draft.controller = args.controller)
      (live : draft.LiveAt server.approvalTtl now) (tail : StageTail server args draft t r) :
      StageRun server args
        (nowEvent now :: readDraftEvent args.changeSetId (some draft) :: t) r

/-- What publishing a plan asks and answers. -/
theorem gives_publish {id : String} {staged : ChangeSetRecord} {t : List (Event ServerSig)}
    {r : Except String Unit} (h : (server.publish id staged).Gives t r) :
    ∃ answer, t = publishTrace server id staged answer ∧
      r = answer.mapError (CoordinatorError.report "failed to store change set") := by
  obtain ⟨⟨⟩, t₁, rfl, h₁⟩ := Fallible.gives_ask_bind.1 h
  obtain ⟨t₂, t₃, r', rfl, hbody, h₂⟩ := Fallible.gives_attempt_bind.1 h₁
  obtain ⟨⟨⟩, t₄, rfl, h₃⟩ := Fallible.gives_ask_bind.1 h₂
  obtain ⟨rfl, rfl⟩ := Fallible.gives_ofExcept.1 h₃
  obtain ⟨answer, t₅, rfl, h₄⟩ := Fallible.gives_ask_bind.1 hbody
  rcases answer with e | ⟨⟨⟩⟩
  · obtain ⟨rfl, rfl⟩ := Fallible.gives_throw.1 h₄
    exact ⟨.error e, rfl, rfl⟩
  · obtain ⟨⟨⟩, t₆, rfl, h₅⟩ := Fallible.gives_ask_bind.1 h₄
    refine ⟨.ok (), ?_⟩
    unfold publishTrace
    split_ifs at h₅ ⊢ with hevidence
    · obtain ⟨⟨⟩, rfl, rfl⟩ := Fallible.gives_ask.1 h₅
      exact ⟨rfl, rfl⟩
    · obtain ⟨rfl, rfl⟩ := Fallible.gives_pure.1 h₅
      exact ⟨rfl, rfl⟩

section Tail

variable {args : StageChangeArgs} {d : Draft} {t t₁ t₂ : List (Event ServerSig)}
  {r : Except String Json}

/-- What only looks can come before. -/
theorem StageTail.prepend (looks : ∀ e ∈ t₁, e.op.OnlyLooks) (h : StageTail server args d t₂ r) :
    StageTail server args d (t₁ ++ t₂) r := by
  cases h with
  | stopped message refused looks' =>
      refine .stopped message refused fun e he => ?_
      exact (List.mem_append.1 he).elim (looks e) (looks' e)
  | published before now preimage staged answer trace looks' plan result =>
      refine .published (t₁ ++ before) now preimage staged answer ?_ (fun e he => ?_) plan result
      · rw [trace, List.append_assoc]
      · exact (List.mem_append.1 he).elim (looks e) (looks' e)

/-- A part that only looks either stops the call or leads on. -/
theorem stageTail_of_bind {α : Type} {x : ServerM α} {f : α → ServerM Json}
    (hx : x.Asks ServerOp.OnlyLooks) (h : (x >>= f).Gives t r)
    (hf : ∀ a t₁ t₂, x.Gives t₁ (.ok a) → (f a).Gives t₂ r → StageTail server args d t₂ r) :
    StageTail server args d t r := by
  rcases Fallible.gives_bind.1 h with ⟨message, rfl, hstop⟩ | ⟨t₁, t₂, a, rfl, h₁, h₂⟩
  · exact .stopped message rfl (hx.of_mem hstop)
  · exact (hf a t₁ t₂ h₁ h₂).prepend (hx.of_mem h₁)

end Tail

/-- What looking a draft up asks and gives. -/
theorem gives_draft {id controller : String} {t : List (Event ServerSig)}
    {r : Except String (Option Draft)} (h : (server.draft id controller).Gives t r) :
    ∃ now held, (∃ rest, t = nowEvent now :: readDraftEvent id held :: rest ∧
      match held.filter (·.controller = controller) with
      | none => rest = [] ∧ r = .ok none
      | some draft =>
          if draft.LiveAt server.approvalTtl now then rest = [] ∧ r = .ok (some draft)
          else rest = [releaseDraftEvent id] ∧ r = .ok none) := by
  obtain ⟨now, t₁, rfl, h₁⟩ := Fallible.gives_ask_bind.1 h
  obtain ⟨held, t₂, rfl, h₂⟩ := Fallible.gives_ask_bind.1 h₁
  refine ⟨now, held, t₂, rfl, ?_⟩
  cases hheld : held.filter (·.controller = controller) with
  | none =>
      rw [hheld] at h₂
      exact Fallible.gives_pure.1 h₂
  | some draft =>
      rw [hheld] at h₂
      dsimp only at h₂ ⊢
      by_cases hlapsed : now - draft.createdAtUnix ≥ server.approvalTtl
      · have hold : ¬ draft.LiveAt server.approvalTtl now := Nat.not_lt.2 hlapsed
        rw [if_pos hlapsed] at h₂
        rw [if_neg hold]
        obtain ⟨⟨⟩, t₃, rfl, h₃⟩ := Fallible.gives_ask_bind.1 h₂
        obtain ⟨rfl, rfl⟩ := Fallible.gives_pure.1 h₃
        exact ⟨rfl, rfl⟩
      · have hlive : draft.LiveAt server.approvalTtl now := Nat.lt_of_not_le hlapsed
        rw [if_neg hlapsed] at h₂
        rw [if_pos hlive]
        exact Fallible.gives_pure.1 h₂

/-- Looking a draft up does not fail. -/
theorem draft_ne_error {id controller : String} {t : List (Event ServerSig)} (message : String) :
    ¬ (server.draft id controller).Gives t (.error message) := by
  intro h
  obtain ⟨now, held, rest, -, hfound⟩ := gives_draft h
  split at hfound
  · cases hfound.2
  · split_ifs at hfound <;> cases hfound.2

/-- A call without a draft is refused, and only looks. -/
theorem gives_refuseStage {id controller : String} {t : List (Event ServerSig)}
    {r : Except String Json} (h : (UnifiServer.refuseStage id controller).Gives t r) :
    (∃ message, r = .error message) ∧ ∀ e ∈ t, e.op.OnlyLooks := by
  have hasks : (UnifiServer.refuseStage id controller).Asks ServerOp.OnlyLooks :=
    asks_refuseStage trivial
  refine ⟨?_, hasks.of_mem h⟩
  rcases Fallible.gives_bind.1 h with ⟨message, rfl, -⟩ | ⟨t₁, t₂, record, -, -, h₂⟩
  · exact ⟨message, rfl⟩
  · split_ifs at h₂ <;> exact ⟨_, (Fallible.gives_throw.1 h₂).2⟩

/-- Publishing ends the call, one way or the other. -/
theorem stageTail_of_publish {args : StageChangeArgs} {draft : Draft} {now : Nat}
    {preimage : Preimage} {staged : ChangeSetRecord} {v : Json} {t : List (Event ServerSig)}
    {r : Except String Json}
    (plan : server.withPlan (server.baseRecord args draft.owner now) args.mutations preimage
      draft.description = .ok staged)
    (h : Fallible.Gives (server.publish args.changeSetId staged >>= fun _ =>
      (pure v : ServerM Json)) t r) : StageTail server args draft t r := by
  have hnone : ∀ e ∈ ([] : List (Event ServerSig)), e.op.OnlyLooks := fun e he => by cases he
  rcases Fallible.gives_bind.1 h with ⟨message, rfl, hstop⟩ | ⟨t₁, t₂, _, rfl, h₁, h₂⟩
  · obtain ⟨answer, rfl, hanswer⟩ := gives_publish hstop
    refine .published [] now preimage staged answer rfl hnone plan ?_
    cases answer with
    | error e => simp
    | ok _ => cases hanswer
  · obtain ⟨answer, rfl, hanswer⟩ := gives_publish h₁
    obtain ⟨rfl, rfl⟩ := Fallible.gives_pure.1 h₂
    refine .published [] now preimage staged answer (List.append_nil _) hnone plan ?_
    cases answer with
    | error e => cases hanswer
    | ok _ => simp

/-- **A stage call goes in one of the ways listed.** -/
theorem stageRun_of_gives {args : StageChangeArgs} {t : List (Event ServerSig)}
    {r : Except String Json} (h : (server.unifiStageChange caller args).Gives t r) :
    StageRun server args t r := by
  have hclock : ServerOp.OnlyLooks .unixSecondsNow := trivial
  rcases Fallible.gives_bind.1 h with ⟨message, rfl, hstop⟩ | ⟨t₁, t₂, _, rfl, h₁, h₂⟩
  · obtain ⟨rfl, -⟩ := Fallible.gives_ofExcept.1 hstop
    exact .refused message
  obtain ⟨rfl, -⟩ := Fallible.gives_ofExcept.1 h₁
  split_ifs at h₂ with hcombined
  · obtain ⟨rfl, rfl⟩ := Fallible.gives_throw.1 h₂
    exact .refused _
  rcases Fallible.gives_bind.1 h₂ with ⟨message, rfl, hstop⟩ | ⟨t₃, t₄, found, rfl, h₃, h₄⟩
  · exact absurd hstop (draft_ne_error message)
  obtain ⟨now, held, rest, rfl, hfound⟩ := gives_draft h₃
  cases hheld : held.filter (·.controller = args.controller) with
  | none =>
      rw [hheld] at hfound
      obtain ⟨rfl, hfound⟩ := hfound
      cases hfound
      obtain ⟨⟨message, rfl⟩, hlooks⟩ := gives_refuseStage h₄
      exact .noDraft message now held hheld hlooks
  | some draft =>
      obtain ⟨rfl, hcontroller⟩ := Option.filter_eq_some_iff.1 hheld
      have hcontroller : draft.controller = args.controller := by simpa using hcontroller
      rw [hheld] at hfound
      dsimp only at hfound
      split_ifs at hfound with hlive
      · obtain ⟨rfl, hfound⟩ := hfound
        cases hfound
        refine .drafted now draft hcontroller hlive ?_
        refine stageTail_of_bind (asks_clientFor _ trivial) h₄ fun client _ t₅ _ h₅ => ?_
        refine stageTail_of_bind (asks_orFail _ _) h₅ fun _ _ t₆ _ h₆ => ?_
        refine stageTail_of_bind (asks_lift (asks_onController (Program.asks_true _)
          fun _ _ => trivial)) h₆ fun captured _ t₇ _ h₇ => ?_
        refine stageTail_of_bind (asks_orFail _ _) h₇ fun preimage _ t₈ _ h₈ => ?_
        refine stageTail_of_bind (asks_server hclock) h₈ fun planned _ t₉ _ h₉ => ?_
        refine stageTail_of_bind (Fallible.asks_ofExcept _) h₉ fun staged _ t₁₀ hplan h₁₀ => ?_
        refine stageTail_of_bind (Fallible.asks_ofExcept _) h₁₀ fun _ _ t₁₁ _ h₁₁ => ?_
        exact stageTail_of_publish (Fallible.gives_ofExcept.1 hplan).2 h₁₁
      · obtain ⟨rfl, hfound⟩ := hfound
        cases hfound
        obtain ⟨⟨message, rfl⟩, hlooks⟩ := gives_refuseStage h₄
        exact .lapsed message now draft hcontroller hlive hlooks

/-! ## What is relied on -/

/-- The surroundings with the lock of the drafts in order, which it is as long as nothing panics
under it: a draft is found where it is held, and is forgotten when that is asked. -/
structure HealthyStep (C : Coordinator) (w : ServerWorld C) (e : Event ServerSig)
    (w' : ServerWorld C) : Prop where
  step : ServerStep C w e w'
  read : ∀ id answer, e = readDraftEvent id answer → answer = w.drafts.get? id
  release : ∀ id, e = releaseDraftEvent id → w'.drafts = w.drafts.erase id

/-- What a coordinator keeps when it only reads, and when it refuses to store a change set.
`Same` is equality, or leaves room for change sets it retires because their time is over. -/
structure Coordinator.Spares (C : Coordinator) (Same : C.Store → C.Store → Prop) : Prop where
  refl : ∀ s, Same s s
  trans : ∀ {s s' s''}, Same s s' → Same s' s'' → Same s s''
  read : ∀ {s id device a s'}, C.step s (.changeSet id device) a s' → Same s s'
  refused : ∀ {s r e s'}, C.step s (.insertChangeSet r) (.error e) s' → Same s s'

/-- Nothing has been done to the stored change sets, the drafts and the plan lock. -/
structure Untouched (Same : C.Store → C.Store → Prop) (w w' : ServerWorld C) : Prop where
  store : Same w.store w'.store
  drafts : w'.drafts = w.drafts
  planLocked : w'.planLocked = w.planLocked

theorem Untouched.trans {Same : C.Store → C.Store → Prop} (hspares : C.Spares Same)
    {w₁ w₂ w₃ : ServerWorld C} (h : Untouched Same w₁ w₂) (h' : Untouched Same w₂ w₃) :
    Untouched Same w₁ w₃ :=
  ⟨hspares.trans h.store h'.store, h'.drafts.trans h.drafts, h'.planLocked.trans h.planLocked⟩

/-- A question that only looks touches nothing. -/
theorem untouched_of_looks {Same : C.Store → C.Store → Prop} (hspares : C.Spares Same)
    {w w' : ServerWorld C} {e : Event ServerSig} (h : ServerStep C w e w')
    (hlooks : e.op.OnlyLooks) : Untouched Same w w' := by
  obtain ⟨op, answer⟩ := e
  cases op with
  | coordinator op =>
      cases op with
      | changeSet id device => exact ⟨hspares.read h.1, h.2.1, h.2.2⟩
      | _ => exact hlooks.elim
  | readDraft id => exact h.1 ▸ ⟨hspares.refl _, rfl, rfl⟩
  | unixSecondsNow | clientFor controller | client controller op =>
      exact (show w' = w from h) ▸ ⟨hspares.refl _, rfl, rfl⟩
  | _ => exact hlooks.elim

/-- And so do several. -/
theorem untouched_of_path {Same : C.Store → C.Store → Prop} (hspares : C.Spares Same)
    {w w' : ServerWorld C} {t : List (Event ServerSig)} (h : Path (HealthyStep C) w t w')
    (hlooks : ∀ e ∈ t, e.op.OnlyLooks) : Untouched Same w w' := by
  induction h with
  | nil => exact ⟨hspares.refl _, rfl, rfl⟩
  | cons head _ ih =>
      have hfirst := untouched_of_looks hspares head.step (hlooks _ List.mem_cons_self)
      exact hfirst.trans hspares (ih fun e he => hlooks e (List.mem_cons_of_mem _ he))

/-- A change set that is stored stays so along a path. -/
theorem record_of_path {w w' : ServerWorld C} {t : List (Event ServerSig)}
    (h : Path (HealthyStep C) w t w') {id : String} {r : ChangeSetRecord}
    (hr : C.record w.store id = some r) :
    ∃ r', C.record w'.store id = some r' ∧ SamePlan r r' := by
  induction h generalizing r with
  | nil => exact ⟨r, hr, .refl r⟩
  | cons head _ ih =>
      obtain ⟨r₁, hr₁, hsame₁, -⟩ := record_after head.step hr
      obtain ⟨r', hr', hsame⟩ := ih hr₁
      exact ⟨r', hr', hsame₁.trans hsame⟩

/-- An id under which nothing was stored along a path stays free. -/
theorem record_eq_none_of_path {w w' : ServerWorld C} {t : List (Event ServerSig)}
    (h : Path (HealthyStep C) w t w') {id : String} (hnone : C.record w.store id = none)
    (hinsert : ∀ r, insertEvent r ∈ t → r.id ≠ id) : C.record w'.store id = none := by
  induction h with
  | nil => exact hnone
  | @cons w₀ w₁ w₂ e t head _ ih =>
      refine ih ?_ fun r hr => hinsert r (List.mem_cons_of_mem _ hr)
      cases hr : C.record w₁.store id with
      | none => rfl
      | some r =>
          rcases record_before head.step hr with ⟨-, hid, rfl⟩ | ⟨r₀, hr₀, -⟩
          · exact absurd hid (hinsert r List.mem_cons_self)
          · rw [hnone] at hr₀
            cases hr₀

/-! ## Publishing -/

/-- A plan whose insert is refused leaves nothing behind. -/
theorem untouched_of_publish {Same : C.Store → C.Store → Prop} (hspares : C.Spares Same)
    {w w' : ServerWorld C} {id : String} {staged : ChangeSetRecord} {error : CoordinatorError}
    (h : Path (HealthyStep C) w (publishTrace server id staged (.error error)) w') :
    Untouched Same w w' := by
  obtain ⟨w₁, hlock, h₁⟩ := path_cons.1 h
  obtain ⟨w₂, hinsert, h₂⟩ := path_cons.1 h₁
  obtain ⟨w₃, hunlock, h₃⟩ := path_cons.1 h₂
  obtain rfl := path_nil.1 h₃
  have hlock : w.planLocked = false ∧ w₁ = { w with planLocked := true } := hlock.step
  have hinsert : C.step w₁.store (.insertChangeSet staged) (.error error) w₂.store ∧
      w₂.drafts = w₁.drafts ∧ w₂.planLocked = w₁.planLocked := hinsert.step
  have hunlock : w₃ = { w₂ with planLocked := false } := hunlock.step
  obtain ⟨hfree, rfl⟩ := hlock
  subst hunlock
  exact ⟨hspares.refused hinsert.1, hinsert.2.1, hfree.symm⟩

/-- A plan that is published was stored, and its draft is gone. -/
theorem stored_of_publish {w w' : ServerWorld C} {id : String} {staged : ChangeSetRecord}
    (h : Path (HealthyStep C) w (publishTrace server id staged (.ok ())) w') :
    C.record w.store staged.id = none ∧ C.record w'.store staged.id = some staged ∧
      w'.drafts = w.drafts.erase id ∧ w'.planLocked = w.planLocked := by
  obtain ⟨w₁, hlock, h₁⟩ := path_cons.1 h
  obtain ⟨w₂, hinsert, h₂⟩ := path_cons.1 h₁
  obtain ⟨w₃, hrelease, h₃⟩ := path_cons.1 h₂
  obtain ⟨w₄, hproposal, h₄⟩ := path_append.1 h₃
  obtain ⟨w₅, hunlock, h₅⟩ := path_cons.1 h₄
  obtain rfl := path_nil.1 h₅
  have hlock : w.planLocked = false ∧ w₁ = { w with planLocked := true } := hlock.step
  have hinsert : C.step w₁.store (.insertChangeSet staged) (.ok ()) w₂.store ∧
      w₂.drafts = w₁.drafts ∧ w₂.planLocked = w₁.planLocked := hinsert.step
  have hstore : w₃.store = w₂.store := by
    rcases (show w₃ = w₂ ∨ w₃ = _ from hrelease.step) with h | h <;> rw [h]
  have herase : w₃.drafts = w₂.drafts.erase id := hrelease.release id rfl
  have hsame : w₄ = w₃ := by
    split_ifs at hproposal
    · obtain ⟨w₆, hproposal, h₆⟩ := path_cons.1 hproposal
      exact (path_nil.1 h₆).symm.trans hproposal.step
    · exact (path_nil.1 hproposal).symm
  have hunlock : w₅ = { w₄ with planLocked := false } := hunlock.step
  obtain ⟨hfree, rfl⟩ := hlock
  subst hunlock hsame
  obtain ⟨hnone, hstored⟩ := C.inserted hinsert.1
  refine ⟨hnone, ?_, ?_, hfree.symm⟩
  · show C.record w₄.store staged.id = some staged
    rw [hstore, hstored]
  · show w₄.drafts = _
    rw [herase, hinsert.2.1]

/-! ## What a call leaves behind -/

/-- A call after another one on the same draft is stopped by its caller's scopes, before it has
asked anything, or goes on with the draft. -/
def StillStaged (server : UnifiServer) (w : ServerWorld C) (id : String) (draft : Draft) : Prop :=
  ∀ (caller : Option CallerCtx) (args : StageChangeArgs) t r w', args.changeSetId = id →
    args.controller = draft.controller → (server.unifiStageChange caller args).Gives t r →
    Path (HealthyStep C) w t w' →
    (∀ now, nowEvent now ∈ t → draft.LiveAt server.approvalTtl now) → t = [] ∨
      ∃ now rest, t = nowEvent now :: readDraftEvent id (some draft) :: rest ∧
        StageTail server args draft rest r

/-- What a refused call leaves behind: all as it was, apart from a draft that had lapsed. -/
structure LeavesAsItWas (server : UnifiServer) (Same : C.Store → C.Store → Prop)
    (args : StageChangeArgs) (t : List (Event ServerSig)) (w w' : ServerWorld C) : Prop where
  store : Same w.store w'.store
  planLocked : w'.planLocked = w.planLocked
  drafts : w'.drafts = w.drafts ∨ ∃ now draft, nowEvent now ∈ t ∧
    w.drafts.get? args.changeSetId = some draft ∧ ¬ draft.LiveAt server.approvalTtl now ∧
    w'.drafts = w.drafts.erase args.changeSetId
  /-- A draft that had not lapsed is still there, and can be staged. -/
  stays : ∀ draft, w.drafts.get? args.changeSetId = some draft →
    (∀ now, nowEvent now ∈ t → draft.LiveAt server.approvalTtl now) →
    w'.drafts.get? args.changeSetId = some draft ∧
      StillStaged server w' args.changeSetId draft

/-- What a call that succeeds leaves behind: one more change set, under the id, with the
mutations that were given, and no draft. -/
structure StoresThePlan (args : StageChangeArgs) (w w' : ServerWorld C) : Prop where
  free : C.record w.store args.changeSetId = none
  stored : ∃ r, C.record w'.store args.changeSetId = some r ∧ r.id = args.changeSetId ∧
    r.device = args.controller ∧ mutationsOf r.actions = .ok args.mutations
  others : ∀ id r, C.record w.store id = some r →
    ∃ r', C.record w'.store id = some r' ∧ SamePlan r r'
  noOther : ∀ id, id ≠ args.changeSetId → C.record w.store id = none →
    C.record w'.store id = none
  drafts : w'.drafts = w.drafts.erase args.changeSetId

/-- Looking the draft up finds what is held. -/
theorem path_lookup {w w' : ServerWorld C} {now : Nat} {id : String} {held : Option Draft}
    {t : List (Event ServerSig)}
    (h : Path (HealthyStep C) w (nowEvent now :: readDraftEvent id held :: t) w') :
    held = w.drafts.get? id ∧ Path (HealthyStep C) w t w' := by
  obtain ⟨w₁, hnow, h₁⟩ := path_cons.1 h
  obtain ⟨w₂, hread, h₂⟩ := path_cons.1 h₁
  obtain rfl : w₁ = w := hnow.step
  obtain rfl : w₂ = w₁ := hread.step.1
  exact ⟨hread.read id held rfl, h₂⟩

theorem stillStaged {w : ServerWorld C} {id : String} {draft : Draft}
    (hheld : w.drafts.get? id = some draft) : StillStaged server w id draft := by
  rintro caller args t r w' rfl hcontroller hrun hpath hlive
  cases stageRun_of_gives hrun with
  | refused message => exact .inl rfl
  | noDraft message now held absent looks =>
      obtain ⟨rfl, -⟩ := path_lookup hpath
      rw [hheld] at absent
      simp [hcontroller] at absent
  | lapsed message now draft' controller lapsed looks =>
      obtain ⟨hfound, -⟩ := path_lookup hpath
      obtain rfl : draft' = draft := Option.some.inj (hfound.trans hheld)
      exact absurd (hlive now List.mem_cons_self) lapsed
  | drafted now draft' controller live tail =>
      obtain ⟨hfound, -⟩ := path_lookup hpath
      obtain rfl : draft' = draft := Option.some.inj (hfound.trans hheld)
      exact .inr ⟨now, _, rfl, tail⟩

/-- A call that touched nothing has left everything as it was. -/
theorem Untouched.leaves {Same : C.Store → C.Store → Prop} {args : StageChangeArgs}
    {t : List (Event ServerSig)} {w w' : ServerWorld C} (h : Untouched Same w w') :
    LeavesAsItWas server Same args t w w' where
  store := h.store
  planLocked := h.planLocked
  drafts := .inl h.drafts
  stays draft hheld _ := by
    have hkept : w'.drafts.get? args.changeSetId = some draft := by rw [h.drafts, hheld]
    exact ⟨hkept, stillStaged hkept⟩

/-- A plan that is published after questions that only look. -/
theorem storesThePlan {args : StageChangeArgs} {draft : Draft} {now : Nat} {preimage : Preimage}
    {staged : ChangeSetRecord} {before : List (Event ServerSig)} {w w₁ w' : ServerWorld C}
    (looks : ∀ e ∈ before, e.op.OnlyLooks)
    (plan : server.withPlan (server.baseRecord args draft.owner now) args.mutations preimage
      draft.description = .ok staged)
    (hdrafts : w₁.drafts = w.drafts) (hbefore : Path (HealthyStep C) w before w₁)
    (hpublish : Path (HealthyStep C) w₁ (publishTrace server args.changeSetId staged (.ok ())) w') :
    StoresThePlan args w w' := by
  obtain ⟨hid, -, hdevice, -, hactions, -⟩ := withPlan_ok plan
  have hid : staged.id = args.changeSetId := hid
  obtain ⟨hnone, hstored, hreleased, -⟩ := stored_of_publish hpublish
  rw [hid] at hnone hstored
  have hpath := path_append.2 ⟨w₁, hbefore, hpublish⟩
  refine ⟨?_, ⟨staged, hstored, hid, hdevice, ?_⟩, ?_, ?_, hreleased.trans (by rw [hdrafts])⟩
  · cases hr : C.record w.store args.changeSetId with
    | none => rfl
    | some r =>
        obtain ⟨r', hr', -⟩ := record_of_path hbefore hr
        rw [hnone] at hr'
        cases hr'
  · rw [hactions]
    exact mutationsOf_actionsFor args.mutations preimage
  · exact fun id r hr => record_of_path hpath hr
  · intro id hne hfree
    refine record_eq_none_of_path hpath hfree fun r hr => ?_
    rcases List.mem_append.1 hr with hr | hr
    · exact (looks _ hr).elim
    · -- The one change set that is stored is the plan.
      have honly : ServerOp.InsertsOnly staged (insertEvent r).op := by
        unfold publishTrace at hr
        split_ifs at hr <;> simp [insertEvent, coordinatorEvent, lockPlanEvent, unlockPlanEvent,
          releaseDraftEvent, proposalEvent] at hr <;> exact hr
      obtain rfl : r = staged := honly
      exact fun h => hne (h.symm.trans hid)

/-- **A refused stage call leaves everything as it was, and one that succeeds stores its plan.**
Run on its own, a call that is refused at any of its exits leaves the stored change sets and the
drafts as they were, but for a draft that had lapsed; one that had not can still be staged.  A
call that succeeds stores one change set, under its id, with the given mutations in order, and
removes the draft. -/
theorem stageLeaves {Same : C.Store → C.Store → Prop} (hspares : C.Spares Same)
    {args : StageChangeArgs} {t : List (Event ServerSig)} {r : Except String Json}
    {w w' : ServerWorld C} (hrun : (server.unifiStageChange caller args).Gives t r)
    (hpath : Path (HealthyStep C) w t w') :
    (∀ message, r = .error message → LeavesAsItWas server Same args t w w') ∧
      ∀ v, r = .ok v → StoresThePlan args w w' := by
  cases stageRun_of_gives hrun with
  | refused message =>
      obtain rfl := path_nil.1 hpath
      have huntouched : Untouched Same w w := ⟨hspares.refl _, rfl, rfl⟩
      exact ⟨fun _ _ => huntouched.leaves, fun v hv => by cases hv⟩
  | noDraft message now held absent looks =>
      obtain ⟨-, hrest⟩ := path_lookup hpath
      exact ⟨fun _ _ => (untouched_of_path hspares hrest looks).leaves, fun v hv => by cases hv⟩
  | @lapsed t message now draft controller lapsed looks =>
      obtain ⟨hheld, hrest⟩ := path_lookup hpath
      obtain ⟨w₁, hrelease, hrest⟩ := path_cons.1 hrest
      have huntouched := untouched_of_path hspares hrest looks
      have hsame : w₁.store = w.store ∧ w₁.planLocked = w.planLocked := by
        rcases (show w₁ = w ∨ w₁ = _ from hrelease.step) with h | h <;> rw [h] <;>
          exact ⟨rfl, rfl⟩
      refine ⟨fun _ _ => ⟨?_, ?_, ?_, ?_⟩, fun v hv => by cases hv⟩
      · rw [← hsame.1]
        exact huntouched.store
      · rw [huntouched.planLocked, hsame.2]
      · exact .inr ⟨now, draft, List.mem_cons_self, hheld.symm, lapsed,
          huntouched.drafts.trans (hrelease.release _ rfl)⟩
      · intro draft' hheld' hlive
        obtain rfl : draft = draft' := Option.some.inj (hheld.trans hheld')
        exact absurd (hlive now List.mem_cons_self) lapsed
  | drafted now draft controller live tail =>
      obtain ⟨hheld, hrest⟩ := path_lookup hpath
      cases tail with
      | stopped message refused looks =>
          subst refused
          exact ⟨fun _ _ => (untouched_of_path hspares hrest looks).leaves,
            fun v hv => by cases hv⟩
      | published before planned preimage staged answer trace looks plan result =>
          subst trace
          obtain ⟨w₁, hbefore, hpublish⟩ := path_append.1 hrest
          have huntouched := untouched_of_path hspares hbefore looks
          cases answer with
          | error e =>
              have hkept := huntouched.trans hspares (untouched_of_publish hspares hpublish)
              refine ⟨fun _ _ => hkept.leaves, fun v hv => ?_⟩
              cases result.1 ⟨v, hv⟩
          | ok _ =>
              obtain ⟨v, rfl⟩ := result.2 rfl
              exact ⟨fun _ herror => (nomatch herror),
                fun _ _ => storesThePlan looks plan huntouched.drafts hbefore hpublish⟩

/-! ## A call that is refused, and one that is not -/

theorem healthyStep_of_answers {outside : Outside} {w w' : ServerWorld MemoryStore.coordinator}
    {e : Event ServerSig} (h : Answers outside.answer w e w')
    (hlock : e.op = .lockPlan → w.planLocked = false) :
    HealthyStep MemoryStore.coordinator w e w' := by
  refine ⟨serverStep_of_answers h hlock, ?_, ?_⟩
  · rintro id answer rfl
    exact (congrArg Prod.fst h).symm
  · rintro id rfl
    cases (show outside.answer (.releaseDraft id) w = ((), w') from h)
    rfl

theorem memoryStore_spares : MemoryStore.coordinator.Spares (· = ·) where
  refl _ := rfl
  trans h h' := h.trans h'
  read h := congrArg Prod.snd h
  refused := by
    intro s r e s' h
    have h : MemoryStore.answer (.insertChangeSet r) s = (.error e, s') := h
    simp only [MemoryStore.answer] at h
    cases hr : s.sets.get? r.id with
    | none =>
        rw [hr] at h
        cases h
    | some r' =>
        rw [hr] at h
        exact congrArg Prod.snd h

/-- A draft is held, and nothing is stored. -/
def draftWorld : ServerWorld MemoryStore.coordinator :=
  ⟨⟨.empty, MemoryStore.keyed_empty⟩, SortedMap.empty.insert "cs-1" blockDraft, false⟩

/-- A stage call run to its end. -/
def runStage (mutations : List StagedMutation) (w : ServerWorld MemoryStore.coordinator) :
    Except String Json × List (Event ServerSig) × ServerWorld MemoryStore.coordinator :=
  (plainServer.unifiStageChange none ⟨"main", "cs-1", mutations⟩).eval
    (oneController policyClient createReply).answer w

theorem runStage_gives (mutations : List StagedMutation)
    (w : ServerWorld MemoryStore.coordinator) :
    (plainServer.unifiStageChange none ⟨"main", "cs-1", mutations⟩).Gives
      (runStage mutations w).2.1 (runStage mutations w).1 :=
  Program.eval_runs _ _ _

theorem runStage_path {mutations : List StagedMutation} {w : ServerWorld MemoryStore.coordinator}
    (hlocks : locksInTurn w.planLocked (runStage mutations w).2.1 = true) :
    Path (HealthyStep MemoryStore.coordinator) w (runStage mutations w).2.1
      (runStage mutations w).2.2 :=
  path_of_steps healthyStep_of_answers (Program.eval_path _ _ _) hlocks

/-- Staging an update of a device is refused, and then staging a policy into the same draft
succeeds. -/
theorem stageLeaves_refused_then_stored :
    let refused := runStage [.update "device" "d1" .null] draftWorld
    let stored := runStage [.create "firewall_policy" blockPolicy] refused.2.2
    LeavesAsItWas plainServer (· = ·) ⟨"main", "cs-1", [.update "device" "d1" .null]⟩ refused.2.1
        draftWorld refused.2.2 ∧
      StoresThePlan ⟨"main", "cs-1", [.create "firewall_policy" blockPolicy]⟩ refused.2.2
        stored.2.2 := by
  intro refused stored
  have hrefused := stageLeaves memoryStore_spares
    (runStage_gives [.update "device" "d1" .null] draftWorld) (runStage_path (by decide +kernel))
  have hstored := stageLeaves memoryStore_spares
    (runStage_gives [.create "firewall_policy" blockPolicy] refused.2.2)
    (runStage_path (by decide +kernel))
  exact ⟨hrefused.1 _ rfl, hstored.2 _ rfl⟩

end UnifiMcp
