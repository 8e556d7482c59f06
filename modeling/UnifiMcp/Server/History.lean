import UnifiMcp.Server.Coordination

/-!
# What a call has asked before

A call that is under way has followed its handler so far.  From a question it has asked,
these lemmas recover what came before it: the draft and the plan behind a change set that is
stored, the record behind an approval, the claim behind a write.
-/

namespace UnifiMcp

open Interaction Collections

/-! ## Kinds of questions -/

/-- Anything but storing a change set. -/
def ServerOp.NotInsert : ServerOp → Prop
  | .coordinator (.insertChangeSet _) => False
  | _ => True

/-- The storing of one change set only. -/
def ServerOp.InsertsOnly (staged : ChangeSetRecord) : ServerOp → Prop
  | .coordinator (.insertChangeSet r) => r = staged
  | _ => True

/-- Anything but an approval. -/
def ServerOp.NotApprove : ServerOp → Prop
  | .coordinator (.approveChangeSet _ _ _ _ _) => False
  | _ => True

/-- Anything but a question of a controller's client. -/
def ServerOp.NotClient : ServerOp → Prop
  | .client _ _ => False
  | _ => True

variable {server : UnifiServer} {caller : Option CallerCtx}

/-! ## Parts of the handlers -/

/-- A draft that is staged into was looked up, and is for the controller that was named. -/
theorem draft_of_gives {id controller : String} {draft : Draft} {t : List (Event ServerSig)}
    (h : (server.draft id controller).Gives t (.ok (some draft))) :
    readDraftEvent id (some draft) ∈ t ∧ draft.controller = controller := by
  obtain ⟨now, t₁, rfl, h₁⟩ := Fallible.gives_ask_bind.1 h
  obtain ⟨held, t₂, rfl, h₂⟩ := Fallible.gives_ask_bind.1 h₁
  cases hheld : held.filter (·.controller = controller) with
  | none =>
      rw [hheld] at h₂
      cases (Fallible.gives_pure.1 h₂).2
  | some found =>
      rw [hheld] at h₂
      dsimp only at h₂
      split_ifs at h₂
      · obtain ⟨_, t₃, rfl, h₃⟩ := Fallible.gives_ask_bind.1 h₂
        cases (Fallible.gives_pure.1 h₃).2
      · obtain ⟨-, heq⟩ := Fallible.gives_pure.1 h₂
        cases heq
        obtain ⟨rfl, hcontroller⟩ := Option.filter_eq_some_iff.1 hheld
        exact ⟨by simp [readDraftEvent], by simpa using hcontroller⟩

/-- A record that is found was read. -/
theorem recordFor_of_gives {id controller : String} {r : ChangeSetRecord}
    {t : List (Event ServerSig)}
    (h : (UnifiServer.recordFor id controller).Gives t (.ok r)) :
    t = [coordinatorEvent (.changeSet id controller) (.ok r)] := by
  obtain ⟨answer, t₁, rfl, h₁⟩ := Fallible.gives_ask_bind.1 h
  obtain ⟨rfl, hr⟩ := Fallible.gives_ofExcept.1 h₁
  rcases answer with e | r'
  · cases hr
  · cases hr
    rfl

/-! ## Staging -/

/-- **What is behind a change set that a call stores**: a draft that was looked up before, and
the call's own mutations. -/
theorem insert_of_begins {args : StageChangeArgs} {t : List (Event ServerSig)}
    (h : (server.unifiStageChange caller args).Begins t) {r : ChangeSetRecord}
    {answer : Except CoordinatorError Unit}
    (hmem : coordinatorEvent (.insertChangeSet r) answer ∈ t) :
    ∃ draft now preimage, readDraftEvent args.changeSetId (some draft) ∈ t ∧
      draft.controller = args.controller ∧
      server.withPlan (server.baseRecord args draft.owner now) args.mutations preimage
        draft.description = .ok r := by
  have hnot : ¬ ServerOp.NotInsert (coordinatorEvent (.insertChangeSet r) answer).op := id
  have hquiet : ∀ {α : Type} (x : Except String α),
      (Fallible.ofExcept x : ServerM α).Asks ServerOp.NotInsert := fun x =>
    Fallible.asks_ofExcept x
  obtain ⟨t₁, t₂, -, rfl, -, h₂, hmem₂, -⟩ :=
    Fallible.begins_bind_of_mem (hquiet _) h hmem hnot
  split_ifs at h₂ with hcombined
  · rw [Fallible.begins_throw h₂] at hmem₂
    cases hmem₂
  · obtain ⟨t₃, t₄, draft, rfl, h₃, h₄, hmem₄, -⟩ :=
      Fallible.begins_bind_of_mem (P := ServerOp.NotInsert) (asks_draft trivial trivial trivial)
        h₂ hmem₂ hnot
    cases draft with
    | none =>
        -- Without a draft nothing is stored.
        have hrefuse : (UnifiServer.refuseStage args.changeSetId args.controller).Asks
            ServerOp.NotInsert := asks_refuseStage trivial
        exact absurd (hrefuse.of_begins h₄ _ hmem₄) hnot
    | some draft =>
        obtain ⟨hread, hcontroller⟩ := draft_of_gives h₃
        obtain ⟨client, t₅, h₅, hmem₅⟩ :=
          Fallible.begins_skip (P := ServerOp.NotInsert) (asks_clientFor _ trivial) h₄ hmem₄ hnot
        obtain ⟨-, t₆, h₆, hmem₆⟩ :=
          Fallible.begins_skip (P := ServerOp.NotInsert) (asks_orFail _ _) h₅ hmem₅ hnot
        obtain ⟨captured, t₇, h₇, hmem₇⟩ :=
          Fallible.begins_skip (P := ServerOp.NotInsert)
            (asks_lift (asks_onController (Program.asks_true _) fun _ _ => trivial)) h₆ hmem₆ hnot
        obtain ⟨preimage, t₈, h₈, hmem₈⟩ :=
          Fallible.begins_skip (P := ServerOp.NotInsert) (asks_orFail _ _) h₇ hmem₇ hnot
        obtain ⟨now, t₉, h₉, hmem₉⟩ :=
          Fallible.begins_skip (P := ServerOp.NotInsert) (asks_server trivial) h₈ hmem₈ hnot
        obtain ⟨t₁₀, t₁₁, staged, rfl, h₁₀, h₁₁, hmem₁₁, -⟩ :=
          Fallible.begins_bind_of_mem (hquiet _) h₉ hmem₉ hnot
        obtain ⟨-, t₁₂, h₁₂, hmem₁₂⟩ := Fallible.begins_skip (hquiet _) h₁₁ hmem₁₁ hnot
        -- Only the plan that was made is stored.
        have hpublish : (server.publish args.changeSetId staged).Asks
            (ServerOp.InsertsOnly staged) :=
          asks_publish trivial trivial rfl trivial trivial
        have honly : r = staged :=
          (hpublish.bind fun _ => Fallible.asks_pure _).of_begins h₁₂ _ hmem₁₂
        subst honly
        refine ⟨draft, now, preimage, ?_, hcontroller, (Fallible.gives_ofExcept.1 h₁₀).2⟩
        exact List.mem_append_right _ (List.mem_append_left _ hread)

/-! ## Approving -/

/-- The approvals of one caller that name the digest of one record. -/
def ServerOp.ApprovesOnly (caller : Option CallerCtx) (record : ChangeSetRecord) :
    ServerOp → Prop
  | .coordinator (.approveChangeSet _ _ approver digest actorType) =>
      approver = principal caller ∧ digest = record.digest ∧
        actorType = approverActorType caller ∧ principal caller ≠ record.owner
  | _ => True

/-- The decision compares the approver with the recorded owner. -/
theorem asks_decideApproval {args : ApproveChangeSetArgs} {record : ChangeSetRecord} :
    (server.decideApproval caller args record).Asks (ServerOp.ApprovesOnly caller record) := by
  refine asks_withPlanLock ?_ trivial trivial
  dsimp only
  split_ifs with howner hoff
  · exact Fallible.asks_throw _
  · exact (asks_coordinator trivial).bind fun _ => asks_orFail _ _
  · refine (asks_coordinator ?_).bind fun _ => asks_orFail _ _
    exact ⟨rfl, rfl, rfl, howner⟩

/-- What an approve call asks after it has looked its record up, it asks to decide on that
record. -/
theorem decided_of_begins {P : ServerOp → Prop} {args : ApproveChangeSetArgs}
    {t : List (Event ServerSig)} (h : (server.unifiApproveChangeSet caller args).Begins t)
    (hrecord : P (.coordinator (.changeSet args.changeSetId args.controller)))
    {e : Event ServerSig} (hmem : e ∈ t) (hnot : ¬ P e.op) :
    ∃ record t', coordinatorEvent (.changeSet args.changeSetId args.controller) (.ok record) ∈ t ∧
      (server.decideApproval caller args record).Begins t' ∧ e ∈ t' := by
  have hquiet : ∀ {α : Type} (x : Except String α),
      (Fallible.ofExcept x : ServerM α).Asks P := fun x => Fallible.asks_ofExcept x
  obtain ⟨t₁, t₂, -, rfl, -, h₂, hmem₂, -⟩ :=
    Fallible.begins_bind_of_mem (hquiet _) h hmem hnot
  dsimp only at h₂
  split at h₂
  · rw [Fallible.begins_throw h₂] at hmem₂
    cases hmem₂
  · obtain ⟨t₃, t₄, record, rfl, h₃, h₄, hmem₄, -⟩ :=
      Fallible.begins_bind_of_mem (asks_recordFor hrecord) h₂ hmem₂ hnot
    have hread := recordFor_of_gives h₃
    subst hread
    split at h₄
    · rw [Fallible.begins_throw h₄] at hmem₄
      cases hmem₄
    · cases hpreview : record.preview with
      | none =>
          rw [hpreview] at h₄
          rw [Fallible.begins_throw h₄] at hmem₄
          cases hmem₄
      | some preview =>
          rw [hpreview] at h₄
          obtain ⟨plan, t₅, h₅, hmem₅⟩ := Fallible.begins_skip (hquiet _) h₄ hmem₄ hnot
          obtain ⟨-, t₆, h₆, hmem₆⟩ :=
            Fallible.begins_skip (asks_orFail _ _) h₅ hmem₅ hnot
          have hdecided : (server.decideApproval caller args record).Begins t₆ := by
            cases hexpected : args.expectedDigest with
            | none =>
                rw [hexpected] at h₆
                exact Fallible.begins_bind_silent h₆ fun _ => Fallible.asks_pure _
            | some expected =>
                rw [hexpected] at h₆
                dsimp only at h₆
                split at h₆
                · rw [Fallible.begins_throw h₆] at hmem₆
                  cases hmem₆
                · exact Fallible.begins_bind_silent h₆ fun _ => Fallible.asks_pure _
          exact ⟨record, t₆, by simp, hdecided, hmem₆⟩

/-- **What is behind an approval**: a record that was read before, of another owner and with
the digest that is approved. -/
theorem approve_of_begins {args : ApproveChangeSetArgs} {t : List (Event ServerSig)}
    (h : (server.unifiApproveChangeSet caller args).Begins t) {id device approver digest : String}
    {actorType : ActorType} {answer : Except CoordinatorError ApprovalOutcome}
    (hmem : coordinatorEvent (.approveChangeSet id device approver digest actorType) answer ∈ t) :
    ∃ record, coordinatorEvent (.changeSet args.changeSetId args.controller) (.ok record) ∈ t ∧
      approver = principal caller ∧ digest = record.digest ∧
        actorType = approverActorType caller ∧ principal caller ≠ record.owner := by
  obtain ⟨record, t', hread, hdecide, hmem'⟩ :=
    decided_of_begins (P := ServerOp.NotApprove) h trivial hmem (fun h => h)
  exact ⟨record, hread, asks_decideApproval.of_begins hdecide _ hmem'⟩

/-! ## Applying -/

/-- The questions of the controllers' clients, in order. -/
def clientTrace (t : List (Event ServerSig)) : List (Event ClientSig) :=
  t.filterMap fun
    | ⟨.client _ op, answer⟩ => some ⟨op, answer⟩
    | _ => none

theorem clientTrace_append (t₁ t₂ : List (Event ServerSig)) :
    clientTrace (t₁ ++ t₂) = clientTrace t₁ ++ clientTrace t₂ :=
  List.filterMap_append

theorem clientTrace_map (controller : String) (u : List (Event ClientSig)) :
    clientTrace (u.map (clientEvent controller)) = u := by
  unfold clientTrace
  rw [List.filterMap_map]
  exact List.filterMap_some

theorem clientTrace_eq_nil {t : List (Event ServerSig)} (h : ∀ e ∈ t, ServerOp.NotClient e.op) :
    clientTrace t = [] := by
  refine List.filterMap_eq_nil_iff.2 fun e he => ?_
  have hnot := h e he
  match e, hnot with
  | ⟨.coordinator _, _⟩, _ | ⟨.unixSecondsNow, _⟩, _ | ⟨.newChangeSetId, _⟩, _
  | ⟨.holdDraft _ _ _ _, _⟩, _ | ⟨.readDraft _, _⟩, _ | ⟨.releaseDraft _, _⟩, _
  | ⟨.lockPlan, _⟩, _ | ⟨.unlockPlan, _⟩, _ | ⟨.clientFor _, _⟩, _ | ⟨.clients, _⟩, _
  | ⟨.controllerNames, _⟩, _ | ⟨.controllerNamed _, _⟩, _
  | ⟨.proposal _ _ _ _, _⟩, _ | ⟨.applyIntent _ _ _, _⟩, _
  | ⟨.resultReceipt _ _ _ _ _, _⟩, _ => rfl

/-- What a client's program has asked of its controller is the beginning of that program. -/
theorem begins_onController {α : Type} {controller : String} {p : Program ClientSig α}
    {t : List (Event ServerSig)} (h : (onController controller p).Begins t) :
    ∃ u, t = u.map (clientEvent controller) ∧ p.Begins u := by
  induction p generalizing t with
  | done a =>
      cases t with
      | nil => exact ⟨[], rfl, trivial⟩
      | cons e t => exact h.elim
  | call op next ih =>
      cases t with
      | nil => exact ⟨[], rfl, trivial⟩
      | cons e t =>
          obtain ⟨answer, rfl, h⟩ := h
          obtain ⟨u, rfl, hu⟩ := ih answer h
          exact ⟨⟨op, answer⟩ :: u, rfl, answer, rfl, hu⟩

theorem begins_lift_onController {α : Type} {controller : String} {p : Program ClientSig α}
    {t : List (Event ServerSig)}
    (h : Fallible.Begins (ExceptT.lift (onController controller p) : ServerM α) t) :
    p.Begins (clientTrace t) := by
  unfold Fallible.Begins at h
  rw [ExceptT.run_lift, map_eq_pure_bind, Program.begins_bind] at h
  have hbegun : (onController controller p).Begins t := by
    rcases h with h | ⟨t₁, t₂, a, rfl, h₁, h₂⟩
    · exact h
    · obtain rfl := Fallible.begins_pure (S := ServerSig) (ε := String) h₂
      rw [List.append_nil]
      exact h₁.begins
  obtain ⟨u, rfl, hu⟩ := begins_onController hbegun
  rw [clientTrace_map]
  exact hu

/-- The client of a controller was looked up. -/
def clientForEvent (controller : String) (client : UnifiClient) : Event ServerSig :=
  ⟨.clientFor controller, .ok (some client)⟩

theorem clientFor_of_gives {controller : String} {client : UnifiClient}
    {t : List (Event ServerSig)} (h : (UnifiServer.clientFor controller).Gives t (.ok client)) :
    t = [clientForEvent controller client] := by
  obtain ⟨answer, t₁, rfl, h₁⟩ := Fallible.gives_ask_bind.1 h
  rcases answer with e | (_ | client')
  · cases (Fallible.gives_throw.1 h₁).2
  · cases (Fallible.gives_throw.1 h₁).2
  · obtain ⟨rfl, hclient⟩ := Fallible.gives_pure.1 h₁
    cases hclient
    rfl

/-- A first part that asks no client adds nothing to what the clients are asked. -/
theorem clientTrace_of_bind {α β : Type} {x : ServerM α} {f : α → ServerM β}
    {t : List (Event ServerSig)} (hx : x.Asks ServerOp.NotClient) (h : (x >>= f).Begins t) :
    clientTrace t = [] ∨ ∃ t₁ t₂ a, t = t₁ ++ t₂ ∧ x.Gives t₁ (.ok a) ∧ (f a).Begins t₂ ∧
      clientTrace t = clientTrace t₂ := by
  rcases Fallible.begins_bind.1 h with h | ⟨t₁, t₂, a, rfl, h₁, h₂⟩
  · exact .inl (clientTrace_eq_nil (hx.of_begins h))
  · refine .inr ⟨t₁, t₂, a, rfl, h₁, h₂, ?_⟩
    rw [clientTrace_append, clientTrace_eq_nil (hx.of_mem h₁), List.nil_append]

theorem coordinator_notClient (op : CoordinatorOp) :
    (ServerM.coordinator op).Asks ServerOp.NotClient := asks_coordinator trivial

/-- Carrying out a plan asks the client what `applyOver` asks, and nothing after that. -/
theorem clientTrace_execute {args : ApplyChangeSetArgs} {client : UnifiClient}
    {claimed : ChangeSetRecord} {mutations : List StagedMutation} {preimage : Preimage}
    {t : List (Event ServerSig)}
    (h : (server.execute caller args client claimed mutations preimage).Begins t) :
    (applyOver client preimage mutations).Begins (clientTrace t) := by
  rcases Fallible.begins_bind.1 h with h | ⟨t₁, t₂, outcome, rfl, h₁, h₂⟩
  · exact begins_lift_onController h
  · have hrest : clientTrace t₂ = [] := by
      refine clientTrace_eq_nil (Fallible.Asks.of_begins ?_ h₂)
      dsimp only
      split
      · have hreceipt : ∀ ok error, (ServerM.ask (.resultReceipt args.changeSetId args.controller
            (principal caller) ok error)).Asks ServerOp.NotClient := fun _ _ =>
          asks_server trivial
        refine (hreceipt _ _).bind fun _ => ?_
        exact (coordinator_notClient _).bind fun _ => Fallible.asks_pure _
      · exact (coordinator_notClient _).bind fun _ => Fallible.asks_pure _
    rw [clientTrace_append, hrest, List.append_nil]
    exact begins_lift_onController h₁.begins

/-- After a claim, the clients are asked nothing but what carries out the claimed plan. -/
theorem clientTrace_applyClaimed {args : ApplyChangeSetArgs} {client : UnifiClient}
    {claimed : ChangeSetRecord} {t : List (Event ServerSig)}
    (h : (server.applyClaimed caller args client claimed).Begins t) :
    clientTrace t = [] ∨ ∃ mutations preimage,
      UnifiServer.planOf claimed = .ok (mutations, preimage) ∧
        checkWritableFields server.mecmcp.number mutations = .ok () ∧
        (applyOver client preimage mutations).Begins (clientTrace t) := by
  have habandon : ∀ {message : String} {t : List (Event ServerSig)},
      Fallible.Begins (UnifiServer.abandon claimed message : ServerM Json) t →
        clientTrace t = [] := by
    intro message t h
    exact clientTrace_eq_nil ((asks_abandon claimed message trivial).of_begins h)
  have hnow : (ServerM.ask .unixSecondsNow).Asks ServerOp.NotClient := asks_server trivial
  rcases clientTrace_of_bind hnow h with h | ⟨-, t₁, now, -, -, h₁, heq₁⟩
  · exact .inl h
  · rw [heq₁]
    split at h₁
    · exact .inl (habandon h₁)
    · cases hplan : UnifiServer.planOf claimed with
      | error message =>
          rw [hplan] at h₁
          exact .inl (habandon h₁)
      | ok plan =>
          obtain ⟨mutations, preimage⟩ := plan
          rw [hplan] at h₁
          dsimp only at h₁
          split at h₁
          next => exact .inl (habandon h₁)
          next hwritable =>
            split at h₁
            · have hintent : (ServerM.ask (.applyIntent args.changeSetId args.controller
                  (principal caller))).Asks ServerOp.NotClient := asks_server trivial
              rcases clientTrace_of_bind hintent h₁ with
                h | ⟨-, t₂, intent, -, -, h₂, heq₂⟩
              · exact .inl h
              · rw [heq₂]
                rcases intent with error | _
                · exact .inl (habandon h₂)
                · exact .inr ⟨mutations, preimage, rfl, hwritable, clientTrace_execute h₂⟩
            · exact .inr ⟨mutations, preimage, rfl, hwritable, clientTrace_execute h₁⟩

/-! ## The claim -/

/-- The claim of an apply call that was granted. -/
def claimEvent (args : ApplyChangeSetArgs) (claimed : ChangeSetRecord) : Event ServerSig :=
  coordinatorEvent (.claimChangeSetForApply args.changeSetId args.controller) (.ok claimed)

/-- The part of an apply call before its claim. -/
def beforeClaim (args : ApplyChangeSetArgs) (client : UnifiClient)
    (status : Except CoordinatorError Unit) : List (Event ServerSig) :=
  [clientForEvent args.controller client,
    coordinatorEvent (.changeSetStatus args.changeSetId args.controller) status]

/-- What an apply call asks until its claim is granted. -/
def ServerOp.UpToClaim : ServerOp → Prop
  | .clientFor _ | .coordinator (.changeSetStatus _ _)
  | .coordinator (.claimChangeSetForApply _ _) => True
  | _ => False

/-- Up to its claim an apply call only looks its controller and its change set up. -/
theorem begins_apply {args : ApplyChangeSetArgs} {before after : List (Event ServerSig)}
    {e : Event ServerSig}
    (h : (server.unifiApplyChangeSet caller args).Begins (before ++ e :: after))
    (hnot : ¬ ServerOp.UpToClaim e.op) :
    ∃ client status claimed rest,
      before = beforeClaim args client status ++ claimEvent args claimed :: rest ∧
      (server.applyClaimed caller args client claimed).Begins (rest ++ e :: after) := by
  have hstatus : ServerOp.UpToClaim
      (.coordinator (.changeSetStatus args.changeSetId args.controller)) := trivial
  have hclaim : ServerOp.UpToClaim
      (.coordinator (.claimChangeSetForApply args.changeSetId args.controller)) := trivial
  obtain ⟨t₁, t₂, _, rfl, h₁, h₂⟩ := Fallible.begins_bind_at (Fallible.asks_ofExcept _) h hnot
  obtain ⟨rfl, -⟩ := Fallible.gives_ofExcept.1 h₁
  obtain ⟨t₃, t₄, client, rfl, h₃, h₄⟩ :=
    Fallible.begins_bind_at (asks_clientFor _ trivial) h₂ hnot
  obtain rfl := clientFor_of_gives h₃
  obtain ⟨t₅, t₆, status, rfl, h₅, h₆⟩ :=
    Fallible.begins_bind_at (asks_coordinator hstatus) h₄ hnot
  obtain ⟨status', rfl, -⟩ := Fallible.gives_ask.1 h₅
  obtain ⟨t₇, t₈, _, rfl, h₇, h₈⟩ := Fallible.begins_bind_at (asks_orFail _ _) h₆ hnot
  obtain ⟨rfl, -⟩ := Fallible.gives_ofExcept.1 h₇
  obtain ⟨t₉, t₁₀, answer, rfl, h₉, h₁₀⟩ :=
    Fallible.begins_bind_at (asks_coordinator hclaim) h₈ hnot
  obtain ⟨answer', rfl, hanswer⟩ := Fallible.gives_ask.1 h₉
  cases hanswer
  obtain ⟨t₁₁, t₁₂, claimed, rfl, h₁₁, h₁₂⟩ :=
    Fallible.begins_bind_at (asks_orFail _ _) h₁₀ hnot
  obtain ⟨rfl, hok⟩ := Fallible.gives_ofExcept.1 h₁₁
  obtain rfl : answer = .ok claimed := by
    rcases answer with error | r
    · cases hok
    · cases hok
      rfl
  exact ⟨client, status', claimed, t₁₂, rfl, h₁₂⟩

/-- An apply call sent `e`: it had looked its client up and claimed its change set, and then
`apply_sequentially` asked for it over the plan of the record that was claimed, whose fields had
passed the check. -/
def SentByApply (server : UnifiServer) (args : ApplyChangeSetArgs) (t : List (Event ServerSig))
    (e : Event ClientSig) : Prop :=
  ∃ client status claimed mutations preimage rest,
    t = beforeClaim args client status ++ claimEvent args claimed :: rest ∧
    UnifiServer.planOf claimed = .ok (mutations, preimage) ∧
    checkWritableFields server.mecmcp.number mutations = .ok () ∧
    (applyOver client preimage mutations).Begins (clientTrace rest) ∧ e ∈ clientTrace rest

theorem mem_clientTrace {t : List (Event ServerSig)} {controller : String} {e : Event ClientSig}
    (h : clientEvent controller e ∈ t) : e ∈ clientTrace t :=
  List.mem_filterMap.2 ⟨_, h, rfl⟩

/-- **What is behind a question of an apply call to a client**: a claim that was granted, and
the plan of the record it returned. -/
theorem sentByApply_of_begins {args : ApplyChangeSetArgs} {t : List (Event ServerSig)}
    (h : (server.unifiApplyChangeSet caller args).Begins t) {controller : String}
    {e : Event ClientSig} (hmem : clientEvent controller e ∈ t) : SentByApply server args t e := by
  obtain ⟨before, after, rfl⟩ := List.append_of_mem hmem
  obtain ⟨client, status, claimed, rest, rfl, happlied⟩ := begins_apply h id
  have htrace : e ∈ clientTrace (rest ++ clientEvent controller e :: after) :=
    mem_clientTrace (List.mem_append_right rest List.mem_cons_self)
  rcases clientTrace_applyClaimed happlied with hnone |
    ⟨mutations, preimage, hplan, hwritable, hrun⟩
  · exact absurd hnone (List.ne_nil_of_mem htrace)
  · refine ⟨client, status, claimed, mutations, preimage, _, ?_, hplan, hwritable, hrun, htrace⟩
    rw [List.append_assoc, List.cons_append]

end UnifiMcp
