import UnifiMcp.Server.Evidence
import UnifiMcp.Server.Settling

/-!
# What the recorder is told of an apply

With evidence on, an apply call makes a record of its intent before it touches the controller and
a receipt of the result after, and then has the state recorded.  `Applying` lists how far an
apply call can have come after its claim and what it has asked by then, and `applying_of_begins`
says that there is nothing else.  From it, at every moment of every run and wherever the run is
cut off, `evidence_tells_the_truth`: no intent means that the controller has not been asked, a
receipt means that the plan has been carried out to its end and tells what came of it, and the
state that is recorded is the one the receipt tells.
-/

namespace UnifiMcp

open Interaction Collections

variable {server : UnifiServer} {caller : Option CallerCtx}

/-- The receipt of an apply, and how it was received. -/
def receiptEvent (caller : Option CallerCtx) (args : ApplyChangeSetArgs) (ok : Bool)
    (error : String) (answer : Except String Unit) : Event ServerSig :=
  ⟨.resultReceipt args.changeSetId args.controller (principal caller) ok error, answer⟩

/-- The receipt of an outcome: it names what went wrong, if anything did. -/
def outcomeReceipt (caller : Option CallerCtx) (args : ApplyChangeSetArgs) (outcome : Outcome)
    (answer : Except String Unit) : Event ServerSig :=
  receiptEvent caller args (UnifiServer.succeeded outcome.state)
    (if UnifiServer.succeeded outcome.state then "" else UnifiServer.stateName outcome.state) answer

/-- How far the carrying out of a plan has come. -/
inductive CarryingOut (caller : Option CallerCtx) (args : ApplyChangeSetArgs)
    (client : UnifiClient) (claimed : ChangeSetRecord) (mutations : List StagedMutation)
    (preimage : Preimage) : List (Event ServerSig) → Prop where
  /-- The controller is being asked. -/
  | running (u : List (Event ClientSig)) (begun : (applyOver client preimage mutations).Begins u) :
      CarryingOut caller args client claimed mutations preimage
        (u.map (clientEvent args.controller))
  /-- The recorder has been told. -/
  | told (u : List (Event ClientSig)) (outcome : Outcome) (answer : Except String Unit)
      (run : (applyOver client preimage mutations).Runs u outcome) :
      CarryingOut caller args client claimed mutations preimage
        (u.map (clientEvent args.controller) ++ [outcomeReceipt caller args outcome answer])
  /-- The state has been recorded. -/
  | settled (u : List (Event ClientSig)) (outcome : Outcome) (answer : Except String Unit)
      (recorded : Except CoordinatorError Unit)
      (run : (applyOver client preimage mutations).Runs u outcome) :
      CarryingOut caller args client claimed mutations preimage
        (u.map (clientEvent args.controller) ++ [outcomeReceipt caller args outcome answer,
          updateEvent claimed (verdict outcome) recorded])

/-- How far an apply call has come after its claim, and what it has asked since. -/
inductive Applying (server : UnifiServer) (caller : Option CallerCtx) (args : ApplyChangeSetArgs)
    (client : UnifiClient) (claimed : ChangeSetRecord) : List (Event ServerSig) → Prop where
  | claimed : Applying server caller args client claimed []
  /-- The clock has been read. -/
  | timed (now : Nat) : Applying server caller args client claimed [nowEvent now]
  /-- The plan lapsed, does not read or may not be written. -/
  | abandoned (now : Nat) (recorded : Except CoordinatorError Unit) :
      Applying server caller args client claimed
        [nowEvent now, updateEvent claimed .failed recorded]
  /-- The intent could not be made durable. -/
  | notDurable (now : Nat) (error : String) :
      Applying server caller args client claimed
        [nowEvent now, intentEvent caller args (.error error)]
  | notDurableSettled (now : Nat) (error : String) (recorded : Except CoordinatorError Unit) :
      Applying server caller args client claimed [nowEvent now,
        intentEvent caller args (.error error), updateEvent claimed .failed recorded]
  /-- The intent is on record. -/
  | carrying (now : Nat) (mutations : List StagedMutation) (preimage : Preimage)
      (t : List (Event ServerSig))
      (plan : UnifiServer.planOf claimed = .ok (mutations, preimage))
      (carryingOut : CarryingOut caller args client claimed mutations preimage t) :
      Applying server caller args client claimed
        (nowEvent now :: intentEvent caller args (.ok ()) :: t)

section Begins

variable {args : ApplyChangeSetArgs} {client : UnifiClient} {claimed : ChangeSetRecord}
  {t : List (Event ServerSig)}

theorem begins_lift_map {α : Type} {controller : String} {p : Program ClientSig α}
    (h : Fallible.Begins (ExceptT.lift (onController controller p) : ServerM α) t) :
    ∃ u, t = u.map (clientEvent controller) ∧ p.Begins u := by
  unfold Fallible.Begins at h
  rw [ExceptT.run_lift, map_eq_pure_bind, Program.begins_bind] at h
  rcases h with h | ⟨t₁, t₂, a, rfl, h₁, h₂⟩
  · exact begins_onController h
  · obtain rfl := Fallible.begins_pure (S := ServerSig) (ε := String) h₂
    rw [List.append_nil]
    exact begins_onController h₁.begins

/-- A question after which nothing is asked, so far. -/
theorem begins_coordinator_only {α : Type} {op : CoordinatorOp} {f : op.Answer → ServerM α}
    (hf : ∀ answer, (f answer).Asks fun _ => False)
    (h : (ServerM.coordinator op >>= f).Begins t) :
    t = [] ∨ ∃ answer, t = [coordinatorEvent op answer] := by
  rcases Fallible.begins_ask_bind.1 h with rfl | ⟨answer, rest, rfl, hrest⟩
  · exact .inl rfl
  · have hnone : rest = [] :=
      List.eq_nil_iff_forall_not_mem.2 fun e he => (hf answer).of_begins hrest e he
    rw [hnone]
    exact .inr ⟨answer, rfl⟩

theorem begins_abandon_only {message : String}
    (h : (UnifiServer.abandon claimed message : ServerM Json).Begins t) :
    t = [] ∨ ∃ recorded, t = [updateEvent claimed .failed recorded] :=
  begins_coordinator_only (fun _ => Fallible.asks_throw _) h

theorem carryingOut_of_begins (hevidence : server.evidence = true)
    {mutations : List StagedMutation} {preimage : Preimage}
    (h : (server.execute caller args client claimed mutations preimage).Begins t) :
    CarryingOut caller args client claimed mutations preimage t := by
  rcases Fallible.begins_bind.1 h with h | ⟨t₁, t₂, outcome, rfl, h₁, h₂⟩
  · obtain ⟨u, rfl, hu⟩ := begins_lift_map h
    exact .running u hu
  · obtain ⟨u, rfl, hrun⟩ := gives_lift_onController h₁
    dsimp only at h₂
    rw [if_pos hevidence] at h₂
    rcases Fallible.begins_ask_bind.1 h₂ with rfl | ⟨answer, t₃, rfl, h₃⟩
    · rw [List.append_nil]
      exact .running u hrun.begins
    · rcases begins_coordinator_only (fun _ => Fallible.asks_pure _) h₃ with
        rfl | ⟨recorded, rfl⟩
      · exact .told u outcome answer hrun
      · exact .settled u outcome answer recorded hrun

/-- **There is no other way for an apply call to have come.** -/
theorem applying_of_begins (hevidence : server.evidence = true)
    (h : (server.applyClaimed caller args client claimed).Begins t) :
    Applying server caller args client claimed t := by
  rcases Fallible.begins_ask_bind.1 h with rfl | ⟨now, t₁, rfl, h₁⟩
  · exact .claimed
  have habandon : ∀ {message : String},
      (UnifiServer.abandon claimed message : ServerM Json).Begins t₁ →
        Applying server caller args client claimed (nowEvent now :: t₁) := by
    intro message hbegins
    rcases begins_abandon_only hbegins with rfl | ⟨recorded, rfl⟩
    · exact .timed now
    · exact .abandoned now recorded
  by_cases hlate : now ≥ claimed.expiresAtUnix
  · rw [if_pos hlate] at h₁
    exact habandon h₁
  · rw [if_neg hlate] at h₁
    cases hplan : UnifiServer.planOf claimed with
    | error message =>
        rw [hplan] at h₁
        exact habandon h₁
    | ok plan =>
        obtain ⟨mutations, preimage⟩ := plan
        rw [hplan] at h₁
        dsimp only at h₁
        cases hcheck : checkWritableFields server.mecmcp.number mutations with
        | error e =>
            rw [hcheck] at h₁
            exact habandon h₁
        | ok _ =>
            rw [hcheck] at h₁
            dsimp only at h₁
            rw [if_pos hevidence] at h₁
            rcases Fallible.begins_ask_bind.1 h₁ with rfl | ⟨intent, t₂, rfl, h₂⟩
            · exact .timed now
            · rcases intent with error | ⟨⟩
              · rcases begins_abandon_only h₂ with rfl | ⟨recorded, rfl⟩
                · exact .notDurable now error
                · exact .notDurableSettled now error recorded
              · exact .carrying now mutations preimage t₂ hplan
                  (carryingOut_of_begins hevidence h₂)

/-! ## What can be told of it -/

/-- What comes before something in a list that ends otherwise is in its first part. -/
theorem mem_of_before {α : Type} {before after first last : List α} {x y : α}
    (h : before ++ x :: after = first ++ last) (hx : x ∉ last) (hy : y ∈ before) : y ∈ first := by
  rcases List.append_eq_append_iff.1 h with ⟨rest, rfl, -⟩ | ⟨rest, rfl, hrest⟩
  · exact List.mem_append_left _ hy
  · exact absurd (hrest ▸ List.mem_append_right _ List.mem_cons_self) hx

theorem not_isReceipt_clientEvent {controller : String} {u : List (Event ClientSig)}
    {e : Event ServerSig} (h : e ∈ u.map (clientEvent controller)) :
    ¬ ServerOp.IsReceipt e.op := by
  obtain ⟨e, -, rfl⟩ := List.mem_map.1 h
  exact id

theorem CarryingOut.before_client {mutations : List StagedMutation} {preimage : Preimage}
    {before after : List (Event ServerSig)} {controller : String} {e : Event ClientSig}
    (h : CarryingOut caller args client claimed mutations preimage
      (before ++ clientEvent controller e :: after)) :
    ∀ e' ∈ before, ¬ ServerOp.IsReceipt e'.op := by
  intro e' he'
  generalize hsplit : before ++ clientEvent controller e :: after = t at h
  cases h with
  | running u begun =>
      exact not_isReceipt_clientEvent (hsplit ▸ List.mem_append_left _ he')
  | told u outcome answer run =>
      refine not_isReceipt_clientEvent (mem_of_before hsplit ?_ he')
      simp [outcomeReceipt, receiptEvent, clientEvent]
  | settled u outcome answer recorded run =>
      refine not_isReceipt_clientEvent (mem_of_before hsplit ?_ he')
      simp [outcomeReceipt, receiptEvent, updateEvent, coordinatorEvent, clientEvent]

/-- The intent is on record before the controller is asked, and the result is not. -/
theorem Applying.before_client {before after : List (Event ServerSig)} {controller : String}
    {e : Event ClientSig}
    (h : Applying server caller args client claimed
      (before ++ clientEvent controller e :: after)) :
    intentEvent caller args (.ok ()) ∈ before ∧ ∀ e' ∈ before, ¬ ServerOp.IsReceipt e'.op := by
  have hmem : clientEvent controller e ∈ before ++ clientEvent controller e :: after := by simp
  generalize hsplit : before ++ clientEvent controller e :: after = t at h hmem
  cases h with
  | claimed | timed | abandoned | notDurable | notDurableSettled =>
      simp [nowEvent, intentEvent, updateEvent, coordinatorEvent, clientEvent] at hmem
  | carrying now mutations preimage t plan carryingOut =>
      rcases before with _ | ⟨e₁, _ | ⟨e₂, before⟩⟩
      · simp [nowEvent, clientEvent] at hsplit
      · simp [intentEvent, clientEvent] at hsplit
      · obtain ⟨rfl, hrest⟩ := List.cons.inj hsplit
        obtain ⟨rfl, rfl⟩ := List.cons.inj hrest
        refine ⟨by simp, fun e' he' => ?_⟩
        rcases List.mem_cons.1 he' with rfl | he'
        · exact id
        · rcases List.mem_cons.1 he' with rfl | he'
          · exact id
          · exact carryingOut.before_client e' he'

theorem clientTrace_carrying {now : Nat} {u : List (Event ClientSig)}
    {last : List (Event ServerSig)} (hlast : ∀ e ∈ last, ServerOp.NotClient e.op) :
    clientTrace (nowEvent now :: intentEvent caller args (.ok ()) ::
      (u.map (clientEvent args.controller) ++ last)) = u := by
  have hfirst : clientTrace [nowEvent now, intentEvent caller args (.ok ())] = [] := rfl
  have hsplit : nowEvent now :: intentEvent caller args (.ok ()) ::
      (u.map (clientEvent args.controller) ++ last) =
        [nowEvent now, intentEvent caller args (.ok ())] ++
          (u.map (clientEvent args.controller) ++ last) := rfl
  rw [hsplit, clientTrace_append, hfirst, clientTrace_append, clientTrace_map,
    clientTrace_eq_nil hlast, List.append_nil, List.nil_append]

/-- What a receipt says of the plan of a claimed change set. -/
structure ReceiptOf (caller : Option CallerCtx) (args : ApplyChangeSetArgs)
    (client : UnifiClient) (claimed : ChangeSetRecord) (u : List (Event ClientSig))
    (id name who : String) (ok : Bool) (error : String) : Prop where
  id : id = args.changeSetId
  name : name = args.controller
  who : who = principal caller
  result : ∃ mutations preimage outcome,
    UnifiServer.planOf claimed = .ok (mutations, preimage) ∧
    (applyOver client preimage mutations).Runs u outcome ∧
    ok = UnifiServer.succeeded outcome.state ∧
    error = if ok then "" else UnifiServer.stateName outcome.state

theorem receiptOf_outcome {mutations : List StagedMutation} {preimage : Preimage}
    (hplan : UnifiServer.planOf claimed = .ok (mutations, preimage))
    {u : List (Event ClientSig)} {outcome : Outcome}
    (hrun : (applyOver client preimage mutations).Runs u outcome) {id name who : String}
    {ok : Bool} {error : String} {answer answer' : Except String Unit}
    (h : (⟨.resultReceipt id name who ok error, answer'⟩ : Event ServerSig) =
      outcomeReceipt caller args outcome answer) :
    ReceiptOf caller args client claimed u id name who ok error := by
  unfold outcomeReceipt receiptEvent at h
  cases h
  exact ⟨rfl, rfl, rfl, mutations, preimage, outcome, hplan, hrun, rfl, rfl⟩

/-- A receipt comes after the plan has been carried out to its end, and says what came of it. -/
theorem Applying.receiptOf (h : Applying server caller args client claimed t)
    {id name who : String} {ok : Bool} {error : String} {answer : Except String Unit}
    (hmem : (⟨.resultReceipt id name who ok error, answer⟩ : Event ServerSig) ∈ t) :
    ReceiptOf caller args client claimed (clientTrace t) id name who ok error := by
  cases h with
  | claimed | timed | abandoned | notDurable | notDurableSettled =>
      simp [nowEvent, intentEvent, updateEvent, coordinatorEvent] at hmem
  | carrying now mutations preimage t plan carryingOut =>
      have hmem : (⟨.resultReceipt id name who ok error, answer⟩ : Event ServerSig) ∈ t := by
        simpa [nowEvent, intentEvent] using hmem
      cases carryingOut with
      | running u begun => exact absurd trivial (not_isReceipt_clientEvent hmem)
      | told u outcome answer' run =>
          rw [clientTrace_carrying (by intro e he; rw [List.mem_singleton.1 he]; trivial)]
          rcases List.mem_append.1 hmem with hmem | hmem
          · exact absurd trivial (not_isReceipt_clientEvent hmem)
          · exact receiptOf_outcome plan run (List.mem_singleton.1 hmem)
      | settled u outcome answer' recorded run =>
          rw [clientTrace_carrying (by
            intro e he
            rcases List.mem_pair.1 he with rfl | rfl <;> trivial)]
          rcases List.mem_append.1 hmem with hmem | hmem
          · exact absurd trivial (not_isReceipt_clientEvent hmem)
          · rcases List.mem_pair.1 hmem with hmem | hmem
            · exact receiptOf_outcome plan run hmem
            · cases hmem

/-- The state that is recorded is the one that the receipt tells, or nothing was asked of the
controller. -/
theorem Applying.recorded (h : Applying server caller args client claimed t)
    {record : ChangeSetRecord} {answer : Except CoordinatorError Unit}
    (hmem : coordinatorEvent (.updateChangeSet record) answer ∈ t) :
    (record.state = .applied ∧ ∃ told, receiptEvent caller args true "" told ∈ t) ∨
      record.state = .failed ∧ (clientTrace t = [] ∨
        ∃ error told, receiptEvent caller args false error told ∈ t ∧ error ≠ "") := by
  have hfailed : ∀ {recorded}, coordinatorEvent (.updateChangeSet record) answer =
      updateEvent claimed .failed recorded → record.state = .failed := by
    intro recorded heq
    unfold updateEvent at heq
    cases heq
    rfl
  cases h with
  | claimed | timed | notDurable =>
      simp [nowEvent, intentEvent, coordinatorEvent] at hmem
  | abandoned now recorded =>
      rcases List.mem_pair.1 hmem with hmem | hmem
      · cases hmem
      · exact .inr ⟨hfailed hmem, .inl rfl⟩
  | notDurableSettled now error recorded =>
      rcases List.mem_cons.1 hmem with hmem | hmem
      · cases hmem
      · rcases List.mem_pair.1 hmem with hmem | hmem
        · cases hmem
        · exact .inr ⟨hfailed hmem, .inl rfl⟩
  | carrying now mutations preimage t plan carryingOut =>
      have hmem : coordinatorEvent (.updateChangeSet record) answer ∈ t := by
        simpa [nowEvent, intentEvent, coordinatorEvent] using hmem
      cases carryingOut with
      | running u begun | told u outcome answer' run =>
          simp [coordinatorEvent, clientEvent, outcomeReceipt, receiptEvent] at hmem
      | settled u outcome told recorded run =>
          have hlast : coordinatorEvent (.updateChangeSet record) answer =
              updateEvent claimed (verdict outcome) recorded := by
            simpa [coordinatorEvent, clientEvent, outcomeReceipt, receiptEvent,
              updateEvent] using hmem
          have hstate : record.state = verdict outcome := by
            unfold updateEvent at hlast
            cases hlast
            rfl
          have htold : outcomeReceipt caller args outcome told ∈
              nowEvent now :: intentEvent caller args (.ok ()) ::
                (u.map (clientEvent args.controller) ++ [outcomeReceipt caller args outcome told,
                  updateEvent claimed (verdict outcome) recorded]) := by simp
          unfold verdict at hstate
          unfold outcomeReceipt at htold ⊢
          cases hok : UnifiServer.succeeded outcome.state with
          | true =>
              rw [hok] at hstate htold
              exact .inl ⟨hstate, told, htold⟩
          | false =>
              rw [hok] at hstate htold
              refine .inr ⟨hstate, .inr ⟨_, told, htold, ?_⟩⟩
              cases outcome.state <;> decide

end Begins

/-! ## Every run -/

variable {C : Coordinator}

section Reachable

variable {init : ServerWorld C} {p : CallPool C} {i : Nat} {args : ApplyChangeSetArgs}

/-- What an apply call has asked, around something it asks after its claim. -/
theorem applying_of_call (hevidence : server.evidence = true)
    (h : p.Reachable server.handle (ServerStep C) init)
    (hk : p.calls[i]? = some (.apply caller args)) {before after : List (Event ServerSig)}
    {e : Event ServerSig} (hown : ownEvents p.log i = before ++ e :: after)
    (hnot : ¬ ServerOp.UpToClaim e.op) :
    ∃ client status claimed rest,
      before = beforeClaim args client status ++ claimEvent args claimed :: rest ∧
      (i, claimEvent args claimed) ∈ p.log ∧
      clientTrace (ownEvents p.log i) = clientTrace (rest ++ e :: after) ∧
      Applying server caller args client claimed (rest ++ e :: after) := by
  have hbegins := h.begins hk
  rw [hown] at hbegins
  obtain ⟨client, status, claimed, rest, rfl, happlied⟩ := begins_apply hbegins hnot
  refine ⟨client, status, claimed, rest, rfl, mem_ownEvents.1 ?_, ?_,
    applying_of_begins hevidence happlied⟩
  · rw [hown]
    simp
  · rw [hown, List.append_assoc, clientTrace_append]
    rfl

/-- **The evidence tells the truth at every moment.**  With evidence on, in every order of calls
and wherever the run is cut off: before an apply call asks anything of a controller its intent has
been made durable, and no receipt has been made; a receipt is made after the plan of the claimed
change set has been carried out to its end, once nothing more will be asked, and says for the
change set, the controller and the caller of the call whether all of it landed and else what
became of it; and where a state is recorded, it is `applied` only after a receipt of success and
`failed` only after one of failure, or with nothing asked of the controller at all. -/
theorem evidence_tells_the_truth (hevidence : server.evidence = true)
    (h : p.Reachable server.handle (ServerStep C) init)
    (hk : p.calls[i]? = some (.apply caller args)) :
    (∀ before after controller e, p.log = before ++ (i, clientEvent controller e) :: after →
      (i, intentEvent caller args (.ok ())) ∈ before ∧
        ∀ e', (i, e') ∈ before → ¬ ServerOp.IsReceipt e'.op) ∧
    (∀ id name who ok error answer,
      (i, (⟨.resultReceipt id name who ok error, answer⟩ : Event ServerSig)) ∈ p.log →
        ∃ client claimed, (i, clientForEvent args.controller client) ∈ p.log ∧
          (i, claimEvent args claimed) ∈ p.log ∧
          ReceiptOf caller args client claimed (clientTrace (ownEvents p.log i)) id name who ok
            error) ∧
    ∀ record answer, (i, coordinatorEvent (.updateChangeSet record) answer) ∈ p.log →
      (record.state = .applied ∧
          ∃ told, (i, receiptEvent caller args true "" told) ∈ p.log) ∨
        record.state = .failed ∧ (clientTrace (ownEvents p.log i) = [] ∨
          ∃ error told, (i, receiptEvent caller args false error told) ∈ p.log ∧ error ≠ "") := by
  refine ⟨?_, ?_, ?_⟩
  · intro before after controller e hlog
    have hown : ownEvents p.log i =
        ownEvents before i ++ clientEvent controller e :: ownEvents after i := by
      rw [hlog, ownEvents_append, ownEvents_cons_self]
    obtain ⟨client, status, claimed, rest, hbefore, -, -, happlying⟩ :=
      applying_of_call hevidence h hk hown id
    obtain ⟨hintent, hnot⟩ := happlying.before_client
    refine ⟨mem_ownEvents.1 ?_, fun e' he' => ?_⟩
    · rw [hbefore]
      exact List.mem_append_right _ (List.mem_cons_of_mem _ hintent)
    · have he' := mem_ownEvents.2 he'
      rw [hbefore] at he'
      rcases List.mem_append.1 he' with he' | he'
      · rcases List.mem_pair.1 he' with rfl | rfl <;> exact id
      · rcases List.mem_cons.1 he' with rfl | he'
        · exact id
        · exact hnot e' he'
  · intro id' name who ok error answer hmem
    obtain ⟨before, after, hown⟩ := List.append_of_mem (mem_ownEvents.2 hmem)
    obtain ⟨client, status, claimed, rest, hbefore, hclaim, htrace, happlying⟩ :=
      applying_of_call hevidence h hk hown id
    refine ⟨client, claimed, mem_ownEvents.1 ?_, hclaim, ?_⟩
    · rw [hown, hbefore]
      exact List.mem_cons_self
    · rw [htrace]
      exact happlying.receiptOf (List.mem_append_right _ List.mem_cons_self)
  · intro record answer hmem
    obtain ⟨before, after, hown⟩ := List.append_of_mem (mem_ownEvents.2 hmem)
    obtain ⟨client, status, claimed, rest, hbefore, -, htrace, happlying⟩ :=
      applying_of_call hevidence h hk hown id
    have hlog : ∀ {e}, e ∈ rest ++ coordinatorEvent (.updateChangeSet record) answer :: after →
        (i, e) ∈ p.log := by
      intro e he
      refine mem_ownEvents.1 ?_
      rw [hown, hbefore, List.append_assoc, List.cons_append]
      exact List.mem_append_right _ (List.mem_cons_of_mem _ he)
    rw [htrace]
    rcases happlying.recorded (List.mem_append_right _ List.mem_cons_self) with
      ⟨hstate, told, htold⟩ | ⟨hstate, hnone | ⟨error, told, htold, herror⟩⟩
    · exact .inl ⟨hstate, told, hlog htold⟩
    · exact .inr ⟨hstate, .inl hnone⟩
    · exact .inr ⟨hstate, .inr ⟨error, told, hlog htold, herror⟩⟩

end Reachable

/-! ## An apply that is on record -/

/-- The reviewed calls of a server that records evidence. -/
def recordedPool : CallPool MemoryStore.coordinator :=
  reviewedCalls.foldl (runCall recordingServer.handle (oneController policyClient policyReply))
    ⟨emptyWorld, [], []⟩

theorem recordedPool_reachable : recordedPool.Reachable recordingServer.handle
    (ServerStep MemoryStore.coordinator) emptyWorld := by
  refine reachable_runCall (reachable_runCall (reachable_runCall (reachable_runCall
    .init _ ?_) _ ?_) _ ?_) _ ?_
  all_goals rfl

/-- The policy that was created has a durable intent before it, and a receipt that says so. -/
theorem evidence_tells_the_truth_recorded :
    (∃ before after e, recordedPool.log = before ++ (3, clientEvent "main" e) :: after ∧
      (3, intentEvent (humanWith "alice" "unifi_apply_change_set" none) ⟨"main", "cs-1"⟩
        (.ok ())) ∈ before) ∧
    ∃ told, (3, receiptEvent (humanWith "alice" "unifi_apply_change_set" none) ⟨"main", "cs-1"⟩
      true "" told) ∈ recordedPool.log := by
  have hk : recordedPool.calls[3]? = some (.apply
    (humanWith "alice" "unifi_apply_change_set" none) ⟨"main", "cs-1"⟩) := rfl
  obtain ⟨hintent, -, hrecorded⟩ := evidence_tells_the_truth rfl recordedPool_reachable hk
  have hsent : ∃ e, recordedPool.log = recordedPool.log.take 24 ++
      (3, clientEvent "main" e) :: recordedPool.log.drop 25 := ⟨⟨_, _⟩, rfl⟩
  have happlied : ∃ record answer, record.state = .applied ∧
      (3, coordinatorEvent (.updateChangeSet record) answer) ∈ recordedPool.log :=
    ⟨_, _, rfl, List.mem_of_getElem? (i := 27) rfl⟩
  obtain ⟨e, hsplit⟩ := hsent
  obtain ⟨record, answer, hstate, hmem⟩ := happlied
  refine ⟨⟨_, _, e, hsplit, (hintent _ _ _ e hsplit).1⟩, ?_⟩
  rcases hrecorded record answer hmem with ⟨-, htold⟩ | ⟨hfailed, -⟩
  · exact htold
  · rw [hstate] at hfailed
    cases hfailed

end UnifiMcp
