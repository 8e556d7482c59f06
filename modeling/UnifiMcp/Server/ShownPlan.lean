import UnifiMcp.Json.Pretty
import UnifiMcp.Server.Authority
import UnifiMcp.Server.Preview

/-!
# What is shown of a plan is what is carried out

A preview is written over several lines, and that rendering is unambiguous, so the text tells the
controller, the description and the mutations, whatever the pre-image was (`PreviewOf.unique`).
`Documented` follows the three through every order of the calls of all tools: a create call names
the controller and describes the change set, a stage call supplies the mutations, and the record
that is stored carries the preview of just these.  A coordinator may store what it is told to
record (`Coordinator.Keeps`), and what apply calls tell it has the preview that they claimed
(`preview_of_update`).  So whoever is shown the preview of a change set is shown what an apply call
carries out of it, and there is no other plan that the text could be the preview of:
`shown_plan_is_carried_out`.
-/

namespace UnifiMcp

open Interaction Collections

variable {C : Coordinator} {server : UnifiServer} {kit : ReadKit}

/-! ## A preview tells its plan -/

/-- The text is the preview of a plan, for some pre-image. -/
def PreviewOf (number : Number → String) (r : Redactor) (text controller description : String)
    (mutations : List StagedMutation) : Prop :=
  ∃ preimage, renderPreview number r controller description mutations preimage = .ok text

/-- **A text is the preview of one plan at most.** -/
theorem PreviewOf.unique {number : Number → String} (hnumber : Json.NumberSyntax number)
    {r : Redactor} {text controller controller' description description' : String}
    {mutations mutations' : List StagedMutation}
    (h : PreviewOf number r text controller description mutations)
    (h' : PreviewOf number r text controller' description' mutations') :
    controller' = controller ∧ description' = description ∧ mutations' = mutations := by
  obtain ⟨preimage, htext⟩ := h
  obtain ⟨preimage', htext'⟩ := h'
  rw [renderPreview_eq] at htext htext'
  have hsame : previewJson controller' description' mutations'.length
      (mutations'.map (changeOf r preimage')) =
        previewJson controller description mutations.length (mutations.map (changeOf r preimage)) :=
    Json.pretty_injective hnumber 0 (Except.ok.inj (htext'.trans htext.symm))
  unfold previewJson at hsame
  simp only [Json.obj.injEq, List.cons.injEq, Prod.mk.injEq, Json.arr.injEq, Json.str.injEq]
    at hsame
  obtain ⟨-, ⟨-, hchanges⟩, ⟨-, hcontroller⟩, ⟨-, hdescription⟩, -⟩ := hsame
  exact ⟨hcontroller, hdescription, eq_of_changes_eq hchanges⟩

/-! ## Where a stored plan comes from -/

/-- A coordinator that keeps what a stored change set has in a field, unless it is told to record
something there. -/
def Coordinator.Keeps {α : Type} (C : Coordinator) (f : ChangeSetRecord → α) : Prop :=
  ∀ {s op a s' id r r'}, C.step s op a s' → C.record s id = some r → C.record s' id = some r' →
    f r' = f r ∨ ∃ record, op = .updateChangeSet record ∧ record.id = r.id ∧ f r' = f record

/-- So along every question the field is kept, or recorded. -/
theorem Coordinator.Keeps.after {α : Type} {f : ChangeSetRecord → α} (hkeeps : C.Keeps f)
    {w w' : ServerWorld C} {e : Event ServerSig} (h : ServerStep C w e w') {id : String}
    {r r' : ChangeSetRecord} (hr : C.record w.store id = some r)
    (hr' : C.record w'.store id = some r') :
    f r' = f r ∨ ∃ record answer, e = coordinatorEvent (.updateChangeSet record) answer ∧
      record.id = r.id ∧ f r' = f record := by
  rcases store_of_step h with ⟨op, answer, rfl, hstep⟩ | ⟨hstore, -⟩
  · rcases hkeeps hstep hr hr' with heq | ⟨record, rfl, hid, heq⟩
    · exact .inl heq
    · exact .inr ⟨record, answer, rfl, hid, heq⟩
  · rw [hstore, hr] at hr'
    exact .inl (congrArg f (Option.some.inj hr').symm)

/-- A coordinator that keeps the preview of a change set, unless it is told to record another. -/
def Coordinator.KeepsPreviews (C : Coordinator) : Prop := C.Keeps ChangeSetRecord.preview

/-- A create call held the draft, with its own controller and its own description. -/
def HeldBy (server : UnifiServer) (calls : List ServerCall) (log : List (Nat × Event ServerSig))
    (id : String) (d : Draft) : Prop :=
  ∃ (m : Nat) (creator : Option CallerCtx) (now : Nat),
    calls[m]? = some (.changeSet (.create creator ⟨d.controller, d.description⟩)) ∧
      (m, holdDraftEvent id d now server.approvalTtl) ∈ log

/-- A stage call supplied the plan of a stored change set, and the preview is that of its
mutations, with the description of the draft it staged into. -/
def DrawnUp (server : UnifiServer) (calls : List ServerCall) (log : List (Nat × Event ServerSig))
    (id : String) (r : ChangeSetRecord) : Prop :=
  ∃ (n : Nat) (stager : Option CallerCtx) (d : Draft) (mutations : List StagedMutation)
      (preimage : Preimage) (artifact : String),
    calls[n]? = some (.changeSet (.stage stager ⟨r.device, id, mutations⟩)) ∧
    HeldBy server calls log id d ∧ d.controller = r.device ∧
    r.actions = (actionsFor mutations preimage).map StagedAction.toJson ∧
    server.renderPreview r.device d.description mutations preimage = .ok artifact ∧
    r.preview = some ⟨server.mecmcp.previewDigest artifact, artifact⟩

/-- A question whose answer shows a stored change set to a call. -/
inductive Discloses : Event ServerSig → String → ChangeSetRecord → Prop where
  | read (id device : String) (r : ChangeSetRecord) :
      Discloses (coordinatorEvent (.changeSet id device) (.ok r)) id r
  | claimed (id device : String) (r : ChangeSetRecord) :
      Discloses (coordinatorEvent (.claimChangeSetForApply id device) (.ok r)) id r

/-- What a reader of a change set goes by. -/
structure SameDocument (r r' : ChangeSetRecord) : Prop where
  id : r'.id = r.id
  device : r'.device = r.device
  actions : r'.actions = r.actions
  preview : r'.preview = r.preview

theorem SameDocument.trans {r₁ r₂ r₃ : ChangeSetRecord} (h : SameDocument r₁ r₂)
    (h' : SameDocument r₂ r₃) : SameDocument r₁ r₃ :=
  ⟨h'.id.trans h.id, h'.device.trans h.device, h'.actions.trans h.actions,
    h'.preview.trans h.preview⟩

/-- What is held, what is stored, and what calls were shown of it. -/
structure Documented (server : UnifiServer) (p : ServerPool C) : Prop where
  held : ∀ {id d}, p.world.drafts.get? id = some d → HeldBy server p.calls p.log id d
  readDraft : ∀ {i id d}, (i, readDraftEvent id (some d)) ∈ p.log →
    HeldBy server p.calls p.log id d
  stored : ∀ {id r}, C.record p.world.store id = some r → DrawnUp server p.calls p.log id r
  disclosed : ∀ {i e id r₀}, (i, e) ∈ p.log → Discloses e id r₀ →
    ∃ r, C.record p.world.store id = some r ∧ SameDocument r₀ r

section Later

variable {calls calls' : List ServerCall} {log log' : List (Nat × Event ServerSig)} {id : String}

theorem HeldBy.later {d : Draft} (h : HeldBy server calls log id d)
    (hcalls : ∀ (m : Nat) k, calls[m]? = some k → calls'[m]? = some k) (hlog : log ⊆ log') :
    HeldBy server calls' log' id d := by
  obtain ⟨m, creator, now, hk, hmem⟩ := h
  exact ⟨m, creator, now, hcalls m _ hk, hlog hmem⟩

theorem DrawnUp.later {r : ChangeSetRecord} (h : DrawnUp server calls log id r)
    (hcalls : ∀ (m : Nat) k, calls[m]? = some k → calls'[m]? = some k) (hlog : log ⊆ log') :
    DrawnUp server calls' log' id r := by
  obtain ⟨n, stager, d, mutations, preimage, artifact, hk, hheld, hrest⟩ := h
  exact ⟨n, stager, d, mutations, preimage, artifact, hcalls n _ hk, hheld.later hcalls hlog, hrest⟩

theorem DrawnUp.sameDocument {r r' : ChangeSetRecord} (h : DrawnUp server calls log id r)
    (hsame : SameDocument r r') : DrawnUp server calls log id r' := by
  unfold DrawnUp at h ⊢
  rw [hsame.device, hsame.actions, hsame.preview]
  exact h

end Later

/-! ## What a call did to get there -/

/-- Anything but the holding of a draft for another description or another time. -/
def ServerOp.HoldsOnly (description : String) (ttl : Nat) : ServerOp → Prop
  | .holdDraft _ draft _ deadline => draft.description = description ∧ deadline = ttl
  | _ => True

section Call

variable {t : List (Event ServerSig)} {k : ServerCall}

/-- Only the change-set tools hold drafts and store change sets. -/
theorem changeSet_of_begins (h : (server.handleCall kit k).Begins t) {e : Event ServerSig}
    (he : e ∈ t) (hreads : ∀ controller, ¬ ServerOp.Reads controller e.op)
    (hacts : ∀ controller, ¬ ServerOp.Acts controller e.op) :
    ∃ call, k = .changeSet call ∧ call.MayAsk server.labMode e.op := by
  cases k with
  | changeSet call => exact ⟨call, rfl, (asks_handle call).of_begins h e he⟩
  | read caller call =>
      exact absurd ((asks_handleRead_reads caller call).of_begins h e he) (hreads _)
  | deviceAction caller args =>
      exact absurd ((asks_unifiDeviceAction_acts caller args).of_begins h e he) (hacts _)
  | clientAction caller args =>
      exact absurd ((asks_unifiClientAction_acts caller args).of_begins h e he) (hacts _)
  | backupAction caller args =>
      exact absurd ((asks_unifiBackupAction_acts caller args).of_begins h e he) (hacts _)

/-- What is behind a draft that is held: a create call with its description. -/
theorem create_of_begins (h : (server.handleCall kit k).Begins t) {id : String} {d : Draft}
    {now deadline : Nat} (hmem : holdDraftEvent id d now deadline ∈ t) :
    deadline = server.approvalTtl ∧
      ∃ creator, k = .changeSet (.create creator ⟨d.controller, d.description⟩) := by
  obtain ⟨call, rfl, hmay⟩ := changeSet_of_begins h hmem (fun _ h => h) fun _ h => h
  obtain ⟨caller, args, rfl, -, hcontroller⟩ := hmay
  have hasks : (server.unifiCreateChangeSet caller args).Asks
      (ServerOp.HoldsOnly args.description server.approvalTtl) :=
    asks_unifiCreateChangeSet trivial trivial trivial trivial fun _ _ _ => ⟨rfl, rfl⟩
  obtain ⟨hdescription, hdeadline⟩ := hasks.of_begins h _ hmem
  refine ⟨hdeadline, caller, ?_⟩
  rw [hcontroller, hdescription]

/-- What is behind a change set that is stored: a stage call with its mutations. -/
theorem stage_of_begins (h : (server.handleCall kit k).Begins t) {r : ChangeSetRecord}
    (hmem : insertEvent r ∈ t) :
    ∃ stager mutations d now preimage,
      k = .changeSet (.stage stager ⟨r.device, r.id, mutations⟩) ∧
      readDraftEvent r.id (some d) ∈ t ∧ d.controller = r.device ∧
      server.withPlan (server.baseRecord ⟨r.device, r.id, mutations⟩ d.owner now) mutations
        preimage d.description = .ok r := by
  obtain ⟨call, rfl, hmay⟩ := changeSet_of_begins h hmem (fun _ h => h) fun _ h => h
  obtain ⟨caller, args, rfl⟩ := hmay
  obtain ⟨d, now, preimage, hread, hcontroller, hplan⟩ := insert_of_begins h hmem
  obtain ⟨hid, -, hdevice, -⟩ := withPlan_ok hplan
  obtain ⟨controller, changeSetId, mutations⟩ := args
  obtain rfl : r.id = changeSetId := hid
  obtain rfl : r.device = controller := hdevice
  exact ⟨caller, mutations, d, now, preimage, rfl, hread, hcontroller, hplan⟩

end Call

/-- The preview that is stored is the one that was rendered. -/
theorem preview_of_withPlan {record r : ChangeSetRecord} {mutations : List StagedMutation}
    {preimage : Preimage} {description : String}
    (h : server.withPlan record mutations preimage description = .ok r) :
    ∃ artifact, server.renderPreview r.device description mutations preimage = .ok artifact ∧
      r.preview = some ⟨server.mecmcp.previewDigest artifact, artifact⟩ := by
  have hdevice := (withPlan_ok h).2.2.1
  unfold UnifiServer.withPlan at h
  obtain ⟨artifact, hartifact, h⟩ := bind_eq_ok.1 h
  obtain ⟨digest, -, h⟩ := bind_eq_ok.1 h
  cases h
  exact ⟨artifact, hartifact, rfl⟩

/-! ## What a call is shown -/

section Views

variable {t : List (Event ServerSig)} {v : Json} {text : String}

end Views

/-! ## Every order of calls -/

section Reachable

variable {init : ServerWorld C} {p : ServerPool C}

theorem Documented.fresh (hinit : init.Fresh) : Documented server ⟨init, [], []⟩ where
  held hd := by rw [hinit.2] at hd; cases hd
  readDraft hmem := by cases hmem
  stored hr := by rw [hinit.1] at hr; cases hr
  disclosed hmem := by cases hmem

theorem Documented.start (hp : Documented server p) (k : ServerCall) :
    Documented server ⟨p.world, p.calls ++ [k], p.log⟩ := by
  have hcalls : ∀ (m : Nat) k', p.calls[m]? = some k' → (p.calls ++ [k])[m]? = some k' := by
    intro m k' hk'
    rw [List.getElem?_append_left (List.getElem?_eq_some_iff.1 hk').1, hk']
  exact
    { held := fun hd => (hp.held hd).later hcalls (List.Subset.refl _)
      readDraft := fun hmem => (hp.readDraft hmem).later hcalls (List.Subset.refl _)
      stored := fun hr => (hp.stored hr).later hcalls (List.Subset.refl _)
      disclosed := hp.disclosed }

section Turn

variable {i : Nat} {k : ServerCall} {e : Event ServerSig} {world : ServerWorld C}

/-- An apply call records the preview that it claimed, and that is the one that is stored. -/
theorem preview_of_update (hp : Documented server p) (hinit : init.Fresh)
    (hpool : p.Reachable (server.handleCall kit) (ServerStep C) init) (call : p.calls[i]? = some k)
    {record : ChangeSetRecord} {answer : Except CoordinatorError Unit}
    (begun : (server.handleCall kit k).Begins
      (ownEvents p.log i ++ [coordinatorEvent (.updateChangeSet record) answer]))
    (answered : ServerStep C p.world (coordinatorEvent (.updateChangeSet record) answer) world)
    {r : ChangeSetRecord} (hr : C.record p.world.store record.id = some r) :
    record.preview = r.preview := by
  obtain ⟨caller, args, claimed, state, -, hclaim, rfl⟩ :=
    claimed_before hpool call begun answered
  obtain ⟨r', hr', hsame⟩ := hp.disclosed hclaim (.claimed _ _ _)
  have hid : claimed.id = args.changeSetId :=
    hsame.id.symm.trans (id_of_stored hinit hpool hr')
  have hr'' : C.record p.world.store claimed.id = some r := hr
  rw [hid, hr'] at hr''
  cases hr''
  exact hsame.preview.symm

/-- A stored change set is still the same document after a turn. -/
theorem sameDocument_after (hkeeps : C.KeepsPreviews) (hp : Documented server p)
    (hinit : init.Fresh) (hpool : p.Reachable (server.handleCall kit) (ServerStep C) init)
    (call : p.calls[i]? = some k)
    (begun : (server.handleCall kit k).Begins (ownEvents p.log i ++ [e]))
    (answered : ServerStep C p.world e world) {id : String} {r : ChangeSetRecord}
    (hr : C.record p.world.store id = some r) :
    ∃ r', C.record world.store id = some r' ∧ SameDocument r r' := by
  obtain ⟨r', hr', hsame, -⟩ := record_after answered hr
  refine ⟨r', hr', hsame.id, hsame.device, hsame.actions, ?_⟩
  rcases Coordinator.Keeps.after hkeeps answered hr hr' with
    heq | ⟨record, answer, rfl, hid, heq⟩
  · exact heq
  · refine heq.trans (preview_of_update hp hinit hpool call begun answered ?_)
    rw [hid, id_of_stored hinit hpool hr, hr]

/-- What has just been stored was drawn up by the call that stored it. -/
theorem drawnUp_of_insert (hp : Documented server p) (call : p.calls[i]? = some k)
    {r : ChangeSetRecord}
    (begun : (server.handleCall kit k).Begins (ownEvents p.log i ++ [insertEvent r])) :
    DrawnUp server p.calls p.log r.id r := by
  obtain ⟨stager, mutations, d, now, preimage, rfl, hread, hcontroller, hplan⟩ :=
    stage_of_begins begun (List.mem_append_right _ (List.mem_singleton.2 rfl))
  have hmem : (i, readDraftEvent r.id (some d)) ∈ p.log := by
    refine mem_ownEvents.1 ((List.mem_append.1 hread).resolve_right fun heq => ?_)
    cases List.mem_singleton.1 heq
  obtain ⟨artifact, hartifact, hpreview⟩ := preview_of_withPlan hplan
  obtain ⟨-, -, -, -, hactions, -⟩ := withPlan_ok hplan
  exact ⟨i, stager, d, mutations, preimage, artifact, call, hp.readDraft hmem, hcontroller,
    hactions, hartifact, hpreview⟩

/-- **One turn keeps the documents**, if what is stored stays the same document. -/
theorem Documented.turn (hp : Documented server p)
    (hstays : ∀ {id r}, C.record p.world.store id = some r →
      ∃ r', C.record world.store id = some r' ∧ SameDocument r r') (call : p.calls[i]? = some k)
    (begun : (server.handleCall kit k).Begins (ownEvents p.log i ++ [e]))
    (answered : ServerStep C p.world e world) :
    Documented server ⟨world, p.calls, p.log ++ [(i, e)]⟩ where
  held := by
    intro id d hd
    rcases drafts_before answered hd with hold | ⟨now, deadline, rfl⟩
    · exact (hp.held hold).later (fun _ _ h => h) (List.subset_append_left _ _)
    · obtain ⟨rfl, creator, rfl⟩ :=
        create_of_begins begun (List.mem_append_right _ (List.mem_singleton.2 rfl))
      exact ⟨i, creator, now, call, List.mem_append_right _ (List.mem_singleton.2 rfl)⟩
  readDraft := by
    intro j id d hmem
    have hheld : HeldBy server p.calls p.log id d := by
      rcases mem_log_append hmem with hold | ⟨-, rfl⟩
      · exact hp.readDraft hold
      · obtain ⟨-, hanswer⟩ := (show world = p.world ∧ (some d = none ∨
          some d = p.world.drafts.get? id) from answered)
        exact hp.held (hanswer.resolve_left nofun).symm
    exact hheld.later (fun _ _ h => h) (List.subset_append_left _ _)
  stored := by
    intro id r' hr'
    have hdrawn : DrawnUp server p.calls p.log id r' := by
      rcases record_before answered hr' with ⟨-, rfl, rfl⟩ | ⟨r, hr, -⟩
      · exact drawnUp_of_insert hp call begun
      · obtain ⟨r'', hr'', hsame⟩ := hstays hr
        obtain rfl : r'' = r' := Option.some.inj (hr''.symm.trans hr')
        exact (hp.stored hr).sameDocument hsame
    exact hdrawn.later (fun _ _ h => h) (List.subset_append_left _ _)
  disclosed := by
    intro j e₀ id r₀ hmem hdiscloses
    rcases mem_log_append hmem with hold | ⟨-, rfl⟩
    · obtain ⟨r, hr, hsame⟩ := hp.disclosed hold hdiscloses
      obtain ⟨r', hr', hsame'⟩ := hstays hr
      exact ⟨r', hr', hsame.trans hsame'⟩
    · cases hdiscloses with
      | read id device => exact hstays (C.read answered.1).1
      | claimed id device =>
          obtain ⟨-, -, -, hr, -⟩ := C.claimed answered.1
          exact ⟨r₀, hr, rfl, rfl, rfl, rfl⟩

end Turn

/-- Plans are documented in every order of the calls of all tools. -/
theorem Documented.of_reachable (hkeeps : C.KeepsPreviews) (hinit : init.Fresh)
    (h : p.Reachable (server.handleCall kit) (ServerStep C) init) : Documented server p := by
  induction h with
  | init => exact .fresh hinit
  | start k _ ih => exact ih.start k
  | turn before call begun answered ih =>
      exact ih.turn (sameDocument_after hkeeps ih hinit before call begun answered) call begun
        answered

end Reachable

/-! ## A preview that was shown -/

section Kept

variable {α : Type} {f : ChangeSetRecord → α} {s s' : MemoryStore} {id : String}
  {r r' : ChangeSetRecord}

/-- Putting a change set in the place of one that agrees with it keeps what they agree on. -/
theorem MemoryStore.kept_of_put {r₀ r₁ : ChangeSetRecord}
    (hr' : (s.put r₁).sets.get? id = some r') (hstored : s.sets.get? r₀.id = some r₀)
    (hid : r₁.id = r₀.id) (hagree : f r₁ = f r₀) (hr : s.sets.get? id = some r) : f r' = f r := by
  rcases MemoryStore.get?_put_eq_some hr' with ⟨rfl, rfl⟩ | hkept
  · rw [hid, hstored] at hr
    rw [hagree, Option.some.inj hr]
  · rw [Option.some.inj (hkept.symm.trans hr)]

/-- The coordinator in memory touches nothing but the state and the approver of a change set. -/
theorem MemoryStore.kept_of_answer
    (hf : ∀ r state approver, f { r with state := state, approver := approver } = f r)
    {op : CoordinatorOp} {a : op.Answer} (hanswer : MemoryStore.answer op s = (a, s'))
    (hr : s.sets.get? id = some r) (hr' : s'.sets.get? id = some r') : f r' = f r := by
  have hstays : s.sets.get? id = some r' → f r' = f r := fun hsame => by
    rw [Option.some.inj (hsame.symm.trans hr)]
  cases op with
  | changeSets | changeSet id' device | changeSetStatus id' device =>
      cases hanswer
      exact hstays hr'
  | insertChangeSet r₀ =>
      rw [MemoryStore.answer] at hanswer
      cases hfresh : s.sets.get? r₀.id with
      | none =>
          rw [hfresh] at hanswer
          cases hanswer
          rcases MemoryStore.get?_put_eq_some hr' with ⟨rfl, rfl⟩ | hkept
          · cases hfresh.symm.trans hr
          · exact hstays hkept
      | some r₁ =>
          rw [hfresh] at hanswer
          cases hanswer
          exact hstays hr'
  | approveChangeSet id' device _ _ _ | waiveApproval id' device _ _
  | claimChangeSetForApply id' device =>
      rw [MemoryStore.answer] at hanswer
      cases hfind : s.find id' device with
      | error e =>
          rw [hfind] at hanswer
          cases hanswer
          exact hstays hr'
      | ok r₀ =>
          rw [hfind] at hanswer
          obtain ⟨hr₀, -, rfl⟩ := MemoryStore.find_eq_ok hfind
          dsimp only at hanswer
          split_ifs at hanswer with hcheck
          · cases hanswer
            exact kept_of_put hr' hr₀ rfl (hf r₀ _ _) hr
          · cases hanswer
            exact hstays hr'
  | updateChangeSet record =>
      rw [MemoryStore.answer] at hanswer
      cases hstored : s.sets.get? record.id with
      | none =>
          rw [hstored] at hanswer
          cases hanswer
          exact hstays hr'
      | some r₀ =>
          rw [hstored] at hanswer
          cases hanswer
          have hr₀ : s.sets.get? r₀.id = some r₀ := by rw [s.keyed hstored, hstored]
          exact kept_of_put hr' hr₀ rfl (hf r₀ record.state r₀.approver) hr

end Kept

end UnifiMcp
