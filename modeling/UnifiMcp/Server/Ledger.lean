import UnifiMcp.Server.History
import UnifiMcp.Server.StoredPlan

/-!
# What the log says of the stored change sets

A stored change set was stored by a stage call and has kept its plan since; one that is
approved or being applied was approved under its own digest; and a claim that was granted has
taken it out of that state for good.  `Ledger` states this of a pool, and `Ledger.of_reachable`
proves it of every pool that can be reached, from what one question can do
(`record_before`, `drafts_before`).
-/

namespace UnifiMcp

open Interaction Collections

variable {C : Coordinator} {server : UnifiServer}

/-- A pool of calls of the change-set tools. -/
abbrev CallPool (C : Coordinator) : Type := Pool ServerSig (ServerWorld C) ChangeSetCall

/-- Nothing is stored and nothing is held. -/
def ServerWorld.Fresh (w : ServerWorld C) : Prop :=
  (∀ id, C.record w.store id = none) ∧ ∀ id, w.drafts.get? id = none

/-! ## One question -/

/-- How the state of a stored change set got to be what it is: it was so before, or the
coordinator was called. -/
def StateStep (e : Event ServerSig) (r : ChangeSetRecord) (state : ChangeSetState) : Prop :=
  state = r.state ∨ ∃ op answer, e = coordinatorEvent op answer ∧ StateChange op r state

/-- A stored change set stays. -/
theorem record_after {w w' : ServerWorld C} {e : Event ServerSig} (h : ServerStep C w e w')
    {id : String} {r : ChangeSetRecord} (hr : C.record w.store id = some r) :
    ∃ r', C.record w'.store id = some r' ∧ SamePlan r r' ∧ StateStep e r r'.state := by
  rcases store_of_step h with ⟨op, answer, he, hstep⟩ | ⟨hstore, -⟩
  · obtain ⟨r', hr', hsame, hchange⟩ := C.stays hstep hr
    exact ⟨r', hr', hsame, .inr ⟨op, answer, he, hchange⟩⟩
  · exact ⟨r, by rw [hstore, hr], .refl r, .inl rfl⟩

/-- A change set that is stored was so before, or has just been stored. -/
theorem record_before {w w' : ServerWorld C} {e : Event ServerSig} (h : ServerStep C w e w')
    {id : String} {r' : ChangeSetRecord} (hr' : C.record w'.store id = some r') :
    (C.record w.store id = none ∧ r'.id = id ∧
        e = coordinatorEvent (.insertChangeSet r') (.ok ())) ∨
      ∃ r, C.record w.store id = some r ∧ SamePlan r r' ∧ StateStep e r r'.state := by
  cases hr : C.record w.store id with
  | some r =>
      obtain ⟨r'', hr'', hsame, hchange⟩ := record_after h hr
      obtain rfl : r'' = r' := Option.some.inj (hr''.symm.trans hr')
      exact .inr ⟨r, rfl, hsame, hchange⟩
  | none =>
      rcases store_of_step h with ⟨op, answer, he, hstep⟩ | ⟨hstore, -⟩
      · obtain ⟨hop, hid⟩ := C.added hstep hr hr'
        cases hop
        exact .inl ⟨rfl, hid, he⟩
      · rw [hstore, hr] at hr'
        cases hr'

/-- What is held after holding a draft. -/
theorem get?_holdDraft {drafts : SortedMap String Draft} {id id' : String} {draft d : Draft}
    {now deadline : Nat}
    (h : (holdDraft drafts id draft now deadline).2.get? id' = some d) :
    drafts.get? id' = some d ∨
      id' = id ∧ d = draft ∧ (holdDraft drafts id draft now deadline).1 = .ok () := by
  have hkept : ∀ {keep : Draft → Bool}, (drafts.retain keep).get? id' = some d →
      drafts.get? id' = some d := fun hd => (SortedMap.get?_retain_eq_some.1 hd).2
  unfold holdDraft at h ⊢
  dsimp only at h ⊢
  split at h
  · exact .inl (hkept h)
  · split_ifs at h with hfull
    · exact .inl (hkept h)
    · by_cases hid : id' = id
      · subst hid
        rw [SortedMap.get?_insert_self] at h
        rw [if_neg hfull]
        exact .inr ⟨rfl, (Option.some.inj h).symm, rfl⟩
      · rw [SortedMap.get?_insert_of_ne _ hid] at h
        exact .inl (hkept h)

/-- A draft that is held was so before, or has just been held. -/
theorem drafts_before {w w' : ServerWorld C} {e : Event ServerSig} (h : ServerStep C w e w')
    {id : String} {d : Draft} (hd : w'.drafts.get? id = some d) :
    w.drafts.get? id = some d ∨ ∃ now deadline, e = holdDraftEvent id d now deadline := by
  match e, h with
  | ⟨.coordinator op, answer⟩, h => exact .inl (h.2.1 ▸ hd)
  | ⟨.holdDraft id' draft now deadline, .ok r⟩, h =>
      have hheld := congrArg Prod.snd h.1
      have hanswer := congrArg Prod.fst h.1
      dsimp only at hheld hanswer
      rw [hheld] at hd
      rcases get?_holdDraft hd with hd | ⟨rfl, rfl, hok⟩
      · exact .inl hd
      · rw [hok] at hanswer
        subst hanswer
        exact .inr ⟨now, deadline, rfl⟩
  | ⟨.holdDraft id' draft now deadline, .error _⟩, h =>
      exact .inl (by rwa [show w' = w from h] at hd)
  | ⟨.readDraft id', _⟩, h => exact .inl (by rwa [h.1] at hd)
  | ⟨.releaseDraft id', _⟩, h =>
      rcases (show w' = w ∨ w' = _ from h) with h | h
      · exact .inl (by rwa [h] at hd)
      · rw [h] at hd
        exact .inl (SortedMap.get?_erase_eq_some.1 hd).2
  | ⟨.lockPlan, _⟩, h => exact .inl (by rwa [h.2] at hd)
  | ⟨.unlockPlan, _⟩, h => exact .inl (by rwa [show w' = _ from h] at hd)
  | ⟨.unixSecondsNow, _⟩, h | ⟨.newChangeSetId, _⟩, h | ⟨.clientFor _, _⟩, h
  | ⟨.clients, _⟩, h | ⟨.controllerNames, _⟩, h | ⟨.controllerNamed _, _⟩, h
  | ⟨.client _ _, _⟩, h | ⟨.proposal _ _ _ _, _⟩, h | ⟨.applyIntent _ _ _, _⟩, h
  | ⟨.resultReceipt _ _ _ _ _, _⟩, h => exact .inl (by rwa [show w' = w from h] at hd)

/-! ## Approvals and plans -/

/-- A human other than the owner approved this plan, by its digest. -/
def Approved (log : List (Nat × Event ServerSig)) (r : ChangeSetRecord) : Prop :=
  ∃ i approver answer, approver ≠ r.owner ∧
    (i, coordinatorEvent (.approveChangeSet r.id r.device approver r.digest .human) answer) ∈ log

theorem Approved.append {log : List (Nat × Event ServerSig)} {r : ChangeSetRecord}
    (h : Approved log r) (e : Nat × Event ServerSig) : Approved (log ++ [e]) r := by
  obtain ⟨i, approver, answer, hother, hmem⟩ := h
  exact ⟨i, approver, answer, hother, List.mem_append_left _ hmem⟩

theorem Approved.samePlan {log : List (Nat × Event ServerSig)} {r r' : ChangeSetRecord}
    (h : Approved log r) (hsame : SamePlan r r') : Approved log r' := by
  obtain ⟨i, approver, answer, hother, hmem⟩ := h
  refine ⟨i, approver, answer, hsame.owner ▸ hother, ?_⟩
  rw [hsame.id, hsame.device, hsame.digest]
  exact hmem

/-! ## The invariant -/

/-- The questions that calls ask outside lab mode, as far as the states of change sets are
concerned. -/
def ServerOp.Orderly : ServerOp → Prop
  | .coordinator (.insertChangeSet r) => r.state = .planned
  | .coordinator (.waiveApproval _ _ _ _) => False
  | .coordinator (.updateChangeSet r) => r.state = .applied ∨ r.state = .failed
  | _ => True

theorem orderly_of_begins (hlab : server.labMode = false) {k : ChangeSetCall}
    {t : List (Event ServerSig)} (h : (server.handle k).Begins t) :
    ∀ e ∈ t, ServerOp.Orderly e.op := by
  intro e he
  have hmay := (asks_handle k).of_begins h e he
  match e, hmay with
  | ⟨.coordinator (.insertChangeSet r), answer⟩, hmay =>
      obtain ⟨caller, args, rfl⟩ := hmay
      obtain ⟨draft, now, preimage, -, -, hplan⟩ := insert_of_begins h he
      exact (withPlan_ok hplan).2.2.2.1
  | ⟨.coordinator (.waiveApproval _ _ _ _), _⟩, hmay =>
      have hon : server.labMode = true := hmay
      rw [hlab] at hon
      cases hon
  | ⟨.coordinator (.updateChangeSet r), _⟩, hmay => exact hmay.2
  | ⟨.coordinator .changeSets, _⟩, _ | ⟨.coordinator (.changeSet _ _), _⟩, _
  | ⟨.coordinator (.changeSetStatus _ _), _⟩, _
  | ⟨.coordinator (.approveChangeSet _ _ _ _ _), _⟩, _
  | ⟨.coordinator (.claimChangeSetForApply _ _), _⟩, _
  | ⟨.unixSecondsNow, _⟩, _ | ⟨.newChangeSetId, _⟩, _ | ⟨.holdDraft _ _ _ _, _⟩, _
  | ⟨.readDraft _, _⟩, _ | ⟨.releaseDraft _, _⟩, _ | ⟨.lockPlan, _⟩, _ | ⟨.unlockPlan, _⟩, _
  | ⟨.clientFor _, _⟩, _ | ⟨.clients, _⟩, _ | ⟨.controllerNames, _⟩, _
  | ⟨.controllerNamed _, _⟩, _ | ⟨.client _ _, _⟩, _ | ⟨.proposal _ _ _ _, _⟩, _
  | ⟨.applyIntent _ _ _, _⟩, _ | ⟨.resultReceipt _ _ _ _ _, _⟩, _ => trivial

/-- What the log says of the stored change sets. -/
structure Ledger (w : ServerWorld C) (log : List (Nat × Event ServerSig)) : Prop where
  /-- What is stored was stored by a call. -/
  stored : ∀ {id r}, C.record w.store id = some r → r.id = id ∧
    ∃ i r₀, (i, coordinatorEvent (.insertChangeSet r₀) (.ok ())) ∈ log ∧ SamePlan r₀ r
  approved : ∀ {id r}, C.record w.store id = some r →
    r.state = .approved ∨ r.state = .applying → Approved log r
  inserted : ∀ {i r₀}, (i, coordinatorEvent (.insertChangeSet r₀) (.ok ())) ∈ log →
    ∃ r, C.record w.store r₀.id = some r ∧ SamePlan r₀ r
  insertedOnce : ∀ {i j r r'}, (i, coordinatorEvent (.insertChangeSet r) (.ok ())) ∈ log →
    (j, coordinatorEvent (.insertChangeSet r') (.ok ())) ∈ log → r.id = r'.id → i = j
  read : ∀ {i id device r₀}, (i, coordinatorEvent (.changeSet id device) (.ok r₀)) ∈ log →
    ∃ r, C.record w.store id = some r ∧ SamePlan r₀ r
  /-- A claim that was granted leaves the change set unapproved. -/
  claimed : ∀ {i id device r₀},
    (i, coordinatorEvent (.claimChangeSetForApply id device) (.ok r₀)) ∈ log →
      ∃ r, C.record w.store id = some r ∧ SamePlan r₀ r ∧ r.device = device ∧ Approved log r ∧
        r.state ≠ .planned ∧ r.state ≠ .approved
  claimedOnce : ∀ {i j id device device' r r'},
    (i, coordinatorEvent (.claimChangeSetForApply id device) (.ok r)) ∈ log →
      (j, coordinatorEvent (.claimChangeSetForApply id device') (.ok r')) ∈ log → i = j
  held : ∀ {id d}, w.drafts.get? id = some d →
    ∃ i now deadline, (i, holdDraftEvent id d now deadline) ∈ log
  readDraft : ∀ {i id d}, (i, readDraftEvent id (some d)) ∈ log →
    ∃ j now deadline, (j, holdDraftEvent id d now deadline) ∈ log

theorem Ledger.fresh {w : ServerWorld C} (h : w.Fresh) : Ledger w [] where
  stored hr := by rw [h.1] at hr; cases hr
  approved hr := by rw [h.1] at hr; cases hr
  inserted hmem := by cases hmem
  insertedOnce hmem := by cases hmem
  read hmem := by cases hmem
  claimed hmem := by cases hmem
  claimedOnce hmem := by cases hmem
  held hd := by rw [h.2] at hd; cases hd
  readDraft hmem := by cases hmem

section Turn

variable {w w' : ServerWorld C} {log : List (Nat × Event ServerSig)} {e : Event ServerSig} {i : Nat}

/-- An entry of the longer log is an old one or the new one. -/
theorem mem_log_append {j : Nat} {e' : Event ServerSig} (h : (j, e') ∈ log ++ [(i, e)]) :
    (j, e') ∈ log ∨ j = i ∧ e' = e := by
  rcases List.mem_append.1 h with h | h
  · exact .inl h
  · exact .inr (Prod.mk.inj (List.mem_singleton.1 h))

/-- A change set that is approved or being applied has just got there by an approval, or was
there before. -/
theorem approved_of_stateStep (horderly : ServerOp.Orderly e.op) {r r' : ChangeSetRecord}
    (hsame : SamePlan r r') (hchange : StateStep e r r'.state)
    (hbefore : r.state = .approved ∨ r.state = .applying → Approved log r)
    (hafter : r'.state = .approved ∨ r'.state = .applying) : Approved (log ++ [(i, e)]) r' := by
  have hkept : r.state = .approved ∨ r.state = .applying → Approved (log ++ [(i, e)]) r' :=
    fun h => ((hbefore h).append _).samePlan hsame
  rcases hchange with hnew | ⟨op, answer, rfl, hchange⟩
  · exact hkept (hnew ▸ hafter)
  · cases hchange with
    | unchanged hnew => exact hkept (hnew ▸ hafter)
    | approved approver call planned other hnew =>
        subst call
        have happroved : Approved (log ++ [(i, coordinatorEvent _ answer)]) r :=
          ⟨i, approver, answer, other, List.mem_append_right _ (List.mem_singleton.2 rfl)⟩
        exact happroved.samePlan hsame
    | waived approver digest call planned hnew =>
        subst call
        exact horderly.elim
    | claimed call approved hnew => exact hkept (.inl approved)
    | updated record call hid hnew =>
        subst call
        have hstate : record.state = .applied ∨ record.state = .failed := horderly
        rw [hnew] at hafter
        rcases hstate with h | h <;> rw [h] at hafter <;> rcases hafter with h' | h' <;> cases h'
    | retired hnew =>
        rcases hafter with h | h
        · exact absurd h hnew.2.1
        · exact absurd h hnew.2.2

/-- A change set that has left the states `planned` and `approved` does not come back. -/
theorem claimed_of_stateStep (hupdates : ∀ record, e.op = .coordinator (.updateChangeSet record) →
      record.state = .applied ∨ record.state = .failed) {r : ChangeSetRecord}
    {state : ChangeSetState} (hchange : StateStep e r state)
    (hbefore : r.state ≠ .planned ∧ r.state ≠ .approved) :
    state ≠ .planned ∧ state ≠ .approved := by
  rcases hchange with hnew | ⟨op, answer, rfl, hchange⟩
  · exact hnew ▸ hbefore
  · cases hchange with
    | unchanged hnew => exact hnew ▸ hbefore
    | approved approver call planned other hnew => exact absurd planned hbefore.1
    | waived approver digest call planned hnew => exact absurd planned hbefore.1
    | claimed call approved hnew => exact absurd approved hbefore.2
    | updated record call hid hnew =>
        have hstate := hupdates record (congrArg ServerOp.coordinator call)
        rw [hnew]
        rcases hstate with h | h <;> rw [h] <;> exact ⟨nofun, nofun⟩
    | retired hnew => exact ⟨hnew.1, hnew.2.1⟩

/-- What has been claimed is not claimed again. -/
theorem claimedOnce_append {id : String}
    (hclaimed : ∀ {j device r₀},
      (j, coordinatorEvent (.claimChangeSetForApply id device) (.ok r₀)) ∈ log →
        ∃ r, C.record w.store id = some r ∧ r.state ≠ .approved)
    (honce : ∀ {j j' device device' r r'},
      (j, coordinatorEvent (.claimChangeSetForApply id device) (.ok r)) ∈ log →
        (j', coordinatorEvent (.claimChangeSetForApply id device') (.ok r')) ∈ log → j = j')
    (hstep : ServerStep C w e w') {j j' : Nat} {device device' : String} {r r' : ChangeSetRecord}
    (hmem : (j, coordinatorEvent (.claimChangeSetForApply id device) (.ok r)) ∈ log ++ [(i, e)])
    (hmem' : (j', coordinatorEvent (.claimChangeSetForApply id device') (.ok r')) ∈
      log ++ [(i, e)]) : j = j' := by
  have hgone : ∀ {j device₀ r₀ device₁ r₁},
      (j, coordinatorEvent (.claimChangeSetForApply id device₀) (.ok r₀)) ∈ log →
        e ≠ coordinatorEvent (.claimChangeSetForApply id device₁) (.ok r₁) := by
    intro j device₀ r₀ device₁ r₁ hold he
    subst he
    obtain ⟨r₂, hr₂, hnot⟩ := hclaimed hold
    obtain ⟨r₃, hr₃, hstate, -⟩ := C.claimed hstep.1
    obtain rfl : r₂ = r₃ := Option.some.inj (hr₂.symm.trans hr₃)
    exact hnot hstate
  rcases mem_log_append hmem with hold | ⟨rfl, he⟩
  · rcases mem_log_append hmem' with hold' | ⟨-, he'⟩
    · exact honce hold hold'
    · exact absurd he'.symm (hgone hold)
  · rcases mem_log_append hmem' with hold' | ⟨rfl, -⟩
    · exact absurd he.symm (hgone hold')
    · rfl

/-- What is asked outside lab mode records a claimed change set as applied or failed. -/
theorem ServerOp.Orderly.updates {op : ServerOp} (h : op.Orderly) (record : ChangeSetRecord)
    (hop : op = .coordinator (.updateChangeSet record)) :
    record.state = .applied ∨ record.state = .failed := by
  subst hop
  exact h

/-- A question whose answer shows a change set as it is stored. -/
inductive Reveals : Event ServerSig → String → ChangeSetRecord → Prop where
  | inserted (r : ChangeSetRecord) :
      Reveals (coordinatorEvent (.insertChangeSet r) (.ok ())) r.id r
  | read (id device : String) (r : ChangeSetRecord) :
      Reveals (coordinatorEvent (.changeSet id device) (.ok r)) id r

/-- What has been seen stored stays so, with the same plan. -/
theorem revealed_turn (hbefore : ∀ {j e₀ id r₀}, (j, e₀) ∈ log → Reveals e₀ id r₀ →
      ∃ r, C.record w.store id = some r ∧ SamePlan r₀ r)
    (hstep : ServerStep C w e w') {j : Nat} {e₀ : Event ServerSig} {id : String}
    {r₀ : ChangeSetRecord} (hmem : (j, e₀) ∈ log ++ [(i, e)]) (hreveals : Reveals e₀ id r₀) :
    ∃ r, C.record w'.store id = some r ∧ SamePlan r₀ r := by
  rcases mem_log_append hmem with hmem | ⟨-, rfl⟩
  · obtain ⟨r, hr, hsame⟩ := hbefore hmem hreveals
    obtain ⟨r', hr', hsame', -⟩ := record_after hstep hr
    exact ⟨r', hr', hsame.trans hsame'⟩
  · cases hreveals with
    | inserted => exact ⟨r₀, (C.inserted hstep.1).2, .refl r₀⟩
    | read =>
        obtain ⟨r', hr', hsame', -⟩ := record_after hstep (C.read hstep.1).1
        exact ⟨r', hr', hsame'⟩

theorem Ledger.revealed (hl : Ledger w log) {j : Nat} {e₀ : Event ServerSig} {id : String}
    {r₀ : ChangeSetRecord} (hmem : (j, e₀) ∈ log) (hreveals : Reveals e₀ id r₀) :
    ∃ r, C.record w.store id = some r ∧ SamePlan r₀ r := by
  cases hreveals with
  | inserted => exact hl.inserted hmem
  | read => exact hl.read hmem

/-- **One question keeps the ledger.** -/
theorem Ledger.turn (hl : Ledger w log) (hstep : ServerStep C w e w')
    (horderly : ServerOp.Orderly e.op) : Ledger w' (log ++ [(i, e)]) where
  stored := by
    intro id r' hr'
    rcases record_before hstep hr' with ⟨-, hid, rfl⟩ | ⟨r, hr, hsame, -⟩
    · exact ⟨hid, i, r', List.mem_append_right _ (List.mem_singleton.2 rfl), .refl r'⟩
    · obtain ⟨hid, j, r₀, hmem, hsame₀⟩ := hl.stored hr
      exact ⟨hsame.id.trans hid, j, r₀, List.mem_append_left _ hmem, hsame₀.trans hsame⟩
  approved := by
    intro id r' hr' hstate
    rcases record_before hstep hr' with ⟨-, hid, rfl⟩ | ⟨r, hr, hsame, hchange⟩
    · have hplanned : r'.state = .planned := horderly
      rw [hplanned] at hstate
      rcases hstate with h | h <;> cases h
    · exact approved_of_stateStep horderly hsame hchange (hl.approved hr) hstate
  inserted hmem := revealed_turn hl.revealed hstep hmem (.inserted _)
  insertedOnce := by
    intro j j' r r' hmem hmem' hid
    have hfresh : ∀ {j r₀ r₁}, (j, coordinatorEvent (.insertChangeSet r₀) (.ok ())) ∈ log →
        r₀.id = r₁.id → e ≠ coordinatorEvent (.insertChangeSet r₁) (.ok ()) := by
      intro j r₀ r₁ hold hid he
      subst he
      obtain ⟨r₂, hr₂, -⟩ := hl.inserted hold
      rw [hid, (C.inserted hstep.1).1] at hr₂
      cases hr₂
    rcases mem_log_append hmem with hold | ⟨rfl, he⟩
    · rcases mem_log_append hmem' with hold' | ⟨-, he'⟩
      · exact hl.insertedOnce hold hold' hid
      · exact absurd he'.symm (hfresh hold hid)
    · rcases mem_log_append hmem' with hold' | ⟨rfl, -⟩
      · exact absurd he.symm (hfresh hold' hid.symm)
      · rfl
  read hmem := revealed_turn hl.revealed hstep hmem (.read _ _ _)
  claimed := by
    intro j id device r₀ hmem
    rcases mem_log_append hmem with hmem | ⟨-, rfl⟩
    · obtain ⟨r, hr, hsame, hdevice, happroved, hstate⟩ := hl.claimed hmem
      obtain ⟨r', hr', hsame', hchange⟩ := record_after hstep hr
      exact ⟨r', hr', hsame.trans hsame', hsame'.device.trans hdevice,
        (happroved.append _).samePlan hsame', claimed_of_stateStep horderly.updates hchange hstate⟩
    · obtain ⟨r, hr, hstate, hr₀, hstate₀, hdevice⟩ := C.claimed hstep.1
      obtain ⟨r', hr', hsame', -⟩ := record_after hstep hr
      obtain rfl : r' = r₀ := Option.some.inj (hr'.symm.trans hr₀)
      refine ⟨r', hr', .refl r', hdevice,
        ((hl.approved hr (.inl hstate)).append _).samePlan hsame', ?_⟩
      rw [hstate₀]
      exact ⟨nofun, nofun⟩
  claimedOnce := by
    intro j j' id device device' r r' hmem hmem'
    refine claimedOnce_append (fun hold => ?_) hl.claimedOnce hstep hmem hmem'
    obtain ⟨r₂, hr₂, -, -, -, -, hnot⟩ := hl.claimed hold
    exact ⟨r₂, hr₂, hnot⟩
  held := by
    intro id d hd
    rcases drafts_before hstep hd with hd | ⟨now, deadline, rfl⟩
    · obtain ⟨j, now, deadline, hmem⟩ := hl.held hd
      exact ⟨j, now, deadline, List.mem_append_left _ hmem⟩
    · exact ⟨i, now, deadline, List.mem_append_right _ (List.mem_singleton.2 rfl)⟩
  readDraft := by
    intro j id d hmem
    have hheld : ∃ j now deadline, (j, holdDraftEvent id d now deadline) ∈ log := by
      rcases mem_log_append hmem with hmem | ⟨-, rfl⟩
      · exact hl.readDraft hmem
      · rcases hstep.2 with hnone | hsome
        · cases hnone
        · exact hl.held hsome.symm
    obtain ⟨j', now, deadline, hmem'⟩ := hheld
    exact ⟨j', now, deadline, List.mem_append_left _ hmem'⟩

end Turn

/-- **Every pool that can be reached keeps the ledger.** -/
theorem Ledger.of_reachable (hlab : server.labMode = false) {init : ServerWorld C}
    (hinit : init.Fresh) {p : CallPool C}
    (h : p.Reachable server.handle (ServerStep C) init) : Ledger p.world p.log := by
  induction h with
  | init => exact .fresh hinit
  | start _ _ ih => exact ih
  | turn _ _ begun answered ih =>
      refine ih.turn answered (orderly_of_begins hlab begun _ ?_)
      exact List.mem_append_right _ (List.mem_singleton.2 rfl)

end UnifiMcp
