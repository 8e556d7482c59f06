import UnifiMcp.Server.Ledger

/-!
# A coordinator in memory

`MemoryStore` keeps change sets under their ids and does what the handlers rely on of a
coordinator, so that the runs the other modules speak of exist.  `Outside.answer` answers
every question of the handlers over it; `reachable_runCall` says that a call which then runs
to its end, with the plan lock free when it takes it, leads on in a pool.
-/

namespace UnifiMcp

open Interaction Collections

/-- Change sets under their ids. -/
structure MemoryStore where
  sets : SortedMap String ChangeSetRecord
  keyed : ∀ {id r}, sets.get? id = some r → r.id = id

namespace MemoryStore

/-- Nothing is kept under a wrong id where nothing is kept. -/
theorem keyed_empty {id : String} {r : ChangeSetRecord}
    (h : SortedMap.empty.get? id = some r) : r.id = id := nomatch h

/-- Store a change set, in the place of the one with its id. -/
def put (s : MemoryStore) (r : ChangeSetRecord) : MemoryStore where
  sets := s.sets.insert r.id r
  keyed := by
    intro id r' hr'
    by_cases hid : id = r.id
    · rw [hid, SortedMap.get?_insert_self] at hr'
      rw [hid, ← Option.some.inj hr']
    · rw [SortedMap.get?_insert_of_ne _ hid] at hr'
      exact s.keyed hr'

/-- Find a change set, for its own controller only. -/
def find (s : MemoryStore) (id device : String) : Except CoordinatorError ChangeSetRecord :=
  match s.sets.get? id with
  | none => .error ⟨"change_set_id", "unknown change set"⟩
  | some r => if r.device = device then .ok r else .error ⟨"device", "another controller's"⟩

/-- Refuse for the state a change set is in. -/
def refused : CoordinatorError := ⟨"state", "not in this state"⟩

/-- Answer a call of the coordinator. -/
def answer : (op : CoordinatorOp) → MemoryStore → op.Answer × MemoryStore
  | .changeSets, s => (s.sets.values, s)
  | .changeSet id device, s => (s.find id device, s)
  | .changeSetStatus id device, s => ((s.find id device).map fun _ => (), s)
  | .insertChangeSet r, s =>
      match s.sets.get? r.id with
      | none => (.ok (), s.put r)
      | some _ => (.error ⟨"change_set_id", "stored already"⟩, s)
  | .approveChangeSet id device approver digest actorType, s =>
      match s.find id device with
      | .error e => (.error e, s)
      | .ok r =>
          if r.state = .planned ∧ actorType = .human ∧ approver ≠ r.owner ∧ digest = r.digest then
            (.ok ⟨id, .approved, some approver, .null, r.expiresAtUnix, r.digest⟩,
              s.put { r with state := .approved, approver := some approver })
          else (.error refused, s)
  | .waiveApproval id device approver digest, s =>
      match s.find id device with
      | .error e => (.error e, s)
      | .ok r =>
          if r.state = .planned ∧ approver = r.owner ∧ digest = r.digest then
            (.ok ⟨id, .approved, some approver, .bool true, r.expiresAtUnix, r.digest⟩,
              s.put { r with state := .approved, approver := some approver })
          else (.error refused, s)
  | .claimChangeSetForApply id device, s =>
      match s.find id device with
      | .error e => (.error e, s)
      | .ok r =>
          if r.state = .approved then
            (.ok { r with state := .applying }, s.put { r with state := .applying })
          else (.error refused, s)
  | .updateChangeSet record, s =>
      match s.sets.get? record.id with
      | none => (.error ⟨"change_set_id", "unknown change set"⟩, s)
      | some r => (.ok (), s.put { r with state := record.state })

theorem get?_put_self (s : MemoryStore) (r : ChangeSetRecord) :
    (s.put r).sets.get? r.id = some r :=
  SortedMap.get?_insert_self _ _ _

theorem get?_put_of_ne (s : MemoryStore) {id : String} {r : ChangeSetRecord} (h : id ≠ r.id) :
    (s.put r).sets.get? id = s.sets.get? id :=
  SortedMap.get?_insert_of_ne _ h _

/-- What is stored after a change set was put in. -/
theorem get?_put_eq_some {s : MemoryStore} {id : String} {r₀ r : ChangeSetRecord}
    (h : (s.put r₀).sets.get? id = some r) :
    id = r₀.id ∧ r = r₀ ∨ s.sets.get? id = some r := by
  by_cases hid : id = r₀.id
  · subst hid
    rw [get?_put_self] at h
    exact .inl ⟨rfl, (Option.some.inj h).symm⟩
  · rw [get?_put_of_ne s hid] at h
    exact .inr h

theorem find_eq_ok {s : MemoryStore} {id device : String} {r : ChangeSetRecord}
    (h : s.find id device = .ok r) :
    s.sets.get? id = some r ∧ r.device = device ∧ r.id = id := by
  unfold find at h
  cases hr : s.sets.get? id with
  | none =>
      rw [hr] at h
      cases h
  | some r' =>
      rw [hr] at h
      dsimp only at h
      split_ifs at h with hdevice
      cases h
      exact ⟨rfl, hdevice, s.keyed hr⟩

/-- What a call does: nothing, the storing of a new change set, or a change of the state of
one that is stored. -/
inductive Effect (s : MemoryStore) (op : CoordinatorOp) (a : op.Answer) : MemoryStore → Prop where
  | none : Effect s op a s
  | insert (r : ChangeSetRecord) (fresh : s.sets.get? r.id = Option.none)
      (call : (⟨op, a⟩ : (op : CoordinatorOp) × op.Answer) = ⟨.insertChangeSet r, .ok ()⟩) :
      Effect s op a (s.put r)
  | change (r r' : ChangeSetRecord) (stored : s.sets.get? r.id = some r) (same : SamePlan r r')
      (change : StateChange op r r'.state) : Effect s op a (s.put r')

/-- A change is made to a change set that is open, or by writing its state. -/
theorem changed_of_answer {s s' : MemoryStore} {op : CoordinatorOp} {a : op.Answer}
    (h : answer op s = (a, s')) :
    s' = s ∨
      (∃ r, s.sets.get? r.id = none ∧ s' = s.put r ∧
        (⟨op, a⟩ : (op : CoordinatorOp) × op.Answer) = ⟨.insertChangeSet r, .ok ()⟩) ∨
      ∃ r r', s.sets.get? r.id = some r ∧ s' = s.put r' ∧ SamePlan r r' ∧
        StateChange op r r'.state ∧ (r.state = .planned ∨ r.state = .approved ∨
          ∃ record, op = .updateChangeSet record ∧ record.id = r.id) := by
  cases op with
  | changeSets | changeSet id device | changeSetStatus id device =>
      cases h
      exact .inl rfl
  | insertChangeSet r =>
      rw [answer] at h
      cases hr : s.sets.get? r.id with
      | none =>
          rw [hr] at h
          cases h
          exact .inr (.inl ⟨r, hr, rfl, rfl⟩)
      | some r' =>
          rw [hr] at h
          cases h
          exact .inl rfl
  | approveChangeSet id device approver digest actorType =>
      rw [answer] at h
      cases hfind : s.find id device with
      | error e =>
          rw [hfind] at h
          cases h
          exact .inl rfl
      | ok r =>
          rw [hfind] at h
          obtain ⟨hr, rfl, rfl⟩ := find_eq_ok hfind
          dsimp only at h
          split_ifs at h with hcheck
          · obtain ⟨hplanned, rfl, hother, rfl⟩ := hcheck
            cases h
            exact .inr (.inr ⟨r, _, hr, rfl, ⟨rfl, rfl, rfl, rfl, rfl⟩,
              .approved approver rfl hplanned hother rfl, .inl hplanned⟩)
          · cases h
            exact .inl rfl
  | waiveApproval id device approver digest =>
      rw [answer] at h
      cases hfind : s.find id device with
      | error e =>
          rw [hfind] at h
          cases h
          exact .inl rfl
      | ok r =>
          rw [hfind] at h
          obtain ⟨hr, rfl, rfl⟩ := find_eq_ok hfind
          dsimp only at h
          split_ifs at h with hcheck
          · cases h
            exact .inr (.inr ⟨r, _, hr, rfl, ⟨rfl, rfl, rfl, rfl, rfl⟩,
              .waived approver digest rfl hcheck.1 rfl, .inl hcheck.1⟩)
          · cases h
            exact .inl rfl
  | claimChangeSetForApply id device =>
      rw [answer] at h
      cases hfind : s.find id device with
      | error e =>
          rw [hfind] at h
          cases h
          exact .inl rfl
      | ok r =>
          rw [hfind] at h
          obtain ⟨hr, rfl, rfl⟩ := find_eq_ok hfind
          dsimp only at h
          split_ifs at h with hstate
          · cases h
            exact .inr (.inr ⟨r, _, hr, rfl, ⟨rfl, rfl, rfl, rfl, rfl⟩,
              .claimed rfl hstate rfl, .inr (.inl hstate)⟩)
          · cases h
            exact .inl rfl
  | updateChangeSet record =>
      rw [answer] at h
      cases hr : s.sets.get? record.id with
      | none =>
          rw [hr] at h
          cases h
          exact .inl rfl
      | some r =>
          rw [hr] at h
          cases h
          have hid := s.keyed hr
          exact .inr (.inr ⟨r, _, hid ▸ hr, rfl, ⟨rfl, rfl, rfl, rfl, rfl⟩,
            .updated record rfl hid.symm rfl, .inr (.inr ⟨record, rfl, hid.symm⟩)⟩)

theorem effect_of_answer {s s' : MemoryStore} {op : CoordinatorOp} {a : op.Answer}
    (h : answer op s = (a, s')) : Effect s op a s' := by
  rcases changed_of_answer h with rfl | ⟨r, hfresh, rfl, hcall⟩ |
    ⟨r, r', hr, rfl, hsame, hchange, -⟩
  · exact .none
  · exact .insert r hfresh hcall
  · exact .change r r' hr hsame hchange

/-- **A coordinator in memory.** -/
def coordinator : Coordinator where
  Store := MemoryStore
  record s id := s.sets.get? id
  step s op a s' := answer op s = (a, s')
  stays := by
    intro s op a s' id r h hr
    cases effect_of_answer h with
    | none => exact ⟨r, hr, .refl r, .unchanged rfl⟩
    | insert r' fresh call =>
        have hid : id ≠ r'.id := by
          intro hid
          rw [hid, fresh] at hr
          cases hr
        exact ⟨r, (get?_put_of_ne s hid).trans hr, .refl r, .unchanged rfl⟩
    | change r₀ r' stored same change =>
        by_cases hid : id = r'.id
        · rw [hid, same.id, stored] at hr
          cases hr
          exact ⟨r', hid ▸ get?_put_self s r', same, change⟩
        · exact ⟨r, (get?_put_of_ne s hid).trans hr, .refl r, .unchanged rfl⟩
  read := by
    intro s id device r s' h
    obtain ⟨hr, hdevice, -⟩ := find_eq_ok (congrArg Prod.fst h)
    exact ⟨hr, hdevice⟩
  added := by
    intro s op a s' id r h hnone hr
    cases effect_of_answer h with
    | none =>
        rw [hnone] at hr
        cases hr
    | insert r' fresh call =>
        by_cases hid : id = r'.id
        · rw [hid, get?_put_self] at hr
          cases hr
          exact ⟨call, hid.symm⟩
        · rw [get?_put_of_ne s hid, hnone] at hr
          cases hr
    | change r₀ r' stored same change =>
        have hid : id ≠ r'.id := by
          intro hid
          rw [hid, same.id, stored] at hnone
          cases hnone
        rw [get?_put_of_ne s hid, hnone] at hr
        cases hr
  inserted := by
    intro s r s' h
    rw [answer] at h
    cases hr : s.sets.get? r.id with
    | none =>
        rw [hr] at h
        cases h
        exact ⟨rfl, get?_put_self s r⟩
    | some r' =>
        rw [hr] at h
        cases h
  claimed := by
    intro s id device r s' h
    rw [answer] at h
    cases hfind : s.find id device with
    | error e =>
        rw [hfind] at h
        cases h
    | ok r₀ =>
        rw [hfind] at h
        obtain ⟨hr, rfl, rfl⟩ := find_eq_ok hfind
        dsimp only at h
        split_ifs at h with hstate
        · cases h
          exact ⟨r₀, hr, hstate, get?_put_self s _, rfl, rfl⟩
        · cases h

end MemoryStore

/-! ## Surroundings over it -/

/-- What is outside the server: the clients, what their controllers reply, and the id that a
new change set gets. -/
structure Outside where
  clients : SortedMap String UnifiClient
  reply : (op : ClientOp) → op.Answer
  newId : String

/-- Answer a question of a handler. -/
def Outside.answer (outside : Outside) : (op : ServerOp) →
    ServerWorld MemoryStore.coordinator → op.Answer × ServerWorld MemoryStore.coordinator
  | .coordinator op, w =>
      let out := MemoryStore.answer op w.store
      (out.1, { w with store := out.2 })
  | .unixSecondsNow, w => (0, w)
  | .newChangeSetId, w => (outside.newId, w)
  | .holdDraft id draft now deadline, w =>
      let out := holdDraft w.drafts id draft now deadline
      (.ok out.1, { w with drafts := out.2 })
  | .readDraft id, w => (w.drafts.get? id, w)
  | .releaseDraft id, w => ((), { w with drafts := w.drafts.erase id })
  | .lockPlan, w => ((), { w with planLocked := true })
  | .unlockPlan, w => ((), { w with planLocked := false })
  | .clientFor controller, w => (.ok (outside.clients.get? controller), w)
  | .clients, w => (.ok outside.clients, w)
  | .controllerNames, w => (outside.clients.entries.map Prod.fst, w)
  | .controllerNamed name, w => ((outside.clients.get? name).map (·.controller), w)
  | .client _ op, w => (outside.reply op, w)
  | .proposal _ _ _ _, w => ((), w)
  | .applyIntent _ _ _, w | .resultReceipt _ _ _ _ _, w => (.ok (), w)

/-- The plan lock is taken only when it is free. -/
def locksInTurn : Bool → List (Event ServerSig) → Bool
  | _, [] => true
  | locked, e :: t =>
      match e.op with
      | .lockPlan => !locked && locksInTurn true t
      | .unlockPlan => locksInTurn false t
      | _ => locksInTurn locked t

variable {outside : Outside}

/-- What is answered is what the surroundings can answer, a lock that is taken being free. -/
theorem serverStep_of_answers {w w' : ServerWorld MemoryStore.coordinator} {e : Event ServerSig}
    (h : Answers outside.answer w e w') (hlock : e.op = .lockPlan → w.planLocked = false) :
    ServerStep MemoryStore.coordinator w e w' := by
  obtain ⟨op, answer⟩ := e
  have h : outside.answer op w = (answer, w') := h
  cases op with
  | lockPlan =>
      cases h
      exact ⟨hlock rfl, rfl⟩
  | coordinator op =>
      cases h
      exact ⟨rfl, rfl, rfl⟩
  | holdDraft id draft now deadline =>
      cases h
      exact ⟨rfl, rfl⟩
  | readDraft id =>
      cases h
      exact ⟨rfl, .inr rfl⟩
  | releaseDraft id =>
      cases h
      exact .inr rfl
  | unlockPlan | unixSecondsNow | newChangeSetId | clientFor controller | clients
  | controllerNames | controllerNamed name
  | client controller op | proposal id device owner digest
  | applyIntent id controller caller | resultReceipt id controller caller succeeded error =>
      cases h
      rfl

/-- Along a path of answers the lock is taken in turn if the questions take it in turn. -/
theorem path_of_steps
    {step : ServerWorld MemoryStore.coordinator → Event ServerSig →
      ServerWorld MemoryStore.coordinator → Prop}
    (hstep : ∀ {w w'} {e : Event ServerSig}, Answers outside.answer w e w' →
      (e.op = .lockPlan → w.planLocked = false) → step w e w')
    {w w' : ServerWorld MemoryStore.coordinator} {t : List (Event ServerSig)}
    (h : Path (Answers outside.answer) w t w') (hlocks : locksInTurn w.planLocked t = true) :
    Path step w t w' := by
  induction h with
  | nil => exact .nil
  | @cons w w₁ w₂ e t head tail ih =>
      have hturn : (e.op = .lockPlan → w.planLocked = false) ∧
          locksInTurn w₁.planLocked t = true := by
        obtain ⟨op, answer⟩ := e
        have hhead : outside.answer op w = (answer, w₁) := head
        cases op with
        | lockPlan =>
            cases hhead
            obtain ⟨hfree, hrest⟩ := Bool.and_eq_true_iff.1 hlocks
            exact ⟨fun _ => by simpa using hfree, hrest⟩
        | coordinator op | holdDraft id draft now deadline | readDraft id | releaseDraft id
        | unlockPlan | unixSecondsNow | newChangeSetId | clientFor controller | clients
        | controllerNames | controllerNamed name
        | client controller op | proposal id device owner digest
        | applyIntent id controller caller
        | resultReceipt id controller caller succeeded error =>
            cases hhead
            exact ⟨nofun, hlocks⟩
      exact .cons (hstep head hturn.1) (ih hturn.2)

theorem path_of_answers {w w' : ServerWorld MemoryStore.coordinator} {t : List (Event ServerSig)}
    (h : Path (Answers outside.answer) w t w') (hlocks : locksInTurn w.planLocked t = true) :
    Path (ServerStep MemoryStore.coordinator) w t w' :=
  path_of_steps serverStep_of_answers h hlocks

variable {κ : Type} {code : κ → Program ServerSig (Except String Json)}

/-- The pool after a call that was started and ran to its end, over this coordinator. -/
def runCall (code : κ → Program ServerSig (Except String Json)) (outside : Outside)
    (p : Pool ServerSig (ServerWorld MemoryStore.coordinator) κ) (k : κ) :
    Pool ServerSig (ServerWorld MemoryStore.coordinator) κ :=
  p.afterCall code outside.answer k

theorem reachable_runCall {init : ServerWorld MemoryStore.coordinator}
    {p : Pool ServerSig (ServerWorld MemoryStore.coordinator) κ}
    (h : p.Reachable code (ServerStep MemoryStore.coordinator) init) (k : κ)
    (hlocks : locksInTurn p.world.planLocked
      ((code k).eval outside.answer p.world).2.1 = true) :
    (runCall code outside p k).Reachable code (ServerStep MemoryStore.coordinator) init :=
  h.runToEnd k (Program.eval_runs _ _ _)
    (path_of_answers (Program.eval_path _ _ _) hlocks)

/-- Calls that run one after the other take the plan lock in turn. -/
def locksAllInTurn (code : κ → Program ServerSig (Except String Json)) (outside : Outside) :
    Pool ServerSig (ServerWorld MemoryStore.coordinator) κ → List κ → Bool
  | _, [] => true
  | p, k :: ks =>
      locksInTurn p.world.planLocked ((code k).eval outside.answer p.world).2.1 &&
        locksAllInTurn code outside (runCall code outside p k) ks

theorem reachable_runCalls {init : ServerWorld MemoryStore.coordinator}
    {p : Pool ServerSig (ServerWorld MemoryStore.coordinator) κ}
    (h : p.Reachable code (ServerStep MemoryStore.coordinator) init) (ks : List κ)
    (hlocks : locksAllInTurn code outside p ks = true) :
    (ks.foldl (runCall code outside) p).Reachable code (ServerStep MemoryStore.coordinator)
      init := by
  induction ks generalizing p with
  | nil => exact h
  | cons k ks ih =>
      obtain ⟨hfirst, hrest⟩ := Bool.and_eq_true_iff.1 hlocks
      exact ih (reachable_runCall h k hfirst) hrest

/-! ## A small installation -/

/-- Shared crates that check the tool scope and digest every plan alike. -/
def plainMecmcp : Mecmcp where
  authorizeCall caller tool _ :=
    match caller with
    | some caller => if caller.allowsTool tool then .ok () else .error s!"{tool} is not in scope"
    | none => .ok ()
  changeSetDigest _ _ _ _ := .ok "sha256:1"
  previewDigest _ := "sha256:2"
  digestHex _ := "3"
  validateChangeSetActions _ := .ok ()
  number _ := "0"

/-- A server that is not in lab mode and records no evidence. -/
def plainServer : UnifiServer where
  mecmcp := plainMecmcp
  renderPreview _ _ _ _ := .ok "preview"
  labMode := false
  approvalTtl := 3600
  evidence := false
  directCommit _ _ _ _ := .ok ()

/-- A human whose token may use one tool. -/
def humanWith (name tool : String) (grant : Option UnifiGrant) : Option CallerCtx :=
  some ⟨name, .human, fun other => other = tool, grant⟩

/-- One controller whose client may use the private surfaces. -/
def oneController (client : UnifiClient) (reply : (op : ClientOp) → op.Answer) : Outside where
  clients := SortedMap.empty.insert "main" client
  reply := reply
  newId := "cs-1"

/-- Nothing is stored, nothing is held, and the plan lock is free. -/
def emptyWorld : ServerWorld MemoryStore.coordinator := ⟨⟨.empty, MemoryStore.keyed_empty⟩, .empty, false⟩

theorem emptyWorld_fresh : emptyWorld.Fresh := ⟨fun _ => rfl, fun _ => rfl⟩

end UnifiMcp
