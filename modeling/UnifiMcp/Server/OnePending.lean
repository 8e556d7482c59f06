import UnifiMcp.Server.Ledger
import UnifiMcp.Server.MemoryStore
import UnifiMcp.Changeset.CleanRollback

/-!
# One pending change set per principal and controller

A principal may have one change set pending on a controller, as a draft or as a stored record.
The coordinator keeps this of the records and the lock of the drafts keeps it of the drafts; but
a create call looks the records up before it takes the lock, and a stage call stores its record
without looking at the drafts again.  `Unraced` says of one question that nothing came in between,
`onePending_of_unraced` that without such a race no principal has two pending change sets on one
controller, and `not_onePending_raced` that with one it can.
-/

namespace UnifiMcp

open Interaction Collections

variable {C : Coordinator} {server : UnifiServer}

/-! ## What is pending -/

/-- A state that a change set is pending in, while its window is open. -/
def ChangeSetState.IsOpen (state : ChangeSetState) : Prop :=
  state = .planned ∨ state = .approved ∨ state = .applying

/-- A stored change set is pending: it is being applied, or it is planned or approved and its
window is open. -/
def ChangeSetRecord.PendingAt (r : ChangeSetRecord) (now : Nat) : Prop :=
  r.state = .applying ∨ (r.state = .planned ∨ r.state = .approved) ∧ now < r.expiresAtUnix

/-- A draft has not lapsed. -/
def Draft.LiveAt (draft : Draft) (deadline now : Nat) : Prop :=
  now - draft.createdAtUnix < deadline

instance (draft : Draft) (deadline now : Nat) : Decidable (draft.LiveAt deadline now) :=
  inferInstanceAs (Decidable (_ < _))

/-- A principal has this change set pending on this controller, as a draft or as a record. -/
inductive HasPending (w : ServerWorld C) (deadline now : Nat) (owner controller id : String) :
    Prop where
  | draft (d : Draft) (held : w.drafts.get? id = some d) (owner : d.owner = owner)
      (controller : d.controller = controller) (live : d.LiveAt deadline now)
  | record (r : ChangeSetRecord) (stored : C.record w.store id = some r) (owner : r.owner = owner)
      (controller : r.device = controller) (pending : r.PendingAt now)

/-- No clock reading of the log is later. -/
def NotBefore (log : List (Nat × Event ServerSig)) (now : Nat) : Prop :=
  ∀ i n, (i, nowEvent n) ∈ log → n ≤ now

/-- At every time from the last reading of the clock on, no principal has two change sets pending
on one controller. -/
def OnePending (server : UnifiServer) (p : CallPool C) : Prop :=
  ∀ now, NotBefore p.log now → ∀ owner controller id id',
    HasPending p.world server.approvalTtl now owner controller id →
    HasPending p.world server.approvalTtl now owner controller id' → id = id'

/-! ## What is relied on -/

/-- The calls of the coordinator that approve, claim and update nothing. -/
def CoordinatorOp.IsStaging : CoordinatorOp → Prop
  | .changeSets | .changeSet _ _ | .changeSetStatus _ _ | .insertChangeSet _ => True
  | _ => False

/-- What is relied on of the coordinator: it lists what it has stored, it keeps a change set's
window, and it stores no second pending change set of an owner for a device. -/
structure Coordinator.KeepsOnePending (C : Coordinator) : Prop where
  lists : ∀ {s rs s' id r}, C.step s .changeSets rs s' → C.record s' id = some r → r ∈ rs
  window : ∀ {s op a s' id r r'}, C.step s op a s' → op.IsStaging → C.record s id = some r →
    C.record s' id = some r' → r'.expiresAtUnix = r.expiresAtUnix
  onePending : ∀ {s r s' id r'}, C.step s (.insertChangeSet r) (.ok ()) s' →
    C.record s' id = some r' → r'.owner = r.owner → r'.device = r.device → r'.state.IsOpen →
      id = r.id

/-- A call of one of the two tools that make change sets. -/
def ChangeSetCall.IsStaging : ChangeSetCall → Prop
  | .create _ _ | .stage _ _ => True
  | _ => False

/-! ## Races -/

/-- A change set that a create call saw in the list of the stored ones. -/
def listEvent (rs : List ChangeSetRecord) : Event ServerSig := coordinatorEvent .changeSets rs

/-- A change set that was stored. -/
def insertEvent (r : ChangeSetRecord) : Event ServerSig :=
  coordinatorEvent (.insertChangeSet r) (.ok ())

/-- Nothing came in between a call's question and what it relies on: a draft is held while no
change set of its owner on its controller that was stored after the call listed the stored ones is
pending, and a change set is stored while no draft of its owner on its controller that was held
after the call looked its own draft up is live. -/
structure Unraced (server : UnifiServer) (p : CallPool C) (i : Nat) (e : Event ServerSig) :
    Prop where
  hold : ∀ id draft now deadline, e = holdDraftEvent id draft now deadline →
    ∀ rs j r, Since p.log (i, listEvent rs) (j, insertEvent r) → r.owner = draft.owner →
      r.device = draft.controller → r.id ≠ id → ∀ r', C.record p.world.store r.id = some r' →
      ∀ now, NotBefore p.log now → ¬ r'.PendingAt now
  insert : ∀ r, e = insertEvent r → ∀ d j id d' now deadline,
    Since p.log (i, readDraftEvent r.id (some d)) (j, holdDraftEvent id d' now deadline) →
      d'.owner = r.owner → d'.controller = r.device → id ≠ r.id →
      p.world.drafts.get? id = some d' → ∀ now, NotBefore p.log now →
      ¬ d'.LiveAt server.approvalTtl now

/-- The pools that create and stage calls can reach without a race. -/
inductive UnracedRun (server : UnifiServer) (init : ServerWorld C) : CallPool C → Prop where
  | init : UnracedRun server init ⟨init, [], []⟩
  | start {p : CallPool C} (k : ChangeSetCall) (h : UnracedRun server init p)
      (staging : k.IsStaging) : UnracedRun server init ⟨p.world, p.calls ++ [k], p.log⟩
  | turn {p : CallPool C} {i : Nat} {k : ChangeSetCall} {e : Event ServerSig}
      {world : ServerWorld C} (h : UnracedRun server init p) (call : p.calls[i]? = some k)
      (begun : (server.handle k).Begins (ownEvents p.log i ++ [e]))
      (answered : ServerStep C p.world e world) (unraced : Unraced server p i e) :
      UnracedRun server init ⟨world, p.calls, p.log ++ [(i, e)]⟩

theorem UnracedRun.reachable {init : ServerWorld C} {p : CallPool C}
    (h : UnracedRun server init p) : p.Reachable server.handle (ServerStep C) init := by
  induction h with
  | init => exact .init
  | start k _ _ ih => exact ih.start k
  | turn _ call begun answered _ ih => exact ih.turn call begun answered

theorem UnracedRun.staging {init : ServerWorld C} {p : CallPool C} (h : UnracedRun server init p)
    {i : Nat} {k : ChangeSetCall} (hk : p.calls[i]? = some k) : k.IsStaging := by
  induction h with
  | init => cases hk
  | @start p k' _ hstaging ih =>
      by_cases hi : i < p.calls.length
      · rw [List.getElem?_append_left hi] at hk
        exact ih hk
      · rw [List.getElem?_append_right (Nat.le_of_not_lt hi)] at hk
        obtain rfl := List.mem_singleton.1 (List.mem_of_getElem? hk)
        exact hstaging
  | turn _ _ _ _ _ ih => exact ih hk

/-! ## What the calls ask -/

/-- The questions of create and stage calls. -/
def ServerOp.IsStaging : ServerOp → Prop
  | .coordinator op => op.IsStaging
  | _ => True

theorem asks_staging {k : ChangeSetCall} (hk : k.IsStaging) :
    (server.handle k).Asks ServerOp.IsStaging := by
  cases k with
  | approve caller args | apply caller args => exact hk.elim
  | create caller args =>
      exact asks_unifiCreateChangeSet trivial trivial trivial trivial fun _ _ _ => trivial
  | stage caller args =>
      exact asks_unifiStageChange trivial trivial trivial trivial trivial
        (fun client => Program.asks_true _)
        fun staged => asks_publish trivial trivial trivial trivial trivial

/-- Every record that keeps its owner from creating another change set has been looked at; where
none does, each open one had run out when the clock was read. -/
theorem findBlocker_none {draft : Draft} {records : List ChangeSetRecord}
    {t : List (Event ServerSig)}
    (h : (UnifiServer.findBlocker draft records).Gives t (.ok none)) :
    ∀ r ∈ records, r.owner = draft.owner → r.device = draft.controller → r.state.IsOpen →
      r.state ≠ .applying ∧ ∃ n, nowEvent n ∈ t ∧ r.expiresAtUnix ≤ n := by
  induction records generalizing t with
  | nil => exact fun r hr => absurd hr List.not_mem_nil
  | cons record rest ih =>
      obtain ⟨t₁, t₂, found, rfl, hfound, hrest⟩ := Fallible.gives_bind_ok.1 h
      cases found with
      | true =>
          obtain ⟨-, hnone⟩ := Fallible.gives_pure.1 hrest
          cases hnone
      | false =>
          intro r hr howner hdevice hopen
          rcases List.mem_cons.1 hr with rfl | hr
          · unfold UnifiServer.isBlocker at hfound
            rw [if_neg (by simp [howner, hdevice])] at hfound
            have hwindow : ∀ {t : List (Event ServerSig)},
                Fallible.Gives (do
                  let now ← ServerM.ask .unixSecondsNow
                  pure (decide (now < r.expiresAtUnix)) : ServerM Bool) t (.ok false) →
                ∃ n, nowEvent n ∈ t ∧ r.expiresAtUnix ≤ n := by
              intro t hgives
              obtain ⟨now, t₃, rfl, hlate⟩ := Fallible.gives_ask_bind.1 hgives
              obtain ⟨-, hlate⟩ := Fallible.gives_pure.1 hlate
              have hnot : ¬ now < r.expiresAtUnix :=
                of_decide_eq_false (Except.ok.inj hlate).symm
              exact ⟨now, List.mem_cons_self, Nat.le_of_not_lt hnot⟩
            rcases hopen with hstate | hstate | hstate
            all_goals rw [hstate] at hfound ⊢
            · obtain ⟨n, hn, hle⟩ := hwindow hfound
              exact ⟨nofun, n, List.mem_append_left _ hn, hle⟩
            · obtain ⟨n, hn, hle⟩ := hwindow hfound
              exact ⟨nofun, n, List.mem_append_left _ hn, hle⟩
            · cases (Fallible.gives_pure.1 hfound).2
          · obtain ⟨hnot, n, hn, hle⟩ := ih hrest r hr howner hdevice hopen
            exact ⟨hnot, n, List.mem_append_right _ hn, hle⟩

/-- Anything but the holding of a draft. -/
def ServerOp.NotHold : ServerOp → Prop
  | .holdDraft _ _ _ _ => False
  | _ => True

/-- **What is behind a draft that a call holds**: a list of the stored change sets in which none
was pending. -/
theorem hold_of_begins {k : ChangeSetCall} {t : List (Event ServerSig)} {id : String}
    {draft : Draft} {now deadline : Nat}
    (h : (server.handle k).Begins (t ++ [holdDraftEvent id draft now deadline])) :
    ∃ rs, listEvent rs ∈ t ∧ ∀ r ∈ rs, r.owner = draft.owner → r.device = draft.controller →
      r.state.IsOpen → r.state ≠ .applying ∧ ∃ n, nowEvent n ∈ t ∧ r.expiresAtUnix ≤ n := by
  have hmay := (asks_handle k).of_begins h (holdDraftEvent id draft now deadline) (by simp)
  obtain ⟨caller, args, rfl, -, -⟩ := hmay
  have hnot : ¬ ServerOp.NotHold (holdDraftEvent id draft now deadline).op := fun h => h
  obtain ⟨t₁, t₂, _, rfl, -, h₂⟩ :=
    Fallible.begins_bind_at (P := ServerOp.NotHold) (Fallible.asks_ofExcept _) h hnot
  obtain ⟨t₃, t₄, client, rfl, -, h₄⟩ :=
    Fallible.begins_bind_at (P := ServerOp.NotHold) (asks_clientFor _ trivial) h₂ hnot
  obtain ⟨t₅, t₆, smallest, rfl, -, h₆⟩ :=
    Fallible.begins_bind_at (P := ServerOp.NotHold) (Fallible.asks_ofExcept _) h₄ hnot
  split_ifs at h₆ with hfits
  · have hnone := Fallible.begins_throw h₆
    simp at hnone
  · obtain ⟨t₇, t₈, id', rfl, -, h₈⟩ :=
      Fallible.begins_bind_at (P := ServerOp.NotHold) (asks_server trivial) h₆ hnot
    obtain ⟨t₉, t₁₀, created, rfl, -, h₁₀⟩ :=
      Fallible.begins_bind_at (P := ServerOp.NotHold) (asks_server trivial) h₈ hnot
    have hhold := Fallible.begins_bind_silent h₁₀ fun _ => Fallible.asks_pure _
    obtain ⟨t₁₁, t₁₂, rs, rfl, hlist, h₁₂⟩ :=
      Fallible.begins_bind_at (P := ServerOp.NotHold) (asks_coordinator trivial) hhold hnot
    obtain ⟨rs', rfl, hrs⟩ := Fallible.gives_ask.1 hlist
    cases hrs
    obtain ⟨t₁₃, t₁₄, blocker, rfl, hblocker, h₁₄⟩ :=
      Fallible.begins_bind_at (P := ServerOp.NotHold) (asks_findBlocker trivial) h₁₂ hnot
    cases blocker with
    | some blocker =>
        have hnone := Fallible.begins_throw h₁₄
        simp at hnone
    | none =>
        obtain ⟨t₁₅, t₁₆, now', rfl, -, h₁₆⟩ :=
          Fallible.begins_bind_at (P := ServerOp.NotHold) (asks_server trivial) h₁₄ hnot
        -- The draft that is held is the one the records were compared with.
        have hdraft : draft = ⟨args.controller, principal caller, args.description, created⟩ := by
          have hask := Fallible.begins_bind_silent h₁₆ fun answer => by
            rcases answer with e | r
            · exact Fallible.asks_throw _
            · exact Fallible.asks_ofExcept _
          cases t₁₆ with
          | nil =>
              obtain ⟨answer, hevent, -⟩ := hask
              injection hevent with hop
              injection hop
          | cons e rest =>
              obtain ⟨answer, -, hrest⟩ := hask
              exact absurd (Fallible.begins_pure hrest) (by simp)
        subst hdraft
        refine ⟨rs, by simp [listEvent, coordinatorEvent], fun r hr howner hdevice hopen => ?_⟩
        obtain ⟨hstate, n, hn, hle⟩ := findBlocker_none hblocker r hr howner hdevice hopen
        exact ⟨hstate, n, by simp [hn], hle⟩

/-! ## One question -/

section Step

variable {w w' : ServerWorld C} {e : Event ServerSig}

/-- While change sets are created and staged only, a stored one that is open has been so since it
was stored. -/
theorem record_of_staging (hC : C.KeepsOnePending) (h : ServerStep C w e w')
    (hstaging : ServerOp.IsStaging e.op) {id : String} {r' : ChangeSetRecord}
    (hr' : C.record w'.store id = some r') :
    (r'.id = id ∧ e = insertEvent r') ∨
      ∃ r, C.record w.store id = some r ∧ SamePlan r r' ∧ r'.expiresAtUnix = r.expiresAtUnix ∧
        (r'.state.IsOpen → r'.state = r.state) := by
  rcases record_before h hr' with ⟨-, hid, he⟩ | ⟨r, hr, hsame, hchange⟩
  · exact .inl ⟨hid, he⟩
  · refine .inr ⟨r, hr, hsame, ?_, ?_⟩
    · rcases store_of_step h with ⟨op, answer, rfl, hstep⟩ | ⟨hstore, -⟩
      · exact hC.window hstep hstaging hr hr'
      · rw [hstore, hr] at hr'
        rw [Option.some.inj hr']
    · intro hopen
      rcases hchange with hnew | ⟨op, answer, rfl, hchange⟩
      · exact hnew
      · have hop : op.IsStaging := hstaging
        cases hchange with
        | unchanged hnew => exact hnew
        | approved approver call | waived approver digest call | claimed call
        | updated record call =>
            subst call
            exact hop.elim
        | retired hnew =>
            rcases hopen with hstate | hstate | hstate
            · exact absurd hstate hnew.1
            · exact absurd hstate hnew.2.1
            · exact absurd hstate hnew.2.2

/-- After a draft is held it is the only one of its owner on its controller. -/
theorem only_after_hold {drafts : SortedMap String Draft} {id : String} {draft : Draft}
    {now deadline : Nat} (hok : (holdDraft drafts id draft now deadline).1 = .ok ())
    {id' : String} {d : Draft}
    (hd : (holdDraft drafts id draft now deadline).2.get? id' = some d)
    (howner : d.owner = draft.owner) (hcontroller : d.controller = draft.controller) :
    id' = id := by
  unfold holdDraft at hok hd
  dsimp only at hok hd
  generalize hkept : drafts.retain (fun held => now - held.createdAtUnix < deadline) = kept
    at hok hd
  cases hfind : kept.entries.find? fun e =>
      decide (e.2.owner = draft.owner ∧ e.2.controller = draft.controller) with
  | some e =>
      rw [hfind] at hok
      cases hok
  | none =>
      rw [hfind] at hok hd
      dsimp only at hok hd
      split_ifs at hok hd
      by_contra hid
      rw [SortedMap.get?_insert_of_ne _ hid] at hd
      have hmem := SortedMap.get?_eq_some.1 hd
      exact List.find?_eq_none.1 hfind _ hmem (decide_eq_true ⟨howner, hcontroller⟩)

/-- A draft that was held in a step, with what the step was. -/
theorem only_after_holdEvent {id : String} {draft : Draft} {now deadline : Nat}
    (h : ServerStep C w (holdDraftEvent id draft now deadline) w') {id' : String} {d : Draft}
    (hd : w'.drafts.get? id' = some d) (howner : d.owner = draft.owner)
    (hcontroller : d.controller = draft.controller) : id' = id := by
  have hheld := h.1
  have hok : (holdDraft w.drafts id draft now deadline).1 = .ok () :=
    (congrArg Prod.fst hheld).symm
  have hdrafts : w'.drafts = (holdDraft w.drafts id draft now deadline).2 := congrArg Prod.snd hheld
  rw [hdrafts] at hd
  exact only_after_hold hok hd howner hcontroller

end Step

/-! ## The invariant -/

/-- What the log says of drafts and stored change sets while they are created and staged only. -/
structure StagingLedger (server : UnifiServer) (w : ServerWorld C)
    (log : List (Nat × Event ServerSig)) : Prop where
  keyed : ∀ {id r}, C.record w.store id = some r → r.id = id
  records : ∀ {id id' r r'}, C.record w.store id = some r → C.record w.store id' = some r' →
    r'.owner = r.owner → r'.device = r.device → r.state.IsOpen → r'.state.IsOpen → id' = id
  drafts : ∀ {id id' d d'}, w.drafts.get? id = some d → w.drafts.get? id' = some d' →
    d'.owner = d.owner → d'.controller = d.controller → id' = id
  /-- A draft and a stored change set that are both pending are the same one. -/
  across : ∀ {id id' d r now}, NotBefore log now → w.drafts.get? id = some d →
    C.record w.store id' = some r → r.owner = d.owner → r.device = d.controller →
    d.LiveAt server.approvalTtl now → r.PendingAt now → id' = id
  /-- What is stored was in a list that was read, or has been stored since. -/
  listed : ∀ {i rs id r}, (i, listEvent rs) ∈ log → C.record w.store id = some r →
    (∃ j r₀, r₀.id = id ∧ SamePlan r₀ r ∧ Since log (i, listEvent rs) (j, insertEvent r₀)) ∨
      ∃ r₀ ∈ rs, SamePlan r₀ r ∧ r.expiresAtUnix = r₀.expiresAtUnix ∧
        (r.state.IsOpen → r.state = r₀.state)
  /-- What is held beside a draft that was looked up has been held since. -/
  looked : ∀ {i id d id' d'}, (i, readDraftEvent id (some d)) ∈ log →
    w.drafts.get? id' = some d' → d'.owner = d.owner → d'.controller = d.controller →
    id' = id ∨ ∃ j now deadline, Since log (i, readDraftEvent id (some d))
      (j, holdDraftEvent id' d' now deadline)

theorem ChangeSetRecord.PendingAt.isOpen {r : ChangeSetRecord} {now : Nat}
    (h : r.PendingAt now) : r.state.IsOpen := by
  rcases h with h | ⟨h | h, -⟩
  · exact .inr (.inr h)
  · exact .inl h
  · exact .inr (.inl h)

/-- A record that is pending was so before. -/
theorem ChangeSetRecord.PendingAt.before {r r' : ChangeSetRecord} {now : Nat}
    (h : r'.PendingAt now) (hwindow : r'.expiresAtUnix = r.expiresAtUnix)
    (hstate : r'.state.IsOpen → r'.state = r.state) : r.PendingAt now := by
  have hsame := hstate h.isOpen
  unfold ChangeSetRecord.PendingAt at h ⊢
  rwa [hwindow, hsame] at h

theorem NotBefore.of_concat {log : List (Nat × Event ServerSig)} {now : Nat}
    {x : Nat × Event ServerSig} (h : NotBefore (log ++ [x]) now) : NotBefore log now :=
  fun i n hmem => h i n (List.mem_append_left _ hmem)

/-- The calls that run are staging calls, and the question is theirs. -/
structure StagingTurn (server : UnifiServer) (p : CallPool C) (i : Nat) (e : Event ServerSig)
    (world : ServerWorld C) : Prop where
  answered : ServerStep C p.world e world
  staging : ServerOp.IsStaging e.op
  begun : ∃ k : ChangeSetCall, (server.handle k).Begins (ownEvents p.log i ++ [e])
  unraced : Unraced server p i e

section Turn

variable {p : CallPool C} {i : Nat} {e : Event ServerSig} {world : ServerWorld C}

/-- A draft that has just been held is pending alone. -/
theorem StagingLedger.across_hold (hl : StagingLedger server p.world p.log)
    {id : String} {draft : Draft} {now₀ deadline : Nat}
    (h : StagingTurn server p i (holdDraftEvent id draft now₀ deadline) world) {id' : String}
    {r : ChangeSetRecord} (hr : C.record p.world.store id' = some r)
    (howner : r.owner = draft.owner) (hdevice : r.device = draft.controller) {now : Nat}
    (hnow : NotBefore p.log now) (hpending : r.PendingAt now) : id' = id := by
  obtain ⟨k, hbegun⟩ := h.begun
  obtain ⟨rs, hlist, hclear⟩ := hold_of_begins hbegun
  by_contra hid
  rcases hl.listed (mem_ownEvents.1 hlist) hr with ⟨j, r₀, hid₀, hsame, hsince⟩ |
    ⟨r₀, hmem, hsame, hwindow, hstate⟩
  · -- It has been stored since the list was read: that is a race.
    refine h.unraced.hold id draft now₀ deadline rfl rs j r₀ hsince (hsame.owner ▸ howner)
      (hsame.device ▸ hdevice) (hid₀ ▸ hid) r (hid₀ ▸ hr) now hnow hpending
  · -- It was in the list, and its window had closed.
    have hopen := hpending.isOpen
    have hsameState := hstate hopen
    obtain ⟨hnot, n, hn, hle⟩ := hclear r₀ hmem (hsame.owner ▸ howner) (hsame.device ▸ hdevice)
      (hsameState ▸ hopen)
    have hreading := hnow i n (mem_ownEvents.1 hn)
    rcases hpending with happlying | ⟨-, hearly⟩
    · exact hnot (hsameState ▸ happlying)
    · omega

/-- A change set that has just been stored is pending alone, but for its own draft. -/
theorem StagingLedger.across_insert (hl : StagingLedger server p.world p.log) {r : ChangeSetRecord}
    (h : StagingTurn server p i (insertEvent r) world) {id : String} {d : Draft}
    (hd : p.world.drafts.get? id = some d) (howner : r.owner = d.owner)
    (hdevice : r.device = d.controller) {now : Nat} (hnow : NotBefore p.log now)
    (hlive : d.LiveAt server.approvalTtl now) : r.id = id := by
  obtain ⟨k, hbegun⟩ := h.begun
  have hlast : insertEvent r ∈ ownEvents p.log i ++ [insertEvent r] := by simp
  obtain ⟨caller, args, rfl⟩ := (asks_handle k).of_begins hbegun _ hlast
  obtain ⟨draft, stamp, preimage, hread, hcontroller, hplan⟩ := insert_of_begins hbegun hlast
  obtain ⟨hid₀, howner₀, hdevice₀, -⟩ := withPlan_ok hplan
  have hid₁ : r.id = args.changeSetId := hid₀
  have howner₁ : r.owner = draft.owner := howner₀
  have hdevice₁ : r.device = draft.controller := hdevice₀.trans hcontroller.symm
  have hmem : (i, readDraftEvent args.changeSetId (some draft)) ∈ p.log := by
    rcases List.mem_append.1 hread with hmem | hmem
    · exact mem_ownEvents.1 hmem
    · cases List.mem_singleton.1 hmem
  rw [← hid₁] at hmem
  by_contra hid
  rcases hl.looked hmem hd (howner.symm.trans howner₁) (hdevice.symm.trans hdevice₁) with
    hsame | ⟨j, now₀, deadline, hsince⟩
  · exact hid hsame.symm
  · exact h.unraced.insert r rfl draft j id d now₀ deadline hsince howner.symm hdevice.symm
      (Ne.symm hid) hd now hnow hlive

/-- **One question without a race keeps the ledger.** -/
theorem StagingLedger.turn (hC : C.KeepsOnePending) (hl : StagingLedger server p.world p.log)
    (h : StagingTurn server p i e world) : StagingLedger server world (p.log ++ [(i, e)]) where
  keyed := by
    intro id r' hr'
    rcases record_of_staging hC h.answered h.staging hr' with ⟨hid, -⟩ | ⟨r, hr, hsame, -⟩
    · exact hid
    · exact hsame.id.trans (hl.keyed hr)
  records := by
    intro id id' r r' hr hr' howner hdevice hopen hopen'
    rcases record_of_staging hC h.answered h.staging hr with
      ⟨hid, rfl⟩ | ⟨r₁, hr₁, hsame₁, -, hstate₁⟩
    · exact (hC.onePending h.answered.1 hr' howner hdevice hopen').trans hid
    · rcases record_of_staging hC h.answered h.staging hr' with
        ⟨hid, rfl⟩ | ⟨r₂, hr₂, hsame₂, -, hstate₂⟩
      · exact hid.symm.trans (hC.onePending h.answered.1 hr howner.symm hdevice.symm hopen).symm
      · refine hl.records hr₁ hr₂ ?_ ?_ (hstate₁ hopen ▸ hopen) (hstate₂ hopen' ▸ hopen')
        · rw [← hsame₁.owner, ← hsame₂.owner, howner]
        · rw [← hsame₁.device, ← hsame₂.device, hdevice]
  drafts := by
    intro id id' d d' hd hd' howner hcontroller
    rcases drafts_before h.answered hd with hold | ⟨now, deadline, rfl⟩
    · rcases drafts_before h.answered hd' with hold' | ⟨now, deadline, rfl⟩
      · exact hl.drafts hold hold' howner hcontroller
      · exact (only_after_holdEvent h.answered hd howner.symm hcontroller.symm).symm
    · exact only_after_holdEvent h.answered hd' howner hcontroller
  across := by
    intro id id' d r now hnow hd hr howner hdevice hlive hpending
    have hbefore := hnow.of_concat
    rcases record_of_staging hC h.answered h.staging hr with
      ⟨hid, rfl⟩ | ⟨r₁, hr₁, hsame, hwindow, hstate⟩
    · rcases drafts_before h.answered hd with hold | ⟨now₀, deadline, hevent⟩
      · exact hid.symm.trans (hl.across_insert h hold howner hdevice hbefore hlive)
      · cases hevent
    · have howner₁ : r₁.owner = d.owner := hsame.owner.symm.trans howner
      have hdevice₁ : r₁.device = d.controller := hsame.device.symm.trans hdevice
      have hpending₁ := hpending.before hwindow hstate
      rcases drafts_before h.answered hd with hold | ⟨now₀, deadline, rfl⟩
      · exact hl.across hbefore hold hr₁ howner₁ hdevice₁ hlive hpending₁
      · exact hl.across_hold h hr₁ howner₁ hdevice₁ hbefore hpending₁
  listed := by
    intro j rs id r hmem hr
    rcases mem_log_append hmem with hold | ⟨rfl, rfl⟩
    · rcases record_of_staging hC h.answered h.staging hr with
        ⟨hid, rfl⟩ | ⟨r₁, hr₁, hsame, hwindow, hstate⟩
      · exact .inl ⟨i, r, hid, .refl r, since_concat hold _⟩
      · rcases hl.listed hold hr₁ with ⟨j', r₀, hid₀, hsame₀, hsince⟩ |
          ⟨r₀, hin, hsame₀, hwindow₀, hstate₀⟩
        · exact .inl ⟨j', r₀, hid₀, hsame₀.trans hsame, hsince.concat _⟩
        · refine .inr ⟨r₀, hin, hsame₀.trans hsame, hwindow.trans hwindow₀, fun hopen => ?_⟩
          have hsameState := hstate hopen
          exact hsameState.trans (hstate₀ (hsameState ▸ hopen))
    · exact .inr ⟨r, hC.lists h.answered.1 hr, .refl r, rfl, fun _ => rfl⟩
  looked := by
    intro j id d id' d' hmem hd' howner hcontroller
    rcases mem_log_append hmem with hold | ⟨rfl, rfl⟩
    · rcases drafts_before h.answered hd' with hheld | ⟨now, deadline, rfl⟩
      · rcases hl.looked hold hheld howner hcontroller with hid | ⟨j', now, deadline, hsince⟩
        · exact .inl hid
        · exact .inr ⟨j', now, deadline, hsince.concat _⟩
      · exact .inr ⟨i, now, deadline, since_concat hold _⟩
    · obtain ⟨hsame, hnone | hsome⟩ := h.answered
      · cases hnone
      · rw [hsame] at hd'
        exact .inl (hl.drafts hsome.symm hd' howner hcontroller)

end Turn

/-- **Every pool that is reached without a race keeps the ledger.** -/
theorem StagingLedger.of_unraced (hC : C.KeepsOnePending) {init : ServerWorld C}
    (hinit : init.Fresh) {p : CallPool C} (h : UnracedRun server init p) :
    StagingLedger server p.world p.log := by
  induction h with
  | init =>
      have hrecord : ∀ {id r}, C.record init.store id ≠ some r := by
        intro id r hr
        rw [hinit.1] at hr
        cases hr
      have hdraft : ∀ {id d}, init.drafts.get? id ≠ some d := by
        intro id d hd
        rw [hinit.2] at hd
        cases hd
      exact ⟨fun hr => absurd hr hrecord, fun hr => absurd hr hrecord,
        fun hd => absurd hd hdraft, fun _ hd => absurd hd hdraft,
        fun hmem => absurd hmem List.not_mem_nil, fun hmem => absurd hmem List.not_mem_nil⟩
  | start _ _ _ ih => exact ih
  | @turn p i k e world h call begun answered unraced ih =>
      refine ih.turn hC ⟨answered, ?_, ⟨k, begun⟩, unraced⟩
      exact (asks_staging (h.staging call)).of_begins begun e (by simp)

/-- **Without a race a principal has one change set pending on a controller**, in every order of
create and stage calls by any principals, counting drafts that have not lapsed and stored change
sets that are being applied, or are planned or approved and have not expired. -/
theorem onePending_of_unraced (hC : C.KeepsOnePending) {init : ServerWorld C}
    (hinit : init.Fresh) {p : CallPool C} (h : UnracedRun server init p) : OnePending server p := by
  have hl := StagingLedger.of_unraced hC hinit h
  intro now hnow owner controller id id' hpending hpending'
  cases hpending with
  | draft d hd howner hcontroller hlive =>
      cases hpending' with
      | draft d' hd' howner' hcontroller' _ =>
          exact (hl.drafts hd hd' (howner'.trans howner.symm)
            (hcontroller'.trans hcontroller.symm)).symm
      | record r hr howner' hcontroller' hpends =>
          exact (hl.across hnow hd hr (howner'.trans howner.symm)
            (hcontroller'.trans hcontroller.symm) hlive hpends).symm
  | record r hr howner hcontroller hpends =>
      cases hpending' with
      | draft d' hd' howner' hcontroller' hlive =>
          exact hl.across hnow hd' hr (howner.trans howner'.symm)
            (hcontroller.trans hcontroller'.symm) hlive hpends
      | record r' hr' howner' hcontroller' hpends' =>
          exact (hl.records hr hr' (howner'.trans howner.symm)
            (hcontroller'.trans hcontroller.symm) hpends.isOpen hpends'.isOpen).symm

/-! ## Calls that run one after another -/

/-- A call that runs on while no other call runs does not race. -/
theorem UnracedRun.turns {init : ServerWorld C} {p : CallPool C} (h : UnracedRun server init p)
    {i : Nat} {k : ChangeSetCall} (hk : p.calls[i]? = some k) {t : List (Event ServerSig)}
    {world : ServerWorld C} (begun : (server.handle k).Begins (ownEvents p.log i ++ t))
    (hpath : Path (ServerStep C) p.world t world)
    (alone : ∀ x j y, Since p.log (i, x) (j, y) → j = i) :
    UnracedRun server init ⟨world, p.calls, p.log ++ t.map fun e => (i, e)⟩ := by
  induction t generalizing p with
  | nil =>
      obtain rfl := path_nil.1 hpath
      simpa using h
  | cons e t ih =>
      obtain ⟨w₁, hstep, hpath⟩ := path_cons.1 hpath
      have hsplit : ownEvents p.log i ++ e :: t = (ownEvents p.log i ++ [e]) ++ t := by simp
      rw [hsplit] at begun
      have hfirst := begun.of_append
      have hown : ∀ {x j y}, Since p.log (i, x) (j, y) → y ∈ ownEvents p.log i ++ [e] := by
        rintro x j y hsince
        obtain rfl := alone x j y hsince
        obtain ⟨before, after, hlog, hmem⟩ := hsince
        refine List.mem_append_left _ (mem_ownEvents.2 ?_)
        rw [hlog]
        exact List.mem_append_right _ (List.mem_cons_of_mem _ hmem)
      have hunraced : Unraced server p i e := by
        constructor
        · rintro id draft now deadline rfl rs j r hsince
          obtain ⟨_, _, rfl, -⟩ := (asks_handle k).of_begins hfirst _ (List.mem_append_right _
            (List.mem_singleton.2 rfl))
          obtain ⟨_, _, hcall⟩ := (asks_handle _).of_begins hfirst _ (hown hsince)
          cases hcall
        · rintro r rfl d j id d' now deadline hsince
          obtain ⟨_, _, rfl⟩ := (asks_handle k).of_begins hfirst _ (List.mem_append_right _
            (List.mem_singleton.2 rfl))
          obtain ⟨_, _, hcall, -⟩ := (asks_handle _).of_begins hfirst _ (hown hsince)
          cases hcall
      have hone := h.turn hk hfirst hstep hunraced
      have hbegun : (server.handle k).Begins (ownEvents (p.log ++ [(i, e)]) i ++ t) := by
        rw [ownEvents_concat_self]
        exact begun
      have hrest := ih hone hk hbegun hpath fun x j y hsince => by
        rcases hsince.of_concat with hsince | hlast
        · exact alone x j y hsince
        · exact congrArg Prod.fst hlast
      simpa using hrest

/-- A call that is started and runs to its end on its own does not race. -/
theorem UnracedRun.runToEnd {init : ServerWorld C} {p : CallPool C}
    (h : UnracedRun server init p) {k : ChangeSetCall} (hk : k.IsStaging)
    {t : List (Event ServerSig)} (begun : (server.handle k).Begins t) {world : ServerWorld C}
    (hpath : Path (ServerStep C) p.world t world) :
    UnracedRun server init
      ⟨world, p.calls ++ [k], p.log ++ t.map fun e => (p.calls.length, e)⟩ := by
  have hnone : ∀ e, (p.calls.length, e) ∉ p.log := by
    intro e he
    obtain ⟨k', hk'⟩ := h.reachable.started he
    exact absurd (List.getElem?_eq_some_iff.1 hk').1 (Nat.lt_irrefl _)
  have hown : ownEvents p.log p.calls.length = [] :=
    List.eq_nil_iff_forall_not_mem.2 fun e he => hnone e (mem_ownEvents.1 he)
  refine (h.start k hk).turns (i := p.calls.length) (k := k) (by simp) ?_ hpath ?_
  · rw [hown]
    exact begun
  · rintro x j y ⟨before, after, hlog, -⟩
    have hmem : (p.calls.length, x) ∈ p.log := by
      rw [show p.log = _ from hlog]
      simp
    exact absurd hmem (hnone x)

/-! ## A race

A coordinator in memory that stores no second pending change set, and two calls of one principal
that race. -/

/-- A change set is stored only while no other of its owner for its device is open. -/
def StoresAlone (record : String → Option ChangeSetRecord) : (op : CoordinatorOp) → op.Answer → Prop
  | .insertChangeSet r, .ok () => ∀ id r', record id = some r' → r'.owner = r.owner →
      r'.device = r.device → r'.state.IsOpen → id = r.id
  | _, _ => True

/-- A coordinator that stores no second pending change set. -/
def Coordinator.storingAlone (C : Coordinator) : Coordinator where
  Store := C.Store
  record := C.record
  step s op a s' := C.step s op a s' ∧ StoresAlone (C.record s') op a
  stays h := C.stays h.1
  read h := C.read h.1
  added h := C.added h.1
  inserted h := C.inserted h.1
  claimed h := C.claimed h.1

/-- The coordinator in memory, storing no second pending change set. -/
def cautiousMemory : Coordinator := MemoryStore.coordinator.storingAlone

theorem cautiousMemory_keepsOnePending : cautiousMemory.KeepsOnePending where
  lists := by
    rintro s rs s' id r ⟨h, -⟩ hr
    cases h
    exact SortedMap.mem_values.2 ⟨id, hr⟩
  window := by
    rintro s op a s' id r r' ⟨h, -⟩ hop hr hr'
    have hsame : s'.sets.get? id = s.sets.get? id → r'.expiresAtUnix = r.expiresAtUnix := by
      intro heq
      rw [Option.some.inj (hr'.symm.trans (heq.trans hr))]
    cases op with
    | approveChangeSet _ _ _ _ _ | waiveApproval _ _ _ _ | claimChangeSetForApply _ _
    | updateChangeSet _ => exact hop.elim
    | changeSets | changeSet _ _ | changeSetStatus _ _ =>
        cases h
        exact hsame rfl
    | insertChangeSet r₀ =>
        have hanswer : MemoryStore.answer (.insertChangeSet r₀) s = (a, s') := h
        simp only [MemoryStore.answer] at hanswer
        cases hstored : s.sets.get? r₀.id with
        | some r₁ =>
            rw [hstored] at hanswer
            cases hanswer
            exact hsame rfl
        | none =>
            rw [hstored] at hanswer
            cases hanswer
            refine hsame (MemoryStore.get?_put_of_ne s ?_)
            rintro rfl
            cases hstored.symm.trans hr
  onePending := by
    rintro s r s' id r' ⟨-, halone⟩ hr' howner hdevice hopen
    exact halone id r' hr' howner hdevice hopen

/-- The draft of the calls below. -/
def blockDraft : Draft := ⟨"main", "alice", "block it", 0⟩

/-- The change set that it becomes. -/
def blockRecord : ChangeSetRecord where
  id := "cs-1"
  owner := "alice"
  device := "main"
  expectedCandidateFingerprint := "sha256:3"
  actions := (actionsFor [.create "firewall_policy" blockPolicy] (.fromResources [])).map
    StagedAction.toJson
  digest := "sha256:1"
  state := .planned
  approver := none
  expiresAtUnix := 3600
  preview := some ⟨"sha256:2", "preview"⟩

/-- Making a change set. -/
def createBlock : ChangeSetCall :=
  .create (humanWith "alice" "unifi_create_change_set" none) ⟨"main", "block it"⟩

/-- Staging into it. -/
def stageBlock : ChangeSetCall :=
  .stage (humanWith "alice" "unifi_stage_change" none)
    ⟨"main", "cs-1", [.create "firewall_policy" blockPolicy]⟩

/-- A create call lists the stored change sets. -/
def policyListed (id : String) : List (Event ServerSig) :=
  [clientForEvent "main" policyClient, ⟨.newChangeSetId, id⟩, nowEvent 0, listEvent []]

/-- And then holds its draft. -/
def holding (id : String) : List (Event ServerSig) :=
  [nowEvent 0, holdDraftEvent id blockDraft 0 3600]

/-- A stage call stores its change set and releases the draft. -/
def storing : List (Event ServerSig) :=
  [nowEvent 0, readDraftEvent "cs-1" (some blockDraft), clientForEvent "main" policyClient,
    nowEvent 0, ⟨.lockPlan, ()⟩, insertEvent blockRecord, ⟨.releaseDraft "cs-1", ()⟩,
    ⟨.unlockPlan, ()⟩]

/-- Nothing is stored and nothing is held. -/
def freshWorld : ServerWorld cautiousMemory := ⟨⟨.empty, MemoryStore.keyed_empty⟩, .empty, false⟩

/-- The draft is held. -/
def heldWorld : ServerWorld cautiousMemory :=
  ⟨⟨.empty, MemoryStore.keyed_empty⟩, SortedMap.empty.insert "cs-1" blockDraft, false⟩

/-- The change set is stored. -/
def storedWorld : ServerWorld cautiousMemory :=
  ⟨MemoryStore.put ⟨.empty, MemoryStore.keyed_empty⟩ blockRecord,
    (SortedMap.empty.insert "cs-1" blockDraft).erase "cs-1", false⟩

theorem createBlock_begins (id : String) :
    (plainServer.handle createBlock).Begins (policyListed id ++ holding id) :=
  ⟨_, rfl, _, rfl, _, rfl, _, rfl, _, rfl, _, rfl, trivial⟩

theorem stageBlock_begins : (plainServer.handle stageBlock).Begins storing :=
  ⟨_, rfl, _, rfl, _, rfl, _, rfl, _, rfl, _, rfl, _, rfl, _, rfl, trivial⟩

theorem policyListed_path (id : String) {w : ServerWorld cautiousMemory}
    (hw : w.store = freshWorld.store) : Path (ServerStep cautiousMemory) w (policyListed id) w := by
  have hlist : ServerStep cautiousMemory w (listEvent []) w := by
    refine ⟨⟨?_, trivial⟩, rfl, rfl⟩
    rw [hw]
    rfl
  exact .cons rfl (.cons rfl (.cons rfl (.cons hlist .nil)))

theorem holding_path : Path (ServerStep cautiousMemory) freshWorld (holding "cs-1") heldWorld := by
  have hhold : ServerStep cautiousMemory freshWorld (holdDraftEvent "cs-1" blockDraft 0 3600)
      heldWorld := ⟨rfl, rfl⟩
  exact .cons rfl (.cons hhold .nil)

theorem storing_path : Path (ServerStep cautiousMemory) heldWorld storing storedWorld := by
  let locked : ServerWorld cautiousMemory := { heldWorld with planLocked := true }
  let inserted : ServerWorld cautiousMemory :=
    { locked with store := MemoryStore.put ⟨.empty, MemoryStore.keyed_empty⟩ blockRecord }
  let released : ServerWorld cautiousMemory :=
    { inserted with drafts := inserted.drafts.erase "cs-1" }
  have hread : ServerStep cautiousMemory heldWorld (readDraftEvent "cs-1" (some blockDraft))
      heldWorld := ⟨rfl, .inr rfl⟩
  have hlock : ServerStep cautiousMemory heldWorld ⟨.lockPlan, ()⟩ locked := ⟨rfl, rfl⟩
  have hinsert : ServerStep cautiousMemory locked (insertEvent blockRecord) inserted := by
    refine ⟨⟨rfl, ?_⟩, rfl, rfl⟩
    intro id r hr _ _ _
    rcases MemoryStore.get?_put_eq_some hr with ⟨hid, -⟩ | hr
    · exact hid
    · cases hr
  have hrelease : ServerStep cautiousMemory inserted ⟨.releaseDraft "cs-1", ()⟩ released := .inr rfl
  have hunlock : ServerStep cautiousMemory released ⟨.unlockPlan, ()⟩ storedWorld := rfl
  exact .cons rfl (.cons hread (.cons rfl (.cons rfl (.cons hlock (.cons hinsert
    (.cons hrelease (.cons hunlock .nil)))))))

/-- One call after the other: the change set is made, and then staged into. -/
theorem onePending_of_unraced_inTurn :
    OnePending plainServer ⟨storedWorld, [createBlock, stageBlock],
      ((policyListed "cs-1" ++ holding "cs-1").map fun e => (0, e)) ++
        storing.map fun e => (1, e)⟩ := by
  have hcreated : UnracedRun plainServer freshWorld _ :=
    UnracedRun.init.runToEnd (k := createBlock) trivial (createBlock_begins "cs-1")
      (path_append.2 ⟨freshWorld, policyListed_path "cs-1" rfl, holding_path⟩)
  have hstaged := hcreated.runToEnd (k := stageBlock) trivial stageBlock_begins storing_path
  exact onePending_of_unraced cautiousMemory_keepsOnePending ⟨fun _ => rfl, fun _ => rfl⟩ hstaged

/-- The pool in which a second create call listed the change sets before the first was stored, and
held its draft after. -/
def racedPool : CallPool cautiousMemory where
  world := { storedWorld with drafts := storedWorld.drafts.insert "cs-2" blockDraft }
  calls := [createBlock, createBlock, stageBlock]
  log := ((policyListed "cs-1" ++ holding "cs-1").map fun e => (0, e)) ++
    ((policyListed "cs-2").map fun e => (1, e)) ++ (storing.map fun e => (2, e)) ++
    (holding "cs-2").map fun e => (1, e)

theorem racedPool_reachable :
    racedPool.Reachable plainServer.handle (ServerStep cautiousMemory) freshWorld := by
  have hhold : Path (ServerStep cautiousMemory) storedWorld (holding "cs-2") racedPool.world := by
    have hheld : ServerStep cautiousMemory storedWorld (holdDraftEvent "cs-2" blockDraft 0 3600)
        racedPool.world := ⟨rfl, rfl⟩
    exact .cons rfl (.cons hheld .nil)
  have hdraft := (Pool.Reachable.init.start createBlock).turns (i := 0) (k := createBlock) rfl
    (createBlock_begins "cs-1")
    (path_append.2 ⟨freshWorld, policyListed_path "cs-1" rfl, holding_path⟩)
  have hlisted := (hdraft.start createBlock).turns (i := 1) (k := createBlock) rfl
    (createBlock_begins "cs-2").of_append (policyListed_path "cs-2" rfl)
  have hstored := (hlisted.start stageBlock).turns (i := 2) (k := stageBlock) rfl
    stageBlock_begins storing_path
  exact hstored.turns (i := 1) (k := createBlock) rfl (createBlock_begins "cs-2") hhold

/-- The readings of the clock. -/
def readings (log : List (Nat × Event ServerSig)) : List Nat :=
  log.filterMap fun
    | (_, ⟨.unixSecondsNow, n⟩) => some n
    | _ => none

/-- **A principal can have two change sets pending on one controller.** -/
theorem not_onePending_raced :
    ¬ ∀ (C : Coordinator) (server : UnifiServer) (init : ServerWorld C) (p : CallPool C),
      C.KeepsOnePending → init.Fresh →
      p.Reachable server.handle (ServerStep C) init → (∀ k ∈ p.calls, k.IsStaging) →
      OnePending server p := by
  intro h
  have hone := h cautiousMemory plainServer freshWorld racedPool cautiousMemory_keepsOnePending
    ⟨fun _ => rfl, fun _ => rfl⟩ racedPool_reachable (by
      intro k hk
      simp only [racedPool, List.mem_cons, List.not_mem_nil, or_false] at hk
      rcases hk with rfl | rfl | rfl <;> trivial)
  have hnow : NotBefore racedPool.log 0 := by
    intro i n hmem
    have hreading : n ∈ readings racedPool.log := List.mem_filterMap.2 ⟨_, hmem, rfl⟩
    have hzero : ∀ n ∈ [0, 0, 0, 0, 0, 0], n ≤ 0 := by decide
    exact hzero n hreading
  have hdraft : HasPending racedPool.world plainServer.approvalTtl 0 "alice" "main" "cs-2" :=
    .draft blockDraft rfl rfl rfl (by unfold Draft.LiveAt; decide)
  have hrecord : HasPending racedPool.world plainServer.approvalTtl 0 "alice" "main" "cs-1" :=
    .record blockRecord rfl rfl rfl (.inr ⟨.inl rfl, by decide⟩)
  exact absurd (hone 0 hnow _ _ _ _ hdraft hrecord) (by decide)

end UnifiMcp
