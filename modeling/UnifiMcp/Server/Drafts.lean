import UnifiMcp.Server.StageCall

/-!
# Drafts over time

Drafts are held, looked up and let go by calls that run one after another, while the clock goes
on.  `ClockStep` is the surroundings of the handlers with a clock that does not go back, and
`DraftRun` a sequence of such calls.  `draftRun_sound` says what every run keeps: a bounded
number of drafts and one of an owner on a controller, with every call doing no more than it
should.  It rests on what one call does (`DraftCall.Ran.sound`) and on `DraftsKept`, which holding
a draft keeps because it forgets the lapsed ones before it looks.
-/

namespace UnifiMcp

open Interaction Collections

variable {C : Coordinator} {server : UnifiServer}

/-! ## The map of the drafts -/

/-- There are not too many drafts, and no two of one owner on one controller. -/
structure DraftsKept (drafts : SortedMap String Draft) : Prop where
  bounded : drafts.entries.length ≤ maxDrafts
  single : ∀ {id id' d d'}, drafts.get? id = some d → drafts.get? id' = some d' →
    d'.owner = d.owner → d'.controller = d.controller → id' = id

theorem draftsKept_empty : DraftsKept .empty where
  bounded := Nat.zero_le _
  single h := nomatch h

/-- Some of the drafts have been dropped. -/
structure Dropped (drafts drafts' : SortedMap String Draft) : Prop where
  size : drafts'.entries.length ≤ drafts.entries.length
  held : ∀ {id d}, drafts'.get? id = some d → drafts.get? id = some d

theorem Dropped.refl (drafts : SortedMap String Draft) : Dropped drafts drafts := ⟨le_rfl, id⟩

theorem dropped_erase (drafts : SortedMap String Draft) (id : String) :
    Dropped drafts (drafts.erase id) :=
  ⟨List.length_filter_le _ _, fun h => (SortedMap.get?_erase_eq_some.1 h).2⟩

theorem dropped_retain (drafts : SortedMap String Draft) (keep : Draft → Bool) :
    Dropped drafts (drafts.retain keep) :=
  ⟨List.length_filter_le _ _, fun h => (SortedMap.get?_retain_eq_some.1 h).2⟩

theorem DraftsKept.dropped {drafts drafts' : SortedMap String Draft} (h : DraftsKept drafts)
    (hdropped : Dropped drafts drafts') : DraftsKept drafts' where
  bounded := le_trans hdropped.size h.bounded
  single hd hd' := h.single (hdropped.held hd) (hdropped.held hd')

/-- Holding a draft forgets those that have lapsed, and then refuses or adds this one. -/
theorem holdDraft_cases (drafts : SortedMap String Draft) (id : String) (draft : Draft)
    (now deadline : Nat) :
    (∃ message, holdDraft drafts id draft now deadline = (.error message,
        drafts.retain fun held => now - held.createdAtUnix < deadline)) ∨
      holdDraft drafts id draft now deadline = (.ok (),
          (drafts.retain fun held => now - held.createdAtUnix < deadline).insert id draft) ∧
        (drafts.retain fun held => now - held.createdAtUnix < deadline).entries.length <
          maxDrafts := by
  unfold holdDraft
  dsimp only
  split
  · exact .inl ⟨_, rfl⟩
  · split_ifs with hfull
    · exact .inl ⟨_, rfl⟩
    · exact .inr ⟨rfl, Nat.lt_of_not_le hfull⟩

/-- Holding a draft keeps the drafts few and apart. -/
theorem DraftsKept.holdDraft {drafts : SortedMap String Draft} (h : DraftsKept drafts) (id : String)
    (draft : Draft) (now deadline : Nat) :
    DraftsKept (UnifiMcp.holdDraft drafts id draft now deadline).2 := by
  have hkept := h.dropped
    (dropped_retain drafts fun held => now - held.createdAtUnix < deadline)
  rcases holdDraft_cases drafts id draft now deadline with ⟨message, hheld⟩ | ⟨hheld, hroom⟩
  · rwa [hheld]
  · have hok : (UnifiMcp.holdDraft drafts id draft now deadline).1 = .ok () :=
      congrArg Prod.fst hheld
    refine ⟨?_, ?_⟩
    · rw [hheld]
      exact le_trans (length_insertEntry_le id draft _) hroom
    · intro id₁ id₂ d₁ d₂ h₁ h₂ howner hcontroller
      rcases get?_holdDraft h₁ with hbefore₁ | ⟨rfl, rfl, -⟩
      · rcases get?_holdDraft h₂ with hbefore₂ | ⟨rfl, rfl, -⟩
        · exact h.single hbefore₁ hbefore₂ howner hcontroller
        · exact (only_after_hold hok h₁ howner.symm hcontroller.symm).symm
      · exact only_after_hold hok h₂ howner hcontroller

/-! ## A clock -/

/-- The surroundings of the handlers, and what the clock shows. -/
structure Clocked (C : Coordinator) where
  world : ServerWorld C
  now : Nat

/-- What the surroundings do while the clock goes on; a reading of the clock is what it shows. -/
structure ClockStep (C : Coordinator) (s : Clocked C) (e : Event ServerSig) (s' : Clocked C) :
    Prop where
  world : ServerStep C s.world e s'.world
  now : s.now ≤ s'.now
  reading : ∀ n, e = nowEvent n → n = s'.now

/-- A question that leaves the drafts alone. -/
def ServerOp.KeepsDrafts : ServerOp → Prop
  | .holdDraft _ _ _ _ | .releaseDraft _ => False
  | _ => True

theorem drafts_of_keeps {w w' : ServerWorld C} {e : Event ServerSig} (h : ServerStep C w e w')
    (hkeeps : e.op.KeepsDrafts) : w'.drafts = w.drafts := by
  match e, h, hkeeps with
  | ⟨.coordinator op, answer⟩, h, _ => exact h.2.1
  | ⟨.readDraft id, _⟩, h, _ => rw [h.1]
  | ⟨.lockPlan, _⟩, h, _ => rw [h.2]
  | ⟨.unlockPlan, _⟩, h, _ => rw [show w' = _ from h]
  | ⟨.unixSecondsNow, _⟩, h, _ | ⟨.newChangeSetId, _⟩, h, _ | ⟨.clientFor _, _⟩, h, _
  | ⟨.clients, _⟩, h, _ | ⟨.controllerNames, _⟩, h, _ | ⟨.controllerNamed _, _⟩, h, _
  | ⟨.client _ _, _⟩, h, _ | ⟨.proposal _ _ _ _, _⟩, h, _ | ⟨.applyIntent _ _ _, _⟩, h, _
  | ⟨.resultReceipt _ _ _ _ _, _⟩, h, _ => rw [show w' = w from h]

/-- Along questions that leave the drafts alone they stay, while the clock goes on. -/
theorem Path.keepsDrafts {s s' : Clocked C} {t : List (Event ServerSig)}
    (h : Path (ClockStep C) s t s') (hkeeps : ∀ e ∈ t, e.op.KeepsDrafts) :
    s'.world.drafts = s.world.drafts ∧ s.now ≤ s'.now := by
  induction h with
  | nil => exact ⟨rfl, le_rfl⟩
  | cons head tail ih =>
      obtain ⟨hdrafts, hnow⟩ := ih fun e he => hkeeps e (List.mem_cons_of_mem _ he)
      have hhead := drafts_of_keeps head.world (hkeeps _ List.mem_cons_self)
      exact ⟨hdrafts.trans hhead, le_trans head.now hnow⟩

/-! ## What a call does to the drafts -/

/-- A call that holds, looks up or lets go a draft, with what it came to. -/
inductive DraftCall where
  | hold (id : String) (draft : Draft) (result : Except String Unit)
  | look (changeSetId controller : String) (found : Option Draft)
  | release (changeSetId : String)

/-- The id a call brings for a draft of its own. -/
def DraftCall.newId : DraftCall → Option String
  | .hold id _ _ => some id
  | .look _ _ _ | .release _ => none

/-- The call runs from one state of the surroundings to another and comes to this. -/
def DraftCall.Ran (server : UnifiServer) (s s' : Clocked C) : DraftCall → Prop
  | .hold id draft result =>
      ∃ t, (server.hold id draft).Gives t result ∧ Path (ClockStep C) s t s'
  | .look changeSetId controller found =>
      ∃ t, (server.draft changeSetId controller).Gives t (.ok found) ∧ Path (ClockStep C) s t s'
  | .release changeSetId =>
      ∃ t, (ServerM.ask (.releaseDraft changeSetId)).Gives t (.ok ()) ∧ Path (ClockStep C) s t s'

/-- Apart from what is added, drafts stay unless they have lapsed by the clock. -/
def OnlyLapsedGo (deadline : Nat) (s s' : Clocked C) : Prop :=
  ∀ id d, s.world.drafts.get? id = some d → s'.world.drafts.get? id = some d ∨
    ¬ d.LiveAt deadline s'.now

/-- Nothing is added. -/
def NothingAdded (s s' : Clocked C) : Prop :=
  ∀ id d, s'.world.drafts.get? id = some d → s.world.drafts.get? id = some d

/-- What a call may do.  Holding a draft adds exactly that one if it succeeds and none if it is
refused; looking one up gives a draft of that id and controller that had not lapsed at some
moment of the call; neither makes another go unless it has lapsed. -/
def DraftCall.Sound (server : UnifiServer) (s s' : Clocked C) : DraftCall → Prop
  | .hold id draft (.ok ()) =>
      s'.world.drafts.get? id = some draft ∧
        (∀ id' d, id' ≠ id → s'.world.drafts.get? id' = some d →
          s.world.drafts.get? id' = some d) ∧
        ∀ id' d, id' ≠ id → s.world.drafts.get? id' = some d →
          s'.world.drafts.get? id' = some d ∨ ¬ d.LiveAt server.approvalTtl s'.now
  | .hold _ _ (.error _) => NothingAdded s s' ∧ OnlyLapsedGo server.approvalTtl s s'
  | .look changeSetId controller found =>
      (∀ d ∈ found, s.world.drafts.get? changeSetId = some d ∧ d.controller = controller ∧
        ∃ now, s.now ≤ now ∧ now ≤ s'.now ∧ d.LiveAt server.approvalTtl now) ∧
        NothingAdded s s' ∧ OnlyLapsedGo server.approvalTtl s s'
  | .release changeSetId =>
      NothingAdded s s' ∧ ∀ id, id ≠ changeSetId →
        s'.world.drafts.get? id = s.world.drafts.get? id

/-- What holding a draft comes to, by the answer to the last question. -/
def heldResult : Except PoisonError (Except String Unit) → Except String Unit
  | .ok held => held
  | .error _ => .error "drafts lock poisoned"

/-- What holding a draft asks: questions that leave the drafts alone, and then, unless a stored
change set is in the way, the time and the draft itself. -/
theorem gives_hold {id : String} {draft : Draft} {t : List (Event ServerSig)}
    {r : Except String Unit} (h : (server.hold id draft).Gives t r) :
    ∃ t₁ rest, t = t₁ ++ rest ∧ (∀ e ∈ t₁, e.op.KeepsDrafts) ∧
      ((rest = [] ∧ ∃ message, r = .error message) ∨
        ∃ (now : Nat) (answer : Except PoisonError (Except String Unit)),
          rest = [nowEvent now, ⟨.holdDraft id draft now server.approvalTtl, answer⟩] ∧
            r = heldResult answer) := by
  unfold UnifiServer.hold at h
  have hsets : (ServerM.coordinator .changeSets).Asks ServerOp.KeepsDrafts :=
    asks_coordinator trivial
  have hblocker : ∀ records, (UnifiServer.findBlocker draft records).Asks ServerOp.KeepsDrafts :=
    fun records => asks_findBlocker trivial
  rcases Fallible.gives_bind.1 h with ⟨message, rfl, h₁⟩ | ⟨t₁, t₂, records, rfl, h₁, h₂⟩
  · exact ⟨t, [], (List.append_nil t).symm, hsets.of_mem h₁, .inl ⟨rfl, message, rfl⟩⟩
  rcases Fallible.gives_bind.1 h₂ with ⟨message, rfl, h₃⟩ | ⟨t₃, t₄, blocker, rfl, h₃, h₄⟩
  · refine ⟨t₁ ++ t₂, [], (List.append_nil _).symm, ?_, .inl ⟨rfl, message, rfl⟩⟩
    exact List.forall_mem_append.2 ⟨hsets.of_mem h₁, (hblocker records).of_mem h₃⟩
  have hkeeps : ∀ e ∈ t₁ ++ t₃, ServerOp.KeepsDrafts e.op :=
    List.forall_mem_append.2 ⟨hsets.of_mem h₁, (hblocker records).of_mem h₃⟩
  refine ⟨t₁ ++ t₃, t₄, (List.append_assoc _ _ _).symm, hkeeps, ?_⟩
  cases blocker with
  | some blocker =>
      obtain ⟨rfl, rfl⟩ := Fallible.gives_throw.1 h₄
      exact .inl ⟨rfl, _, rfl⟩
  | none =>
      obtain ⟨now, t₅, rfl, h₅⟩ := Fallible.gives_ask_bind.1 h₄
      obtain ⟨answer, t₆, rfl, h₆⟩ := Fallible.gives_ask_bind.1 h₅
      refine .inr ⟨now, answer, ?_⟩
      cases answer with
      | error e =>
          obtain ⟨rfl, rfl⟩ := Fallible.gives_throw.1 h₆
          exact ⟨rfl, rfl⟩
      | ok held =>
          obtain ⟨rfl, rfl⟩ := Fallible.gives_ofExcept.1 h₆
          exact ⟨rfl, rfl⟩

/-- A draft that has lapsed stays lapsed. -/
theorem Draft.LiveAt.of_le {draft : Draft} {deadline now now' : Nat}
    (h : draft.LiveAt deadline now') (hnow : now ≤ now') : draft.LiveAt deadline now := by
  unfold Draft.LiveAt at h ⊢
  omega

/-- What is kept of a draft by the sweep. -/
theorem get?_sweep {drafts : SortedMap String Draft} {id : String} {d : Draft} {now deadline : Nat}
    (hd : drafts.get? id = some d) :
    (drafts.retain fun held => now - held.createdAtUnix < deadline).get? id = some d ∨
      ¬ d.LiveAt deadline now := by
  by_cases hlive : d.LiveAt deadline now
  · exact .inl (SortedMap.get?_retain_eq_some.2 ⟨decide_eq_true hlive, hd⟩)
  · exact .inr hlive

theorem onlyLapsedGo_of_eq {deadline : Nat} {s s' : Clocked C}
    (h : s'.world.drafts = s.world.drafts) : NothingAdded s s' ∧ OnlyLapsedGo deadline s s' :=
  ⟨fun _ _ hd => h ▸ hd, fun _ _ hd => .inl (h ▸ hd)⟩

theorem nothingAdded_of_dropped {s s' : Clocked C}
    (h : Dropped s.world.drafts s'.world.drafts) : NothingAdded s s' := fun _ _ hd => h.held hd

/-- Letting a draft go leaves the drafts, where the lock is poisoned, or erases that one. -/
theorem drafts_of_release {w w' : ServerWorld C} {id : String} {answer : Unit}
    (h : ServerStep C w ⟨.releaseDraft id, answer⟩ w') :
    w'.drafts = w.drafts ∨ w'.drafts = w.drafts.erase id := by
  rcases (show w' = w ∨ w' = _ from h) with hkeep | hgone
  · exact .inl (congrArg ServerWorld.drafts hkeep)
  · exact .inr (congrArg ServerWorld.drafts hgone)

/-- Under the lock of the drafts, holding one does what it should. -/
theorem sound_of_holdDraft {s s' : Clocked C} {id : String} {draft : Draft} {now : Nat}
    {held : Except String Unit}
    (hstep : (held, s'.world.drafts) =
      holdDraft s.world.drafts id draft now server.approvalTtl)
    (hlate : now ≤ s'.now) : (DraftCall.hold id draft held).Sound server s s' := by
  have hresult := congrArg Prod.fst hstep
  have hafter : s'.world.drafts =
      (holdDraft s.world.drafts id draft now server.approvalTtl).2 := congrArg Prod.snd hstep
  rcases holdDraft_cases s.world.drafts id draft now server.approvalTtl with
    ⟨message, hcase⟩ | ⟨hcase, -⟩
  · rw [hcase] at hresult hafter
    obtain rfl : held = .error message := hresult
    have hdropped : Dropped s.world.drafts s'.world.drafts := by
      rw [hafter]
      exact dropped_retain s.world.drafts fun held =>
        now - held.createdAtUnix < server.approvalTtl
    refine ⟨nothingAdded_of_dropped hdropped, fun id' d hd => ?_⟩
    rw [hafter]
    exact (get?_sweep hd).imp_right fun hnot hlive => hnot (hlive.of_le hlate)
  · rw [hcase] at hresult hafter
    obtain rfl : held = .ok () := hresult
    refine ⟨?_, fun id' d hne hd => ?_, fun id' d hne hd => ?_⟩
    · rw [hafter]
      exact SortedMap.get?_insert_self _ _ _
    · rw [hafter] at hd
      have hbefore := (SortedMap.get?_insert_of_ne _ hne _).symm.trans hd
      exact (dropped_retain _ _).held hbefore
    · rw [hafter, SortedMap.get?_insert_of_ne _ hne]
      exact (get?_sweep hd).imp_right fun hnot hlive => hnot (hlive.of_le hlate)

/-- Holding a draft does what it should. -/
theorem DraftCall.Ran.sound_hold {s s' : Clocked C} {id : String} {draft : Draft}
    {result : Except String Unit} (h : (DraftCall.hold id draft result).Ran server s s')
    (hkept : DraftsKept s.world.drafts) :
    (DraftCall.hold id draft result).Sound server s s' ∧ DraftsKept s'.world.drafts := by
  obtain ⟨t, hgives, hpath⟩ := h
  obtain ⟨t₁, rest, rfl, hkeeps, hrest⟩ := gives_hold hgives
  obtain ⟨s₁, hfirst, hsecond⟩ := path_append.1 hpath
  obtain ⟨hdrafts, -⟩ := Path.keepsDrafts hfirst hkeeps
  rcases hrest with ⟨rfl, message, rfl⟩ | ⟨now, answer, rfl, rfl⟩
  · obtain rfl := path_nil.1 hsecond
    exact ⟨onlyLapsedGo_of_eq hdrafts, hdrafts ▸ hkept⟩
  · obtain ⟨s₂, hread, hlast⟩ := path_cons.1 hsecond
    obtain ⟨s₃, hheld, hend⟩ := path_cons.1 hlast
    obtain rfl := path_nil.1 hend
    have hread' : s₂.world.drafts = s.world.drafts :=
      (drafts_of_keeps hread.world trivial).trans hdrafts
    have hlate : now ≤ s₃.now := (hread.reading now rfl).trans_le hheld.now
    cases answer with
    | error e =>
        have hsame : s₃.world.drafts = s.world.drafts :=
          (congrArg ServerWorld.drafts (show s₃.world = s₂.world from hheld.world)).trans hread'
        exact ⟨onlyLapsedGo_of_eq hsame, hsame ▸ hkept⟩
    | ok held =>
        have hstep : (held, s₃.world.drafts) =
            holdDraft s.world.drafts id draft now server.approvalTtl := hread' ▸ hheld.world.1
        have hafter : s₃.world.drafts =
            (holdDraft s.world.drafts id draft now server.approvalTtl).2 := congrArg Prod.snd hstep
        exact ⟨sound_of_holdDraft hstep hlate, hafter ▸ hkept.holdDraft id draft now _⟩

/-- Looking a draft up does what it should. -/
theorem DraftCall.Ran.sound_look {s s' : Clocked C} {changeSetId controller : String}
    {found : Option Draft} (h : (DraftCall.look changeSetId controller found).Ran server s s')
    (hkept : DraftsKept s.world.drafts) :
    (DraftCall.look changeSetId controller found).Sound server s s' ∧
      DraftsKept s'.world.drafts := by
  obtain ⟨t, hgives, hpath⟩ := h
  obtain ⟨now, held, rest, rfl, hfound⟩ := gives_draft hgives
  obtain ⟨s₁, hread, hpath₁⟩ := path_cons.1 hpath
  obtain ⟨s₂, hlook, hpath₂⟩ := path_cons.1 hpath₁
  have hsame₁ : s₁.world.drafts = s.world.drafts := drafts_of_keeps hread.world trivial
  have hsame₂ : s₂.world.drafts = s.world.drafts :=
    (drafts_of_keeps hlook.world trivial).trans hsame₁
  have hnow : now = s₁.now := hread.reading now rfl
  have hheld : ∀ d ∈ held, s.world.drafts.get? changeSetId = some d := by
    intro d hd
    rcases hlook.world.2 with hnone | hsome
    · rw [hnone] at hd
      cases hd
    · rw [← hsame₁, ← hsome, hd]
  cases hfilter : held.filter (·.controller = controller) with
  | none =>
      rw [hfilter] at hfound
      obtain ⟨rfl, hnone⟩ := hfound
      cases hnone
      obtain rfl := path_nil.1 hpath₂
      exact ⟨⟨nofun, onlyLapsedGo_of_eq hsame₂⟩, hsame₂ ▸ hkept⟩
  | some d =>
      rw [hfilter] at hfound
      dsimp only at hfound
      obtain ⟨hd, hcontroller⟩ := Option.filter_eq_some_iff.1 hfilter
      by_cases hlive : d.LiveAt server.approvalTtl now
      · rw [if_pos hlive] at hfound
        obtain ⟨rfl, hsome⟩ := hfound
        cases hsome
        obtain rfl := path_nil.1 hpath₂
        refine ⟨⟨?_, onlyLapsedGo_of_eq hsame₂⟩, hsame₂ ▸ hkept⟩
        rintro _ ⟨⟩
        exact ⟨hheld d hd, of_decide_eq_true hcontroller, now, hnow ▸ hread.now,
          hnow ▸ hlook.now, hlive⟩
      · rw [if_neg hlive] at hfound
        obtain ⟨rfl, hnone⟩ := hfound
        cases hnone
        obtain ⟨s₃, hrelease, hend⟩ := path_cons.1 hpath₂
        obtain rfl := path_nil.1 hend
        have hlate : now ≤ s₃.now := hnow.trans_le (le_trans hlook.now hrelease.now)
        rcases drafts_of_release hrelease.world with hkeep | hgone
        · have hsame₃ : s₃.world.drafts = s.world.drafts := hkeep.trans hsame₂
          exact ⟨⟨nofun, onlyLapsedGo_of_eq hsame₃⟩, hsame₃ ▸ hkept⟩
        · have herased : s₃.world.drafts = s.world.drafts.erase changeSetId :=
            hgone.trans (congrArg (·.erase changeSetId) hsame₂)
          have hdropped : Dropped s.world.drafts s₃.world.drafts :=
            herased ▸ dropped_erase s.world.drafts changeSetId
          refine ⟨⟨nofun, nothingAdded_of_dropped hdropped, fun id' d' hd' => ?_⟩,
            hkept.dropped hdropped⟩
          by_cases hid : id' = changeSetId
          · subst hid
            obtain rfl : d = d' := Option.some.inj ((hheld d hd).symm.trans hd')
            exact .inr fun hlive' => hlive (hlive'.of_le hlate)
          · rw [herased, SortedMap.get?_erase_of_ne _ hid]
            exact .inl hd'

/-- Letting a draft go does what it should. -/
theorem DraftCall.Ran.sound_release {s s' : Clocked C} {changeSetId : String}
    (h : (DraftCall.release changeSetId).Ran server s s') (hkept : DraftsKept s.world.drafts) :
    (DraftCall.release changeSetId).Sound server s s' ∧ DraftsKept s'.world.drafts := by
  obtain ⟨t, hgives, hpath⟩ := h
  obtain ⟨answer, rfl, -⟩ := Fallible.gives_ask.1 hgives
  obtain ⟨s₁, hrelease, hend⟩ := path_cons.1 hpath
  obtain rfl := path_nil.1 hend
  rcases drafts_of_release hrelease.world with hkeep | hgone
  · exact ⟨⟨nothingAdded_of_dropped (hkeep ▸ Dropped.refl _), fun _ _ => hkeep ▸ rfl⟩,
      hkeep ▸ hkept⟩
  · have hdropped : Dropped s.world.drafts s₁.world.drafts :=
      hgone ▸ dropped_erase s.world.drafts changeSetId
    refine ⟨⟨nothingAdded_of_dropped hdropped, fun id hid => ?_⟩, hkept.dropped hdropped⟩
    rw [hgone, SortedMap.get?_erase_of_ne _ hid]

/-- **One call** does what it should and keeps the drafts few and apart. -/
theorem DraftCall.Ran.sound {s s' : Clocked C} {k : DraftCall} (h : k.Ran server s s')
    (hkept : DraftsKept s.world.drafts) : k.Sound server s s' ∧ DraftsKept s'.world.drafts := by
  cases k with
  | hold id draft result => exact h.sound_hold hkept
  | look changeSetId controller found => exact h.sound_look hkept
  | release changeSetId => exact h.sound_release hkept

/-! ## Sequences of calls -/

/-- A call in a sequence: the surroundings before it, the call, and the surroundings after it. -/
structure DraftTurn (C : Coordinator) where
  before : Clocked C
  call : DraftCall
  after : Clocked C

/-- Calls that run one after another, each draft being held under an id of its own. -/
inductive DraftRun (server : UnifiServer) (init : Clocked C) :
    List (DraftTurn C) → Clocked C → Prop where
  | start : DraftRun server init [] init
  | call {turns : List (DraftTurn C)} {s s' : Clocked C} {k : DraftCall}
      (before : DraftRun server init turns s) (ran : k.Ran server s s')
      (fresh : ∀ u ∈ turns, ∀ id ∈ k.newId, u.call.newId ≠ some id) :
      DraftRun server init (turns ++ [⟨s, k, s'⟩]) s'

/-- A draft that is held was held under its id in the run. -/
theorem DraftRun.newId_of_held {init s : Clocked C} {turns : List (DraftTurn C)}
    (hinit : init.world.drafts = .empty) (h : DraftRun server init turns s)
    (hsound : ∀ u ∈ turns, u.call.Sound server u.before u.after) :
    ∀ id d, s.world.drafts.get? id = some d → ∃ u ∈ turns, u.call.newId = some id := by
  induction h with
  | start =>
      intro id d hd
      rw [hinit] at hd
      cases hd
  | @call turns s s' k before ran fresh ih =>
      obtain ⟨hearlier, hlast⟩ := List.forall_mem_append.1 hsound
      have hlast := hlast _ (List.mem_singleton_self _)
      have hkept : ∀ id d, s.world.drafts.get? id = some d →
          ∃ u ∈ turns ++ [⟨s, k, s'⟩], u.call.newId = some id := fun id d hd => by
        obtain ⟨u, hu, hid⟩ := ih hearlier id d hd
        exact ⟨u, List.mem_append_left _ hu, hid⟩
      intro id d hd
      cases k with
      | hold id' draft result =>
          cases result with
          | error message => exact hkept id d (hlast.1 id d hd)
          | ok held =>
              by_cases hid : id = id'
              · exact ⟨_, List.mem_append_right _ (List.mem_singleton_self _),
                  congrArg some hid.symm⟩
              · exact hkept id d (hlast.2.1 id d hid hd)
      | look changeSetId controller found => exact hkept id d (hlast.2.1 id d hd)
      | release changeSetId => exact hkept id d (hlast.1 id d hd)

/-- **What every sequence of calls keeps of the drafts.**  There are never more than the bound and
never two of one owner on one controller; each call does what it should, and a draft that is held
is held under an id that no draft has. -/
theorem draftRun_sound {init s : Clocked C} {turns : List (DraftTurn C)}
    (hinit : init.world.drafts = .empty) (h : DraftRun server init turns s) :
    DraftsKept s.world.drafts ∧ ∀ u ∈ turns, DraftsKept u.after.world.drafts ∧
      u.call.Sound server u.before u.after ∧
      ∀ id ∈ u.call.newId, u.before.world.drafts.get? id = none := by
  induction h with
  | start => exact ⟨hinit ▸ draftsKept_empty, nofun⟩
  | @call turns s s' k before ran fresh ih =>
      obtain ⟨hkept, hturns⟩ := ih
      obtain ⟨hsound, hkept'⟩ := ran.sound hkept
      refine ⟨hkept', List.forall_mem_append.2 ⟨hturns, List.forall_mem_singleton.2
        ⟨hkept', hsound, fun id hid => ?_⟩⟩⟩
      rw [Option.eq_none_iff_forall_not_mem]
      intro d hd
      obtain ⟨u, hu, hnew⟩ := before.newId_of_held hinit (fun u hu => (hturns u hu).2.1) id d hd
      exact fresh u hu id hid hnew

/-! ## Drafts of one owner, until they lapse -/

/-- A draft of alice on `main`, made at a time. -/
def aliceDraft (created : Nat) : Draft := ⟨"main", "alice", "rename a zone", created⟩

/-- The clock at a time, with these drafts. -/
def atTime (now : Nat) (drafts : SortedMap String Draft) : Clocked MemoryStore.coordinator :=
  ⟨{ emptyWorld with drafts }, now⟩

section AtTime

variable {id : String} {draft : Draft} {now later : Nat} {drafts drafts' : SortedMap String Draft}

theorem clockStep_now (hnow : now ≤ later) (drafts : SortedMap String Draft) :
    ClockStep MemoryStore.coordinator (atTime now drafts) (nowEvent later)
      (atTime later drafts) := by
  refine ⟨rfl, hnow, ?_⟩
  rintro n ⟨⟩
  rfl

theorem clockStep_readDraft (hdraft : drafts.get? id = some draft) :
    ClockStep MemoryStore.coordinator (atTime later drafts) (readDraftEvent id (some draft))
      (atTime later drafts) :=
  ⟨⟨rfl, .inr hdraft.symm⟩, le_rfl, nofun⟩

theorem ran_hold {result : Except String Unit} (hnow : now ≤ later)
    (hheld : holdDraft drafts id draft later plainServer.approvalTtl = (result, drafts')) :
    (DraftCall.hold id draft result).Ran plainServer (atTime now drafts)
      (atTime later drafts') := by
  have hsets : ClockStep MemoryStore.coordinator (atTime now drafts)
      (coordinatorEvent .changeSets []) (atTime now drafts) := ⟨⟨rfl, rfl, rfl⟩, le_rfl, nofun⟩
  have hstep : ClockStep MemoryStore.coordinator (atTime later drafts)
      ⟨.holdDraft id draft later plainServer.approvalTtl, .ok result⟩ (atTime later drafts') :=
    ⟨⟨hheld.symm, rfl⟩, le_rfl, nofun⟩
  refine ⟨_, ⟨[], _, rfl, later, _, rfl, .ok result, _, rfl, ?_⟩,
    .cons hsets (.cons (clockStep_now hnow drafts) (.cons hstep .nil))⟩
  exact Fallible.gives_ofExcept.2 ⟨rfl, rfl⟩

theorem filter_controller (draft : Draft) :
    (some draft).filter (·.controller = draft.controller) = some draft := by
  simp

/-- A draft is found while it has not lapsed. -/
theorem ran_look (draft : Draft) (hnow : now ≤ later) (hdraft : drafts.get? id = some draft)
    (hlive : draft.LiveAt plainServer.approvalTtl later) :
    (DraftCall.look id draft.controller (some draft)).Ran plainServer (atTime now drafts)
      (atTime later drafts) := by
  refine ⟨_, Fallible.gives_ask_bind.2 ⟨later, _, rfl,
    Fallible.gives_ask_bind.2 ⟨some draft, _, rfl, ?_⟩⟩,
    .cons (clockStep_now hnow drafts) (.cons (clockStep_readDraft hdraft) .nil)⟩
  rw [filter_controller]
  dsimp only
  rw [if_neg (Nat.not_le_of_lt hlive)]
  exact Fallible.gives_pure.2 ⟨rfl, rfl⟩

/-- Once it has lapsed, looking it up lets it go. -/
theorem ran_look_lapsed (draft : Draft) (hnow : now ≤ later) (hdraft : drafts.get? id = some draft)
    (hlapsed : ¬ draft.LiveAt plainServer.approvalTtl later) :
    (DraftCall.look id draft.controller none).Ran plainServer (atTime now drafts)
      (atTime later (drafts.erase id)) := by
  have hrelease : ClockStep MemoryStore.coordinator (atTime later drafts)
      (releaseDraftEvent id) (atTime later (drafts.erase id)) := ⟨.inr rfl, le_rfl, nofun⟩
  refine ⟨_, Fallible.gives_ask_bind.2 ⟨later, _, rfl,
    Fallible.gives_ask_bind.2 ⟨some draft, _, rfl, ?_⟩⟩,
    .cons (clockStep_now hnow drafts) (.cons (clockStep_readDraft hdraft)
      (.cons hrelease .nil))⟩
  rw [filter_controller]
  dsimp only
  rw [if_pos (Nat.le_of_not_lt hlapsed)]
  exact Fallible.gives_ask_bind.2 ⟨(), _, rfl, Fallible.gives_pure.2 ⟨rfl, rfl⟩⟩

end AtTime

/-- The drafts when alice holds this one alone. -/
def aliceHolds (id : String) (created : Nat) : SortedMap String Draft :=
  SortedMap.empty.insert id (aliceDraft created)

/-- Why alice is refused a second draft. -/
def secondDraft : String :=
  "change set cs-1 on 'main' has nothing staged yet; stage into it or let it lapse before " ++
    "creating another"

/-- Alice holds a draft, is refused another one, and finds the first one until it lapses.  Then
she holds another, which is gone when she looks for it after its time. -/
def aliceTurns : List (DraftTurn MemoryStore.coordinator) :=
  [⟨atTime 0 .empty, .hold "cs-1" (aliceDraft 0) (.ok ()), atTime 5 (aliceHolds "cs-1" 0)⟩,
    ⟨atTime 5 (aliceHolds "cs-1" 0), .hold "cs-2" (aliceDraft 5) (.error secondDraft),
      atTime 10 (aliceHolds "cs-1" 0)⟩,
    ⟨atTime 10 (aliceHolds "cs-1" 0), .look "cs-1" "main" (some (aliceDraft 0)),
      atTime 3599 (aliceHolds "cs-1" 0)⟩,
    ⟨atTime 3599 (aliceHolds "cs-1" 0), .hold "cs-3" (aliceDraft 3600) (.ok ()),
      atTime 3600 (aliceHolds "cs-3" 3600)⟩,
    ⟨atTime 3600 (aliceHolds "cs-3" 3600), .look "cs-3" "main" none,
      atTime 7200 ((aliceHolds "cs-3" 3600).erase "cs-3")⟩]

theorem draftRun_aliceTurns : DraftRun plainServer (atTime 0 .empty) aliceTurns
    (atTime 7200 ((aliceHolds "cs-3" 3600).erase "cs-3")) := by
  have hheld : DraftRun plainServer (atTime 0 .empty) (aliceTurns.take 1)
      (atTime 5 (aliceHolds "cs-1" 0)) := .call .start (ran_hold (by decide) rfl) nofun
  have hrefused : DraftRun plainServer (atTime 0 .empty) (aliceTurns.take 2)
      (atTime 10 (aliceHolds "cs-1" 0)) := .call hheld (ran_hold (by decide) rfl) (by decide)
  have hfound : DraftRun plainServer (atTime 0 .empty) (aliceTurns.take 3)
      (atTime 3599 (aliceHolds "cs-1" 0)) :=
    .call hrefused (ran_look (aliceDraft 0) (by decide) rfl (by decide)) nofun
  have hagain : DraftRun plainServer (atTime 0 .empty) (aliceTurns.take 4)
      (atTime 3600 (aliceHolds "cs-3" 3600)) := .call hfound (ran_hold (by decide) rfl) (by decide)
  exact .call hagain (ran_look_lapsed (aliceDraft 3600) (by decide) rfl (by decide)) nofun

theorem draftRun_sound_alice :
    DraftsKept ((aliceHolds "cs-3" 3600).erase "cs-3") ∧
      ∀ u ∈ aliceTurns, DraftsKept u.after.world.drafts ∧
        u.call.Sound plainServer u.before u.after ∧
        ∀ id ∈ u.call.newId, u.before.world.drafts.get? id = none :=
  draftRun_sound rfl draftRun_aliceTurns

end UnifiMcp
