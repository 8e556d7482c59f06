import UnifiMcp.Changeset.Drift
import UnifiMcp.Client.Store
import UnifiMcp.Interaction.Turns

/-!
# Two applies at once

The stale check and the writes of `apply_sequentially` are separate requests, and nothing
holds the controller still between them.  Two runs whose checks both pass can therefore both
end `Applied` although the second wrote over what the first had written;
`not_loseNoUpdate` is such an interleaving.

A run loses no update as long as no other run changes a resource between the run's own
check of it and the run's update of it (`loseNoUpdate_of_unraced`).  Nothing is assumed about
the caches of the clients, which may or may not be shared.
-/

namespace UnifiMcp

open Interaction

/-- One call of `apply_sequentially` and what it reported. -/
structure ApplyCall where
  client : UnifiClient
  preimage : Preimage
  mutations : List StagedMutation
  outcome : Outcome

namespace ApplyCall

/-- The stale check of the call. -/
def check (call : ApplyCall) : Program ClientSig (Except UnifiError Bool) :=
  call.client.controllerOps (.preimageMatches call.preimage call.mutations)

/-- The call, carried out to its end. -/
def Follows (call : ApplyCall) (t : List (Event ClientSig)) : Prop :=
  (applyOver call.client call.preimage call.mutations).Runs t call.outcome

end ApplyCall

/-! ## Interleavings -/

/-- One question of a client, with what the controller holds before and after.  A question
that is not a request leaves it as it is. -/
def HeldStep (held : Key → Option Json) (e : Event ClientSig) (held' : Key → Option Json) :
    Prop :=
  match e with
  | ⟨.send request, answer⟩ => Sent ⟨held, none⟩ request answer ⟨held', none⟩
  | _ => held' = held

/-- It is what the controller's own steps do to the resources held. -/
theorem NetworkStep.held {s s' : Network} {e : Event ClientSig} (h : NetworkStep s e s') :
    HeldStep s.held e s'.held := by
  match e, h with
  | ⟨.send request, answer⟩, h =>
      have hsent : Sent s request answer s' := h
      show Sent ⟨s.held, none⟩ request answer ⟨s'.held, none⟩
      unfold Sent at hsent ⊢
      split_ifs at hsent ⊢
      · rcases hsent with ⟨response, hanswer, hstatus, hperforms, -⟩ | ⟨hstatus, rfl⟩
        · exact .inl ⟨response, hanswer, hstatus, hperforms, rfl⟩
        · exact .inr ⟨hstatus, rfl⟩
      · obtain ⟨rfl, hread⟩ := hsent
        exact ⟨rfl, hread⟩
  | ⟨.cachedSiteUuid, _⟩, h => exact congrArg Network.held h.1
  | ⟨.cacheSiteUuid _, .ok ()⟩, h =>
      show s'.held = s.held
      rw [show s' = _ from h]
  | ⟨.cacheSiteUuid _, .error _⟩, h => exact congrArg Network.held (show s' = s from h)
  | ⟨.cachedVersion, _⟩, h => exact congrArg Network.held (show s' = s from h)
  | ⟨.cacheVersion _, _⟩, h => exact congrArg Network.held (show s' = s from h)

/-- One event of one call, and what the controller held before and after. -/
abbrev ApplyTurn := Turn ClientSig (Key → Option Json)

/-- The calls were all carried out to their ends against one controller, their requests in
the order of `history`. -/
structure Interleaving (calls : List ApplyCall) (history : List ApplyTurn) : Prop where
  chained : ∃ held held', Chained HeldStep held history held'
  ran : ∀ u ∈ history, u.run < calls.length
  follows : ∀ (i : Nat) (call : ApplyCall), calls[i]? = some call →
    call.Follows (ownTrace i history)

/-- The event is a read of this resource. -/
def Reads (key : Key) (e : Event ClientSig) : Prop :=
  ∃ answer, IsRead key.1 key.2.1 key.2.2 answer e

/-- The event is an update of this resource that the controller performed. -/
def Updates (key : Key) (e : Event ClientSig) : Prop :=
  ∃ request response, e = sendEvent request (.ok response) ∧ request.method = .put ∧
    response.status < 300 ∧ request.At key

/-- The turn left something else at this place. -/
def ChangesAt (key : Key) (u : ApplyTurn) : Prop := u.after key ≠ u.before key

/-- Every value a call's update replaces is the one the call has in its pre-image, or one
that the call itself left there earlier. -/
def LoseNoUpdate (calls : List ApplyCall) (history : List ApplyTurn) : Prop :=
  ∀ earlier u later call key v, history = earlier ++ u :: later → calls[u.run]? = some call →
    Updates key u.event → u.before key = some v →
    call.preimage.getResource key.2.2 = some v ∨
      ∃ w ∈ earlier, w.run = u.run ∧ ChangesAt key w ∧ w.after key = some v

/-- Before each update the call's own stale check has read that resource, and no other call
has changed it since. -/
def Undisturbed (calls : List ApplyCall) (history : List ApplyTurn) : Prop :=
  ∀ earlier u later call key, history = earlier ++ u :: later → calls[u.run]? = some call →
    Updates key u.event →
    ∃ first read since, earlier = first ++ read :: since ∧ read.run = u.run ∧
      call.check.Begins (ownTrace u.run first ++ [read.event]) ∧ Reads key read.event ∧
      ∀ w ∈ since, w.run ≠ u.run → ¬ ChangesAt key w

/-! ## What a passed check has seen -/

/-- A request at another path than that of a resource. -/
def ClientOp.NotAt : ClientOp → Prop
  | .send request => ∀ key, ¬ request.At key
  | _ => True

theorem ClientOp.IsVersion.notAt {op : ClientOp} (h : op.IsVersion) : op.NotAt := by
  match op, h with
  | .send request, h =>
      intro key hkey
      have hparams := h.2.2.symm.trans hkey.2
      cases hparams
  | .cachedVersion, _ | .cacheVersion _, _ => trivial

theorem UnifiClient.notAt_defaultSiteFor (c : UnifiClient) (surface : ApiSurface) :
    (c.defaultSiteFor surface).Asks ClientOp.NotAt := by
  refine asks_defaultSiteFor_of trivial (fun _ => trivial) ?_
  refine asks_request (fun path key hkey => ?_) fun _ hop => hop.notAt
  have hparams : ([] : List (String × String)) = _ := hkey.2
  cases hparams

/-- What a check that passed read of a resource is what its pre-image has, so that the
controller held it then. -/
theorem held_of_check {c : UnifiClient} {preimage : Preimage} {mutations : List StagedMutation}
    {t : List (Event ClientSig)}
    (h : (c.controllerOps (.preimageMatches preimage mutations)).Runs t (.ok true))
    {e : Event ClientSig} (he : e ∈ t) {key : Key} (hkey : Reads key e)
    {held : Key → Option Json} (hread : ReadsFrom (fun k site id => held (k, site, id)) e) :
    ∃ v, preimage.getResource key.2.2 = some v ∧ held key = some v := by
  obtain ⟨u, hu, hexp⟩ := (Program.runs_interpret _).1 h
  obtain ⟨fetched, hmem, t', hrun, he'⟩ := hexp.exists_of_mem he
  obtain ⟨v, hv, hanswer⟩ := (gives_preimageMatches_true.1 hu).of_mem hmem
  have hfetch : (c.fetchResource fetched.op.kind fetched.op.id).Gives t' (.ok (some v)) := by
    rw [← hanswer]
    exact hrun
  obtain ⟨k, t₁, t₂, site, -, rfl, hsite, hfound | ⟨_, _, _, hnone⟩⟩ :=
    UnifiClient.gives_fetchResource_ok hfetch
  · obtain ⟨raw, items, hget, hitems, hhead⟩ := hfound
    obtain ⟨path, response, -, -, hstatus, hjson, rfl⟩ := UnifiClient.gives_request_ok hget
    obtain ⟨answer, request, rfl, hmethod, htemplate, hparams⟩ := hkey
    have hat : request.At key := ⟨htemplate, hparams⟩
    rcases List.mem_append.1 he' with he' | he'
    · exact absurd hat ((c.notAt_defaultSiteFor k.surface).of_mem hsite _ he' key)
    · cases List.mem_singleton.1 he'
      obtain rfl : key = (k, site, fetched.op.id) := hat.unique ⟨rfl, rfl⟩
      refine ⟨v, hv, ?_⟩
      have hheld : items.head? = held (k, site, fetched.op.id) :=
        hread k site fetched.op.id response raw items ⟨_, rfl, rfl, rfl, rfl⟩ hstatus hjson hitems
      rw [← hheld, ← hhead]
  · cases hnone

/-- The stale check writes nothing. -/
theorem ApplyCall.asks_check (call : ApplyCall) : call.check.Asks ClientOp.Quiet :=
  Program.Asks.interpret (asks_preimageMatches call.preimage call.mutations) fun op _ =>
    UnifiClient.asks_fetchResource op.kind op.id

theorem Updates.not_quiet {key : Key} {e : Event ClientSig} (h : Updates key e) :
    ¬ ClientOp.Quiet e.op := by
  obtain ⟨request, response, rfl, hmethod, -⟩ := h
  intro hquiet
  have hread : request.method.isWrite = false := hquiet
  rw [hmethod] at hread
  cases hread

/-- A call that updates anything has passed its check before. -/
theorem ApplyCall.Follows.check_passed {call : ApplyCall} {t : List (Event ClientSig)}
    (h : call.Follows t) {key : Key} {e : Event ClientSig} (he : e ∈ t)
    (hupdates : Updates key e) :
    ∃ t₁ t₂, t = t₁ ++ t₂ ∧ call.check.Runs t₁ (.ok true) := by
  obtain ⟨u, hu, hexp⟩ := (Program.runs_interpret _).1 h
  have hpassed : ∀ rest r, u = ⟨.preimageMatches call.preimage call.mutations, r⟩ :: rest →
      r = .ok true → ∃ t₁ t₂, t = t₁ ++ t₂ ∧ call.check.Runs t₁ (.ok true) := by
    rintro rest r rfl rfl
    cases hexp with
    | cons head tail => exact ⟨_, _, rfl, head⟩
  have hways := applyRun_of_runs hu
  generalize call.outcome = outcome at hways
  cases hways with
  | refused r stale =>
      -- Then the check is all there was.
      cases hexp with
      | cons head tail =>
          cases tail
          rw [List.append_nil] at he
          exact absurd (call.asks_check.of_mem head e he) hupdates.not_quiet
  | written done whole verified => exact hpassed _ _ rfl rfl
  | failed done m rest e split rollback failures rolled => exact hpassed _ _ rfl rfl

/-! ## Runs that do not race -/

/-- A read leaves what is held as it is, and tells the truth about it. -/
theorem Reads.truthful {key : Key} {e : Event ClientSig} {held held' : Key → Option Json}
    (h : Reads key e) (hstep : HeldStep held e held') :
    held' = held ∧ ReadsFrom (fun k site id => held (k, site, id)) e := by
  obtain ⟨answer, request, rfl, hmethod, -, -⟩ := h
  have hsent : Sent ⟨held, none⟩ request answer ⟨held', none⟩ := hstep
  rw [Sent, hmethod, if_neg (by decide)] at hsent
  exact ⟨congrArg Network.held hsent.1, hsent.2⟩

variable {calls : List ApplyCall} {history : List ApplyTurn}

/-- **No update is lost unless there is a race.**  If before each update of each call no other
call has changed the resource since the call's own check read it, every value an update
replaces is the one in the call's pre-image or one the call had left there itself. -/
theorem loseNoUpdate_of_unraced (h : Interleaving calls history)
    (hundisturbed : Undisturbed calls history) : LoseNoUpdate calls history := by
  intro earlier u later call key v hsplit hcall hupdates hheld
  obtain ⟨first, read, since, rfl, hrun, hbegins, hreads, hothers⟩ :=
    hundisturbed earlier u later call key hsplit hcall hupdates
  -- The check that read the resource passed.
  have hown : ownTrace u.run history =
      (ownTrace u.run first ++ [read.event]) ++
        (ownTrace u.run since ++ ownTrace u.run (u :: later)) := by
    rw [hsplit, ownTrace_append, ownTrace_append, ← hrun, ownTrace_cons_self]
    simp
  have hmem : u.event ∈ ownTrace u.run history :=
    mem_ownTrace (by rw [hsplit]; simp)
  obtain ⟨t₁, t₂, htrace, hcheck⟩ := (h.follows _ _ hcall).check_passed hmem hupdates
  have hread : read.event ∈ t₁ :=
    (hcheck.prefix_of_begins hbegins (htrace.symm.trans hown)).subset (by simp)
  -- So it saw what the pre-image has.
  obtain ⟨held, held', hchained⟩ := h.chained
  rw [hsplit, List.append_assoc, chained_append] at hchained
  obtain ⟨held₁, -, hchained⟩ := hchained
  rw [List.cons_append, chained_cons, chained_append] at hchained
  obtain ⟨-, hstep, held₂, hsince, hlast⟩ := hchained
  obtain ⟨rfl, -, -⟩ := chained_cons.1 hlast
  obtain ⟨hsame, htruth⟩ := hreads.truthful hstep
  obtain ⟨recorded, hrecorded, hbefore⟩ := held_of_check hcheck hread hreads htruth
  -- What is there now is that, or what this call has made of it.
  by_cases hkept : u.before key = read.after key
  · left
    rw [hrecorded, ← hbefore, ← hsame, ← hkept, hheld]
  · right
    obtain ⟨w, hw, hchanges, hvalue⟩ := exists_lastChange hsince (fun held => held key) hkept
    refine ⟨w, by simp [hw], ?_, hchanges, hvalue.trans hheld⟩
    by_contra hother
    exact hothers w hw hother hchanges

/-! ## Two calls that move one network -/

/-- The network on another VLAN. -/
def movedTo (vlan : UInt64) : Json :=
  .obj [("_id", .str "n1"), ("name", .str "lan"), ("vlan", .num (.posInt vlan))]

/-- The place of the network. -/
def lanKey : Key := (.network, "default", "n1")

/-- A controller that holds the network, as it is, and nothing else. -/
def lanHeld (v : Json) : Key → Option Json := Function.update (fun _ => none) lanKey (some v)

theorem lanHeld_self (v : Json) : lanHeld v lanKey = some v := by
  rw [lanHeld, Function.update_self]

/-- Moving the network to a VLAN, planned when it was `seen`, and applied. -/
def moveCall (vlan : UInt64) (seen : Json) : ApplyCall where
  client := lanClient
  preimage := .fromResources [seen]
  mutations := [.update "network" "n1" (movedTo vlan)]
  outcome := ⟨.applied, [.update "network" "n1" (movedTo vlan)], [], [], [], [], none⟩

/-- The update of the network. -/
def lanWrite (body : Json) : Event ClientSig :=
  sendEvent (UnifiClient.requestOf lanClient .put ResourceKind.network.singleResourceTemplate
    [("site", "default"), ("id", "n1")] [] (some body)
    "/proxy/network/api/s/default/rest/networkconf/n1")
    (.ok ⟨200, "", .ok (.obj [("data", .arr [])])⟩)

/-- A turn of one of the calls. -/
def lanTurn (run : Nat) (event : Event ClientSig) (before after : Json) : ApplyTurn :=
  ⟨run, event, lanHeld before, lanHeld after⟩

theorem heldStep_lanRead (v : Json) : HeldStep (lanHeld v) (lanRead v) (lanHeld v) := by
  refine ⟨rfl, ?_⟩
  rintro k site id response raw items ⟨request, heq, -, htemplate, hparams⟩ - hjson hitems
  have hat : request.At (k, site, id) := ⟨htemplate, hparams⟩
  cases heq
  have hkey : ((k, site, id) : Key) = lanKey := hat.unique ⟨rfl, rfl⟩
  obtain ⟨rfl, -⟩ := Prod.mk.inj hkey
  cases hjson
  cases hitems
  show some v = lanHeld v (_, site, id)
  rw [hkey, lanHeld_self]

theorem heldStep_lanWrite (v body : Json) : HeldStep (lanHeld v) (lanWrite body) (lanHeld body) :=
  .inl ⟨_, rfl, by decide, ⟨lanKey, body, ⟨rfl, rfl⟩, rfl, (Function.update_idem _ _ _).symm⟩, rfl⟩

/-- A read is a turn. -/
theorem chained_lanRead {run : Nat} {v : Json} {rest : List ApplyTurn}
    {held : Key → Option Json} (h : Chained HeldStep (lanHeld v) rest held) :
    Chained HeldStep (lanHeld v) (lanTurn run (lanRead v) v v :: rest) held :=
  chained_cons.2 ⟨rfl, heldStep_lanRead v, h⟩

/-- An update is a turn. -/
theorem chained_lanWrite {run : Nat} {v body : Json} {rest : List ApplyTurn}
    {held : Key → Option Json} (h : Chained HeldStep (lanHeld body) rest held) :
    Chained HeldStep (lanHeld v) (lanTurn run (lanWrite body) v body :: rest) held :=
  chained_cons.2 ⟨rfl, heldStep_lanWrite v body, h⟩

theorem follows_moveCall_lan (vlan : UInt64) : (moveCall vlan lan).Follows
    [lanRead lan, lanWrite (movedTo vlan), lanRead (movedTo vlan)] :=
  ⟨_, _, rfl, _, _, rfl, _, _, rfl, rfl, rfl⟩

theorem follows_moveCall_moved : (moveCall 30 (movedTo 20)).Follows
    [lanRead (movedTo 20), lanWrite (movedTo 30), lanRead (movedTo 30)] :=
  ⟨_, _, rfl, _, _, rfl, _, _, rfl, rfl, rfl⟩

/-- One call after the other, the second planned on what the first had left. -/
def inTurnHistory : List ApplyTurn :=
  [lanTurn 0 (lanRead lan) lan lan, lanTurn 0 (lanWrite (movedTo 20)) lan (movedTo 20),
    lanTurn 0 (lanRead (movedTo 20)) (movedTo 20) (movedTo 20),
    lanTurn 1 (lanRead (movedTo 20)) (movedTo 20) (movedTo 20),
    lanTurn 1 (lanWrite (movedTo 30)) (movedTo 20) (movedTo 30),
    lanTurn 1 (lanRead (movedTo 30)) (movedTo 30) (movedTo 30)]

/-- Both checks before both updates. -/
def racedHistory : List ApplyTurn :=
  [lanTurn 0 (lanRead lan) lan lan, lanTurn 1 (lanRead lan) lan lan,
    lanTurn 0 (lanWrite (movedTo 20)) lan (movedTo 20),
    lanTurn 0 (lanRead (movedTo 20)) (movedTo 20) (movedTo 20),
    lanTurn 1 (lanWrite (movedTo 30)) (movedTo 20) (movedTo 30),
    lanTurn 1 (lanRead (movedTo 30)) (movedTo 30) (movedTo 30)]

theorem interleaving_inTurn :
    Interleaving [moveCall 20 lan, moveCall 30 (movedTo 20)] inTurnHistory := by
  refine ⟨⟨lanHeld lan, lanHeld (movedTo 30), ?_⟩, by simp [inTurnHistory, lanTurn], ?_⟩
  · exact chained_lanRead (chained_lanWrite (chained_lanRead
      (chained_lanRead (chained_lanWrite (chained_lanRead (.nil _))))))
  · intro i call hcall
    match i, hcall with
    | 0, rfl => exact follows_moveCall_lan 20
    | 1, rfl => exact follows_moveCall_moved

theorem interleaving_raced :
    Interleaving [moveCall 20 lan, moveCall 30 lan] racedHistory := by
  refine ⟨⟨lanHeld lan, lanHeld (movedTo 30), ?_⟩, by simp [racedHistory, lanTurn], ?_⟩
  · exact chained_lanRead (chained_lanRead (chained_lanWrite (chained_lanRead
      (chained_lanWrite (chained_lanRead (.nil _))))))
  · intro i call hcall
    match i, hcall with
    | 0, rfl => exact follows_moveCall_lan 20
    | 1, rfl => exact follows_moveCall_lan 30

/-- A read is not an update. -/
theorem not_updates_lanRead (key : Key) (v : Json) : ¬ Updates key (lanRead v) := by
  rintro ⟨request, response, heq, hmethod, -⟩
  cases heq
  cases hmethod

theorem updates_lanWrite {key : Key} {body : Json} :
    Updates key (lanWrite body) ↔ key = lanKey := by
  constructor
  · rintro ⟨request, response, heq, -, -, hat⟩
    cases heq
    exact hat.unique ⟨rfl, rfl⟩
  · rintro rfl
    exact ⟨_, _, rfl, rfl, by decide, rfl, rfl⟩

theorem reads_lanRead (v : Json) : Reads lanKey (lanRead v) := ⟨_, _, rfl, rfl, rfl, rfl⟩

theorem undisturbed_inTurn :
    Undisturbed [moveCall 20 lan, moveCall 30 (movedTo 20)] inTurnHistory := by
  intro earlier u later call key hsplit hcall hupdates
  unfold inTurnHistory at hsplit
  rcases earlier with _ | ⟨t₀, _ | ⟨t₁, _ | ⟨t₂, _ | ⟨t₃, _ | ⟨t₄, _ | ⟨t₅, rest⟩⟩⟩⟩⟩⟩ <;>
    simp only [List.nil_append, List.cons_append, List.cons.injEq] at hsplit
  · obtain ⟨rfl, -⟩ := hsplit
    exact absurd hupdates (not_updates_lanRead _ _)
  · obtain ⟨rfl, rfl, -⟩ := hsplit
    cases hcall
    obtain rfl := updates_lanWrite.1 hupdates
    exact ⟨[], _, [], rfl, rfl, ⟨_, rfl, trivial⟩, reads_lanRead _, by simp⟩
  · obtain ⟨-, -, rfl, -⟩ := hsplit
    exact absurd hupdates (not_updates_lanRead _ _)
  · obtain ⟨-, -, -, rfl, -⟩ := hsplit
    exact absurd hupdates (not_updates_lanRead _ _)
  · obtain ⟨rfl, rfl, rfl, rfl, rfl, -⟩ := hsplit
    cases hcall
    obtain rfl := updates_lanWrite.1 hupdates
    exact ⟨[_, _, _], _, [], rfl, rfl, ⟨_, rfl, trivial⟩, reads_lanRead _, by simp⟩
  · obtain ⟨-, -, -, -, -, rfl, -⟩ := hsplit
    exact absurd hupdates (not_updates_lanRead _ _)
  · simp at hsplit

/-- Two calls, one after the other. -/
theorem loseNoUpdate_of_unraced_inTurn :
    LoseNoUpdate [moveCall 20 lan, moveCall 30 (movedTo 20)] inTurnHistory :=
  loseNoUpdate_of_unraced interleaving_inTurn undisturbed_inTurn

/-- **Two calls that both end `Applied` can lose an update.**  Both were checked before
either wrote, and the second wrote over what the first had written. -/
theorem not_loseNoUpdate :
    ¬ ∀ first second history, Interleaving [first, second] history →
      (∃ kind id body body', .update kind id body ∈ first.mutations ∧
        .update kind id body' ∈ second.mutations) →
      first.outcome.state = .applied → second.outcome.state = .applied →
      LoseNoUpdate [first, second] history := by
  intro h
  have hlost := h (moveCall 20 lan) (moveCall 30 lan) racedHistory interleaving_raced
    ⟨"network", "n1", movedTo 20, movedTo 30, by simp [moveCall], by simp [moveCall]⟩ rfl rfl
    (racedHistory.take 4) (lanTurn 1 (lanWrite (movedTo 30)) (movedTo 20) (movedTo 30))
    (racedHistory.drop 5) (moveCall 30 lan) lanKey (movedTo 20) rfl rfl (updates_lanWrite.2 rfl)
    (lanHeld_self _)
  rcases hlost with hrecorded | ⟨w, hw, hrun, hchanges, -⟩
  · cases hrecorded
  · -- The second call has only read.
    have hread : ∀ w ∈ racedHistory.take 4, w.run = 1 → ¬ ChangesAt lanKey w := by
      simp [racedHistory, lanTurn, ChangesAt]
    exact hread w hw hrun hchanges

end UnifiMcp
