import UnifiMcp.Changeset.Checks
import UnifiMcp.Changeset.Record
import UnifiMcp.Client.Serving

/-!
# What the stale check notices

A pre-image is captured from the controller, stored with the plan, rebuilt from the
stored actions, and compared with the controller again before anything is written.
These are four paths through the same data: capture and re-fetch each take apart the
answer of a surface in their own code, and the rebuilt pre-image is looked up by id
alone.  `preimageMatches_rebuilt_iff` says that together they decide whether each
resource of the plan is what it was.
-/

namespace UnifiMcp

open Interaction

/-- The resources of the client's site, by kind and id. -/
abbrev SiteState := ResourceKind → String → Option Json

/-- The resources of the client's site as what a controller holds. -/
def SiteState.held (s : SiteState) : Holdings := fun k _ id => s k id

/-- The value of the resource a mutation addresses, if its kind is one. -/
def SiteState.valueOf (s : SiteState) (target : String × String) : Option Json :=
  (ResourceKind.ofName? target.1).bind fun k => s k target.2

theorem SiteState.valueOf_name (s : SiteState) (k : ResourceKind) (id : String) :
    s.valueOf (k.name, id) = s k id := by
  rw [valueOf, ResourceKind.ofName?_eq_some.2 rfl, Option.bind_some]

/-- No id is used under two kinds. -/
def OneKindPerId (mutations : List StagedMutation) : Prop :=
  ∀ m ∈ mutations, ∀ m' ∈ mutations, ∀ kind kind' id,
    m.target = some (kind, id) → m'.target = some (kind', id) → kind = kind'

/-- Each addressed resource is an object that carries its own id. -/
def SelfNamed (s : SiteState) (mutations : List StagedMutation) : Prop :=
  ∀ m ∈ mutations, ∀ target v, m.target = some target → s.valueOf target = some v →
    v.isObject ∧ v.getStr? "_id" = some target.2

/-! ## Capture -/

/-- Capture takes the first item of an answer, as a re-fetch does. -/
theorem extractResource_ok {surface : ApiSurface} {kind id : String} {raw v : Json}
    (h : Preimage.extractResource surface kind id raw = .ok v) :
    ∃ items, fetchedItems surface raw = .ok items ∧ items.head? = some v := by
  cases surface with
  | cloud => cases h
  | privateV2 =>
      cases raw with
      | arr items =>
          cases items with
          | nil => cases h
          | cons item rest =>
              cases h
              exact ⟨_, rfl, rfl⟩
      | obj fields =>
          cases h
          exact ⟨_, rfl, rfl⟩
      | null | bool b | num n | str s => cases h
  | supported | privateV1 =>
      unfold Preimage.extractResource at h
      cases hitems : unwrapEnvelopedData raw with
      | error e =>
          rw [hitems] at h
          cases h
      | ok items =>
          rw [hitems] at h
          cases items with
          | nil => cases h
          | cons item rest =>
              cases h
              exact ⟨_, hitems, rfl⟩

/-- An entry that was captured is what the controller held. -/
theorem captureResource_ok {c : UnifiClient} {s : SiteState} {kind id : String} {v : Json}
    {t : List (Event ClientSig)} (h : (Preimage.captureResource c kind id).Gives t (.ok v))
    (hread : ∀ e ∈ t, ReadsFrom s.held e) : s.valueOf (kind, id) = some v := by
  obtain ⟨t₁, t', k, rfl, hkind, h₁⟩ := Fallible.gives_bind_ok.1 h
  obtain ⟨rfl, hparse⟩ := Fallible.gives_ofExcept.1 hkind
  obtain ⟨t₂, t'', site, rfl, hsite, h₂⟩ := Fallible.gives_bind_ok.1 h₁
  obtain ⟨t₃, t₆, answer, rfl, hattempt, h₃⟩ := Fallible.gives_bind_ok.1 h₂
  obtain ⟨answer', hget, ha⟩ := Fallible.gives_attempt.1 hattempt
  cases ha
  obtain ⟨t₄, t₅, raw, rfl, hraw, h₄⟩ := Fallible.gives_bind_ok.1 h₃
  obtain ⟨rfl, hanswer⟩ := Fallible.gives_ofExcept.1 hraw
  obtain ⟨rfl, hextract⟩ := Fallible.gives_ofExcept.1 h₄
  have hname : k.name = kind := UnifiClient.name_of_parse hparse
  have hok : answer = .ok raw := by
    cases answer with
    | error e => cases hanswer
    | ok raw' =>
        cases hanswer
        rfl
  subst hname hok
  obtain ⟨items, hitems, hhead⟩ := extractResource_ok hextract
  have hget : (UnifiClient.getOne c k site id).Gives t₃ (.ok raw) := hget
  rw [SiteState.valueOf_name, ← hhead]
  exact (UnifiClient.getOne_ok hget (fun e he => hread e (by simp [he])) hitems).symm

/-- The entries of a capture are the values held for the plan's targets, in plan order. -/
theorem captureEntries_ok {c : UnifiClient} {s : SiteState} {mutations : List StagedMutation}
    {data : List Json} {t : List (Event ClientSig)}
    (h : (Preimage.captureEntries c mutations).Gives t (.ok data))
    (hread : ∀ e ∈ t, ReadsFrom s.held e) :
    (mutations.filterMap StagedMutation.target).map s.valueOf = data.map some := by
  induction mutations generalizing t data with
  | nil =>
      obtain ⟨-, hdata⟩ := Fallible.gives_pure.1 h
      cases hdata
      rfl
  | cons m rest ih =>
      have hstep : ∀ kind id, (do
            let resource ← Preimage.captureResource c kind id
            let data ← Preimage.captureEntries c rest
            pure (resource :: data) : ClientM (List Json)).Gives t (.ok data) →
          s.valueOf (kind, id) ::
            (rest.filterMap StagedMutation.target).map s.valueOf = data.map some := by
        intro kind id h
        obtain ⟨t₁, t', resource, rfl, hresource, h₁⟩ := Fallible.gives_bind_ok.1 h
        obtain ⟨t₂, t₃, data', rfl, hdata, h₂⟩ := Fallible.gives_bind_ok.1 h₁
        obtain ⟨rfl, heq⟩ := Fallible.gives_pure.1 h₂
        cases heq
        rw [captureResource_ok hresource fun e he => hread e (by simp [he]),
          ih hdata fun e he => hread e (by simp [he])]
        rfl
      cases m with
      | create kind body | restore backupId => exact ih h hread
      | update kind id body | delete kind id => exact hstep kind id h

/-! ## Looking up by id -/

/-- If the only entry carrying an id is `v`, looking the id up gives `v`. -/
theorem getResource_of_unique {preimage : Preimage} {id : String} {v : Json}
    (hmem : v ∈ preimage.entries) (hid : v.getStr? "_id" = some id)
    (hunique : ∀ d ∈ preimage.entries, d.getStr? "_id" = some id → d = v) :
    preimage.getResource id = some v := by
  have hsome : (preimage.getResource id).isSome := by
    rw [Preimage.getResource, List.find?_isSome]
    exact ⟨v, hmem, by simpa using hid⟩
  obtain ⟨d, hd⟩ := Option.isSome_iff_exists.1 hsome
  have hdmem : d ∈ preimage.entries := List.mem_of_find?_eq_some hd
  rw [hd, hunique d hdmem (Preimage.getResource_id hd)]

/-- The entries of a pre-image are the values of a plan's targets. -/
structure SnapshotOf (s : SiteState) (mutations : List StagedMutation) (preimage : Preimage) :
    Prop where
  sound : ∀ d ∈ preimage.entries, ∃ m ∈ mutations, ∃ target,
    m.target = some target ∧ s.valueOf target = some d
  complete : ∀ m ∈ mutations, ∀ target, m.target = some target →
    ∃ d ∈ preimage.entries, s.valueOf target = some d

variable {s s' : SiteState} {mutations : List StagedMutation} {preimage : Preimage}

/-- In a snapshot, each id of the plan looks up the value of its resource. -/
theorem SnapshotOf.getResource (h : SnapshotOf s mutations preimage)
    (hkinds : OneKindPerId mutations) (hself : SelfNamed s mutations) {m : StagedMutation}
    (hm : m ∈ mutations) {kind id : String} (htarget : m.target = some (kind, id)) :
    ∃ v, s.valueOf (kind, id) = some v ∧ preimage.getResource id = some v := by
  obtain ⟨v, hv, hvalue⟩ := h.complete m hm _ htarget
  refine ⟨v, hvalue, getResource_of_unique hv (hself m hm _ v htarget hvalue).2 ?_⟩
  intro d hd hid
  obtain ⟨m', hm', ⟨kind', id'⟩, htarget', hvalue'⟩ := h.sound d hd
  have hid' : id' = id := by
    have hown := (hself m' hm' _ d htarget' hvalue').2
    rw [hid] at hown
    exact (Option.some.inj hown).symm
  subst hid'
  have hkind : kind' = kind := hkinds m' hm' m hm kind' kind id' htarget' htarget
  subst hkind
  exact Option.some.inj (hvalue'.symm.trans hvalue)

/-- What was captured is a snapshot. -/
theorem snapshotOf_capture {c : UnifiClient} {t : List (Event ClientSig)}
    (h : (Preimage.capturePreimage c mutations).Gives t (.ok preimage))
    (hread : ∀ e ∈ t, ReadsFrom s.held e) : SnapshotOf s mutations preimage := by
  obtain ⟨t₁, t₂, data, rfl, hdata, hpure⟩ := Fallible.gives_bind_ok.1 h
  obtain ⟨rfl, heq⟩ := Fallible.gives_pure.1 hpure
  cases heq
  have hmap := captureEntries_ok hdata fun e he => hread e (List.mem_append_left _ he)
  refine ⟨?_, ?_⟩
  · intro d hd
    have hmem : some d ∈ (mutations.filterMap StagedMutation.target).map s.valueOf := by
      rw [hmap]
      exact List.mem_map_of_mem hd
    obtain ⟨target, htarget, hvalue⟩ := List.mem_map.1 hmem
    obtain ⟨m, hm, hmt⟩ := List.mem_filterMap.1 htarget
    exact ⟨m, hm, target, hmt, hvalue⟩
  · intro m hm target htarget
    have hmem : s.valueOf target ∈ data.map some := by
      rw [← hmap]
      exact List.mem_map_of_mem (List.mem_filterMap.2 ⟨m, hm, htarget⟩)
    obtain ⟨d, hd, hvalue⟩ := List.mem_map.1 hmem
    exact ⟨d, hd, hvalue.symm⟩

/-- The pre-image rebuilt from stored actions is a snapshot when the stored one was. -/
theorem SnapshotOf.rebuilt (h : SnapshotOf s mutations preimage)
    (hkinds : OneKindPerId mutations) (hself : SelfNamed s mutations) :
    SnapshotOf s mutations (.fromResources (mutations.filterMap fun m =>
      StagedAction.nonNull (m.resourceId.bind preimage.getResource))) := by
  have hentry : ∀ m ∈ mutations, ∀ target, m.target = some target →
      StagedAction.nonNull (m.resourceId.bind preimage.getResource) = s.valueOf target := by
    rintro m hm ⟨kind, id⟩ htarget
    obtain ⟨v, hvalue, hget⟩ := h.getResource hkinds hself hm htarget
    obtain ⟨fields, rfl⟩ := Json.isObject_iff.1 (hself m hm _ v htarget hvalue).1
    rw [StagedMutation.resourceId_eq_target, htarget, hvalue, Option.map_some, Option.bind_some,
      hget]
    rfl
  refine ⟨?_, ?_⟩
  · intro d hd
    rw [Preimage.entries_fromResources] at hd
    obtain ⟨m, hm, hmd⟩ := List.mem_filterMap.1 hd
    cases htarget : m.target with
    | none =>
        rw [StagedMutation.resourceId_eq_target, htarget] at hmd
        cases hmd
    | some target => exact ⟨m, hm, target, htarget, (hentry m hm target htarget).symm.trans hmd⟩
  · intro m hm target htarget
    obtain ⟨d, -, hvalue⟩ := h.complete m hm target htarget
    refine ⟨d, ?_, hvalue⟩
    rw [Preimage.entries_fromResources]
    exact List.mem_filterMap.2 ⟨m, hm, (hentry m hm target htarget).trans hvalue⟩

/-! ## The check -/

/-- A resource the plan updates or deletes. -/
def IsTarget (mutations : List StagedMutation) (op : FetchOp) : Prop :=
  ∃ m ∈ mutations, m.target = some (op.kind, op.id)

/-- The stale check reads targets of the plan only. -/
theorem asks_preimageMatches (preimage : Preimage) (mutations : List StagedMutation) :
    (preimageMatches preimage mutations).Asks (IsTarget mutations) := by
  induction mutations with
  | nil => exact Fallible.asks_pure _
  | cons m rest ih =>
      have hrest : (preimageMatches preimage rest).Asks (IsTarget (m :: rest)) := by
        refine ih.mono fun op hop => ?_
        obtain ⟨m', hm', htarget⟩ := hop
        exact ⟨m', List.mem_cons_of_mem _ hm', htarget⟩
      cases m with
      | create kind body | restore backupId => exact hrest
      | update kind id body | delete kind id =>
          rw [preimageMatches]
          cases preimage.getResource id with
          | none => exact Fallible.asks_pure _
          | some recorded =>
              refine Fallible.Asks.bind ⟨⟨_, List.mem_cons_self, rfl⟩, fun _ => trivial⟩ ?_
              rintro (_ | live)
              · exact Fallible.asks_pure _
              · dsimp only
                split_ifs
                · exact hrest
                · exact Fallible.asks_pure _

/-- With every read answered truthfully, the check passes exactly when each target still
has its value. -/
theorem preimageMatches_result {u : List (Event FetchSig)} {r : Except UnifiError Bool}
    (hu : (preimageMatches preimage mutations).Gives u r)
    (hlookup : ∀ m ∈ mutations, ∀ kind id, m.target = some (kind, id) →
      ∃ v, s.valueOf (kind, id) = some v ∧ preimage.getResource id = some v)
    (hreads : ∀ e ∈ u, e.answer = .ok (s'.valueOf (e.op.kind, e.op.id))) :
    ∃ b, r = .ok b ∧ (b = true ↔ ∀ m ∈ mutations, ∀ target, m.target = some target →
      s'.valueOf target = s.valueOf target) := by
  induction mutations generalizing u with
  | nil =>
      obtain ⟨-, rfl⟩ := Fallible.gives_pure.1 hu
      exact ⟨true, rfl, by simp⟩
  | cons m rest ih =>
      have ih := fun u hu => @ih u hu
        (fun m' hm' => hlookup m' (List.mem_cons_of_mem _ hm'))
      cases htarget : m.target with
      | none =>
          rw [preimageMatches_none htarget] at hu
          obtain ⟨b, rfl, hb⟩ := ih u hu hreads
          refine ⟨b, rfl, hb.trans ?_⟩
          simp [htarget]
      | some target =>
          obtain ⟨kind, id⟩ := target
          obtain ⟨v, hvalue, hget⟩ := hlookup m List.mem_cons_self kind id htarget
          rw [gives_preimageMatches_target htarget, hget] at hu
          obtain ⟨ans, tail, rfl, hrest⟩ := hu
          have hans : ans = .ok (s'.valueOf (kind, id)) := hreads _ List.mem_cons_self
          subst hans
          dsimp only at hrest
          split_ifs at hrest with hsame
          · obtain ⟨b, rfl, hb⟩ := ih tail hrest fun e he => hreads e (List.mem_cons_of_mem _ he)
            refine ⟨b, rfl, hb.trans ?_⟩
            have hkeep : s'.valueOf (kind, id) = s.valueOf (kind, id) := hsame.trans hvalue.symm
            simp [htarget, hkeep]
          · obtain ⟨-, rfl⟩ := hrest
            refine ⟨false, rfl, ?_⟩
            have hdrift : ¬ s'.valueOf (kind, id) = s.valueOf (kind, id) := by
              rw [hvalue]
              exact hsame
            simp [htarget, hdrift]

/-- The reads of a plan's resources over a controller in state `s` that can be fetched:
its answers tell the truth, and `fetch_resource` succeeds. -/
structure Fetchable (c : UnifiClient) (mutations : List StagedMutation) (s : SiteState)
    (behaves : Event ClientSig → Prop) : Prop where
  reads : ∀ e, behaves e → ReadsFrom s.held e
  absent : ∀ e, behaves e → ReportsAbsent s.held e
  fetched : ∀ m ∈ mutations, ∀ kind id, m.target = some (kind, id) → ∀ t r,
    (c.fetchResource kind id).Gives t r → (∀ e ∈ t, behaves e) → ∃ v, r = .ok v

/-- What is fetched from such a controller is what it holds. -/
theorem Fetchable.answer {c : UnifiClient} {behaves : Event ClientSig → Prop}
    (h : Fetchable c mutations s behaves) {m : StagedMutation} (hm : m ∈ mutations)
    {kind id : String} (htarget : m.target = some (kind, id)) {t : List (Event ClientSig)}
    {r : Except UnifiError (Option Json)} (hrun : (c.fetchResource kind id).Gives t r)
    (ht : ∀ e ∈ t, behaves e) : r = .ok (s.valueOf (kind, id)) := by
  obtain ⟨v, rfl⟩ := h.fetched m hm kind id htarget t r hrun ht
  obtain ⟨k, t₁, t₂, site, rfl, -, -, hheld⟩ :=
    UnifiClient.fetchResource_ok hrun fun e he => h.reads e (ht e he)
  rw [SiteState.valueOf_name]
  exact congrArg Except.ok (hheld (.inl fun e he => h.absent e (ht e he)))

/-- **The stale check notices every change, and nothing else.**  Let a pre-image be
captured from a controller that holds `s`, and let the plan be stored and read back.
Checked against a controller that holds `s'` and can be fetched from, it is found to match
exactly when every resource the plan updates or deletes is present with the value it had. -/
theorem preimageMatches_rebuilt_iff {c : UnifiClient} {t : List (Event ClientSig)}
    (hkinds : OneKindPerId mutations) (hself : SelfNamed s mutations)
    (hcapture : (Preimage.capturePreimage c mutations).Gives t (.ok preimage))
    (hread : ∀ e ∈ t, ReadsFrom s.held e) :
    ∃ rebuilt,
      preimageOf ((actionsFor mutations preimage).map StagedAction.toJson) = .ok rebuilt ∧
      ∀ behaves, Fetchable c mutations s' behaves → ∀ t' r,
        (c.controllerOps (.preimageMatches rebuilt mutations)).Runs t' r →
        (∀ e ∈ t', behaves e) →
        ∃ b, r = .ok b ∧ (b = true ↔ ∀ m ∈ mutations, ∀ kind id,
          m.target = some (kind, id) →
            ∃ v, s.valueOf (kind, id) = some v ∧ s'.valueOf (kind, id) = some v) := by
  refine ⟨_, preimageOf_actionsFor mutations preimage, ?_⟩
  intro behaves hfetchable t' r hrun ht'
  obtain ⟨u, hu, hexp⟩ := (Program.runs_interpret _).1 hrun
  have hsnapshot := (snapshotOf_capture hcapture hread).rebuilt hkinds hself
  have hlookup : ∀ m ∈ mutations, ∀ kind id, m.target = some (kind, id) → _ :=
    fun m hm kind id htarget => hsnapshot.getResource hkinds hself hm htarget
  have hreads : ∀ e ∈ u, e.answer = .ok (s'.valueOf (e.op.kind, e.op.id)) := by
    intro e he
    obtain ⟨m, hm, htarget⟩ := (asks_preimageMatches _ mutations).of_mem hu e he
    obtain ⟨t'', hfetch, hsub⟩ := hexp.of_mem he
    exact hfetchable.answer hm htarget hfetch fun e' he' => ht' e' (hsub e' he')
  obtain ⟨b, rfl, hb⟩ := preimageMatches_result hu hlookup hreads
  refine ⟨b, rfl, hb.trans ?_⟩
  constructor
  · intro h m hm kind id htarget
    obtain ⟨v, hvalue, -⟩ := hlookup m hm kind id htarget
    exact ⟨v, hvalue, (h m hm _ htarget).trans hvalue⟩
  · rintro h m hm ⟨kind, id⟩ htarget
    obtain ⟨v, hvalue, hvalue'⟩ := h m hm kind id htarget
    exact hvalue'.trans hvalue.symm

/-! ## A changed name -/

/-- A site with one network. -/
def lanState (v : Json) : SiteState := fun k id =>
  if k = .network ∧ id = "n1" then some v else none

/-- The network after someone renamed it. -/
def renamedLan : Json := .obj [("_id", .str "n1"), ("name", .str "guests")]

/-- The read of the network, answered with `v`. -/
def lanRead (v : Json) : Event ClientSig :=
  sendEvent (UnifiClient.requestOf lanClient .get ResourceKind.network.singleResourceTemplate
    [("site", "default"), ("id", "n1")] [] none
    "/proxy/network/api/s/default/rest/networkconf/n1")
    (.ok ⟨200, "", .ok (.obj [("data", .arr [v])])⟩)

/-- That answer tells the truth about a site whose network is `v`. -/
theorem readsFrom_lanRead (v : Json) : ReadsFrom (lanState v).held (lanRead v) := by
  rintro k site id response raw items ⟨request, heq, -, htemplate, hparams⟩ - hjson hitems
  cases heq
  obtain rfl : ResourceKind.network = k :=
    ResourceKind.singleResourceTemplate_injective htemplate
  obtain rfl : id = "n1" := by
    have hlist : [("site", "default"), ("id", "n1")] = [("site", site), ("id", id)] := hparams
    simp only [List.cons.injEq, Prod.mk.injEq] at hlist
    exact hlist.2.1.2.symm
  cases hjson
  cases hitems
  rfl

theorem fetchable_lanRead (v : Json) :
    Fetchable lanClient vlanPlan (lanState v) (· = lanRead v) := by
  refine ⟨?_, ?_, ?_⟩
  · rintro e rfl
    exact readsFrom_lanRead v
  · rintro e rfl k site id response ⟨request, heq, -⟩ h404
    cases heq
    cases h404
  · intro m hm kind id htarget t r hrun ht
    obtain rfl := List.mem_singleton.1 hm
    cases htarget
    obtain ⟨ans, rest, rfl, hrest⟩ := hrun
    have hans := ht _ List.mem_cons_self
    cases hans
    obtain ⟨-, rfl⟩ := hrest
    exact ⟨some v, rfl⟩

/-- A plan for the network, captured and stored before it was renamed, is found stale. -/
theorem preimageMatches_rebuilt_iff_renamed :
    ∃ rebuilt t' b,
      preimageOf ((actionsFor vlanPlan (.fromResources [lan])).map StagedAction.toJson) =
        .ok rebuilt ∧
      (lanClient.controllerOps (.preimageMatches rebuilt vlanPlan)).Runs t' (.ok b) ∧
      (b = true ↔ ∀ m ∈ vlanPlan, ∀ kind id, m.target = some (kind, id) →
        ∃ v, (lanState lan).valueOf (kind, id) = some v ∧
          (lanState renamedLan).valueOf (kind, id) = some v) := by
  have hkinds : OneKindPerId vlanPlan := by
    intro m hm m' hm' kind kind' id h h'
    obtain rfl := List.mem_singleton.1 hm
    obtain rfl := List.mem_singleton.1 hm'
    cases h
    cases h'
    rfl
  have hself : SelfNamed (lanState lan) vlanPlan := by
    intro m hm target v htarget hv
    obtain rfl := List.mem_singleton.1 hm
    cases htarget
    cases hv
    exact ⟨rfl, rfl⟩
  have hcapture : (Preimage.capturePreimage lanClient vlanPlan).Gives [lanRead lan]
      (.ok (.fromResources [lan])) := ⟨_, [], rfl, rfl, rfl⟩
  have hread : ∀ e ∈ [lanRead lan], ReadsFrom (lanState lan).held e := by
    intro e he
    obtain rfl := List.mem_singleton.1 he
    exact readsFrom_lanRead lan
  obtain ⟨rebuilt, hrebuilt, hcheck⟩ :=
    preimageMatches_rebuilt_iff hkinds hself hcapture hread
  cases hrebuilt
  have hrun : (lanClient.controllerOps (.preimageMatches (.fromResources [lan]) vlanPlan)).Runs
      [lanRead renamedLan] (.ok false) := ⟨_, [], rfl, rfl, rfl⟩
  obtain ⟨b, hb, hiff⟩ := hcheck _ (fetchable_lanRead renamedLan) _ _ hrun
    fun e he => List.mem_singleton.1 he
  cases hb
  exact ⟨_, _, false, rfl, hrun, hiff⟩

end UnifiMcp
