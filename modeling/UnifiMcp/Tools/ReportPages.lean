import UnifiMcp.Collections.Pages
import UnifiMcp.Tools.ListPages
import UnifiMcp.Tools.SiteLegs

/-!
# Paging through a report

Three reports page a list they fetch from the Integration API: the site health and the topology
report the devices, the traffic flow report the clients.  The fetch names no window, so it is
answered with the first page the API has by default, and the page of the report is cut from
that.  `reportsAll_iff` says when a caller sees the whole site all the same: when it is no
larger than that default page.
-/

namespace UnifiMcp

open Interaction Collections

/-! ## A collection that is served in pages -/

/-- A number in the query of a request. -/
def queryNat? (name : String) (query : List (String × String)) : Option Nat :=
  (query.lookup name).bind String.toNat?

/-- The window of a collection that a query asks for; what it leaves out is chosen by the API,
which starts at the first item and has a page size of its own. -/
def apiWindow (defaultSize : Nat) (query : List (String × String)) (items : List Json) :
    List Json :=
  (items.drop ((queryNat? "offset" query).getD 0)).take
    ((queryNat? "limit" query).getD defaultSize)

/-- A controller that serves a collection of the Integration API in pages. -/
def ServesPages (c : UnifiClient) (k : ResourceKind) (siteUuid : String) (items : List Json)
    (defaultSize : Nat) (upstream : Upstream) : Prop :=
  ∃ path, c.expandPath k.pathTemplate [("site", siteUuid)] = .ok path ∧
    ∀ query, ∃ response raw,
      upstream (UnifiClient.requestOf c .get k.pathTemplate [("site", siteUuid)] query none path) =
        .ok response ∧ response.status < 300 ∧ response.json = .ok raw ∧
      unwrapEnvelopedData raw = .ok (apiWindow defaultSize query items)

/-! ## The reports -/

/-- The reports that page a collection of the Integration API, with what else they are asked. -/
inductive PagedReport where
  | siteHealth
  | topology
  | trafficFlow (start stop : Option Int64)

/-- The paged part of a report. -/
def SiteHealthReport.paged (r : SiteHealthReport) : Paged := ⟨r.devices, r.offset, r.limit, r.total⟩

/-- The paged part of a report. -/
def TopologyReport.paged (r : TopologyReport) : Paged := ⟨r.devices, r.offset, r.limit, r.total⟩

/-- The paged part of a report. -/
def TrafficFlowReport.paged (r : TrafficFlowReport) : Paged :=
  ⟨r.clients, r.offset, r.limit, r.total⟩

namespace PagedReport

/-- What the report pages. -/
def kind : PagedReport → ResourceKind
  | .siteHealth | .topology => .device
  | .trafficFlow _ _ => .station

/-- The page of the report, with the total it was cut from. -/
def run (c : UnifiClient) (tools : Toolkit) (controller : String) (site : Option String)
    (limit : Option UInt32) (offset : Option UInt64) : PagedReport → ClientM Paged
  | .siteHealth =>
      SiteHealthReport.paged <$> c.siteHealthReport tools ⟨controller, site, offset, limit⟩
  | .topology =>
      TopologyReport.paged <$> c.topologyReport tools ⟨controller, site, offset, limit⟩
  | .trafficFlow start stop =>
      TrafficFlowReport.paged <$>
        c.trafficFlowReport tools ⟨controller, site, start, stop, offset, limit⟩

end PagedReport

section OfPage

variable (page : PageFn) (items : List Json) (offset : Option UInt64) (limit : Option UInt32)

theorem SiteHealthReport.paged_ofPage (health : Json) (omitted : List String) :
    (ofPage page items health omitted offset limit).map paged =
      paginate page items offset limit := by
  unfold ofPage
  cases paginate page items offset limit <;> rfl

theorem TopologyReport.paged_ofPage (edges networks : List Json) (omitted : List String) :
    (ofPage page edges items networks omitted offset limit).map paged =
      paginate page items offset limit := by
  unfold ofPage
  cases paginate page items offset limit <;> rfl

theorem TrafficFlowReport.paged_ofPage (topApplications : List Json) (omitted : List String) :
    (ofPage page items topApplications omitted offset limit).map paged =
      paginate page items offset limit := by
  unfold ofPage
  cases paginate page items offset limit <;> rfl

end OfPage

/-- What a report shows of an item: its projection, to which statistics may have been joined. -/
def Shows (tools : Toolkit) (k : ResourceKind) (item shown : Json) : Prop :=
  shown = tools.projectResource k item ∨ ∃ key stats,
    shown = joinStats tools.toRedactor k key stats (tools.projectResource k item)

section Shows

variable (tools : Toolkit) (k : ResourceKind) (items : List Json)

theorem shows_projected :
    List.Forall₂ (Shows tools k) items (items.map (tools.projectResource k)) :=
  List.forall₂_map_right_iff.2 (List.forall₂_same.2 fun _ _ => .inl rfl)

/-- A joined list is the one that was gathered, item by item. -/
theorem shows_joined (key : String) (stats : List Json) :
    List.Forall₂ (Shows tools k) items
      (if (items.map (tools.projectResource k)).isEmpty
        then items.map (tools.projectResource k)
        else
          (items.map (tools.projectResource k)).map (joinStats tools.toRedactor k key stats)) := by
  split_ifs
  · exact shows_projected tools k items
  · rw [List.map_map]
    exact List.forall₂_map_right_iff.2 (List.forall₂_same.2 fun _ _ => .inr ⟨key, stats, rfl⟩)

end Shows

/-! ## What a report gathers -/

namespace UnifiClient

section Gathers

variable {c : UnifiClient} {tools : Toolkit} {k : ResourceKind} {siteUuid siteName : String}
  {items : List Json} {defaultSize : Nat} {upstream : Upstream} {caches caches' : Caches}
  {t : List (Event ClientSig)}

variable (tools) in
/-- The leg that fetches the collection gathers the first page of the API. -/
theorem eval_collectionLeg (hserves : ServesPages c k siteUuid items defaultSize upstream)
    (name : String) (caches : Caches) :
    ∃ l, (∃ t, (leg name integrationApi (c.getAt .supported k.pathTemplate siteUuid [])).eval
        upstream caches = (.ok l, t, caches)) ∧
      ∃ t, (l.read [] (projectedLeg tools k)).eval upstream caches =
        (.ok ((items.take defaultSize).map (tools.projectResource k)), t, caches) := by
  obtain ⟨path, hexpand, hanswers⟩ := hserves
  obtain ⟨response, raw, hanswer, hstatus, hjson, hraw⟩ := hanswers []
  have hpermitted : ensureSurfacePermitted c.controller .supported = .ok () := rfl
  refine ⟨.ok raw, eval_leg name integrationApi
    ⟨_, eval_get [] upstream caches hpermitted hexpand hanswer hstatus hjson⟩, [], ?_⟩
  change (projectedLeg tools k raw).eval upstream caches = _
  unfold projectedLeg enveloped
  rw [hraw]
  rfl

/-- A report that was made was not refused, and is what its last step gave. -/
theorem made_of_eval {β : Type} {p : Prop} [Decidable p] {e : UnifiError}
    {x : Except UnifiError β} {b : β}
    (h : Fallible.eval (clientAnswer upstream)
      (if p then (throw e : ClientM PUnit) >>= fun _ => Fallible.ofExcept x
        else Fallible.ofExcept x) caches = (.ok b, t, caches')) : ¬ p ∧ caches = caches' := by
  by_cases hp : p
  · rw [if_pos hp] at h
    cases h
  · rw [if_neg hp] at h
    exact ⟨hp, congrArg (fun out => out.2.2) h⟩

/-- From these caches a report is, at every offset, the page of what is shown of the API's first
page. -/
def Pages (tools : Toolkit) (k : ResourceKind) (upstream : Upstream) (limit : Option UInt32)
    (gathered : List Json) (caches caches' : Caches) (report : Option UInt64 → ClientM Paged) :
    Prop :=
  ∃ shown, List.Forall₂ (Shows tools k) gathered shown ∧ ∀ offset, ∃ t,
    (report offset).eval upstream caches = (paginate tools.page shown offset limit, t, caches')

theorem pages_siteHealthAt (args : SiteHealthReportArgs) {r : SiteHealthReport}
    (hserves : ServesPages c .device siteUuid items defaultSize upstream)
    (h : (c.siteHealthAt tools siteUuid siteName args).eval upstream caches =
      (.ok r, t, caches')) :
    Pages tools .device upstream args.limit (items.take defaultSize) caches caches' fun offset =>
      SiteHealthReport.paged <$> c.siteHealthAt tools siteUuid siteName { args with offset } := by
  obtain ⟨l, ⟨_, hleg⟩, ⟨_, hprojected⟩⟩ :=
    eval_collectionLeg tools hserves "devices" caches
  obtain ⟨devices, _, _, _, hdevices, h₁⟩ := Fallible.eval_bind_eq_ok h
  cases hleg.symm.trans hdevices
  obtain ⟨devicesResult, _, _, _, hread, h₂⟩ := Fallible.eval_bind_eq_ok h₁
  cases hprojected.symm.trans hread
  obtain ⟨health, _, _, _, hhealth, h₃⟩ := Fallible.eval_bind_eq_ok h₂
  obtain ⟨healthResult, _, _, _, hhealthResult, h₄⟩ := Fallible.eval_bind_eq_ok h₃
  obtain ⟨stats, _, _, _, hstats, h₅⟩ := Fallible.eval_bind_eq_ok h₄
  obtain ⟨statsResult, _, _, _, hstatsResult, h₆⟩ := Fallible.eval_bind_eq_ok h₅
  obtain ⟨hmade, rfl⟩ := made_of_eval h₆
  refine ⟨_, shows_joined tools .device _ "stats" statsResult, fun offset => ?_⟩
  rw [← SiteHealthReport.paged_ofPage]
  refine Fallible.exists_eval_map _ ?_
  refine Fallible.exists_eval_bind ⟨_, hleg⟩ ?_
  refine Fallible.exists_eval_bind ⟨_, hprojected⟩ ?_
  refine Fallible.exists_eval_bind ⟨_, hhealth⟩ ?_
  refine Fallible.exists_eval_bind ⟨_, hhealthResult⟩ ?_
  refine Fallible.exists_eval_bind ⟨_, hstats⟩ ?_
  refine Fallible.exists_eval_bind ⟨_, hstatsResult⟩ ?_
  rw [if_neg hmade]
  exact ⟨[], rfl⟩

theorem pages_topologyAt (args : TopologyReportArgs) {r : TopologyReport}
    (hserves : ServesPages c .device siteUuid items defaultSize upstream)
    (h : (c.topologyAt tools siteUuid siteName args).eval upstream caches = (.ok r, t, caches')) :
    Pages tools .device upstream args.limit (items.take defaultSize) caches caches' fun offset =>
      TopologyReport.paged <$> c.topologyAt tools siteUuid siteName { args with offset } := by
  obtain ⟨topology, _, s, _, htopology, h₁⟩ := Fallible.eval_bind_eq_ok h
  obtain ⟨edges, _, s', _, hedges, h₂⟩ := Fallible.eval_bind_eq_ok h₁
  obtain ⟨l, ⟨_, hleg⟩, ⟨_, hprojected⟩⟩ :=
    eval_collectionLeg tools hserves "devices" s'
  obtain ⟨devices, _, _, _, hdevices, h₃⟩ := Fallible.eval_bind_eq_ok h₂
  cases hleg.symm.trans hdevices
  obtain ⟨devicesResult, _, _, _, hread, h₄⟩ := Fallible.eval_bind_eq_ok h₃
  cases hprojected.symm.trans hread
  obtain ⟨networks, _, _, _, hnetworks, h₅⟩ := Fallible.eval_bind_eq_ok h₄
  obtain ⟨networksResult, _, _, _, hnetworksResult, h₆⟩ := Fallible.eval_bind_eq_ok h₅
  obtain ⟨hmade, rfl⟩ := made_of_eval h₆
  refine ⟨_, shows_projected tools .device _, fun offset => ?_⟩
  rw [← TopologyReport.paged_ofPage]
  refine Fallible.exists_eval_map _ ?_
  refine Fallible.exists_eval_bind ⟨_, htopology⟩ ?_
  refine Fallible.exists_eval_bind ⟨_, hedges⟩ ?_
  refine Fallible.exists_eval_bind ⟨_, hleg⟩ ?_
  refine Fallible.exists_eval_bind ⟨_, hprojected⟩ ?_
  refine Fallible.exists_eval_bind ⟨_, hnetworks⟩ ?_
  refine Fallible.exists_eval_bind ⟨_, hnetworksResult⟩ ?_
  rw [if_neg hmade]
  exact ⟨[], rfl⟩

theorem pages_trafficFlowAt (args : TrafficFlowReportArgs) {r : TrafficFlowReport}
    (hserves : ServesPages c .station siteUuid items defaultSize upstream)
    (h : (c.trafficFlowAt tools siteUuid siteName args).eval upstream caches =
      (.ok r, t, caches')) :
    Pages tools .station upstream args.limit (items.take defaultSize) caches caches' fun offset =>
      TrafficFlowReport.paged <$> c.trafficFlowAt tools siteUuid siteName { args with offset } := by
  obtain ⟨l, ⟨_, hleg⟩, ⟨_, hprojected⟩⟩ :=
    eval_collectionLeg tools hserves "clients" caches
  obtain ⟨clients, _, _, _, hclients, h₁⟩ := Fallible.eval_bind_eq_ok h
  cases hleg.symm.trans hclients
  obtain ⟨clientsResult, _, _, _, hread, h₂⟩ := Fallible.eval_bind_eq_ok h₁
  cases hprojected.symm.trans hread
  obtain ⟨stats, _, _, _, hstats, h₃⟩ := Fallible.eval_bind_eq_ok h₂
  obtain ⟨⟨joined, topApplications⟩, _, _, _, hjoined, h₄⟩ := Fallible.eval_bind_eq_ok h₃
  obtain ⟨hmade, rfl⟩ := made_of_eval h₄
  have hshown : List.Forall₂ (Shows tools .station) (items.take defaultSize) joined := by
    cases stats with
    | omitted reason =>
        cases hjoined
        exact shows_projected tools .station _
    | ok raw =>
        obtain ⟨data, _, _, _, -, hpure⟩ := Fallible.eval_bind_eq_ok hjoined
        cases hpure
        exact shows_joined tools .station _ "flowStats" data
  refine ⟨joined, hshown, fun offset => ?_⟩
  rw [← TrafficFlowReport.paged_ofPage]
  refine Fallible.exists_eval_map _ ?_
  refine Fallible.exists_eval_bind ⟨_, hleg⟩ ?_
  refine Fallible.exists_eval_bind ⟨_, hprojected⟩ ?_
  refine Fallible.exists_eval_bind ⟨_, hstats⟩ ?_
  refine Fallible.exists_eval_bind ⟨_, hjoined⟩ ?_
  dsimp only
  rw [if_neg hmade]
  exact ⟨[], rfl⟩

end Gathers

theorem asksLegs_keepsUuid (c : UnifiClient) (uuid name : String) :
    c.AsksLegs ClientOp.KeepsUuid uuid name :=
  ⟨fun _ => asks_request (fun _ => trivial) fun _ hop => hop.keepsUuid,
    fun _ _ => asks_request (fun _ => trivial) fun _ hop => hop.keepsUuid⟩

/-- A question that leaves the cached UUID is answered with it left. -/
theorem siteUuid_clientAnswer (upstream : Upstream) {op : ClientOp} (hop : op.KeepsUuid)
    (s : Caches) : (clientAnswer upstream op s).2.siteUuid = s.siteUuid := by
  cases op with
  | cacheSiteUuid _ => exact hop.elim
  | send _ | cachedSiteUuid | cachedVersion | cacheVersion _ => rfl

/-- The configured site is found under this UUID. -/
def FindsUuid (c : UnifiClient) (upstream : Upstream) (siteUuid : String) (caches : Caches) :
    Prop :=
  ∃ t caches', (c.defaultSiteFor .supported).eval upstream caches = (.ok siteUuid, t, caches')

theorem findsUuid_of_cached {c : UnifiClient} {upstream : Upstream} {siteUuid : String}
    {caches : Caches} (h : caches.siteUuid = .ok (some siteUuid)) :
    c.FindsUuid upstream siteUuid caches := by
  obtain ⟨t, hfound⟩ := defaultSiteFor_of_cached h
  exact ⟨t, _, hfound⟩

end UnifiClient

/-! ## Paging through a report -/

namespace PagedReport

open UnifiClient

section Run

variable {c : UnifiClient} {tools : Toolkit} {report : PagedReport} {controller : String}
  {site : Option String} {limit : Option UInt32} {offset : Option UInt64} {siteUuid : String}
  {items : List Json} {defaultSize : Nat} {upstream : Upstream} {caches caches' : Caches}
  {t : List (Event ClientSig)} {paged : Paged}

/-- What comes after the site was found leaves it found. -/
theorem findsUuid_after {α : Type} {x : ClientM α} {r : Except UnifiError α}
    (hx : x.Asks ClientOp.KeepsUuid) (hcached : caches.siteUuid = .ok (some siteUuid))
    (h : x.eval upstream caches = (r, t, caches')) : c.FindsUuid upstream siteUuid caches' := by
  have hkept : (x.eval upstream caches).2.2.siteUuid = .ok (some siteUuid) :=
    Fallible.eval_of_asks (I := fun s => s.siteUuid = .ok (some siteUuid)) hx
      (fun op s hop hs => (siteUuid_clientAnswer upstream hop s).trans hs) hcached
  rw [h] at hkept
  exact findsUuid_of_cached hkept

theorem pages_of_at {α : Type} {k : ResourceKind} {gathered : List Json} {f : α → Paged}
    {p : Option UInt64 → String → ClientM α} (hsite : c.FindsUuid upstream siteUuid caches)
    (hasks : (p offset siteUuid).Asks ClientOp.KeepsUuid)
    (hat : ∀ {s s' t r}, (p offset siteUuid).eval upstream s = (.ok r, t, s') →
      Pages tools k upstream limit gathered s s' fun offset => f <$> p offset siteUuid)
    (h : (f <$> (c.defaultSiteFor .supported >>= p offset)).eval upstream caches =
      (.ok paged, t, caches')) :
    c.FindsUuid upstream siteUuid caches' ∧
      Pages tools k upstream limit gathered caches caches' fun offset =>
        f <$> (c.defaultSiteFor .supported >>= p offset) := by
  obtain ⟨t₀, s, hfound⟩ := hsite
  obtain ⟨r, _, hrun, -⟩ := Fallible.eval_map_eq_ok h
  obtain ⟨uuid, _, _, _, hfound', hmade⟩ := Fallible.eval_bind_eq_ok hrun
  cases hfound.symm.trans hfound'
  refine ⟨findsUuid_after hasks (cached_of_defaultSiteFor hfound) hmade, ?_⟩
  obtain ⟨shown, hshown, heval⟩ := hat hmade
  refine ⟨shown, hshown, fun offset => ?_⟩
  dsimp only
  rw [map_bind]
  exact Fallible.exists_eval_bind ⟨_, hfound⟩ (heval offset)

/-- A report that is made leaves the site found, and is a page of what it shows of the first
page of the API; so it is at every other offset. -/
theorem pages_run (hsite : c.FindsUuid upstream siteUuid caches)
    (hserves : ServesPages c report.kind siteUuid items defaultSize upstream)
    (h : (report.run c tools controller site limit offset).eval upstream caches =
      (.ok paged, t, caches')) :
    c.FindsUuid upstream siteUuid caches' ∧
      Pages tools report.kind upstream limit (items.take defaultSize) caches caches' fun offset =>
        report.run c tools controller site limit offset := by
  have hlegs := asksLegs_keepsUuid c siteUuid (site.getD c.controller.site)
  cases report with
  | siteHealth =>
      exact pages_of_at (f := SiteHealthReport.paged)
        (p := fun offset uuid => c.siteHealthAt tools uuid (site.getD c.defaultSite)
          ⟨controller, site, offset, limit⟩) hsite (hlegs.siteHealthAt _)
        (pages_siteHealthAt ⟨controller, site, offset, limit⟩ hserves) h
  | topology =>
      exact pages_of_at (f := TopologyReport.paged)
        (p := fun offset uuid => c.topologyAt tools uuid (site.getD c.defaultSite)
          ⟨controller, site, offset, limit⟩) hsite (hlegs.topologyAt _)
        (pages_topologyAt ⟨controller, site, offset, limit⟩ hserves) h
  | trafficFlow start stop =>
      exact pages_of_at (f := TrafficFlowReport.paged)
        (p := fun offset uuid => c.trafficFlowAt tools uuid (site.getD c.defaultSite)
          ⟨controller, site, start, stop, offset, limit⟩) hsite (hlegs.trafficFlowAt _)
        (pages_trafficFlowAt ⟨controller, site, start, stop, offset, limit⟩ hserves) h

end Run

section Whole

variable (report : PagedReport) (c : UnifiClient) (tools : Toolkit) (controller : String)
  (site : Option String) (limit : Option UInt32) (upstream : Upstream) (siteUuid : String)
  (items : List Json)

/-- The items of the report at an offset, and the caches it leaves. -/
def pageAt (offset : Nat) (caches : Caches) : Except UnifiError (List Json) × Caches :=
  let out := (report.run c tools controller site limit (some (UInt64.ofNat offset))).eval
    upstream caches
  (out.1.map Paged.items, out.2.2)

/-- The report can be made: what else it reads is answered or left out. -/
def IsMade : Prop :=
  ∀ caches, c.FindsUuid upstream siteUuid caches → ∃ offset paged t caches',
    (report.run c tools controller site limit offset).eval upstream caches =
      (.ok paged, t, caches')

/-- A caller of the report is told how many items the site has, and is shown each of them once
at successive offsets. -/
structure ReportsAll : Prop where
  total : ∀ caches offset paged t caches', c.FindsUuid upstream siteUuid caches →
    (report.run c tools controller site limit offset).eval upstream caches =
      (.ok paged, t, caches') → paged.total = items.length
  pages : ∀ caches pages, c.FindsUuid upstream siteUuid caches →
    items.length < pages * pageSize limit → ∃ shown,
      readPages (report.pageAt c tools controller site limit upstream) (pageSize limit) pages 0
        caches = some (.ok shown) ∧ List.Forall₂ (Shows tools report.kind) items shown

end Whole

section Iff

variable {c : UnifiClient} {tools : Toolkit} {report : PagedReport} {controller : String}
  {site : Option String} {limit : Option UInt32} {siteUuid : String} {items : List Json}
  {defaultSize : Nat} {upstream : Upstream} {caches caches' : Caches}
  {t : List (Event ClientSig)} {paged : Paged}

/-- The total of a page is that of the list it was cut from. -/
theorem total_of_paginate {page : PageFn} {list : List Json} {offset : Option UInt64}
    (h : paginate page list offset limit = .ok paged) : paged.total = list.length := by
  obtain ⟨w, -, hpaged⟩ := bind_eq_ok.1 h
  cases hpaged
  rfl

/-- Every report that is made reports as many items as the first page of the API has. -/
theorem total_run {offset : Option UInt64} (hsite : c.FindsUuid upstream siteUuid caches)
    (hserves : ServesPages c report.kind siteUuid items defaultSize upstream)
    (h : (report.run c tools controller site limit offset).eval upstream caches =
      (.ok paged, t, caches')) : paged.total = min defaultSize items.length := by
  obtain ⟨-, shown, hshown, heval⟩ := pages_run hsite hserves h
  obtain ⟨t', hpage⟩ := heval offset
  have hpaged : paginate tools.page shown offset limit = .ok paged :=
    congrArg Prod.fst (hpage.symm.trans h)
  rw [total_of_paginate hpaged, ← hshown.length_eq, List.length_take]

/-- **When a report covers the site.**  Its total is the number of items on the site, and
successive offsets show each of them once, exactly when the site has no more of them than the
API returns in a page by default. -/
theorem reportsAll_iff (hgrants : GrantsWalk tools.page limit items.length)
    (hserves : ServesPages c report.kind siteUuid items defaultSize upstream)
    (hmade : report.IsMade c tools controller site limit upstream siteUuid) :
    report.ReportsAll c tools controller site limit upstream siteUuid items ↔
      items.length ≤ defaultSize := by
  constructor
  · intro h
    have hsite : c.FindsUuid upstream siteUuid ⟨.ok (some siteUuid), .ok none⟩ :=
      findsUuid_of_cached rfl
    obtain ⟨offset, paged, t, caches', hrun⟩ := hmade _ hsite
    have htotal := h.total _ offset paged t caches' hsite hrun
    rw [total_run hsite hserves hrun] at htotal
    omega
  · intro hsize
    refine ⟨fun caches offset paged t caches' hsite hrun => ?_, fun caches pages hsite hpages => ?_⟩
    · rw [total_run hsite hserves hrun]
      omega
    · have hfetch : ∀ n caches, c.FindsUuid upstream siteUuid caches →
          n * pageSize limit ≤ items.length →
          ∃ shown caches', c.FindsUuid upstream siteUuid caches' ∧
            report.pageAt c tools controller site limit upstream (n * pageSize limit) caches =
              (.ok shown, caches') ∧ List.Forall₂ (Shows tools report.kind)
                ((items.drop (n * pageSize limit)).take (pageSize limit)) shown := by
        intro n caches hsite hn
        obtain ⟨w, hw, hstart, hwidth⟩ := hgrants.window n hn
        obtain ⟨offset, paged, t, caches', hrun⟩ := hmade caches hsite
        obtain ⟨hsite', shown, hshown, heval⟩ := pages_run hsite hserves hrun
        rw [List.take_of_length_le hsize] at hshown
        obtain ⟨t', hpage⟩ := heval (some (UInt64.ofNat (n * pageSize limit)))
        refine ⟨(shown.drop (n * pageSize limit)).take (pageSize limit), caches', hsite', ?_,
          List.forall₂_take _ (List.forall₂_drop _ hshown)⟩
        rw [pageAt, hpage, paginate, Option.getD_some, hw, ← hstart, ← hwidth]
        rfl
      have hstart : 0 * pageSize limit ≤ items.length := by
        rw [Nat.zero_mul]
        exact Nat.zero_le _
      have hread := readPages_related hfetch hstart (by rwa [Nat.zero_add]) hsite
      rwa [Nat.zero_mul, List.drop_zero] at hread

end Iff

end PagedReport

/-! ## A small site and a large one -/

/-- A controller that serves one collection in pages, and answers everything else with an empty
list. -/
def pagedUpstream (k : ResourceKind) (items : List Json) (defaultSize : Nat) : Upstream :=
  fun request =>
    .ok ⟨200, "", .ok (.obj [("data", .arr (if request.template = k.pathTemplate then
      apiWindow defaultSize request.query items else []))])⟩

theorem servesPages_paged (report : PagedReport) (items : List Json) (defaultSize : Nat) :
    ServesPages guestClient report.kind "u1" items defaultSize
      (pagedUpstream report.kind items defaultSize) := by
  refine ⟨_, rfl, fun query => ⟨_, _, rfl, show 200 < 300 by decide, rfl, ?_⟩⟩
  exact congrArg Except.ok (if_pos rfl)

/-- The topology report of such a site can be made. -/
theorem isMade_paged (items : List Json) (defaultSize : Nat) :
    PagedReport.topology.IsMade guestClient .plain "main" none none
      (pagedUpstream .device items defaultSize) "u1" := by
  rintro caches ⟨t, caches', hfound⟩
  let args : TopologyReportArgs := ⟨"main", none, none, none⟩
  have hmade : ∃ r t, (guestClient.topologyAt .plain "u1" "default" args).eval
      (pagedUpstream .device items defaultSize) caches' = (.ok r, t, caches') := ⟨_, _, rfl⟩
  obtain ⟨r, t', hmade⟩ := hmade
  have hreport : ∃ t, (guestClient.topologyReport .plain args).eval
      (pagedUpstream .device items defaultSize) caches = (.ok r, t, caches') :=
    Fallible.exists_eval_bind ⟨t, hfound⟩ ⟨t', hmade⟩
  obtain ⟨t'', hrun⟩ := Fallible.exists_eval_map TopologyReport.paged hreport
  exact ⟨none, r.paged, t'', caches', hrun⟩

/-- An access point. -/
def accessPoint (id : Nat) : Json := .obj [("id", .str (toString id))]

theorem plain_grantsWalk_default (total : Nat) (htotal : total < 200) :
    GrantsWalk Toolkit.plain.page none total := by
  refine ⟨by decide, fun pages hpages => ?_⟩
  have hpages : pages * 200 ≤ total := hpages
  obtain rfl : pages = 0 := by omega
  exact ⟨⟨0, 200⟩, rfl, rfl, rfl⟩

/-- A site with two access points is covered, where 25 are returned by default. -/
theorem reportsAll_iff_two :
    PagedReport.topology.ReportsAll guestClient .plain "main" none none
      (pagedUpstream .device [accessPoint 1, accessPoint 2] 25) "u1"
      [accessPoint 1, accessPoint 2] :=
  (PagedReport.reportsAll_iff (plain_grantsWalk_default 2 (by decide))
    (servesPages_paged .topology _ 25) (isMade_paged _ 25)).2 (show 2 ≤ 25 by decide)

/-- A site with 26 access points is reported to have 25. -/
theorem not_reportsAll_large :
    ¬ PagedReport.topology.ReportsAll guestClient .plain "main" none none
      (pagedUpstream .device ((List.range 26).map accessPoint) 25) "u1"
      ((List.range 26).map accessPoint) := by
  intro h
  have hsite : guestClient.FindsUuid (pagedUpstream .device ((List.range 26).map accessPoint) 25)
      "u1" ⟨.ok (some "u1"), .ok none⟩ := UnifiClient.findsUuid_of_cached rfl
  obtain ⟨offset, paged, t, caches', hrun⟩ := isMade_paged _ 25 _ hsite
  have htotal := h.total _ offset paged t caches' hsite hrun
  have hreported := PagedReport.total_run hsite (servesPages_paged .topology _ 25) hrun
  rw [htotal, List.length_map, List.length_range] at hreported
  omega

end UnifiMcp
