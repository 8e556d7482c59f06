import UnifiMcp.Client.Surfaces
import UnifiMcp.Client.Upstream
import UnifiMcp.Tools.Read

/-!
# The site a report is about

The five reports take a site, which their private legs are read at.  Their Integration API
legs are read at the UUID of the site the controller is configured with, whatever site was
asked for.  So a report draws all of its legs from the site it is asked for exactly when
that is the configured one (`drawsFromSite_iff`).
-/

namespace UnifiMcp

open Interaction

/-! ## Requests of one site -/

/-- What the path templates of the Integration API begin with. -/
def integrationPrefix : String := "/proxy/network/integration/"

/-- A template of the Integration API. -/
def IsIntegration (template : String) : Prop :=
  integrationPrefix.toList <+: template.toList

instance (template : String) : Decidable (IsIntegration template) :=
  inferInstanceAs (Decidable (_ <+: _))

/-- A request that names no site but this one: by its UUID on the Integration API, by its name
on the private surfaces. -/
def Request.DrawsFrom (name uuid : String) (request : Request) : Prop :=
  ∀ site, request.site? = some site →
    site = if IsIntegration request.template then uuid else name

/-- A question that, if it is a request, names no other site. -/
def ClientOp.DrawsFrom (name uuid : String) : ClientOp → Prop
  | .send request => request.DrawsFrom name uuid
  | _ => True

/-- One of the five reports, with its arguments. -/
inductive SiteReport where
  | search (args : SearchArgs)
  | siteHealth (args : SiteHealthReportArgs)
  | topology (args : TopologyReportArgs)
  | trafficFlow (args : TrafficFlowReportArgs)
  | clientTroubleshoot (args : ClientTroubleshootArgs)

namespace SiteReport

variable (c : UnifiClient) (tools : Toolkit)

/-- The site a report is asked for. -/
def site? : SiteReport → Option String
  | .search args => args.site
  | .siteHealth args => args.site
  | .topology args => args.site
  | .trafficFlow args => args.site
  | .clientTroubleshoot args => args.site

/-- The report, as it is answered. -/
def run : SiteReport → ClientM Json
  | .search args => c.search tools args
  | .siteHealth args => SiteHealthReport.toJson <$> c.siteHealthReport tools args
  | .topology args => TopologyReport.toJson <$> c.topologyReport tools args
  | .trafficFlow args => TrafficFlowReport.toJson <$> c.trafficFlowReport tools args
  | .clientTroubleshoot args =>
      ClientTroubleshootReport.toJson <$> c.clientTroubleshoot tools args

/-- The report at a resolved site. -/
def runAt (siteUuid siteName : String) : SiteReport → ClientM Json
  | .search args => c.searchAt tools siteUuid siteName args
  | .siteHealth args => SiteHealthReport.toJson <$> c.siteHealthAt tools siteUuid siteName args
  | .topology args => TopologyReport.toJson <$> c.topologyAt tools siteUuid siteName args
  | .trafficFlow args => TrafficFlowReport.toJson <$> c.trafficFlowAt tools siteUuid siteName args
  | .clientTroubleshoot args =>
      ClientTroubleshootReport.toJson <$> c.clientTroubleshootAt tools siteUuid siteName args

/-- Every report resolves the configured site first, whatever it is asked for. -/
theorem run_eq (report : SiteReport) :
    report.run c tools = c.defaultSiteFor .supported >>= fun siteUuid =>
      report.runAt c tools siteUuid (report.site?.getD c.controller.site) := by
  cases report with
  | search args => rfl
  | siteHealth args | topology args | trafficFlow args | clientTroubleshoot args =>
      exact map_bind _ _ _

/-- A report about the site `name`, and only about it: of every controller that lists this
site, its requests name no other, and two controllers that answer these alike give the same
report. -/
structure DrawsFromSite (name : String) (report : SiteReport) : Prop where
  requests : ∀ upstream caches uuid, c.CacheIsListed upstream caches →
    c.listedUuid upstream name = some uuid → ∀ request answer,
    sendEvent request answer ∈ ((report.run c tools).eval upstream caches).2.1 →
    request.DrawsFrom name uuid
  answer : ∀ upstream upstream' caches uuid, c.CacheIsListed upstream caches →
    c.listedUuid upstream name = some uuid →
    (∀ request : Request, request.DrawsFrom name uuid → upstream request = upstream' request) →
    ((report.run c tools).eval upstream caches).1 = ((report.run c tools).eval upstream' caches).1

end SiteReport

/-! ## What a report asks at a resolved site -/

theorem ClientOp.IsVersion.drawsFrom {op : ClientOp} (h : op.IsVersion) (name uuid : String) :
    op.DrawsFrom name uuid := by
  match op, h with
  | .send request, h =>
      intro site hsite
      rw [Request.site?, h.2.2] at hsite
      cases hsite
  | .cachedVersion, _ | .cacheVersion _, _ => trivial

section Asks

variable {P : ClientOp → Prop} {α β : Type}

theorem asks_leg {name disabled : String} {fetch : ClientM α} (h : fetch.Asks P) :
    (leg name disabled fetch).Asks P := by
  refine h.attempt.bind fun r => ?_
  split
  · exact Fallible.asks_pure _
  · exact Fallible.asks_pure _
  · exact Fallible.asks_pure _
  · exact Fallible.asks_throw _

theorem asks_read {absent : β} {reader : α → ClientM β} (h : ∀ a, (reader a).Asks P)
    (l : LegResult α) : (l.read absent reader).Asks P := by
  cases l with
  | ok answer => exact h answer
  | omitted reason => exact Fallible.asks_pure _

/-- A leg and the reading of its answer ask for what the leg asks. -/
theorem asks_leg_bind {γ : Type} {name disabled : String} {fetch : ClientM α} {absent : β}
    {reader : α → ClientM β} {f : LegResult α → β → ClientM γ} (hfetch : fetch.Asks P)
    (hreader : ∀ a, (reader a).Asks P) (hf : ∀ l b, (f l b).Asks P) :
    (leg name disabled fetch >>= fun l => l.read absent reader >>= f l).Asks P :=
  (asks_leg hfetch).bind fun l => (asks_read hreader l).bind (hf l)

theorem asks_enveloped (val : Json) : (enveloped val).Asks P := Fallible.asks_ofExcept _

theorem asks_projectedLeg (tools : Toolkit) (kind : ResourceKind) (val : Json) :
    (UnifiClient.projectedLeg tools kind val).Asks P :=
  (asks_enveloped val).bind fun _ => Fallible.asks_pure _

end Asks

namespace UnifiClient

variable {c : UnifiClient} {tools : Toolkit} {P : ClientOp → Prop} {name uuid : String}

/-- The legs of a site, at the UUID on the Integration API and at the name on the private
surfaces, are among these questions. -/
structure AsksLegs (c : UnifiClient) (P : ClientOp → Prop) (uuid name : String) : Prop where
  integration : ∀ {template : String} {query : List (String × String)},
    ApiSurface.supported.Serves template → (c.getAt .supported template uuid query).Asks P
  ofPrivate : ∀ {surface : ApiSurface} {template : String} {query : List (String × String)},
    surface ≠ .supported → surface.Serves template → (c.getAt surface template name query).Asks P

theorem serves_health :
    ApiSurface.privateV1.Serves "/proxy/network/api/s/{site}/stat/health" := by
  decide +kernel

theorem serves_deviceStats :
    ApiSurface.privateV1.Serves "/proxy/network/api/s/{site}/stat/device" := by
  decide +kernel

theorem serves_stationStats :
    ApiSurface.privateV1.Serves "/proxy/network/api/s/{site}/stat/sta" := by
  decide +kernel

theorem serves_self : ApiSurface.privateV1.Serves "/proxy/network/api/s/{site}/self" := by
  decide +kernel

theorem serves_topology :
    ApiSurface.privateV2.Serves "/proxy/network/v2/api/site/{site}/topology" := by
  decide +kernel

namespace AsksLegs

variable (h : c.AsksLegs P uuid name)
include h

theorem devices {query : List (String × String)} :
    (c.getAt .supported ResourceKind.device.pathTemplate uuid query).Asks P :=
  h.integration ResourceKind.device.serves_pathTemplate

theorem stations {query : List (String × String)} :
    (c.getAt .supported ResourceKind.station.pathTemplate uuid query).Asks P :=
  h.integration ResourceKind.station.serves_pathTemplate

theorem privateV1 {template : String} {query : List (String × String)}
    (htemplate : ApiSurface.privateV1.Serves template) :
    (c.getAt .privateV1 template name query).Asks P :=
  h.ofPrivate (by decide) htemplate

theorem privateV2 {template : String} {query : List (String × String)}
    (htemplate : ApiSurface.privateV2.Serves template) :
    (c.getAt .privateV2 template name query).Asks P :=
  h.ofPrivate (by decide) htemplate

theorem scan {path : String} (hpath : ApiSurface.supported.Serves path) (offset : Nat)
    (all : List Json) : (c.scan path uuid offset all).Asks P := by
  induction offset, all using scan.induct with
  | case1 offset all ih =>
      rw [UnifiClient.scan]
      have hpage : (c.fetchPage path uuid offset).Asks P :=
        (h.integration hpath).bind fun raw => asks_enveloped raw
      refine hpage.bind fun page => ?_
      dsimp only
      split_ifs with hcap hlast
      · exact Fallible.asks_pure _
      · exact Fallible.asks_pure _
      · exact ih page hcap hlast

theorem scanAndFilter {path query : String} (hpath : ApiSurface.supported.Serves path)
    (limit : Nat) : (c.scanAndFilter tools path uuid query limit).Asks P :=
  (h.scan hpath 0 []).bind fun _ => Fallible.asks_pure _

theorem searchAt (args : SearchArgs) : (c.searchAt tools uuid name args).Asks P := by
  have hmatches : ∀ {α : Type} (parse : Json → Except UnifiError (List α)) (toJson : α → Json)
      (result : ScanResult), (searchMatches parse toJson result).Asks P := fun _ _ _ =>
    (Fallible.asks_ofExcept _).bind fun _ => Fallible.asks_pure _
  refine asks_leg_bind (h.scanAndFilter ResourceKind.station.serves_pathTemplate _)
    (hmatches _ _) fun stations _ => ?_
  refine asks_leg_bind (h.scanAndFilter ResourceKind.device.serves_pathTemplate _)
    (hmatches _ _) fun devices _ => ?_
  refine asks_leg_bind (h.privateV1 serves_self) ?_ fun sites _ => ?_
  · exact fun _ => (Fallible.asks_ofExcept _).bind fun _ => Fallible.asks_pure _
  dsimp only
  split_ifs
  · exact Fallible.asks_throw _
  · exact Fallible.asks_pure _

theorem siteHealthAt (args : SiteHealthReportArgs) :
    (c.siteHealthAt tools uuid name args).Asks P := by
  refine asks_leg_bind h.devices (asks_projectedLeg tools _) fun devices _ => ?_
  refine asks_leg_bind (h.privateV1 serves_health) ?_ fun health _ => ?_
  · exact fun val => (asks_enveloped val).bind fun _ => Fallible.asks_pure _
  refine asks_leg_bind (h.privateV1 serves_deviceStats) asks_enveloped fun stats _ => ?_
  dsimp only
  split
  · exact Fallible.asks_throw _
  · exact Fallible.asks_ofExcept _

theorem topologyAt (args : TopologyReportArgs) :
    (c.topologyAt tools uuid name args).Asks P := by
  refine asks_leg_bind (h.privateV2 serves_topology) (fun _ => Fallible.asks_pure _)
    fun edges _ => ?_
  refine asks_leg_bind h.devices (asks_projectedLeg tools _) fun devices _ => ?_
  refine asks_leg_bind (h.privateV1 ResourceKind.network.serves_pathTemplate)
    (asks_projectedLeg tools _) fun networks _ => ?_
  dsimp only
  split_ifs
  · exact Fallible.asks_throw _
  · exact Fallible.asks_ofExcept _

theorem trafficFlowAt (args : TrafficFlowReportArgs) :
    (c.trafficFlowAt tools uuid name args).Asks P := by
  refine asks_leg_bind h.stations (asks_projectedLeg tools _) fun clients _ => ?_
  refine asks_leg_bind (h.privateV1 serves_stationStats) ?_ fun stats _ => ?_
  · exact fun val => (asks_enveloped val).bind fun _ => Fallible.asks_pure _
  dsimp only
  split_ifs
  · exact Fallible.asks_throw _
  · exact Fallible.asks_ofExcept _

theorem clientTroubleshootAt (args : ClientTroubleshootArgs) :
    (c.clientTroubleshootAt tools uuid name args).Asks P := by
  refine (asks_leg (h.privateV1 serves_stationStats)).bind fun stations => ?_
  refine (asks_leg h.devices).bind fun devices => ?_
  refine (asks_leg (h.privateV2 ResourceKind.firewallPolicy.serves_pathTemplate)).bind
    fun policies => ?_
  refine (asks_leg (h.privateV2 ResourceKind.firewallZone.serves_pathTemplate)).bind
    fun zones => ?_
  dsimp only
  split_ifs
  · exact Fallible.asks_throw _
  · exact (Fallible.asks_ofExcept _).bind fun _ => Fallible.asks_pure _

/-- **At a resolved site**, a report asks for its legs only. -/
theorem runAt (report : SiteReport) : (report.runAt c tools uuid name).Asks P := by
  cases report with
  | search args => exact h.searchAt args
  | siteHealth args => exact (h.siteHealthAt args).bind fun _ => Fallible.asks_pure _
  | topology args => exact (h.topologyAt args).bind fun _ => Fallible.asks_pure _
  | trafficFlow args => exact (h.trafficFlowAt args).bind fun _ => Fallible.asks_pure _
  | clientTroubleshoot args =>
      exact (h.clientTroubleshootAt args).bind fun _ => Fallible.asks_pure _

end AsksLegs

/-- The templates of the Integration API are those of its surface. -/
theorem isIntegration_iff {surface : ApiSurface} {template : String}
    (h : surface.Serves template) : IsIntegration template ↔ surface = .supported := by
  obtain ⟨root, hroot, hunder⟩ := h
  have hbegins := hunder.beginsWith
  constructor
  · intro hintegration
    have hcompare := List.prefix_or_prefix_of_prefix hintegration hbegins
    cases surface with
    | supported => rfl
    | privateV1 | privateV2 =>
        cases hroot
        exact absurd hcompare (by decide)
    | cloud => cases hroot
  · rintro rfl
    cases hroot
    exact List.IsPrefix.trans (by decide) hbegins

/-- The legs of a site name that site only. -/
theorem asksLegs_drawsFrom : c.AsksLegs (ClientOp.DrawsFrom name uuid) uuid name := by
  have hleg : ∀ {surface : ApiSurface} {template site : String} {query : List (String × String)},
      site = (if IsIntegration template then uuid else name) →
        (c.getAt surface template site query).Asks (ClientOp.DrawsFrom name uuid) := by
    intro surface template site query hsite
    refine asks_request (fun path => ?_) fun op hop => hop.drawsFrom name uuid
    intro site' hsite'
    exact (Option.some.inj hsite').symm.trans hsite
  constructor
  · intro template query h
    exact hleg (if_pos ((isIntegration_iff h).2 rfl)).symm
  · intro surface template query hsurface h
    exact hleg (if_neg fun hintegration => hsurface ((isIntegration_iff h).1 hintegration)).symm

/-- Resolving the site names none. -/
theorem asks_defaultSiteFor_drawsFrom (surface : ApiSurface) :
    (c.defaultSiteFor surface).Asks (ClientOp.DrawsFrom name uuid) := by
  refine asks_defaultSiteFor_of trivial (fun _ => trivial) ?_
  exact asks_request (fun path site hsite => nomatch hsite) fun op hop => hop.drawsFrom name uuid

end UnifiClient

/-! ## At the configured site -/

namespace SiteReport

variable {c : UnifiClient} {tools : Toolkit}

/-- A report of the configured site asks for that site only. -/
theorem drawsFromSite_of_configured {report : SiteReport}
    (hsite : report.site? = some c.controller.site) :
    report.DrawsFromSite c tools c.controller.site := by
  -- Once the site is resolved, it is resolved to the UUID it is listed under.
  have hlegs : ∀ {upstream : Upstream} {caches : Caches} {uuid : String},
      c.CacheIsListed upstream caches → c.listedUuid upstream c.controller.site = some uuid →
      ∀ siteUuid, ((c.defaultSiteFor .supported).eval upstream caches).1 = .ok siteUuid →
      (report.runAt c tools siteUuid (report.site?.getD c.controller.site)).Asks
        (ClientOp.DrawsFrom c.controller.site uuid) := by
    intro upstream caches uuid hcaches hlisted siteUuid heval
    have hfound := UnifiClient.uuid_of_defaultSiteFor hcaches heval
    obtain rfl := Option.some.inj (hfound.symm.trans hlisted)
    rw [hsite]
    exact UnifiClient.asksLegs_drawsFrom.runAt report
  constructor
  · intro upstream caches uuid hcaches hlisted request answer hmem
    rw [run_eq] at hmem
    exact Fallible.eval_bind_trace_of_asks (UnifiClient.asks_defaultSiteFor_drawsFrom .supported)
      (hlegs hcaches hlisted) _ hmem
  · intro upstream upstream' caches uuid hcaches hlisted hagree
    rw [run_eq]
    refine congrArg Prod.fst (Fallible.eval_bind_congr
      (UnifiClient.asks_defaultSiteFor_drawsFrom .supported) (hlegs hcaches hlisted) ?_)
    intro op hop s
    cases op with
    | send request => exact Prod.ext (hagree request hop) rfl
    | cachedSiteUuid | cacheSiteUuid _ | cachedVersion | cacheVersion _ => rfl

end SiteReport

/-! ## At another site -/

/-- The answer of a sites list. -/
def sitesAnswer (sites : List (String × String)) : Json :=
  .obj [("data", .arr (sites.map fun site =>
    .obj [("id", .str site.2), ("internalReference", .str site.1)]))]

/-- A controller that lists these sites, by name and UUID, and answers everything with the
list. -/
def listing (sites : List (String × String)) : Upstream := fun _ =>
  .ok ⟨200, "", .ok (sitesAnswer sites)⟩

/-- Caches nothing was put into. -/
def emptyCaches : Caches := ⟨.ok none, .ok none⟩

/-- The templates the reports read on the private surfaces. -/
def privateTemplates : List String :=
  ["/proxy/network/api/s/{site}/self", "/proxy/network/api/s/{site}/stat/health",
    "/proxy/network/api/s/{site}/stat/device", "/proxy/network/api/s/{site}/stat/sta",
    "/proxy/network/v2/api/site/{site}/topology", ResourceKind.network.pathTemplate,
    ResourceKind.firewallPolicy.pathTemplate, ResourceKind.firewallZone.pathTemplate]

/-- The templates they read on the Integration API. -/
def integrationTemplates : List String :=
  [ResourceKind.station.pathTemplate, ResourceKind.device.pathTemplate]

/-- `expand_path` expands the templates of the reports: the sites list as it is, those of the
private surfaces with the name of the site, those of the Integration API with some UUID. -/
structure UnifiClient.Expands (c : UnifiClient) (name : String) : Prop where
  sites : ∃ path, c.expandPath sitesPath [] = .ok path
  byName : ∀ template ∈ privateTemplates, ∃ path, c.expandPath template [("site", name)] = .ok path
  byUuid : ∃ uuid, ∀ template ∈ integrationTemplates,
    ∃ path, c.expandPath template [("site", uuid)] = .ok path

section Listing

variable {α : Type} {upstream : Upstream} {caches : Caches} {e : Event ClientSig}

theorem mem_trace_leg {name disabled : String} {fetch : ClientM α}
    (h : e ∈ (fetch.eval upstream caches).2.1) :
    e ∈ ((leg name disabled fetch).eval upstream caches).2.1 := by
  refine Fallible.mem_trace_bind ?_ _
  rw [Fallible.eval_attempt rfl]
  exact h

namespace UnifiClient

variable {c : UnifiClient} {sites : List (String × String)} {name uuid : String}

/-- The UUID of a site in a list of names and UUIDs. -/
def uuidIn (sites : List (String × String)) (name : String) : Option String :=
  (sites.find? fun site => site.1 = name).map Prod.snd

theorem findSiteUuid_sitesAnswer :
    findSiteUuid (sites.map fun site =>
      .obj [("id", .str site.2), ("internalReference", .str site.1)]) name = uuidIn sites name := by
  induction sites with
  | nil => rfl
  | cons site sites ih =>
      have hname : (Json.obj [("id", .str site.2), ("internalReference", .str site.1)]).getStr?
          "internalReference" = some site.1 := rfl
      unfold findSiteUuid uuidIn at ih ⊢
      simp only [List.map_cons, List.find?_cons, hname, Option.some.injEq]
      by_cases h : site.1 = name
      · simp only [h, decide_true, Option.bind_some, Option.map_some]
        rfl
      · simp only [h, decide_false]
        exact ih

theorem listedUuid_listing (hexpand : ∃ path, c.expandPath sitesPath [] = .ok path) :
    c.listedUuid (listing sites) name = uuidIn sites name := by
  obtain ⟨path, hexpand⟩ := hexpand
  have hlist : c.sitesList (listing sites) = some (sites.map fun site =>
      .obj [("id", .str site.2), ("internalReference", .str site.1)]) := by
    unfold sitesList
    rw [hexpand]
    rfl
  rw [listedUuid, hlist, Option.bind_some, findSiteUuid_sitesAnswer]

/-- The UUID of the configured site is resolved. -/
theorem eval_defaultSiteFor_listing (hexpand : ∃ path, c.expandPath sitesPath [] = .ok path)
    (hfind : uuidIn sites c.controller.site = some uuid) :
    ∃ t, (c.defaultSiteFor .supported).eval (listing sites) emptyCaches =
      (.ok uuid, t, ⟨.ok (some uuid), .ok none⟩) := by
  obtain ⟨path, hexpand⟩ := hexpand
  have hpermitted : ensureSurfacePermitted c.controller .supported = .ok () := rfl
  have hget := eval_get [] (listing sites) emptyCaches hpermitted hexpand rfl
    (show 200 < 300 by decide) rfl
  refine Fallible.exists_eval_bind ⟨_, rfl⟩ ?_
  refine Fallible.exists_eval_bind ⟨[], rfl⟩ ?_
  refine Fallible.exists_eval_bind ⟨_, hget⟩ ?_
  refine Fallible.exists_eval_bind ⟨[], rfl⟩ ?_
  rw [findSiteUuid_sitesAnswer, hfind]
  exact Fallible.exists_eval_bind ⟨_, rfl⟩ ⟨[], rfl⟩

variable (sites uuid) in
/-- Answered by the listing, `x` reads the Integration API at the site `uuid`. -/
def ReadsAt (x : ClientM α) : Prop :=
  ∀ caches, ∃ request answer, IsIntegration request.template ∧ request.site? = some uuid ∧
    sendEvent request answer ∈ (x.eval (listing sites) caches).2.1

theorem readsAt_getAt {template : String} {query : List (String × String)}
    (hintegration : IsIntegration template)
    (hexpand : ∃ path, c.expandPath template [("site", uuid)] = .ok path) :
    ReadsAt sites uuid (c.getAt .supported template uuid query) := by
  intro caches
  obtain ⟨path, hexpand⟩ := hexpand
  have hpermitted : ensureSurfacePermitted c.controller .supported = .ok () := rfl
  have hget := eval_get query (listing sites) caches hpermitted hexpand rfl
    (show 200 < 300 by decide) rfl
  refine ⟨requestOf c .get template [("site", uuid)] query none path,
    .ok ⟨200, "", .ok (sitesAnswer sites)⟩, hintegration, rfl, ?_⟩
  rw [getAt, hget]
  exact List.mem_singleton.2 rfl

theorem ReadsAt.bind {β : Type} {x : ClientM α} (h : ReadsAt sites uuid x) (f : α → ClientM β) :
    ReadsAt sites uuid (x >>= f) := by
  intro caches
  obtain ⟨request, answer, hintegration, hsite, hmem⟩ := h caches
  exact ⟨request, answer, hintegration, hsite, Fallible.mem_trace_bind hmem f⟩

theorem ReadsAt.leg {x : ClientM α} (h : ReadsAt sites uuid x) (name disabled : String) :
    ReadsAt sites uuid (leg name disabled x) := by
  intro caches
  obtain ⟨request, answer, hintegration, hsite, hmem⟩ := h caches
  exact ⟨request, answer, hintegration, hsite, mem_trace_leg hmem⟩

/-- What comes after a part that succeeds is reached. -/
theorem ReadsAt.after {β : Type} {x : ClientM α} {f : α → ClientM β}
    (hx : ∀ caches, ∃ a t, x.eval (listing sites) caches = (.ok a, t, caches))
    (hf : ∀ a, ReadsAt sites uuid (f a)) : ReadsAt sites uuid (x >>= f) := by
  intro caches
  obtain ⟨a, t, heval⟩ := hx caches
  obtain ⟨request, answer, hintegration, hsite, hmem⟩ := hf a caches
  exact ⟨request, answer, hintegration, hsite, Fallible.mem_trace_bind_ok heval hmem⟩

/-- A leg that is answered. -/
theorem eval_leg (leg' disabled : String) {fetch : ClientM α} {a : α}
    (h : ∃ t, fetch.eval upstream caches = (.ok a, t, caches)) :
    ∃ t, (leg leg' disabled fetch).eval upstream caches = (.ok (.ok a), t, caches) := by
  obtain ⟨t, h⟩ := h
  exact Fallible.exists_eval_bind ⟨t, Fallible.eval_attempt h⟩ ⟨[], rfl⟩

/-- A private leg whose request is answered with JSON is answered with it or left out, never
an error. -/
theorem eval_leg_private (leg' disabled : String) {surface : ApiSurface}
    (hsurface : surface.requiresPrivateScope = true) {template path : String}
    {query : List (String × String)} {response : Response} {v : Json}
    (hexpand : c.expandPath template [("site", name)] = .ok path)
    (hanswer : upstream (requestOf c .get template [("site", name)] query none path) =
      .ok response) (hstatus : response.status < 300) (hjson : response.json = .ok v) :
    ∃ l t, (leg leg' disabled (c.getAt surface template name query)).eval upstream caches =
      (.ok l, t, caches) ∧ ∀ v', l = .ok v' → v' = v := by
  cases hallow : c.controller.allowPrivateApi with
  | true =>
      have hpermitted : ensureSurfacePermitted c.controller surface = .ok () := by
        cases surface with
        | privateV1 | privateV2 => exact if_pos hallow
        | supported | cloud => cases hsurface
      obtain ⟨t, h⟩ := eval_leg leg' disabled
        ⟨_, eval_get query upstream caches hpermitted hexpand hanswer hstatus hjson⟩
      exact ⟨_, t, h, fun v' hv' => (LegResult.ok.inj hv').symm⟩
  | false =>
      have hrefused : ensureSurfacePermitted c.controller surface =
          .error (.surfaceRequiresConfig surface) := by
        cases surface with
        | privateV1 | privateV2 => exact if_neg (Bool.eq_false_iff.1 hallow)
        | supported | cloud => cases hsurface
      have hget : (c.getAt surface template name query).eval upstream caches =
          (.error (.surfaceRequiresConfig surface), [], caches) := by
        unfold getAt get request
        rw [hrefused]
        rfl
      exact ⟨_, _, Fallible.eval_bind_ok (Fallible.eval_attempt hget) _, nofun⟩

/-- Where every list is the sites list, a private leg never fails. -/
theorem eval_leg_listing {surface : ApiSurface} (hsurface : surface.requiresPrivateScope = true)
    {template leg' disabled : String}
    (hexpand : ∃ path, c.expandPath template [("site", name)] = .ok path) (caches : Caches) :
    ∃ l t, (leg leg' disabled (c.getAt surface template name [])).eval (listing sites) caches =
      (.ok l, t, caches) := by
  obtain ⟨path, hexpand⟩ := hexpand
  have hleg : ∃ l t, (leg leg' disabled (c.getAt surface template name [])).eval (listing sites)
      caches = (.ok l, t, caches) ∧ ∀ v, l = .ok v → v = sitesAnswer sites :=
    eval_leg_private leg' disabled hsurface hexpand rfl (show 200 < 300 by decide) rfl
  obtain ⟨l, t, h, -⟩ := hleg
  exact ⟨l, t, h⟩

end UnifiClient

end Listing

namespace SiteReport

variable {c : UnifiClient} {tools : Toolkit} {sites : List (String × String)} {name uuid : String}

open UnifiClient in
variable (tools sites) in
/-- Whatever its arguments are, a report reads the Integration API at the UUID it resolved. -/
theorem readsAt_runAt (hexpand : c.Expands name) (report : SiteReport)
    (huuid : ∀ template ∈ integrationTemplates,
      ∃ path, c.expandPath template [("site", uuid)] = .ok path) :
    ReadsAt sites uuid (report.runAt c tools uuid name) := by
  have hstations {query : List (String × String)} : ReadsAt sites uuid
      (c.getAt .supported ResourceKind.station.pathTemplate uuid query) :=
    readsAt_getAt (by decide) (huuid _ (by decide))
  have hdevices {query : List (String × String)} : ReadsAt sites uuid
      (c.getAt .supported ResourceKind.device.pathTemplate uuid query) :=
    readsAt_getAt (by decide) (huuid _ (by decide))
  cases report with
  | search args =>
      have hscan : ReadsAt sites uuid
          (c.scan ResourceKind.station.pathTemplate uuid 0 []) := by
        rw [scan]
        exact (hstations.bind _).bind _
      exact ((hscan.bind _).leg _ _).bind _
  | siteHealth args => exact ((hdevices.leg _ _).bind _).bind _
  | trafficFlow args => exact ((hstations.leg _ _).bind _).bind _
  | topology args =>
      have hedges := hexpand.byName "/proxy/network/v2/api/site/{site}/topology" (by decide)
      refine ReadsAt.bind (ReadsAt.after (eval_leg_listing rfl hedges) fun topology => ?_) _
      refine ReadsAt.after (fun caches => ?_) fun _ => (hdevices.leg _ _).bind _
      cases topology with
      | ok answer => exact ⟨_, [], rfl⟩
      | omitted reason => exact ⟨_, [], rfl⟩
  | clientTroubleshoot args =>
      have hstats := hexpand.byName "/proxy/network/api/s/{site}/stat/sta" (by decide)
      exact ReadsAt.bind (ReadsAt.after (eval_leg_listing rfl hstats) fun _ =>
        (hdevices.leg _ _).bind _) _

/-- A report of another site than the configured one is not drawn from it. -/
theorem configured_of_drawsFromSite {report : SiteReport} (hsite : report.site? = some name)
    (hexpand : c.Expands name) (h : report.DrawsFromSite c tools name) :
    name = c.controller.site := by
  by_contra hne
  obtain ⟨uuid, huuid⟩ := hexpand.byUuid
  obtain ⟨other, hother⟩ : ∃ other : String, other ≠ uuid := by
    by_cases hempty : uuid = ""
    · exact ⟨"0", hempty ▸ by decide⟩
    · exact ⟨"", Ne.symm hempty⟩
  -- A controller that lists both sites, under different UUIDs.
  let sites := [(name, other), (c.controller.site, uuid)]
  have hlisted : c.listedUuid (listing sites) name = some other := by
    rw [UnifiClient.listedUuid_listing hexpand.sites]
    simp [sites, UnifiClient.uuidIn]
  have hconfigured : UnifiClient.uuidIn sites c.controller.site = some uuid := by
    simp [sites, UnifiClient.uuidIn, hne]
  obtain ⟨t, hdefault⟩ := UnifiClient.eval_defaultSiteFor_listing hexpand.sites hconfigured
  obtain ⟨request, answer, hintegration, hnamed, hmem⟩ :=
    readsAt_runAt tools sites hexpand report huuid ⟨.ok (some uuid), .ok none⟩
  have hrun : sendEvent request answer ∈
      ((report.run c tools).eval (listing sites) emptyCaches).2.1 := by
    rw [run_eq, hsite]
    exact Fallible.mem_trace_bind_ok hdefault hmem
  have hdraws := h.requests (listing sites) emptyCaches other (fun _ hcached => nomatch hcached)
    hlisted request answer hrun uuid hnamed
  rw [if_pos hintegration] at hdraws
  exact hother hdraws.symm

end SiteReport

/-- **A report is about the site it is asked for** exactly when that is the site the
controller is configured with. -/
theorem drawsFromSite_iff (tools : Toolkit) {c : UnifiClient} {name : String}
    {report : SiteReport} (hsite : report.site? = some name) (hexpand : c.Expands name) :
    report.DrawsFromSite c tools name ↔ name = c.controller.site := by
  constructor
  · exact SiteReport.configured_of_drawsFromSite hsite hexpand
  · rintro rfl
    exact SiteReport.drawsFromSite_of_configured hsite

/-! ## A controller with a second site -/

/-- A client of a controller that is configured with the site `default`. -/
def officeClient : UnifiClient where
  controller :=
    ⟨"https://unifi.example", "default", some "UNIFI_API_KEY", none, none, false, false⟩
  expandPath template params :=
    .ok (params.foldl (fun path param => path.replace s!"\x7b{param.1}\x7d" param.2) template)

theorem officeClient_expands (name : String) : officeClient.Expands name :=
  ⟨⟨_, rfl⟩, fun _ _ => ⟨_, rfl⟩, "", fun _ _ => ⟨_, rfl⟩⟩

/-- A health report of one of its sites. -/
def healthOf (name : String) : SiteReport := .siteHealth ⟨"main", some name, none, none⟩

theorem drawsFromSite_iff_default :
    (healthOf "default").DrawsFromSite officeClient .plain "default" :=
  (drawsFromSite_iff .plain rfl (officeClient_expands "default")).2 rfl

/-- A health report of the site `branch`, which the controller lists too, is not drawn from it. -/
theorem not_drawsFromSite_branch :
    officeClient.listedUuid (listing [("default", "u1"), ("branch", "u2")]) "branch" = some "u2" ∧
      ¬ (healthOf "branch").DrawsFromSite officeClient .plain "branch" := by
  refine ⟨UnifiClient.listedUuid_listing ⟨_, rfl⟩, fun h => ?_⟩
  have hsame := SiteReport.configured_of_drawsFromSite rfl (officeClient_expands "branch") h
  exact absurd hsame (by decide)

end UnifiMcp
