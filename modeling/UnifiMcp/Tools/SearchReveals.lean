import UnifiMcp.Tools.ListHides
import UnifiMcp.Tools.SiteLegs

/-!
# What a search reveals

A search matches the query against the items as the controller sent them and narrows what
matched to the typed models afterwards.  So which items it returns may depend on fields that
it does not return.  `search_reveals_iff` says when it does not, for a query and the items
that controllers may have: when no two items with the same model fields differ in whether
they match.  Two runs over controllers with such items are compared request by request
(`coupled_search`); where two items do differ, each of them alone on a controller is found
or not (`foundFew_client`).
-/

namespace UnifiMcp

open Interaction Collections

/-! ## Items and queries -/

/-- The fields of the typed model of a station. -/
def stationModelFields : List String :=
  ["id", "type", "name", "connectedAt", "ipAddress", "macAddress", "uplinkDeviceId"]

theorem readsOnly_stationModel : ReadsOnly stationModelFields Station.ofJson :=
  readsOnly_struct (by decide) fun fields fields' h => by
    simp (disch := decide) only [field, optionalField, h.same]

/-- Whether an item that may be sent matches the query is decided by these fields. -/
def FieldsDecide (tools : Toolkit) (query : String) (fields : List String)
    (sent : Json → Prop) : Prop :=
  ∀ item item', sent item → sent item' → AgreeOn fields item item' →
    searchHit tools query item = searchHit tools query item'

/-- Two items that are the same, or two that may be sent and agree on the fields. -/
def Swappable (fields : List String) (sent : Json → Prop) (item item' : Json) : Prop :=
  item = item' ∨ sent item ∧ sent item' ∧ AgreeOn fields item item'

variable {fields : List String} {sent : Json → Prop} {item item' : Json} {tools : Toolkit}
  {query : String}

theorem Swappable.agreeOn (h : Swappable fields sent item item') :
    AgreeOn fields item item' := by
  rcases h with rfl | ⟨-, -, h⟩
  · exact AgreeOn.refl fields item
  · exact h

theorem FieldsDecide.hit (hdecide : FieldsDecide tools query fields sent)
    (h : Swappable fields sent item item') :
    searchHit tools query item = searchHit tools query item' := by
  rcases h with rfl | ⟨hitem, hitem', hagree⟩
  · rfl
  · exact hdecide item item' hitem hitem' hagree

/-- What the query leaves of two lists of swappable items is swappable. -/
theorem FieldsDecide.filterByQuery (hdecide : FieldsDecide tools query fields sent)
    {items items' : List Json} (h : List.Forall₂ (Swappable fields sent) items items')
    (limit : Nat) :
    List.Forall₂ (Swappable fields sent) (filterByQuery tools items query limit)
      (filterByQuery tools items' query limit) :=
  List.forall₂_take limit (forall₂_filter (fun _ _ hitem => hdecide.hit hitem) h)

/-! ## Two controllers -/

/-- Two pages of a collection, item by item swappable. -/
def PagesAlike (fields : List String) (sent : Json → Prop) (raw raw' : Json) : Prop :=
  ∃ items items', unwrapEnvelopedData raw = .ok items ∧ unwrapEnvelopedData raw' = .ok items' ∧
    List.Forall₂ (Swappable fields sent) items items'

/-- Two answers to the request for a page, the same or with swappable items. -/
def PageAnswersAlike (fields : List String) (sent : Json → Prop)
    (answer answer' : Except HttpError Response) : Prop :=
  answer = answer' ∨ ∃ response response' raw raw', answer = .ok response ∧
    answer' = .ok response' ∧ response.status < 300 ∧ response'.status < 300 ∧
    response.json = .ok raw ∧ response'.json = .ok raw' ∧ PagesAlike fields sent raw raw'

/-- Two controllers whose clients and devices are item by item swappable, and which answer
everything else alike. -/
structure SearchedAlike (clients devices : Json → Prop) (upstream upstream' : Upstream) :
    Prop where
  stations : ∀ request, ReadsCollection .station request →
    PageAnswersAlike stationModelFields clients (upstream request) (upstream' request)
  devices : ∀ request, ReadsCollection .device request →
    PageAnswersAlike deviceFields devices (upstream request) (upstream' request)
  others : ∀ request, ¬ ReadsCollection .station request → ¬ ReadsCollection .device request →
    upstream request = upstream' request

/-- Which answers to a question of the client two such controllers may give. -/
def searchedAnswers (clients devices : Json → Prop) : Likeness ClientSig
  | .send request, answer, answer' =>
      (ReadsCollection .station request →
        PageAnswersAlike stationModelFields clients answer answer') ∧
      (ReadsCollection .device request → PageAnswersAlike deviceFields devices answer answer') ∧
      (¬ ReadsCollection .station request → ¬ ReadsCollection .device request → answer = answer')
  | .cachedSiteUuid, answer, answer' => answer = answer'
  | .cacheSiteUuid _, answer, answer' => answer = answer'
  | .cachedVersion, answer, answer' => answer = answer'
  | .cacheVersion _, answer, answer' => answer = answer'

/-- A question about neither collection. -/
def ClientOp.NotSearched (op : ClientOp) : Prop :=
  op.NotCollection .station ∧ op.NotCollection .device

section Alike

variable {clients devices : Json → Prop} {upstream upstream' : Upstream}

theorem SearchedAlike.answers (h : SearchedAlike clients devices upstream upstream')
    (op : ClientOp) (s : Caches) :
    searchedAnswers clients devices op (clientAnswer upstream op s).1
        (clientAnswer upstream' op s).1 ∧
      (clientAnswer upstream op s).2 = (clientAnswer upstream' op s).2 := by
  cases op with
  | send request => exact ⟨⟨h.stations request, h.devices request, h.others request⟩, rfl⟩
  | cachedSiteUuid | cacheSiteUuid uuid | cachedVersion | cacheVersion version => exact ⟨rfl, rfl⟩

theorem ClientOp.NotSearched.eq {op : ClientOp} (h : op.NotSearched) {answer answer' : op.Answer}
    (halike : searchedAnswers clients devices op answer answer') : answer = answer' := by
  cases op with
  | send request => exact halike.2.2 h.1 h.2
  | cachedSiteUuid | cacheSiteUuid uuid | cachedVersion | cacheVersion version => exact halike

theorem ClientOp.IsVersion.notSearched {op : ClientOp} (h : op.IsVersion) : op.NotSearched :=
  ⟨h.notCollection .station, h.notCollection .device⟩

end Alike

/-! ## One leg -/

/-- Two outcomes of a leg: left out for the same reason, or answers that are alike. -/
def LegsAlike {α : Type} (Q : α → α → Prop) : LegResult α → LegResult α → Prop
  | .ok a, .ok a' => Q a a'
  | .omitted reason, .omitted reason' => reason = reason'
  | .ok _, .omitted _ | .omitted _, .ok _ => False

/-- Two scans that come to swappable items. -/
structure ScansAlike (fields : List String) (sent : Json → Prop) (result result' : ScanResult) :
    Prop where
  items : List.Forall₂ (Swappable fields sent) result.items result'.items
  capped : result.capped = result'.capped

namespace UnifiClient

variable (c : UnifiClient) {R : Likeness ClientSig} {α : Type} {Q : α → α → Prop}

theorem coupled_leg {name disabled : String} {fetch fetch' : ClientM α}
    (h : Fallible.Coupled R Q fetch fetch') :
    Fallible.Coupled R (LegsAlike Q) (leg name disabled fetch) (leg name disabled fetch') := by
  refine h.attempt.bind fun r r' hr => ?_
  cases r with
  | ok a =>
      cases r' with
      | ok a' => exact Fallible.coupled_pure hr
      | error e => exact hr.elim
  | error e =>
      cases r' with
      | ok a' => exact hr.elim
      | error e' =>
          obtain rfl : e = e' := hr
          cases e with
          | surfaceRequiresConfig surface => exact Fallible.coupled_pure rfl
          | surfaceRequiresScope surface => exact Fallible.coupled_pure rfl
          | _ => exact .done rfl

section Scan

variable {k : ResourceKind} {fields : List String} {sent : Json → Prop}
  (hpages : ∀ request answer answer', ReadsCollection k request →
    R (.send request) answer answer' → PageAnswersAlike fields sent answer answer')
  (hversion : ∀ op : ClientOp, op.IsVersion → ∀ answer answer', R op answer answer' →
    answer = answer')

include hpages hversion in
theorem coupled_fetchPage (siteUuid : String) (offset : Nat) :
    Fallible.Coupled R (List.Forall₂ (Swappable fields sent))
      (c.fetchPage k.pathTemplate siteUuid offset)
      (c.fetchPage k.pathTemplate siteUuid offset) := by
  refine (coupled_get (Q := PagesAlike fields sent) c ?_ hversion _ _).bind ?_
  · intro request answer answer' hmethod htemplate halike
    rcases hpages request answer answer' ⟨hmethod, htemplate⟩ halike with
      rfl | ⟨response, response', raw, raw', rfl, rfl, hstatus, hstatus', hjson, hjson', hitems⟩
    · exact .inl rfl
    · exact .inr ⟨_, _, rfl, rfl, .inr ⟨hstatus, hstatus', raw, raw', hjson, hjson', hitems⟩⟩
  · rintro raw raw' (rfl | ⟨items, items', hraw, hraw', hitems⟩)
    · refine (Fallible.coupled_same _).mono ?_
      rintro items _ rfl
      exact List.forall₂_same.2 fun item _ => .inl rfl
    · refine Fallible.coupled_ofExcept ?_
      rw [hraw, hraw']
      exact hitems

include hpages hversion in
/-- Both scans turn the same pages and end at the same one. -/
theorem coupled_scan (siteUuid : String) {offset : Nat} {all all' : List Json}
    (hall : List.Forall₂ (Swappable fields sent) all all') :
    Fallible.Coupled R
      (fun out out' => List.Forall₂ (Swappable fields sent) out.1 out'.1 ∧ out.2 = out'.2)
      (c.scan k.pathTemplate siteUuid offset all)
      (c.scan k.pathTemplate siteUuid offset all') := by
  induction hleft : searchScanCap - all.length using Nat.strong_induction_on
    generalizing offset all all' with
  | _ left ih =>
      rw [scan, scan]
      refine (c.coupled_fetchPage hpages hversion siteUuid offset).bind fun page page' hpage => ?_
      have hscanned : List.Forall₂ (Swappable fields sent) (all ++ page) (all' ++ page') :=
        List.rel_append hall hpage
      simp only [← hscanned.length_eq, ← hpage.length_eq]
      split_ifs with hcap hlast
      · exact Fallible.coupled_pure ⟨hscanned, rfl⟩
      · exact Fallible.coupled_pure ⟨hscanned, rfl⟩
      · refine ih _ ?_ hscanned rfl
        -- the page was full, and the cap was not reached
        simp only [List.length_append, searchScanCap, searchPageSize] at hcap hlast hleft ⊢
        omega

include hpages hversion in
theorem coupled_scanAndFilter {tools : Toolkit} {query : String}
    (hdecide : FieldsDecide tools query fields sent) (siteUuid : String) (limit : Nat) :
    Fallible.Coupled R (ScansAlike fields sent)
      (c.scanAndFilter tools k.pathTemplate siteUuid query limit)
      (c.scanAndFilter tools k.pathTemplate siteUuid query limit) := by
  refine (c.coupled_scan hpages hversion siteUuid .nil).bind ?_
  rintro ⟨all, capped⟩ ⟨all', capped'⟩ ⟨hall, rfl⟩
  exact Fallible.coupled_pure ⟨hdecide.filterByQuery hall limit, rfl⟩

end Scan

section Legs

variable {fields : List String} {sent : Json → Prop} {result result' : ScanResult}

theorem ScansAlike.parseItems (h : ScansAlike fields sent result result') {β : Type}
    {ofJson : Json → Except DecodeError β} (hread : ReadsOnly fields ofJson) (what : String) :
    parseItems what ofJson (.obj [("data", .arr result.items)]) =
      parseItems what ofJson (.obj [("data", .arr result'.items)]) :=
  parseItems_eq hread rfl rfl (h.items.imp fun _ _ hitem => hitem.agreeOn)

theorem coupled_searchMatches (h : ScansAlike fields sent result result') {β : Type}
    {ofJson : Json → Except DecodeError β} (hread : ReadsOnly fields ofJson) (what : String)
    (toJson : β → Json) :
    Fallible.Coupled R Eq (searchMatches (UnifiMcp.parseItems what ofJson) toJson result)
      (searchMatches (UnifiMcp.parseItems what ofJson) toJson result') := by
  unfold searchMatches
  rw [ScansAlike.parseItems h hread what]
  refine (Fallible.coupled_same _).bind ?_
  rintro parsed _ rfl
  exact Fallible.coupled_pure rfl

theorem coupled_read {β : Type} {l l' : LegResult α} (h : LegsAlike Q l l') {absent : β}
    {reader : α → ClientM β} (hreader : ∀ a a', Q a a' →
      Fallible.Coupled R Eq (reader a) (reader a')) :
    Fallible.Coupled R Eq (l.read absent reader) (l'.read absent reader) := by
  cases l with
  | ok a =>
      cases l' with
      | ok a' => exact hreader a a' h
      | omitted reason => exact h.elim
  | omitted reason =>
      cases l' with
      | ok a' => exact h.elim
      | omitted reason' => exact Fallible.coupled_pure rfl

theorem searchOmission_eq {l l' : LegResult ScanResult}
    (h : LegsAlike (ScansAlike fields sent) l l') (name : String) :
    l.searchOmission name = l'.searchOmission name ∧ l.refused = l'.refused := by
  cases l with
  | ok result =>
      cases l' with
      | ok result' =>
          refine ⟨?_, rfl⟩
          rw [LegResult.searchOmission, LegResult.searchOmission, h.capped]
      | omitted reason => exact h.elim
  | omitted reason =>
      cases l' with
      | ok result' => exact h.elim
      | omitted reason' => exact ⟨congrArg some h, rfl⟩

end Legs

/-! ## The search -/

theorem notSearched_defaultSiteFor :
    (c.defaultSiteFor .supported).Asks ClientOp.NotSearched := by
  refine asks_defaultSiteFor_of ⟨trivial, trivial⟩ (fun _ => ⟨trivial, trivial⟩) ?_
  refine asks_request (fun path => ⟨fun hreads => ?_, fun hreads => ?_⟩)
    fun _ hop => hop.notSearched
  · exact pathTemplate_ne_sitesPath .station hreads.2
  · exact pathTemplate_ne_sitesPath .device hreads.2

/-- The template of the leg that lists the sites. -/
def selfTemplate : String := "/proxy/network/api/s/{site}/self"

theorem notSearched_self (siteName : String) :
    (c.getAt .privateV1 selfTemplate siteName []).Asks ClientOp.NotSearched := by
  refine asks_request (fun path => ⟨fun hreads => ?_, fun hreads => ?_⟩)
    fun _ hop => hop.notSearched
  · exact absurd hreads.2 (show selfTemplate ≠ ResourceKind.station.pathTemplate by decide)
  · exact absurd hreads.2 (show selfTemplate ≠ ResourceKind.device.pathTemplate by decide)

section Search

variable {c} {clients devices : Json → Prop} {tools : Toolkit} {args : SearchArgs}

/-- A search is coupled with itself, up to equal results. -/
theorem coupled_search (hclients : FieldsDecide tools args.query stationModelFields clients)
    (hdevices : FieldsDecide tools args.query deviceFields devices) :
    Fallible.Coupled (searchedAnswers clients devices) Eq (c.search tools args)
      (c.search tools args) := by
  have hversion : ∀ op : ClientOp, op.IsVersion → ∀ answer answer',
      searchedAnswers clients devices op answer answer' → answer = answer' :=
    fun op hop _ _ => hop.notSearched.eq
  refine (Fallible.coupled_of_asks c.notSearched_defaultSiteFor fun op hop _ _ => hop.eq).bind ?_
  rintro siteUuid _ rfl
  -- stations
  refine (coupled_leg (c.coupled_scanAndFilter (k := .station)
    (fun _ _ _ hreads halike => halike.1 hreads) hversion hclients siteUuid _)).bind
    fun stations stations' hstations => ?_
  refine (coupled_read hstations fun _ _ h =>
    coupled_searchMatches h readsOnly_stationModel _ _).bind ?_
  rintro stationsResults _ rfl
  -- devices
  refine (coupled_leg (c.coupled_scanAndFilter (k := .device)
    (fun _ _ _ hreads halike => halike.2.1 hreads) hversion hdevices siteUuid _)).bind
    fun devs devs' hdevs => ?_
  refine (coupled_read hdevs fun _ _ h =>
    coupled_searchMatches h readsOnly_device _ _).bind ?_
  rintro devicesResults _ rfl
  -- sites
  refine (Fallible.coupled_of_asks (asks_leg (c.notSearched_self _))
    fun op hop _ _ => hop.eq).bind ?_
  rintro sites _ rfl
  refine (Fallible.coupled_of_asks (P := ClientOp.NotSearched) (asks_read (fun _ => ?_) sites)
    fun op hop _ _ => hop.eq).bind ?_
  · exact (Fallible.asks_ofExcept _).bind fun _ => Fallible.asks_pure _
  rintro sitesResults _ rfl
  obtain ⟨hstationsOmitted, hstationsRefused⟩ := searchOmission_eq hstations "stations"
  obtain ⟨hdevicesOmitted, hdevicesRefused⟩ := searchOmission_eq hdevs "devices"
  rw [hstationsOmitted, hstationsRefused, hdevicesOmitted, hdevicesRefused]
  split_ifs
  · exact .done rfl
  · exact Fallible.coupled_pure rfl

end Search

end UnifiClient

/-! ## Controllers with few items -/

/-- The items such a controller has for a request. -/
def fewItems (clients devices : List Json) (request : Request) : List Json :=
  if request.method = .get ∧ request.template = ResourceKind.station.pathTemplate then clients
  else if request.method = .get ∧ request.template = ResourceKind.device.pathTemplate then devices
  else []

/-- A controller with these clients and devices, on which all other lists are empty. -/
def fewUpstream (clients devices : List Json) : Upstream := fun request =>
  .ok ⟨200, "", .ok (.obj [("data", .arr (fewItems clients devices request))])⟩

/-- The answer to a request for a list. -/
def listAnswer (items : List Json) : Except HttpError Response :=
  .ok ⟨200, "", .ok (.obj [("data", .arr items)])⟩

section FewUpstream

variable {clients devices : List Json} {request : Request}

theorem fewUpstream_stations (h : ReadsCollection .station request) :
    fewUpstream clients devices request = listAnswer clients := by
  have hitems : fewItems clients devices request = clients := if_pos h
  rw [fewUpstream, hitems, listAnswer]

theorem fewUpstream_devices (h : ReadsCollection .device request) :
    fewUpstream clients devices request = listAnswer devices := by
  have hnot : ¬ ReadsCollection .station request := fun hstation =>
    absurd (ResourceKind.pathTemplate_injective (hstation.2.symm.trans h.2)) (by decide)
  have hitems : fewItems clients devices request = devices := (if_neg hnot).trans (if_pos h)
  rw [fewUpstream, hitems, listAnswer]

theorem fewUpstream_others (hstation : ¬ ReadsCollection .station request)
    (hdevice : ¬ ReadsCollection .device request) :
    fewUpstream clients devices request = listAnswer [] := by
  have hitems : fewItems clients devices request = [] := (if_neg hstation).trans (if_neg hdevice)
  rw [fewUpstream, hitems, listAnswer]

end FewUpstream

namespace UnifiClient

variable {c : UnifiClient} {tools : Toolkit}

/-- The paths of the two scans expand at a site. -/
def LegsExpand (c : UnifiClient) (uuid : String) : Prop :=
  ∀ kind ∈ [ResourceKind.station, .device],
    ∃ path, c.expandPath kind.pathTemplate [("site", uuid)] = .ok path

/-- The requests of a search can be made: their paths expand, at some site. -/
structure SearchExpands (c : UnifiClient) : Prop where
  byUuid : ∃ uuid, c.LegsExpand uuid
  byName : ∃ path, c.expandPath selfTemplate [("site", c.controller.site)] = .ok path

section Few

variable {clients devices : List Json} {caches : Caches}

theorem eval_getAt_few {surface : ApiSurface} {template site : String}
    {query : List (String × String)}
    (hpermitted : ensureSurfacePermitted c.controller surface = .ok ())
    (hexpand : ∃ path, c.expandPath template [("site", site)] = .ok path) :
    ∃ t, (c.getAt surface template site query).eval (fewUpstream clients devices) caches =
      (.ok (.obj [("data", .arr (fewItems clients devices
        (requestOf c .get template [("site", site)] query none "")))]), t, caches) := by
  obtain ⟨path, hexpand⟩ := hexpand
  exact ⟨_, eval_get query (fewUpstream clients devices) caches hpermitted hexpand rfl
    (show 200 < 300 by decide) rfl⟩

/-- A scan that finds a short first page ends there. -/
theorem eval_scanAndFilter_few (tools : Toolkit) (query : String) (limit : Nat)
    {kind : ResourceKind} {siteUuid : String} {items : List Json}
    (hfew : items.length < searchPageSize)
    (hpage : ∃ t, (c.fetchPage kind.pathTemplate siteUuid 0).eval (fewUpstream clients devices)
      caches = (.ok items, t, caches)) :
    ∃ t, (c.scanAndFilter tools kind.pathTemplate siteUuid query limit).eval
      (fewUpstream clients devices) caches =
        (.ok ⟨filterByQuery tools items query limit, false⟩, t, caches) := by
  have hscan : ∃ t, (c.scan kind.pathTemplate siteUuid 0 []).eval (fewUpstream clients devices)
      caches = (.ok (items, false), t, caches) := by
    rw [scan]
    refine Fallible.exists_eval_bind hpage ?_
    have hcap : ¬ searchScanCap ≤ items.length := by
      simp only [searchScanCap, searchPageSize] at hfew ⊢
      omega
    simp only [List.nil_append, dif_neg hcap, dif_pos hfew]
    exact ⟨[], rfl⟩
  exact Fallible.exists_eval_bind hscan ⟨[], rfl⟩

variable (clients devices caches) in
theorem eval_fetchPage_few {kind : ResourceKind} {siteUuid : String}
    (hexpand : ∃ path, c.expandPath kind.pathTemplate [("site", siteUuid)] = .ok path) :
    ∃ t, (c.fetchPage kind.pathTemplate siteUuid 0).eval (fewUpstream clients devices) caches =
      (.ok (fewItems clients devices
        (requestOf c .get kind.pathTemplate [] [] none "")), t, caches) :=
  Fallible.exists_eval_bind (eval_getAt_few rfl hexpand) ⟨[], rfl⟩

/-- What the search legs have in common: the matches of a scan, as their type narrows them. -/
theorem eval_searchMatches {β : Type} {upstream : Upstream} {result : ScanResult}
    (parse : Json → Except UnifiError (List β)) (toJson : β → Json) :
    (searchMatches parse toJson result).eval upstream caches =
      ((parse (.obj [("data", .arr result.items)])).map (List.map toJson), [], caches) := by
  unfold searchMatches
  cases parse (.obj [("data", .arr result.items)]) with
  | ok parsed => rfl
  | error e => rfl

section Matches

variable {β : Type} {upstream : Upstream} {items : List Json} {capped : Bool}
  {parse : Json → Except UnifiError (List β)} {toJson : β → Json}

theorem exists_eval_matches {parsed : List β}
    (h : parse (.obj [("data", .arr items)]) = .ok parsed) :
    ∃ t, (LegResult.read [] (searchMatches parse toJson) (.ok ⟨items, capped⟩)).eval upstream
      caches = (.ok (parsed.map toJson), t, caches) := by
  refine ⟨[], (eval_searchMatches parse toJson).trans ?_⟩
  rw [h]
  rfl

theorem exists_eval_matches_error {e : UnifiError}
    (h : parse (.obj [("data", .arr items)]) = .error e) :
    ∃ t, (LegResult.read [] (searchMatches parse toJson) (.ok ⟨items, capped⟩)).eval upstream
      caches = (.error e, t, caches) := by
  refine ⟨[], (eval_searchMatches parse toJson).trans ?_⟩
  rw [h]
  rfl

end Matches

variable (clients devices caches) in
/-- The leg that lists the sites finds none, or is left out. -/
theorem eval_self_few (name disabled : String) {siteName : String}
    (hexpand : ∃ path, c.expandPath selfTemplate [("site", siteName)] = .ok path) :
    ∃ l t, (leg name disabled (c.getAt .privateV1 selfTemplate siteName [])).eval
        (fewUpstream clients devices) caches = (.ok l, t, caches) ∧
      ∀ v, l = .ok v → v = .obj [("data", .arr [])] := by
  obtain ⟨path, hexpand⟩ := hexpand
  exact eval_leg_private name disabled rfl hexpand rfl (show 200 < 300 by decide) rfl

/-- What such a leg contributes to the result is nothing. -/
theorem eval_readSites_few (upstream : Upstream) (caches : Caches) (tools : Toolkit)
    (query : String) (limit : Nat) {sites : LegResult Json}
    (hnone : ∀ v, sites = .ok v → v = .obj [("data", .arr [])]) :
    ∃ t, (sites.read [] fun sites => do
        let parsed ← Fallible.ofExcept (parseSites sites)
        pure (filterByQuery tools (parsed.map Site.toJson) query limit)).eval upstream caches =
      (.ok [], t, caches) := by
  cases sites with
  | omitted reason => exact ⟨[], rfl⟩
  | ok v =>
      cases hnone v rfl
      exact ⟨[], congrArg (fun l => (Except.ok l, [], caches)) List.take_nil⟩

/-- The stations and devices a search returned, or its failure. -/
def found (result : Except UnifiError Json) : Except UnifiError (Option Json × Option Json) :=
  result.map fun v => (v.get? "stations", v.get? "devices")

/-- What is found on a controller with few items. -/
def foundFew (tools : Toolkit) (query : String) (limit : Nat) (clients devices : List Json) :
    Except UnifiError (Option Json × Option Json) := do
  let stations ← parseStations (.obj [("data", .arr (filterByQuery tools clients query limit))])
  let devices ← parseDevices (.obj [("data", .arr (filterByQuery tools devices query limit))])
  pure (some (.arr (stations.map Station.toJson)), some (.arr (devices.map Device.toJson)))

theorem found_search_few {uuid : String} (hbyUuid : c.LegsExpand uuid)
    (hbyName : ∃ path, c.expandPath selfTemplate [("site", c.controller.site)] = .ok path)
    {args : SearchArgs} (hsite : args.site = none) (hclients : clients.length < searchPageSize)
    (hdevices : devices.length < searchPageSize) :
    found ((c.search tools args).eval (fewUpstream clients devices)
        ⟨.ok (some uuid), .ok none⟩).1 =
      foundFew tools args.query (args.limit.getD 10).toNat clients devices := by
  generalize hcaches : (⟨.ok (some uuid), .ok none⟩ : Caches) = caches
  have hsiteUuid : ∃ t, (c.defaultSiteFor .supported).eval (fewUpstream clients devices) caches =
      (.ok uuid, t, caches) := by
    subst hcaches
    exact ⟨_, rfl⟩
  have hstations := eval_leg "stations" integrationApi
    (eval_scanAndFilter_few tools args.query (args.limit.getD 10).toNat hclients
      (eval_fetchPage_few clients devices caches (hbyUuid .station (by decide))))
  have hdevs := eval_leg "devices" integrationApi
    (eval_scanAndFilter_few tools args.query (args.limit.getD 10).toNat hdevices
      (eval_fetchPage_few clients devices caches (hbyUuid .device (by decide))))
  obtain ⟨sites, t, hself, hnone⟩ :=
    eval_self_few clients devices caches "sites" privateApi hbyName
  have hreadSites := eval_readSites_few (fewUpstream clients devices) caches tools args.query
    (args.limit.getD 10).toNat hnone
  have hrun : ∃ r, (∃ t, (c.search tools args).eval (fewUpstream clients devices) caches =
      (r, t, caches)) ∧ found r =
        foundFew tools args.query (args.limit.getD 10).toNat clients devices := by
    unfold foundFew
    cases hs : parseStations (.obj [("data",
        .arr (filterByQuery tools clients args.query (args.limit.getD 10).toNat))]) with
    | error e =>
        refine ⟨.error e, ?_, rfl⟩
        refine Fallible.exists_eval_bind hsiteUuid (Fallible.exists_eval_bind hstations ?_)
        exact Fallible.exists_eval_bind_error (exists_eval_matches_error hs)
    | ok s =>
        cases hd : parseDevices (.obj [("data",
            .arr (filterByQuery tools devices args.query (args.limit.getD 10).toNat))]) with
        | error e =>
            refine ⟨.error e, ?_, rfl⟩
            refine Fallible.exists_eval_bind hsiteUuid (Fallible.exists_eval_bind hstations ?_)
            refine Fallible.exists_eval_bind (exists_eval_matches hs) ?_
            refine Fallible.exists_eval_bind hdevs ?_
            exact Fallible.exists_eval_bind_error (exists_eval_matches_error hd)
        | ok d =>
            let omitted := omissions [none, none, sites.omission]
            refine ⟨.ok (.obj [("devices", .arr (d.map Device.toJson)),
              ("omitted", .ofStrings omitted), ("partial", .bool !omitted.isEmpty),
              ("sites", .arr []), ("stations", .arr (s.map Station.toJson))]), ?_, rfl⟩
            refine Fallible.exists_eval_bind hsiteUuid (Fallible.exists_eval_bind hstations ?_)
            refine Fallible.exists_eval_bind (exists_eval_matches hs) ?_
            refine Fallible.exists_eval_bind hdevs ?_
            refine Fallible.exists_eval_bind (exists_eval_matches hd) ?_
            refine Fallible.exists_eval_bind ⟨t, by rw [hsite]; exact hself⟩ ?_
            refine Fallible.exists_eval_bind hreadSites ?_
            exact ⟨[], rfl⟩
  obtain ⟨r, ⟨t', hrun⟩, hfound⟩ := hrun
  rw [hrun]
  exact hfound

end Few

end UnifiClient

/-! ## When a search reveals nothing -/

open UnifiClient

section Reveals

variable {c : UnifiClient} {tools : Toolkit} {query : String} {clients devices : Json → Prop}

/-- A search finds the same stations and devices on every two controllers that are alike. -/
def SearchHides (c : UnifiClient) (tools : Toolkit) (query : String)
    (clients devices : Json → Prop) : Prop :=
  ∀ args : SearchArgs, args.query = query →
    ∀ upstream upstream', SearchedAlike clients devices upstream upstream' → ∀ caches,
      found ((c.search tools args).eval upstream caches).1 =
        found ((c.search tools args).eval upstream' caches).1

theorem searchHides_of_fieldsDecide
    (hclients : FieldsDecide tools query stationModelFields clients)
    (hdevices : FieldsDecide tools query deviceFields devices) :
    SearchHides c tools query clients devices := by
  rintro args rfl upstream upstream' halike caches
  exact congrArg found ((coupled_search hclients hdevices).eval_eq halike.answers caches)

/-- A client alone on a controller is found when it matches. -/
theorem foundFew_client (item : Json) :
    foundFew tools query 1 [item] [] =
      if searchHit tools query item = true then
        (parseItem "station" Station.ofJson item).map fun s =>
          (some (.arr [s.toJson]), some (.arr []))
      else .ok (some (.arr []), some (.arr [])) := by
  unfold foundFew
  rw [filterByQuery_eq, filterByQuery_eq]
  by_cases h : searchHit tools query item = true
  · rw [if_pos h, List.filter_cons_of_pos h]
    unfold parseStations
    change ([item].mapM (parseItem "station" Station.ofJson) >>= _) = _
    rw [List.mapM_cons]
    cases parseItem "station" Station.ofJson item with
    | ok s => rfl
    | error e => rfl
  · rw [if_neg h, List.filter_cons_of_neg h]
    rfl

/-- And so is a device. -/
theorem foundFew_device (item : Json) :
    foundFew tools query 1 [] [item] =
      if searchHit tools query item = true then
        (parseItem "device" Device.ofJson item).map fun d =>
          (some (.arr []), some (.arr [d.toJson]))
      else .ok (some (.arr []), some (.arr [])) := by
  unfold foundFew
  rw [filterByQuery_eq, filterByQuery_eq]
  by_cases h : searchHit tools query item = true
  · rw [if_pos h, List.filter_cons_of_pos h]
    unfold parseDevices
    change ([item].mapM (parseItem "device" Device.ofJson) >>= _) = _
    rw [List.mapM_cons]
    cases parseItem "device" Device.ofJson item with
    | ok d => rfl
    | error e => rfl
  · rw [if_neg h, List.filter_cons_of_neg h]
    rfl

/-- What is found of an item that may or may not match tells whether it does. -/
theorem hit_eq_of_found_eq {α β : Type} {hit hit' : Bool} {result result' : Except UnifiError α}
    {f : α → β} {none' : β} (hf : ∀ a, f a ≠ none')
    (h : (if hit = true then result.map f else .ok none') =
      if hit' = true then result'.map f else .ok none') : hit = hit' := by
  cases hit with
  | true =>
      cases hit' with
      | true => rfl
      | false =>
          obtain ⟨a, -, ha⟩ := map_eq_ok.1 (show result.map f = .ok none' from h)
          exact absurd ha (hf a)
  | false =>
      cases hit' with
      | true =>
          obtain ⟨a, -, ha⟩ := map_eq_ok.1 (show result'.map f = .ok none' from h.symm)
          exact absurd ha (hf a)
      | false => rfl

theorem pageAnswersAlike_single {fields : List String} {sent : Json → Prop} {item item' : Json}
    (hitem : sent item) (hitem' : sent item') (hagree : AgreeOn fields item item') :
    PageAnswersAlike fields sent (listAnswer [item]) (listAnswer [item']) :=
  .inr ⟨_, _, _, _, rfl, rfl, (show 200 < 300 by decide), (show 200 < 300 by decide), rfl, rfl,
    [item], [item'], rfl, rfl, .cons (.inr ⟨hitem, hitem', hagree⟩) .nil⟩

theorem searchedAlike_clients {item item' : Json} (hitem : clients item) (hitem' : clients item')
    (hagree : AgreeOn stationModelFields item item') :
    SearchedAlike clients devices (fewUpstream [item] []) (fewUpstream [item'] []) where
  stations request hreads := by
    rw [fewUpstream_stations hreads, fewUpstream_stations hreads]
    exact pageAnswersAlike_single hitem hitem' hagree
  devices request hreads := by
    rw [fewUpstream_devices hreads, fewUpstream_devices hreads]
    exact .inl rfl
  others request hstation hdevice := by
    rw [fewUpstream_others hstation hdevice, fewUpstream_others hstation hdevice]

theorem searchedAlike_devices {item item' : Json} (hitem : devices item) (hitem' : devices item')
    (hagree : AgreeOn deviceFields item item') :
    SearchedAlike clients devices (fewUpstream [] [item]) (fewUpstream [] [item']) where
  stations request hreads := by
    rw [fewUpstream_stations hreads, fewUpstream_stations hreads]
    exact .inl rfl
  devices request hreads := by
    rw [fewUpstream_devices hreads, fewUpstream_devices hreads]
    exact pageAnswersAlike_single hitem hitem' hagree
  others request hstation hdevice := by
    rw [fewUpstream_others hstation hdevice, fewUpstream_others hstation hdevice]

/-- On two controllers with few items that are alike, the same is found. -/
theorem SearchHides.few (h : SearchHides c tools query clients devices)
    (hexpands : c.SearchExpands) (xs xs' ys ys' : List Json) (hxs : xs.length < searchPageSize)
    (hxs' : xs'.length < searchPageSize) (hys : ys.length < searchPageSize)
    (hys' : ys'.length < searchPageSize)
    (halike : SearchedAlike clients devices (fewUpstream xs ys) (fewUpstream xs' ys')) :
    foundFew tools query 1 xs ys = foundFew tools query 1 xs' ys' := by
  obtain ⟨uuid, huuid⟩ := hexpands.byUuid
  have hsame := h ⟨"main", query, none, some 1⟩ rfl _ _ halike ⟨.ok (some uuid), .ok none⟩
  rw [found_search_few huuid hexpands.byName rfl hxs hys,
    found_search_few huuid hexpands.byName rfl hxs' hys'] at hsame
  exact hsame

/-- **When a search reveals nothing.**  For a query, and the clients and devices that
controllers may have, controllers that differ in fields outside the typed models only are
searched to the same stations and devices, exactly when no two items with the same model
fields differ in whether they match. -/
theorem search_reveals_iff (hexpands : c.SearchExpands) :
    SearchHides c tools query clients devices ↔
      FieldsDecide tools query stationModelFields clients ∧
        FieldsDecide tools query deviceFields devices := by
  have hone : 1 < searchPageSize := by decide
  have hnone : 0 < searchPageSize := by decide
  refine ⟨fun h => ⟨?_, ?_⟩, fun h => searchHides_of_fieldsDecide h.1 h.2⟩
  · intro item item' hitem hitem' hagree
    have hfound := h.few hexpands [item] [item'] [] [] hone hone hnone hnone
      (searchedAlike_clients hitem hitem' hagree)
    rw [foundFew_client, foundFew_client] at hfound
    exact hit_eq_of_found_eq (fun s hs => by simp at hs) hfound
  · intro item item' hitem hitem' hagree
    have hfound := h.few hexpands [] [] [item] [item'] hnone hnone hone hone
      (searchedAlike_devices hitem hitem' hagree)
    rw [foundFew_device, foundFew_device] at hfound
    exact hit_eq_of_found_eq (fun d hd => by simp at hd) hfound

end Reveals

/-! ## Items without other fields -/

/-- An object that has none but these fields, in the order of its keys. -/
def HasNoOther (fields : List String) (item : Json) : Prop :=
  ∃ entries, item = .obj entries ∧ Ascending entries ∧ ∀ e ∈ entries, e.1 ∈ fields

theorem HasNoOther.eq_of_agreeOn {fields : List String} {item item' : Json}
    (hitem : HasNoOther fields item) (hitem' : HasNoOther fields item')
    (h : AgreeOn fields item item') : item = item' := by
  obtain ⟨entries, rfl, hascending, honly⟩ := hitem
  obtain ⟨entries', rfl, hascending', honly'⟩ := hitem'
  rcases h with h | ⟨_, _, h, h', hsame⟩
  · exact h
  cases h
  cases h'
  refine congrArg Json.obj (hascending.ext hascending' fun key => ?_)
  by_cases hkey : key ∈ fields
  · exact hsame.same key hkey
  · have hnone : ∀ {entries : List (String × Json)}, (∀ e ∈ entries, e.1 ∈ fields) →
        findEntry key entries = none := by
      intro entries honly
      refine findEntry_eq_none.2 fun hmem => ?_
      obtain ⟨value, hvalue⟩ := mem_keys.1 hmem
      exact hkey (honly _ hvalue)
    rw [hnone honly, hnone honly']

/-- Items that have no other fields are told apart by the fields of the model. -/
theorem fieldsDecide_hasNoOther (tools : Toolkit) (query : String) (fields : List String) :
    FieldsDecide tools query fields (HasNoOther fields) :=
  fun _ _ hitem hitem' hagree => congrArg _ (hitem.eq_of_agreeOn hitem' hagree)

theorem searchExpands_guestClient : guestClient.SearchExpands :=
  ⟨⟨"default", fun _ _ => ⟨_, rfl⟩⟩, ⟨_, rfl⟩⟩

/-- Where clients and devices have the fields of their models only, a search hides the rest. -/
theorem search_reveals_iff_hasNoOther :
    SearchHides guestClient .plain "secret" (HasNoOther stationModelFields)
      (HasNoOther deviceFields) :=
  (search_reveals_iff searchExpands_guestClient).2
    ⟨fieldsDecide_hasNoOther .plain "secret" stationModelFields,
      fieldsDecide_hasNoOther .plain "secret" deviceFields⟩

/-! ## A note that is found -/

/-- A wired client with a note, which is not a field of the model. -/
def notedStation (note : String) : Json :=
  .obj [("id", .str "c1"), ("macAddress", .str "00:00:5e:00:53:01"), ("note", .str note),
    ("type", .str "WIRED")]

theorem agreeOn_notedStation (note note' : String) :
    AgreeOn stationModelFields (notedStation note) (notedStation note') := by
  have hascending : ∀ v : Json, Ascending
      [("id", .str "c1"), ("macAddress", .str "00:00:5e:00:53:01"), ("note", v),
        ("type", .str "WIRED")] := by
    intro v
    have hkeys : ["id", "macAddress", "note", "type"].Pairwise (· < ·) := by decide
    exact List.pairwise_map.1 hkeys
  refine .inr ⟨_, _, rfl, rfl, hascending _, hascending _, ?_⟩
  intro key hkey
  have hhidden : key ≠ "note" := fun heq => absurd (heq ▸ hkey) (by decide)
  simp [findEntry_cons, Ne.symm hhidden]

/-- Two controllers with one client each, alike but for the note, which only one search finds. -/
theorem not_search_hides :
    SearchedAlike (fun _ => True) (fun _ => True) (fewUpstream [notedStation "secret"] [])
        (fewUpstream [notedStation "spare"] []) ∧
      found ((guestClient.search .plain ⟨"main", "secret", none, some 1⟩).eval
          (fewUpstream [notedStation "secret"] []) ⟨.ok (some "default"), .ok none⟩).1 ≠
        found ((guestClient.search .plain ⟨"main", "secret", none, some 1⟩).eval
          (fewUpstream [notedStation "spare"] []) ⟨.ok (some "default"), .ok none⟩).1 := by
  refine ⟨searchedAlike_clients trivial trivial (agreeOn_notedStation _ _), ?_⟩
  have hexpand : guestClient.LegsExpand "default" := fun _ _ => ⟨_, rfl⟩
  have hone : ∀ note, [notedStation note].length < searchPageSize := fun _ =>
    show 1 < searchPageSize by decide
  rw [found_search_few hexpand ⟨_, rfl⟩ rfl (hone "secret") (by decide),
    found_search_few hexpand ⟨_, rfl⟩ rfl (hone "spare") (by decide)]
  have hfound : searchHit .plain "secret" (notedStation "secret") = true := by decide +kernel
  have hmissed : ¬ searchHit .plain "secret" (notedStation "spare") = true := by decide +kernel
  have hleft : foundFew .plain "secret" 1 [notedStation "secret"] [] =
      .ok (some (.arr [.obj [("id", .str "c1"), ("macAddress", .str "00:00:5e:00:53:01"),
        ("type", .str "WIRED")]]), some (.arr [])) := by
    rw [foundFew_client, if_pos hfound]
    rfl
  have hright : foundFew .plain "secret" 1 [notedStation "spare"] [] =
      .ok (some (.arr []), some (.arr [])) := by
    rw [foundFew_client, if_neg hmissed]
  exact fun h => absurd (hleft.symm.trans (h.trans hright)) (by simp)

end UnifiMcp
