import Mathlib.Data.List.Infix
import UnifiMcp.Collections.Mapped
import UnifiMcp.Json.Render
import UnifiMcp.Tools.Workflow

/-!
# Statistics and search

`queryStats` fetches a whole collection and cuts it to a page; `search` scans two
Integration API collections page by page and filters them, and the answer of a private
endpoint with them.
-/

namespace UnifiMcp

open Interaction Collections

/-! ## Statistics -/

/-- Subject for statistics queries. -/
inductive StatsSubject where
  | site
  | device
  | station
  | wlan
  | flow
  | event
  deriving DecidableEq, Repr

/-- Arguments to `unifi_query_stats`. -/
structure QueryStatsArgs where
  controller : String
  subject : StatsSubject
  site : Option String
  start : Option Int64
  «end» : Option Int64
  offset : Option UInt64
  limit : Option UInt32

/-- The path template statistics on a subject are read at. -/
def StatsSubject.endpoint : StatsSubject → String
  | .site => "/proxy/network/api/s/{site}/stat/sites"
  | .device => "/proxy/network/api/s/{site}/stat/device"
  | .station => "/proxy/network/api/s/{site}/stat/sta"
  | .wlan => "/proxy/network/api/s/{site}/stat/wlan"
  | .flow => "/proxy/network/api/s/{site}/stat/flow"
  | .event => "/proxy/network/api/s/{site}/stat/event"

/-- Narrow a page of statistics to the fields the model may see. -/
def projectStats (r : Redactor) (subject : StatsSubject) (items : List Json) :
    Except UnifiError Json :=
  let envelope := Json.obj [("data", .arr items)]
  match subject with
  | .device => do pure (.arr ((← parseDeviceStats envelope).map DeviceStats.toJson))
  | .station => do pure (.arr ((← parseStationStats envelope).map StationStats.toJson))
  | .event => do
      pure (r.redactJsonValue (.arr ((← parseEvents envelope).map ControllerEvent.toJson)))
  | .wlan => .ok (r.projectResourceList .wlan (.arr items))
  | .site | .flow => .ok (r.redactOwned (.arr items))

/-- The page of a collection of statistics that is answered. -/
def statsPage (r : Redactor) (page : PageFn) (subject : StatsSubject) (data : List Json)
    (offset : Option UInt64) (limit : Option UInt32) : Except UnifiError Json := do
  let paged ← paginate page data offset limit
  let projected ← projectStats r subject paged.items
  pure (.obj [("data", projected), ("limit", .num (.posInt paged.limit.toUInt64)),
    ("offset", .num (.posInt paged.offset)), ("total", .ofUsize paged.total)])

/-! ## Search -/

/-- Arguments to `unifi_search`. -/
structure SearchArgs where
  controller : String
  query : String
  site : Option String
  limit : Option UInt32

/-- Items scanned per leg before `search` gives up and returns what it has. -/
def searchScanCap : Nat := 5000

/-- Page size used when scanning a leg for search matches. -/
def searchPageSize : Nat := 200

/-- Whether a text occurs in another. -/
def contains (s sub : String) : Bool := decide (sub.toList <:+: s.toList)

/-- Filter results by a query string. -/
def filterByQuery (tools : Toolkit) (items : List Json) (query : String) (limit : Nat) :
    List Json :=
  let queryLower := tools.toLowercase query
  (items.filter fun item =>
    contains (tools.toLowercase (item.compact tools.number)) queryLower).take limit

/-- Whether an item matches a query, as the controller sent it. -/
def searchHit (tools : Toolkit) (query : String) (item : Json) : Bool :=
  contains (tools.toLowercase (item.compact tools.number)) (tools.toLowercase query)

theorem filterByQuery_eq (tools : Toolkit) (items : List Json) (query : String) (limit : Nat) :
    filterByQuery tools items query limit = (items.filter (searchHit tools query)).take limit :=
  rfl

/-- What a leg reports when its scan stopped at the cap. -/
def cappedNote (name : String) : String :=
  s!"{name}: scanned first {searchScanCap} of ≥{searchScanCap}; refine the query"

/-- A leg's matches, and whether the cap cut its scan short. -/
structure ScanResult where
  items : List Json
  capped : Bool

/-- What a search leg adds to `omitted`. -/
def LegResult.searchOmission (name : String) : LegResult ScanResult → Option String
  | .ok result => if result.capped then some (cappedNote name) else none
  | .omitted reason => some reason

/-- Whether a leg was refused. -/
def LegResult.refused {α : Type} : LegResult α → Bool
  | .ok _ => false
  | .omitted _ => true

namespace UnifiClient

variable (c : UnifiClient) (tools : Toolkit)

/-- Query statistics for a subject. -/
def queryStats (args : QueryStatsArgs) : ClientM Json := do
  let site ← match args.site with
    | some site => pure site
    | none => c.defaultSiteFor .privateV1
  let raw ← c.getAt .privateV1 args.subject.endpoint site (windowQuery args.start args.end)
  let data ← enveloped raw
  Fallible.ofExcept (statsPage tools.toRedactor tools.page args.subject data args.offset args.limit)

/-- One page of an Integration API collection. -/
def fetchPage (path siteUuid : String) (offset : Nat) : ClientM (List Json) := do
  let raw ← c.getAt .supported path siteUuid
    [("offset", toString offset), ("limit", toString searchPageSize)]
  enveloped raw

/-- Scan a collection from an offset on; `all` are the items scanned so far, and whether the
cap was reached is answered with all of them. -/
def scan (path siteUuid : String) (offset : Nat) (all : List Json) :
    ClientM (List Json × Bool) := do
  let page ← c.fetchPage path siteUuid offset
  let scanned := all ++ page
  if _hcap : searchScanCap ≤ scanned.length then pure (scanned, searchPageSize ≤ page.length)
  else if _hlast : page.length < searchPageSize then pure (scanned, false)
  else scan path siteUuid (offset + searchPageSize) scanned
termination_by searchScanCap - all.length
decreasing_by
  -- A page that does not end the scan is full, and the cap is not reached yet.
  simp only [scanned, List.length_append, searchScanCap, searchPageSize] at _hcap _hlast ⊢
  omega

/-- Scan a whole collection and filter it. -/
def scanAndFilter (path siteUuid query : String) (limit : Nat) : ClientM ScanResult := do
  let (all, capped) ← c.scan path siteUuid 0 []
  pure ⟨filterByQuery tools all query limit, capped⟩

/-- The matches of a search leg, as the type of its items narrows them. -/
def searchMatches {α : Type} (parse : Json → Except UnifiError (List α)) (toJson : α → Json)
    (result : ScanResult) : ClientM (List Json) := do
  let parsed ← Fallible.ofExcept (parse (.obj [("data", .arr result.items)]))
  pure (parsed.map toJson)

/-- The search at a resolved site. -/
def searchAt (siteUuid siteName : String) (args : SearchArgs) : ClientM Json := do
  let limit := (args.limit.getD 10).toNat
  let stations ← leg "stations" integrationApi
    (c.scanAndFilter tools ResourceKind.station.pathTemplate siteUuid args.query limit)
  let stationsResults ← stations.read [] (searchMatches parseStations Station.toJson)
  let devices ← leg "devices" integrationApi
    (c.scanAndFilter tools ResourceKind.device.pathTemplate siteUuid args.query limit)
  let devicesResults ← devices.read [] (searchMatches parseDevices Device.toJson)
  let sites ← leg "sites" privateApi
    (c.getAt .privateV1 "/proxy/network/api/s/{site}/self" siteName [])
  let sitesResults ← sites.read [] fun sites => do
    let parsed ← Fallible.ofExcept (parseSites sites)
    pure (filterByQuery tools (parsed.map Site.toJson) args.query limit)
  let omitted := omissions
    [stations.searchOmission "stations", devices.searchOmission "devices", sites.omission]
  if stations.refused && devices.refused && sites.refused then
    throw (.malformed "all search legs refused: nothing was searched")
  pure (.obj [("devices", .arr devicesResults), ("omitted", .ofStrings omitted),
    ("partial", .bool !omitted.isEmpty), ("sites", .arr sitesResults),
    ("stations", .arr stationsResults)])

/-- Search across stations, devices and sites. -/
def search (args : SearchArgs) : ClientM Json := do
  let siteUuid ← c.defaultSiteFor .supported
  c.searchAt tools siteUuid (args.site.getD c.defaultSite) args

end UnifiClient

/-! ## Statistics item by item -/

/-- Parse one item of an answer. -/
def parseItem {α : Type} (what : String) (ofJson : Json → Except DecodeError α) (item : Json) :
    Except UnifiError α :=
  (ofJson item).mapError fun e => .malformed s!"{what} parse failed: {e.toString}"

theorem map_parseItems {α : Type} (what : String) (ofJson : Json → Except DecodeError α)
    (g : List α → Json) (items : List Json) :
    (do pure (g (← parseItems what ofJson (.obj [("data", .arr items)])))) =
      (items.mapM (parseItem what ofJson)).map g := by
  have hparse : parseItems what ofJson (.obj [("data", .arr items)]) =
      items.mapM (parseItem what ofJson) := rfl
  rw [hparse]
  cases items.mapM (parseItem what ofJson) with
  | error e => rfl
  | ok parsed => rfl

/-- Narrow one item of the statistics. -/
def projectStat (r : Redactor) : StatsSubject → Json → Except UnifiError Json
  | .device, item => (parseItem "device stats" DeviceStats.ofJson item).map DeviceStats.toJson
  | .station, item => (parseItem "station stats" StationStats.ofJson item).map StationStats.toJson
  | .event, item =>
      (parseItem "event" ControllerEvent.ofJson item).map fun e => r.redactJsonValue e.toJson
  | .wlan, item => .ok (r.projectResource .wlan item)
  | .site, item | .flow, item => .ok (r.redactOwned item)

/-- Statistics are narrowed item by item. -/
theorem projectStats_eq {r : Redactor} (hr : r.Itemwise) (subject : StatsSubject)
    (items : List Json) :
    projectStats r subject items = (items.mapM (projectStat r subject)).map .arr := by
  have hmapped : ∀ {α : Type} {p : Json → Except UnifiError α} {g : α → Json},
      (items.mapM p).map (fun xs => Json.arr (xs.map g)) =
        (items.mapM fun item => (p item).map g).map .arr := by
    intro α p g
    rw [mapM_map_ok]
    cases items.mapM p with
    | error e => rfl
    | ok xs => rfl
  cases subject with
  | device => exact (map_parseItems _ _ _ items).trans hmapped
  | station => exact (map_parseItems _ _ _ items).trans hmapped
  | event =>
      refine (map_parseItems _ _ _ items).trans (Eq.trans ?_ hmapped)
      congr 1
      funext xs
      rw [hr.redactJsonValue, List.map_map]
      rfl
  | wlan =>
      have hitems := mapM_ok (ε := UnifiError) (r.projectResource .wlan) items
      exact (congrArg Except.ok (hr.projectMany wlanFields items)).trans
        (congrArg (Except.map Json.arr) hitems).symm
  | site | flow =>
      have hitems := mapM_ok (ε := UnifiError) r.redactOwned items
      exact (congrArg Except.ok (hr.redactJsonValue items)).trans
        (congrArg (Except.map Json.arr) hitems).symm

/-- The statistics of a part of a collection are that part of its statistics. -/
theorem projectStats_window {r : Redactor} (hr : r.Itemwise) {subject : StatsSubject}
    {data items : List Json} (h : projectStats r subject data = .ok (.arr items)) :
    data.length = items.length ∧ ∀ m n,
      projectStats r subject ((data.drop m).take n) = .ok (.arr ((items.drop m).take n)) := by
  rw [projectStats_eq hr] at h
  obtain ⟨items', hitems⟩ : ∃ items', data.mapM (projectStat r subject) = .ok items' := by
    cases hmapped : data.mapM (projectStat r subject) with
    | error e =>
        rw [hmapped] at h
        cases h
    | ok items' => exact ⟨items', rfl⟩
  rw [hitems] at h
  cases h
  refine ⟨(mapM_eq_ok.1 hitems).length_eq, fun m n => ?_⟩
  rw [projectStats_eq hr, mapM_window hitems]
  rfl

end UnifiMcp
