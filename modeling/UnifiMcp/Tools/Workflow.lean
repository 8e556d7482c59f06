import UnifiMcp.Client.Request
import UnifiMcp.Model.Records
import UnifiMcp.Tools.Redact
import UnifiMcp.Tools.Pagination

/-!
# Reports that join several requests

Each report first resolves the site and then fetches its legs one after another.  A leg the
caller may not read is left out and named in `omitted`; any other failure ends the report.
The second half of a report, from the resolved site on, is a definition of its own.
-/

namespace UnifiMcp

open Interaction Collections

/-- What the tools take from outside the repository. -/
structure Toolkit extends Redactor where
  page : PageFn
  /-- How `serde_json` writes a number. -/
  number : Number → String
  /-- `str::to_lowercase`. -/
  toLowercase : String → String
  /-- The order a `HashMap` lists its entries in. -/
  hashOrder : List (String × UInt64) → List (String × UInt64)

/-- A number as `serde_json` writes it; a double is given as the fraction it denotes. -/
def plainNumber : Number → String
  | .posInt n => toString n.toNat
  | .negInt n => toString n.toInt
  | .float q => s!"{q.num}/{q.den}"

/-- A toolkit for concrete runs: nothing is secret, and a page is refused only without a size. -/
def Toolkit.plain : Toolkit where
  project allow value :=
    match value with
    | .obj fields => .obj (fields.filter fun field => field.1 ∈ allow)
    | other => other
  projectMany allow value :=
    match value with
    | .arr items => .arr (items.map fun
        | .obj fields => .obj (fields.filter fun field => field.1 ∈ allow)
        | other => other)
    | .obj fields => .obj (fields.filter fun field => field.1 ∈ allow)
    | other => other
  redactJsonValue := id
  page offset limit :=
    if limit = 0 then .error "limit must not be zero" else .ok ⟨offset.toUInt32, limit.toUInt32⟩
  number := plainNumber
  toLowercase s := s.map Char.toLower
  hashOrder := id

/-! ## Legs -/

/-- What became of a leg: its answer, or that it was refused and why. -/
inductive LegResult (α : Type) where
  | ok (answer : α)
  | omitted (reason : String)

/-- Fetch a leg.  `disabled` is what is reported when the controller has not opted into the
surface. -/
def leg {α : Type} (name disabled : String) (fetch : ClientM α) : ClientM (LegResult α) := do
  match ← fetch.attempt with
  | .ok answer => pure (.ok answer)
  | .error (.surfaceRequiresConfig _) =>
      pure (.omitted s!"{name}: controller has {disabled} disabled")
  | .error (.surfaceRequiresScope _) => pure (.omitted s!"{name}: token lacks required scope")
  | .error e => throw e

/-- Why a leg was left out, if it was. -/
def LegResult.omission {α : Type} : LegResult α → Option String
  | .ok _ => none
  | .omitted reason => some reason

/-- The answer of a leg, or a value in its place. -/
def LegResult.getD {α : Type} (l : LegResult α) (absent : α) : α :=
  match l with
  | .ok answer => answer
  | .omitted _ => absent

/-- The reasons the legs were left out, in order. -/
def omissions (legs : List (Option String)) : List String := legs.filterMap id

/-- What is reported of the Integration API. -/
def integrationApi : String := "Integration API"

/-- What is reported of the private surfaces. -/
def privateApi : String := "allow_private_api"

/-- Nothing was gathered. -/
def allRefused : UnifiError := .malformed "all data sources refused: nothing was gathered"

/-! ## Joins -/

/-- Put the statistics recorded under an item's MAC address into the item. -/
def joinStats (r : Redactor) (kind : ResourceKind) (key : String) (stats : List Json)
    (item : Json) : Json :=
  let enriched := r.projectResource kind item
  match item.getStr? "macAddress" with
  | none => enriched
  | some mac =>
      match stats.find? fun s => s.getStr? "mac" = some mac, enriched.asObject? with
      | some stat, some fields => .obj (insertEntry key (r.redactOwned stat) fields)
      | _, _ => enriched

/-- Join devices with their statistics by MAC address. -/
def joinDevicesWithStats (r : Redactor) (devices stats : List Json) : List Json :=
  devices.map (joinStats r .device "stats" stats)

/-- Join clients with their statistics by MAC address. -/
def joinClientsWithStats (r : Redactor) (clients stats : List Json) : List Json :=
  clients.map (joinStats r .station "flowStats" stats)

/-- The application a record counts, and its bytes in both directions. -/
def applicationBytes (app : Json) : Option (String × UInt64) := do
  let name ← app.getStr? "app"
  let tx ← (app.get? "tx_bytes").bind Json.asU64?
  let rx ← (app.get? "rx_bytes").bind Json.asU64?
  pure (name, tx + rx)

/-- Count the bytes of one record. -/
def addBytes (counts : List (String × UInt64)) (record : String × UInt64) :
    List (String × UInt64) :=
  insertEntry record.1 ((findEntry record.1 counts).getD 0 + record.2) counts

/-- Extract the ten applications with the most bytes from station statistics. -/
def extractTopApplications (tools : Toolkit) (stats : List Json) : List Json :=
  let apps := stats.flatMap fun stat => ((stat.get? "by_app").bind Json.asArray?).getD []
  let counts := (apps.filterMap applicationBytes).foldl addBytes []
  let sorted := (tools.hashOrder counts).mergeSort fun a b => b.2 ≤ a.2
  (sorted.take 10).map fun (name, bytes) =>
    .obj [("application", .str name), ("totalBytes", .num (.posInt bytes))]

/-! ## Site health -/

/-- Arguments to `unifi_site_health_report`. -/
structure SiteHealthReportArgs where
  controller : String
  site : Option String
  offset : Option UInt64
  limit : Option UInt32

/-- Site health report. -/
structure SiteHealthReport where
  devices : List Json
  health : Json
  partiality : Bool
  omitted : List String
  offset : UInt64
  limit : UInt32
  total : Nat

/-- A list of texts as JSON. -/
def Json.ofStrings (texts : List String) : Json := .arr (texts.map .str)

/-- The report as it is answered. -/
def SiteHealthReport.toJson (r : SiteHealthReport) : Json :=
  .obj [("devices", .arr r.devices), ("health", r.health),
    ("limit", .num (.posInt r.limit.toUInt64)), ("offset", .num (.posInt r.offset)),
    ("omitted", .ofStrings r.omitted), ("partial", .bool r.partiality),
    ("total", .ofUsize r.total)]

/-- The report of what was gathered, cut to a page of the devices. -/
def SiteHealthReport.ofPage (page : PageFn) (devices : List Json) (health : Json)
    (omitted : List String) (offset : Option UInt64) (limit : Option UInt32) :
    Except UnifiError SiteHealthReport := do
  let paged ← paginate page devices offset limit
  pure
    { devices := paged.items, health, partiality := !omitted.isEmpty, omitted
      offset := paged.offset, limit := paged.limit, total := paged.total }

/-- The items of an enveloped answer. -/
def enveloped (val : Json) : ClientM (List Json) := Fallible.ofExcept (unwrapEnvelopedData val)

/-- What a leg gathered, by a reader of its answer; `absent` if it was left out. -/
def LegResult.read {α β : Type} (absent : β) (reader : α → ClientM β) : LegResult α → ClientM β
  | .ok answer => reader answer
  | .omitted _ => pure absent

namespace UnifiClient

variable (c : UnifiClient) (tools : Toolkit)

/-- The configured site, by name. -/
def defaultSite : String := c.controller.site

/-- The GET of one leg at a site. -/
def getAt (surface : ApiSurface) (template site : String) (query : List (String × String)) :
    ClientM Json :=
  c.get surface template [("site", site)] query

/-- The projected items of an Integration API leg. -/
def projectedLeg (kind : ResourceKind) (val : Json) : ClientM (List Json) := do
  let items ← enveloped val
  pure (items.map (tools.projectResource kind))

/-- The site health report at a resolved site. -/
def siteHealthAt (siteUuid siteName : String) (args : SiteHealthReportArgs) :
    ClientM SiteHealthReport := do
  let devices ← leg "devices" integrationApi
    (c.getAt .supported ResourceKind.device.pathTemplate siteUuid [])
  let devicesResult ← devices.read [] (projectedLeg tools .device)
  let health ← leg "health" privateApi
    (c.getAt .privateV1 "/proxy/network/api/s/{site}/stat/health" siteName [])
  let healthResult ← health.read .null fun health => do
    let data ← enveloped health
    pure (tools.redactOwned (.arr data))
  let stats ← leg "device_stats" privateApi
    (c.getAt .privateV1 "/proxy/network/api/s/{site}/stat/device" siteName [])
  let statsResult ← stats.read [] enveloped
  let omitted := omissions [devices.omission, health.omission, stats.omission]
  if omitted.length = 3 then throw allRefused
  let joined := if devicesResult.isEmpty then devicesResult
    else joinDevicesWithStats tools.toRedactor devicesResult statsResult
  Fallible.ofExcept
    (SiteHealthReport.ofPage tools.page joined healthResult omitted args.offset args.limit)

/-- Generate a site health report. -/
def siteHealthReport (args : SiteHealthReportArgs) : ClientM SiteHealthReport := do
  let siteUuid ← c.defaultSiteFor .supported
  c.siteHealthAt tools siteUuid (args.site.getD c.defaultSite) args

end UnifiClient

/-! ## Topology -/

/-- Arguments to `unifi_topology_report`. -/
structure TopologyReportArgs where
  controller : String
  site : Option String
  offset : Option UInt64
  limit : Option UInt32

/-- Topology report. -/
structure TopologyReport where
  edges : List Json
  devices : List Json
  networks : List Json
  partiality : Bool
  omitted : List String
  offset : UInt64
  limit : UInt32
  total : Nat

/-- The report as it is answered. -/
def TopologyReport.toJson (r : TopologyReport) : Json :=
  .obj [("devices", .arr r.devices), ("edges", .arr r.edges),
    ("limit", .num (.posInt r.limit.toUInt64)), ("networks", .arr r.networks),
    ("offset", .num (.posInt r.offset)), ("omitted", .ofStrings r.omitted),
    ("partial", .bool r.partiality), ("total", .ofUsize r.total)]

/-- The report of what was gathered, cut to a page of the devices. -/
def TopologyReport.ofPage (page : PageFn) (edges devices networks : List Json)
    (omitted : List String) (offset : Option UInt64) (limit : Option UInt32) :
    Except UnifiError TopologyReport := do
  let paged ← paginate page devices offset limit
  pure
    { edges, devices := paged.items, networks, partiality := !omitted.isEmpty, omitted
      offset := paged.offset, limit := paged.limit, total := paged.total }

/-- The edges a topology answer holds; none if it holds no list of them. -/
def topologyEdges (topology : Json) : List Json :=
  ((topology.get? "edges").bind Json.asArray?).getD []

namespace UnifiClient

variable (c : UnifiClient) (tools : Toolkit)

/-- The topology report at a resolved site. -/
def topologyAt (siteUuid siteName : String) (args : TopologyReportArgs) :
    ClientM TopologyReport := do
  let topology ← leg "topology" privateApi
    (c.getAt .privateV2 "/proxy/network/v2/api/site/{site}/topology" siteName [])
  let edgesResult ← topology.read [] fun topology => pure (topologyEdges topology)
  let devices ← leg "devices" integrationApi
    (c.getAt .supported ResourceKind.device.pathTemplate siteUuid [])
  let devicesResult ← devices.read [] (projectedLeg tools .device)
  let networks ← leg "networks" privateApi
    (c.getAt .privateV1 ResourceKind.network.pathTemplate siteName [])
  let networksResult ← networks.read [] (projectedLeg tools .network)
  let omitted := omissions [topology.omission, devices.omission, networks.omission]
  if omitted.length = 3 then throw allRefused
  Fallible.ofExcept
    (TopologyReport.ofPage tools.page edgesResult devicesResult networksResult omitted
      args.offset args.limit)

/-- Generate a topology report. -/
def topologyReport (args : TopologyReportArgs) : ClientM TopologyReport := do
  let siteUuid ← c.defaultSiteFor .supported
  c.topologyAt tools siteUuid (args.site.getD c.defaultSite) args

end UnifiClient

/-! ## Traffic flow -/

/-- Arguments to `unifi_traffic_flow_report`. -/
structure TrafficFlowReportArgs where
  controller : String
  site : Option String
  /-- The time window, in seconds since the Unix epoch. -/
  start : Option Int64
  «end» : Option Int64
  offset : Option UInt64
  limit : Option UInt32

/-- Traffic flow report. -/
structure TrafficFlowReport where
  clients : List Json
  topApplications : List Json
  partiality : Bool
  omitted : List String
  offset : UInt64
  limit : UInt32
  total : Nat

/-- The report as it is answered. -/
def TrafficFlowReport.toJson (r : TrafficFlowReport) : Json :=
  .obj [("clients", .arr r.clients), ("limit", .num (.posInt r.limit.toUInt64)),
    ("offset", .num (.posInt r.offset)), ("omitted", .ofStrings r.omitted),
    ("partial", .bool r.partiality), ("top_applications", .arr r.topApplications),
    ("total", .ofUsize r.total)]

/-- The report of what was gathered, cut to a page of the clients. -/
def TrafficFlowReport.ofPage (page : PageFn) (clients topApplications : List Json)
    (omitted : List String) (offset : Option UInt64) (limit : Option UInt32) :
    Except UnifiError TrafficFlowReport := do
  let paged ← paginate page clients offset limit
  pure
    { clients := paged.items, topApplications, partiality := !omitted.isEmpty, omitted
      offset := paged.offset, limit := paged.limit, total := paged.total }

/-- The query of a time window. -/
def windowQuery (start stop : Option Int64) : List (String × String) :=
  (start.map fun t => ("start", toString t.toInt)).toList ++
    (stop.map fun t => ("end", toString t.toInt)).toList

namespace UnifiClient

variable (c : UnifiClient) (tools : Toolkit)

/-- The clients and the applications of a statistics answer. -/
def flowStats (clients : List Json) (val : Json) : ClientM (List Json × List Json) := do
  let data ← enveloped val
  let joined := if clients.isEmpty then clients
    else joinClientsWithStats tools.toRedactor clients data
  pure (joined, extractTopApplications tools data)

/-- The traffic flow report at a resolved site. -/
def trafficFlowAt (siteUuid siteName : String) (args : TrafficFlowReportArgs) :
    ClientM TrafficFlowReport := do
  let clients ← leg "clients" integrationApi
    (c.getAt .supported ResourceKind.station.pathTemplate siteUuid [])
  let clientsResult ← clients.read [] (projectedLeg tools .station)
  let stats ← leg "station_stats" privateApi
    (c.getAt .privateV1 "/proxy/network/api/s/{site}/stat/sta" siteName
      (windowQuery args.start args.end))
  let (joined, topApplications) ← stats.read (clientsResult, []) (flowStats tools clientsResult)
  let omitted := omissions [clients.omission, stats.omission]
  if omitted.length = 2 then throw allRefused
  Fallible.ofExcept
    (TrafficFlowReport.ofPage tools.page joined topApplications omitted args.offset args.limit)

/-- Generate a traffic flow report. -/
def trafficFlowReport (args : TrafficFlowReportArgs) : ClientM TrafficFlowReport := do
  let siteUuid ← c.defaultSiteFor .supported
  c.trafficFlowAt tools siteUuid (args.site.getD c.defaultSite) args

end UnifiClient

/-! ## One client -/

/-- Arguments to `unifi_client_troubleshoot`. -/
structure ClientTroubleshootArgs where
  controller : String
  mac : String
  site : Option String

/-- Client troubleshoot report. -/
structure ClientTroubleshootReport where
  mac : String
  association : Option Json
  uplinkDevice : Option Json
  appliedPolicies : List Json
  partiality : Bool
  omitted : List String

/-- The report as it is answered. -/
def ClientTroubleshootReport.toJson (r : ClientTroubleshootReport) : Json :=
  .obj [("applied_policies", .arr r.appliedPolicies), ("association", r.association.getD .null),
    ("mac", .str r.mac), ("omitted", .ofStrings r.omitted), ("partial", .bool r.partiality),
    ("uplink_device", r.uplinkDevice.getD .null)]

/-- The items of a bare or an enveloped array. -/
def bareOrEnveloped (v : Json) : Option (List Json) :=
  v.asArray?.or ((v.get? "data").bind Json.asArray?)

/-- The zones that contain a network. -/
def matchingZoneIds (networkId : String) (zones : List Json) : List String :=
  zones.filterMap fun zone => do
    let networkIds ← (zone.get? "network_ids").bind Json.asArray?
    if networkIds.any fun nid => nid.asStr? = some networkId then zone.getStr? "_id" else none

/-- Whether a policy is enabled and names one of the zones as its source or destination. -/
def policyApplies (zoneIds : List String) (policy : Json) : Bool :=
  let zoneOf := fun side : String => (policy.get? side).bind fun s => s.getStr? "zone_id"
  ((policy.get? "enabled").bind Json.asBool?).getD false &&
    zoneIds.any fun id => some id = zoneOf "source" || some id = zoneOf "destination"

/-- The policies that apply to a station, and what the correlation had to leave out. -/
def correlate (r : Redactor) (station : Json) (zones policies : Option (List Json)) :
    List Json × List String :=
  match station.getStr? "network_id" with
  | none => ([], ["station has no network_id for correlation"])
  | some networkId =>
      match zones, policies with
      | some zones, some policies =>
          let zoneIds := matchingZoneIds networkId zones
          ((policies.filter (policyApplies zoneIds)).map (r.projectResource .firewallPolicy),
            if zoneIds.isEmpty then [s!"network {networkId} not found in any zone"] else [])
      | zones, policies =>
          ([], (if zones.isNone then ["zones unavailable for correlation"] else []) ++
            if policies.isNone then ["policies unavailable for correlation"] else [])

/-- Build a client troubleshoot report from stations, devices, policies and zones. -/
def buildClientTroubleshoot (r : Redactor) (mac site : String)
    (stations devices policies zones : Json) : Except UnifiError ClientTroubleshootReport := do
  let stationsData ← unwrapEnvelopedData stations
  let devicesData ← unwrapEnvelopedData devices
  match stationsData.find? fun s => s.getStr? "mac" = some mac with
  | none => throw (.malformed s!"station {mac} not found on site {site}")
  | some station =>
      let uplinkDevice := (station.getStr? "last_uplink_mac").bind fun uplinkMac =>
        (devicesData.find? fun d => d.getStr? "macAddress" = some uplinkMac).map
          (r.projectResource .device)
      let (appliedPolicies, omitted) :=
        correlate r station (bareOrEnveloped zones) (bareOrEnveloped policies)
      pure
        { mac, association := some (r.projectResource .station station), uplinkDevice
          appliedPolicies, partiality := !omitted.isEmpty, omitted }

namespace UnifiClient

variable (c : UnifiClient) (tools : Toolkit)

/-- The troubleshoot report at a resolved site.  What the correlation left out is replaced by
what the legs left out. -/
def clientTroubleshootAt (siteUuid siteName : String) (args : ClientTroubleshootArgs) :
    ClientM ClientTroubleshootReport := do
  let stations ← leg "stations" privateApi
    (c.getAt .privateV1 "/proxy/network/api/s/{site}/stat/sta" siteName [])
  let devices ← leg "devices" integrationApi
    (c.getAt .supported ResourceKind.device.pathTemplate siteUuid [])
  let policies ← leg "policies" privateApi
    (c.getAt .privateV2 ResourceKind.firewallPolicy.pathTemplate siteName [])
  let zones ← leg "zones" privateApi
    (c.getAt .privateV2 ResourceKind.firewallZone.pathTemplate siteName [])
  let omitted := omissions
    [stations.omission, devices.omission, policies.omission, zones.omission]
  if omitted.length = 4 then throw allRefused
  let report ← Fallible.ofExcept
    (buildClientTroubleshoot tools.toRedactor args.mac (args.site.getD siteName)
      (stations.getD .null) (devices.getD .null) (policies.getD .null) (zones.getD .null))
  pure { report with partiality := !omitted.isEmpty, omitted }

/-- Generate a client troubleshoot report. -/
def clientTroubleshoot (args : ClientTroubleshootArgs) : ClientM ClientTroubleshootReport := do
  let siteUuid ← c.defaultSiteFor .supported
  c.clientTroubleshootAt tools siteUuid (args.site.getD c.defaultSite) args

end UnifiClient

end UnifiMcp
