import UnifiMcp.Client.Request
import UnifiMcp.Model.Firewall
import UnifiMcp.Model.Network
import UnifiMcp.Model.Routing
import UnifiMcp.Tools.Workflow

/-!
# Listing and getting resources

Each kind of resource has a parser of its own; what it gives is written out again, cut to a
page where the controller did not do that, and projected to the kind's allowlist.
-/

namespace UnifiMcp

open Interaction

/-- Write out what a parser gave. -/
def rendered {α : Type} (toJson : α → Json) (parsed : Except UnifiError (List α)) :
    Except UnifiError Json :=
  parsed.map fun items => .arr (items.map toJson)

/-- Parse a response through the parser of its kind. -/
def parseResourceList (number : Number → String) (kind : ResourceKind) (raw : Json) :
    Except UnifiError Json :=
  match kind with
  | .station => rendered Station.toJson (parseStations raw)
  | .device => rendered Device.toJson (parseDevices raw)
  | .network => rendered NetworkConf.toJson (parseNetworks raw)
  | .wlan => rendered Wlan.toJson (parseWlans raw)
  | .portProfile => rendered PortProfile.toJson (parsePortProfiles raw)
  | .dhcpReservation => rendered DhcpReservation.toJson (parseDhcpReservations raw)
  | .firewallPolicy => rendered FirewallPolicy.toJson (parseFirewallPolicies raw)
  | .firewallZone => rendered FirewallZone.toJson (parseFirewallZones raw)
  | .firewallGroup => rendered FirewallGroup.toJson (parseFirewallGroups raw)
  | .trafficRoute => rendered TrafficRoute.toJson (parseTrafficRoutes raw)
  | .radiusProfile => rendered RadiusProfile.toJson (parseRadiusProfiles raw)
  | .firewallRule => rendered FirewallRule.toJson (parseFirewallRules number raw)
  | .portForward => rendered PortForward.toJson (parsePortForwards raw)
  | .staticRoute => rendered Route.toJson (parseRoutes raw)

/-- Cut a list to its page on the surfaces that discard the paging of the query. -/
def applyPageIfUpstreamIgnoredIt (surface : ApiSurface) (page : PageWindow) (parsed : Json) :
    Json :=
  if surface = .supported then parsed
  else
    match parsed with
    | .arr items => .arr ((items.drop page.start.toNat).take page.size.toNat)
    | parsed => parsed

/-- Arguments to `unifi_list_resources`. -/
structure ListResourcesArgs where
  controller : String
  kind : ResourceKind
  site : Option String
  limit : Option UInt32
  offset : Option UInt64

/-- Arguments to `unifi_get_resource`. -/
structure GetResourceArgs where
  controller : String
  kind : ResourceKind
  id : String
  site : Option String

/-- Arguments to `unifi_list_sites`. -/
structure ListSitesArgs where
  controller : String

/-- Bring the answer to a single-resource read into the shape of a collection. -/
def normalizeSingle (kind : ResourceKind) (raw : Json) : Json :=
  match raw.get? "data" with
  | some (.arr _) => raw
  | some data => .obj [("data", .arr [data])]
  | none =>
      match raw with
      | .arr _ => raw
      | raw =>
          match kind.surface with
          | .privateV2 => .arr [raw]
          | .supported | .privateV1 | .cloud => .obj [("data", .arr [raw])]

/-- Parse a single-resource response through the parser of its kind. -/
def parseSingleResource (number : Number → String) (kind : ResourceKind) (raw : Json) :
    Except UnifiError Json := do
  match ← parseResourceList number kind (normalizeSingle kind raw) with
  | .arr [item] => pure item
  | parsed => pure parsed

namespace UnifiClient

variable (c : UnifiClient)

/-- The site a caller named, or the default one. -/
def siteOr (site : Option String) (surface : ApiSurface) : ClientM String :=
  match site with
  | some site => pure site
  | none => c.defaultSiteFor surface

variable (tools : Toolkit)

/-- List resources of one kind. -/
def listResources (args : ListResourcesArgs) : ClientM Json := do
  let page ← Fallible.ofExcept <|
    (tools.page (args.offset.getD 0) (args.limit.getD 200).toUInt64).mapError .malformed
  let surface := args.kind.surface
  let site ← c.siteOr args.site surface
  let raw ← c.get surface args.kind.pathTemplate [("site", site)]
    [("offset", toString page.start.toNat), ("limit", toString page.size.toNat)]
  let parsed ← Fallible.ofExcept (parseResourceList tools.number args.kind raw)
  let paged := applyPageIfUpstreamIgnoredIt surface page parsed
  pure (tools.projectResourceList args.kind paged)

/-- Get a single resource by id. -/
def getResource (args : GetResourceArgs) : ClientM Json := do
  let surface := args.kind.surface
  let site ← c.siteOr args.site surface
  let raw ← c.get surface args.kind.singleResourceTemplate [("site", site), ("id", args.id)] []
  let parsed ← Fallible.ofExcept (parseSingleResource tools.number args.kind raw)
  pure (tools.projectResourceList args.kind parsed)

/-- List the sites visible to this controller. -/
def listSites (_args : ListSitesArgs) : ClientM Json := do
  let raw ← c.get .supported sitesPath [] []
  Fallible.ofExcept (rendered Site.toJson (parseSites raw))

end UnifiClient

end UnifiMcp
