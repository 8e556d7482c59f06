import UnifiMcp.Json.Value
import UnifiMcp.Model.Error

/-!
# Resource kinds

The kinds of resource the read and write primitives address, the surface each is
served from, and the path it is served at.  The two response envelopes are here too,
since which of them an answer uses is decided by the surface.
-/

namespace UnifiMcp

/-- A kind of UniFi resource addressable by the read primitives. -/
inductive ResourceKind where
  | station
  | device
  | network
  | wlan
  | portProfile
  | dhcpReservation
  | firewallPolicy
  | firewallZone
  | firewallGroup
  | trafficRoute
  | radiusProfile
  | firewallRule
  | portForward
  | staticRoute
  deriving DecidableEq, Repr

namespace ResourceKind

/-- Every variant, in declaration order. -/
def all : List ResourceKind :=
  [.station, .device, .network, .wlan, .portProfile, .dhcpReservation, .firewallPolicy,
    .firewallZone, .firewallGroup, .trafficRoute, .radiusProfile, .firewallRule, .portForward,
    .staticRoute]

theorem mem_all (kind : ResourceKind) : kind ∈ all := by
  cases kind <;> decide

/-- The name a kind has on the wire. -/
def name : ResourceKind → String
  | .station => "station"
  | .device => "device"
  | .network => "network"
  | .wlan => "wlan"
  | .portProfile => "port_profile"
  | .dhcpReservation => "dhcp_reservation"
  | .firewallPolicy => "firewall_policy"
  | .firewallZone => "firewall_zone"
  | .firewallGroup => "firewall_group"
  | .trafficRoute => "traffic_route"
  | .radiusProfile => "radius_profile"
  | .firewallRule => "firewall_rule"
  | .portForward => "port_forward"
  | .staticRoute => "static_route"

/-- No two kinds share a name. -/
theorem name_injective {k k' : ResourceKind} (h : k.name = k'.name) : k = k' := by
  revert h
  cases k <;> cases k' <;> decide

/-- The kind a name denotes, if it denotes one. -/
def ofName? (kind : String) : Option ResourceKind := all.find? fun k => k.name = kind

theorem ofName?_eq_some {kind : String} {k : ResourceKind} :
    ofName? kind = some k ↔ k.name = kind := by
  have hname : ∀ {k' : ResourceKind}, ofName? kind = some k' → k'.name = kind := by
    intro k' h
    simpa using List.find?_some h
  constructor
  · exact hname
  · rintro rfl
    have hfound : (ofName? k.name).isSome :=
      List.find?_isSome.2 ⟨k, mem_all k, decide_eq_true rfl⟩
    obtain ⟨k', hk'⟩ := Option.isSome_iff_exists.1 hfound
    rw [hk', name_injective (hname hk')]

/-- `serde`'s message for a string that names no kind. -/
def unknownVariant (kind : String) : String :=
  s!"unknown variant `{kind}`, expected one of " ++
    ", ".intercalate (all.map fun k => s!"`{k.name}`")

/-- `serde_json::from_value` on a kind given as a string. -/
def parse (kind : String) : Except String ResourceKind :=
  match ofName? kind with
  | some k => .ok k
  | none => .error (unknownVariant kind)

theorem parse_eq_ok {kind : String} {k : ResourceKind} :
    parse kind = .ok k ↔ k.name = kind := by
  rw [← ofName?_eq_some, parse]
  cases ofName? kind <;> simp

/-- Which API surface this kind is served from. -/
def surface : ResourceKind → ApiSurface
  | .station | .device => .supported
  | .network | .wlan | .portProfile | .dhcpReservation | .firewallGroup | .radiusProfile
  | .firewallRule | .portForward | .staticRoute => .privateV1
  | .firewallPolicy | .firewallZone | .trafficRoute => .privateV2

/-- No kind is served from the cloud surface. -/
theorem surface_ne_cloud (kind : ResourceKind) : kind.surface ≠ .cloud := by
  cases kind <;> decide

/-- The path template of the collection. -/
def pathTemplate : ResourceKind → String
  | .station => "/proxy/network/integration/v1/sites/{site}/clients"
  | .device => "/proxy/network/integration/v1/sites/{site}/devices"
  | .network => "/proxy/network/api/s/{site}/rest/networkconf"
  | .wlan => "/proxy/network/api/s/{site}/rest/wlanconf"
  | .portProfile => "/proxy/network/api/s/{site}/rest/portconf"
  | .dhcpReservation => "/proxy/network/api/s/{site}/rest/user"
  | .firewallGroup => "/proxy/network/api/s/{site}/rest/firewallgroup"
  | .radiusProfile => "/proxy/network/api/s/{site}/rest/radiusprofile"
  | .firewallPolicy => "/proxy/network/v2/api/site/{site}/firewall-policies"
  | .firewallZone => "/proxy/network/v2/api/site/{site}/firewall/zone"
  | .trafficRoute => "/proxy/network/v2/api/site/{site}/trafficroutes"
  | .firewallRule => "/proxy/network/api/s/{site}/rest/firewallrule"
  | .portForward => "/proxy/network/api/s/{site}/rest/portforward"
  | .staticRoute => "/proxy/network/api/s/{site}/rest/routing"

/-- The path template of one resource of the collection. -/
def singleResourceTemplate (kind : ResourceKind) : String := kind.pathTemplate ++ "/{id}"

/-- No two kinds are served at one path. -/
theorem pathTemplate_injective {k k' : ResourceKind}
    (h : k.pathTemplate = k'.pathTemplate) : k = k' := by
  revert h
  cases k <;> cases k' <;> decide

theorem singleResourceTemplate_injective {k k' : ResourceKind}
    (h : k.singleResourceTemplate = k'.singleResourceTemplate) : k = k' := by
  refine pathTemplate_injective (String.toList_injective ?_)
  have h := congrArg String.toList h
  simpa [singleResourceTemplate] using h

end ResourceKind

/-- Unwrap an enveloped response `{"data": [...], ...}`. -/
def unwrapEnvelopedData (val : Json) : Except UnifiError (List Json) :=
  match (val.get? "data").bind Json.asArray? with
  | some items => .ok items
  | none => .error (.malformed "expected an envelope object with a `data` array")

/-- Unwrap a Private v2 response, a plain array. -/
def unwrapPrivateV2Data (val : Json) : Except UnifiError (List Json) :=
  match val.asArray? with
  | some items => .ok items
  | none => .error (.malformed "expected Private v2 plain array")

end UnifiMcp
