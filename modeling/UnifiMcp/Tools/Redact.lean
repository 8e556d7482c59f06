import UnifiMcp.Model.Resource

/-!
# What the model may see of a resource

A resource is cut to the fields its kind allows before it leaves the server; a firewall
policy keeps its open field set and is redacted in place instead.  How a field list is
applied and what the redaction replaces is decided by a crate that is not part of the
repository, so both are given by a `Redactor`.
-/

namespace UnifiMcp

/-- The redaction crate: `FieldAllowlist::project`, `FieldAllowlist::project_many` and
`redact_json_value`. -/
structure Redactor where
  project : List String → Json → Json
  projectMany : List String → Json → Json
  redactJsonValue : Json → Json

/-- Fields the model may see for a station, under the names of the Integration API and
under those of `stat/sta`. -/
def stationFields : List String :=
  ["id", "type", "name", "connectedAt", "ipAddress", "macAddress", "uplinkDeviceId", "_id",
    "mac", "last_ip", "network_id", "last_uplink_mac", "hostname", "is_wired"]

/-- Fields the model may see for a device. -/
def deviceFields : List String :=
  ["id", "macAddress", "ipAddress", "name", "model", "state", "supported", "firmwareVersion",
    "firmwareUpdatable", "features", "interfaces"]

/-- Fields the model may see for a network. -/
def networkFields : List String :=
  ["_id", "name", "purpose", "ip_subnet", "vlan", "dhcpd_enabled", "dhcpd_start", "dhcpd_stop",
    "wan_dns1", "wan_dns2", "wan_ipv6_dns1", "wan_ipv6_dns2", "wan_type"]

/-- Fields the model may see for a wireless network. -/
def wlanFields : List String :=
  ["_id", "name", "enabled", "security", "wlan_band", "is_guest", "num_sta", "satisfaction"]

/-- Fields the model may see for a port profile. -/
def portProfileFields : List String := ["_id", "name", "forward", "native_networkconf_id"]

/-- Fields the model may see for a DHCP reservation. -/
def dhcpReservationFields : List String :=
  ["_id", "mac", "last_ip", "fixed_ip", "hostname", "use_fixedip"]

/-- Fields the model may see for a RADIUS profile. -/
def radiusProfileFields : List String := ["_id", "name", "external_id"]

/-- Fields the model may see for a firewall group. -/
def firewallGroupFields : List String :=
  ["_id", "name", "group_type", "group_members", "external_id"]

/-- Fields the model may see for a firewall zone. -/
def firewallZoneFields : List String :=
  ["_id", "name", "default_zone", "network_ids", "external_id"]

/-- Fields the model may see for a traffic route. -/
def trafficRouteFields : List String := ["_id", "name"]

/-- Fields the model may see for a legacy firewall rule. -/
def firewallRuleFields : List String :=
  ["_id", "name", "ruleset", "rule_index", "enabled", "action", "protocol", "src_address",
    "dst_address", "src_port", "dst_port", "src_firewallgroup_ids", "dst_firewallgroup_ids",
    "src_networkconf_id", "src_networkconf_type", "dst_networkconf_id", "dst_networkconf_type",
    "src_mac_address", "state_established", "state_related", "state_new", "state_invalid",
    "protocol_match_excepted", "logging", "ipsec", "icmp_typename"]

/-- Fields the model may see for a port forward. -/
def portForwardFields : List String :=
  ["_id", "name", "enabled", "pfwd_interface", "src", "dst_port", "destination_ip", "fwd",
    "fwd_port", "proto", "log"]

/-- Fields the model may see for a static route. -/
def staticRouteFields : List String :=
  ["_id", "name", "type", "enabled", "static-route_type", "static-route_network",
    "static-route_nexthop", "static-route_distance", "static-route_interface"]

/-- The allowlist of a kind; a firewall policy has none. -/
def allowlistFor : ResourceKind → Option (List String)
  | .station => some stationFields
  | .device => some deviceFields
  | .network => some networkFields
  | .wlan => some wlanFields
  | .portProfile => some portProfileFields
  | .dhcpReservation => some dhcpReservationFields
  | .radiusProfile => some radiusProfileFields
  | .firewallGroup => some firewallGroupFields
  | .firewallZone => some firewallZoneFields
  | .trafficRoute => some trafficRouteFields
  | .firewallRule => some firewallRuleFields
  | .portForward => some portForwardFields
  | .staticRoute => some staticRouteFields
  | .firewallPolicy => none

namespace Redactor

variable (r : Redactor)

/-- Redact a firewall policy without dropping fields. -/
def projectFirewallPolicy (value : Json) : Json := r.redactJsonValue value

/-- Project a single resource down to the fields the model may see. -/
def projectResource (kind : ResourceKind) (value : Json) : Json :=
  match allowlistFor kind with
  | some allow => r.project allow value
  | none => r.projectFirewallPolicy value

/-- Project a list of resources, or a single one. -/
def projectResourceList (kind : ResourceKind) (value : Json) : Json :=
  match allowlistFor kind with
  | some allow => r.projectMany allow value
  | none =>
      match value with
      | .arr items => .arr (items.map r.projectFirewallPolicy)
      | other => r.projectFirewallPolicy other

/-- Redact a copy of a value whose shape has no allowlist. -/
def redactOwned (value : Json) : Json := r.redactJsonValue value

/-- A crate that treats the items of an array one by one, as the lists of this server need it. -/
structure Itemwise : Prop where
  projectMany : ∀ allow items,
    r.projectMany allow (.arr items) = .arr (items.map (r.project allow))
  redactJsonValue : ∀ items,
    r.redactJsonValue (.arr items) = .arr (items.map r.redactJsonValue)

end Redactor

end UnifiMcp
