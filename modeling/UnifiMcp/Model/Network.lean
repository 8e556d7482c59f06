import UnifiMcp.Model.Records

/-!
# Networks and what belongs to them

The records of the Private v1 endpoints for networks, wireless networks, port profiles, DHCP
reservations and RADIUS profiles.
-/

namespace UnifiMcp

open Collections

/-! ## Networks -/

/-- A configured network or VLAN; a WAN connection is one too. -/
structure NetworkConf where
  id : String
  name : String
  purpose : Option String
  ipSubnet : Option String
  vlan : Option UInt16
  dhcpdEnabled : Option Bool
  dhcpdStart : Option String
  dhcpdStop : Option String
  wanDns1 : Option String
  wanDns2 : Option String
  wanIpv6Dns1 : Option String
  wanIpv6Dns2 : Option String

namespace NetworkConf

/-- Read a network. -/
def ofJson (v : Json) : Except DecodeError NetworkConf := do
  let string := checking decodeString
  let optional := checking (decodeOption decodeString)
  let fields ← structFields "Network"
    [("_id", string), ("name", string), ("purpose", optional), ("ip_subnet", optional),
      ("vlan", checking (decodeOption decodeU16)),
      ("dhcpd_enabled", checking (decodeOption decodeBool)), ("dhcpd_start", optional),
      ("dhcpd_stop", optional), ("wan_dns1", optional), ("wan_dns2", optional),
      ("wan_ipv6_dns1", optional), ("wan_ipv6_dns2", optional)] 0 v
  pure
    { id := ← decodeString (← field fields "_id")
      name := ← decodeString (← field fields "name")
      purpose := ← optionalField fields "purpose" decodeString
      ipSubnet := ← optionalField fields "ip_subnet" decodeString
      vlan := ← optionalField fields "vlan" decodeU16
      dhcpdEnabled := ← optionalField fields "dhcpd_enabled" decodeBool
      dhcpdStart := ← optionalField fields "dhcpd_start" decodeString
      dhcpdStop := ← optionalField fields "dhcpd_stop" decodeString
      wanDns1 := ← optionalField fields "wan_dns1" decodeString
      wanDns2 := ← optionalField fields "wan_dns2" decodeString
      wanIpv6Dns1 := ← optionalField fields "wan_ipv6_dns1" decodeString
      wanIpv6Dns2 := ← optionalField fields "wan_ipv6_dns2" decodeString }

/-- Write a network. -/
def toJson (n : NetworkConf) : Json :=
  record
    [("_id", some (.str n.id)), ("name", some (.str n.name)), ("purpose", n.purpose.map .str),
      ("ip_subnet", n.ipSubnet.map .str),
      ("vlan", n.vlan.map fun vlan => .num (.posInt vlan.toUInt64)),
      ("dhcpd_enabled", n.dhcpdEnabled.map .bool), ("dhcpd_start", n.dhcpdStart.map .str),
      ("dhcpd_stop", n.dhcpdStop.map .str), ("wan_dns1", n.wanDns1.map .str),
      ("wan_dns2", n.wanDns2.map .str), ("wan_ipv6_dns1", n.wanIpv6Dns1.map .str),
      ("wan_ipv6_dns2", n.wanIpv6Dns2.map .str)]

end NetworkConf

/-- Parse networks from a Private v1 response. -/
def parseNetworks : Json → Except UnifiError (List NetworkConf) :=
  parseItems "network" NetworkConf.ofJson

/-! ## Wireless networks -/

/-- A wireless network. -/
structure Wlan where
  id : String
  name : String
  enabled : Bool
  security : String
  wlanBand : Option String
  isGuest : Bool

namespace Wlan

/-- Read a wireless network. -/
def ofJson (v : Json) : Except DecodeError Wlan := do
  let string := checking decodeString
  let fields ← structFields "Wlan"
    [("_id", string), ("name", string), ("enabled", checking decodeBool), ("security", string),
      ("wlan_band", checking (decodeOption decodeString)), ("is_guest", checking decodeBool)] 1 v
  pure
    { id := ← decodeString (← field fields "_id")
      name := ← decodeString (← field fields "name")
      enabled := ← decodeBool (← field fields "enabled")
      security := ← decodeString (← field fields "security")
      wlanBand := ← optionalField fields "wlan_band" decodeString
      isGuest := ← defaultField fields "is_guest" false decodeBool }

/-- Write a wireless network. -/
def toJson (w : Wlan) : Json :=
  record
    [("_id", some (.str w.id)), ("name", some (.str w.name)), ("enabled", some (.bool w.enabled)),
      ("security", some (.str w.security)), ("wlan_band", w.wlanBand.map .str),
      ("is_guest", some (.bool w.isGuest))]

end Wlan

/-- Parse wireless networks from a Private v1 response. -/
def parseWlans : Json → Except UnifiError (List Wlan) := parseItems "wlan" Wlan.ofJson

/-! ## Port profiles -/

/-- A switch port profile. -/
structure PortProfile where
  id : String
  name : String
  forward : Option String
  nativeNetworkconfId : Option String

namespace PortProfile

/-- Read a port profile. -/
def ofJson (v : Json) : Except DecodeError PortProfile := do
  let string := checking decodeString
  let optional := checking (decodeOption decodeString)
  let fields ← structFields "PortProfile"
    [("_id", string), ("name", string), ("forward", optional),
      ("native_networkconf_id", optional)] 0 v
  pure
    { id := ← decodeString (← field fields "_id")
      name := ← decodeString (← field fields "name")
      forward := ← optionalField fields "forward" decodeString
      nativeNetworkconfId := ← optionalField fields "native_networkconf_id" decodeString }

/-- Write a port profile. -/
def toJson (p : PortProfile) : Json :=
  record
    [("_id", some (.str p.id)), ("name", some (.str p.name)), ("forward", p.forward.map .str),
      ("native_networkconf_id", p.nativeNetworkconfId.map .str)]

end PortProfile

/-- Parse port profiles from a Private v1 response. -/
def parsePortProfiles : Json → Except UnifiError (List PortProfile) :=
  parseItems "port profile" PortProfile.ofJson

/-! ## DHCP reservations -/

/-- A static DHCP reservation. -/
structure DhcpReservation where
  id : String
  mac : String
  lastIp : Option String
  fixedIp : Option String
  hostname : Option String

namespace DhcpReservation

/-- Read a reservation. -/
def ofJson (v : Json) : Except DecodeError DhcpReservation := do
  let string := checking decodeString
  let optional := checking (decodeOption decodeString)
  let fields ← structFields "DhcpReservation"
    [("_id", string), ("mac", string), ("last_ip", optional), ("fixed_ip", optional),
      ("hostname", optional)] 0 v
  pure
    { id := ← decodeString (← field fields "_id")
      mac := ← decodeString (← field fields "mac")
      lastIp := ← optionalField fields "last_ip" decodeString
      fixedIp := ← optionalField fields "fixed_ip" decodeString
      hostname := ← optionalField fields "hostname" decodeString }

/-- Write a reservation. -/
def toJson (d : DhcpReservation) : Json :=
  record
    [("_id", some (.str d.id)), ("mac", some (.str d.mac)), ("last_ip", d.lastIp.map .str),
      ("fixed_ip", d.fixedIp.map .str), ("hostname", d.hostname.map .str)]

end DhcpReservation

/-- Whether a client's record is of a reservation. -/
def usesFixedIp (item : Json) : Bool :=
  ((item.get? "use_fixedip").bind Json.asBool?).getD false

/-- Parse DHCP reservations from a Private v1 response.  The endpoint returns every known
client; only actual reservations are kept. -/
def parseDhcpReservations (val : Json) : Except UnifiError (List DhcpReservation) := do
  let data ← unwrapEnvelopedData val
  (data.filter usesFixedIp).mapM fun item =>
    (DhcpReservation.ofJson item).mapError fun e =>
      .malformed s!"dhcp reservation parse failed: {e.toString}"

/-! ## RADIUS profiles -/

/-- A RADIUS profile. -/
structure RadiusProfile where
  id : String
  name : String
  externalId : Option String

namespace RadiusProfile

/-- Read a RADIUS profile. -/
def ofJson (v : Json) : Except DecodeError RadiusProfile := do
  let string := checking decodeString
  let fields ← structFields "RadiusProfile"
    [("_id", string), ("name", string), ("external_id", checking (decodeOption decodeString))] 0 v
  pure
    { id := ← decodeString (← field fields "_id")
      name := ← decodeString (← field fields "name")
      externalId := ← optionalField fields "external_id" decodeString }

/-- Write a RADIUS profile. -/
def toJson (p : RadiusProfile) : Json :=
  record
    [("_id", some (.str p.id)), ("name", some (.str p.name)),
      ("external_id", p.externalId.map .str)]

end RadiusProfile

/-- Parse RADIUS profiles from a Private v1 response. -/
def parseRadiusProfiles : Json → Except UnifiError (List RadiusProfile) :=
  parseItems "radius profile" RadiusProfile.ofJson

end UnifiMcp
