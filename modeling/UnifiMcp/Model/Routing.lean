import UnifiMcp.Model.Records

/-!
# Routes and port forwards
-/

namespace UnifiMcp

open Collections

/-! ## Routes -/

/-- A static route or policy-based route. -/
structure Route where
  id : String
  name : String
  routeType : String
  enabled : Bool
  staticRouteType : Option String
  staticRouteNetwork : Option String
  staticRouteNexthop : Option String
  staticRouteDistance : Option UInt32
  staticRouteInterface : Option String

namespace Route

/-- Read a route. -/
def ofJson (v : Json) : Except DecodeError Route := do
  let string := checking decodeString
  let optional := checking (decodeOption decodeString)
  let fields ← structFields "Route"
    [("_id", string), ("name", string), ("type", string), ("enabled", checking decodeBool),
      ("static-route_type", optional), ("static-route_network", optional),
      ("static-route_nexthop", optional),
      ("static-route_distance", checking (decodeOption decodeU32)),
      ("static-route_interface", optional)] 0 v
  pure
    { id := ← decodeString (← field fields "_id")
      name := ← decodeString (← field fields "name")
      routeType := ← decodeString (← field fields "type")
      enabled := ← decodeBool (← field fields "enabled")
      staticRouteType := ← optionalField fields "static-route_type" decodeString
      staticRouteNetwork := ← optionalField fields "static-route_network" decodeString
      staticRouteNexthop := ← optionalField fields "static-route_nexthop" decodeString
      staticRouteDistance := ← optionalField fields "static-route_distance" decodeU32
      staticRouteInterface := ← optionalField fields "static-route_interface" decodeString }

/-- Write a route. -/
def toJson (r : Route) : Json :=
  record
    [("_id", some (.str r.id)), ("name", some (.str r.name)), ("type", some (.str r.routeType)),
      ("enabled", some (.bool r.enabled)), ("static-route_type", r.staticRouteType.map .str),
      ("static-route_network", r.staticRouteNetwork.map .str),
      ("static-route_nexthop", r.staticRouteNexthop.map .str),
      ("static-route_distance",
        r.staticRouteDistance.map fun distance => .num (.posInt distance.toUInt64)),
      ("static-route_interface", r.staticRouteInterface.map .str)]

end Route

/-- A policy-based traffic route. -/
structure TrafficRoute where
  id : String
  name : Option String

namespace TrafficRoute

/-- Read a traffic route. -/
def ofJson (v : Json) : Except DecodeError TrafficRoute := do
  let fields ← structFields "TrafficRoute"
    [("_id", checking decodeString), ("name", checking (decodeOption decodeString))] 0 v
  pure
    { id := ← decodeString (← field fields "_id")
      name := ← optionalField fields "name" decodeString }

/-- Write a traffic route. -/
def toJson (r : TrafficRoute) : Json :=
  record [("_id", some (.str r.id)), ("name", r.name.map .str)]

end TrafficRoute

/-- Parse routes from a Private v1 response. -/
def parseRoutes : Json → Except UnifiError (List Route) := parseItems "route" Route.ofJson

/-- Parse traffic routes from a Private v2 response. -/
def parseTrafficRoutes : Json → Except UnifiError (List TrafficRoute) :=
  parseBareItems "traffic route" TrafficRoute.ofJson

/-! ## Port forwards -/

/-- A port forwarding rule. -/
structure PortForward where
  id : String
  name : String
  enabled : Bool
  pfwdInterface : Option String
  src : Option String
  dstPort : Option String
  fwd : Option String
  fwdPort : Option String
  proto : Option String
  destinationIp : Option String
  log : Option Bool

namespace PortForward

/-- Read a port forward. -/
def ofJson (v : Json) : Except DecodeError PortForward := do
  let string := checking decodeString
  let optional := checking (decodeOption decodeString)
  let fields ← structFields "PortForward"
    [("_id", string), ("name", string), ("enabled", checking decodeBool),
      ("pfwd_interface", optional), ("src", optional), ("dst_port", optional), ("fwd", optional),
      ("fwd_port", optional), ("proto", optional), ("destination_ip", optional),
      ("log", checking (decodeOption decodeBool))] 0 v
  pure
    { id := ← decodeString (← field fields "_id")
      name := ← decodeString (← field fields "name")
      enabled := ← decodeBool (← field fields "enabled")
      pfwdInterface := ← optionalField fields "pfwd_interface" decodeString
      src := ← optionalField fields "src" decodeString
      dstPort := ← optionalField fields "dst_port" decodeString
      fwd := ← optionalField fields "fwd" decodeString
      fwdPort := ← optionalField fields "fwd_port" decodeString
      proto := ← optionalField fields "proto" decodeString
      destinationIp := ← optionalField fields "destination_ip" decodeString
      log := ← optionalField fields "log" decodeBool }

/-- Write a port forward. -/
def toJson (p : PortForward) : Json :=
  record
    [("_id", some (.str p.id)), ("name", some (.str p.name)), ("enabled", some (.bool p.enabled)),
      ("pfwd_interface", p.pfwdInterface.map .str), ("src", p.src.map .str),
      ("dst_port", p.dstPort.map .str), ("fwd", p.fwd.map .str),
      ("fwd_port", p.fwdPort.map .str), ("proto", p.proto.map .str),
      ("destination_ip", p.destinationIp.map .str), ("log", p.log.map .bool)]

end PortForward

/-- Parse port forwards from a Private v1 response. -/
def parsePortForwards : Json → Except UnifiError (List PortForward) :=
  parseItems "port forward" PortForward.ofJson

end UnifiMcp
