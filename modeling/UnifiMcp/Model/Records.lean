import UnifiMcp.Changeset.Record

/-!
# Typed records

The resources and statistics that are parsed into types of their own: what the type does
not name is dropped.  `structFields` is the reader `serde` derives for a struct and
`record` the writer; both forms a struct can be read from are kept, an object by the names
of its fields and an array by their order.
-/

namespace UnifiMcp

open Collections

/-! ## Reading a struct -/

/-- What a field's value may be. -/
abbrev FieldCheck := Json → Except DecodeError Unit

/-- A value that has to be a boolean. -/
def decodeBool : Json → Except DecodeError Bool
  | .bool b => .ok b
  | v => .error (.invalidType v "a boolean")

/-- A value that has to be an integer of 64 signed bits. -/
def decodeI64 (v : Json) : Except DecodeError Int :=
  match v.asI64? with
  | some n => .ok n
  | none =>
      match v with
      | .num (.posInt _) => .error (.outOfRange v "i64")
      | v => .error (.invalidType v "i64")

/-- A value that has to be an unsigned integer of a width. -/
def decodeUnsigned (width : Nat) (type : String) : Json → Except DecodeError Nat
  | .num (.posInt n) =>
      if n.toNat < 2 ^ width then .ok n.toNat else .error (.outOfRange (.num (.posInt n)) type)
  | .num (.negInt n) => .error (.outOfRange (.num (.negInt n)) type)
  | v => .error (.invalidType v type)

/-- A value that has to be an integer of 16 unsigned bits. -/
def decodeU16 (v : Json) : Except DecodeError UInt16 := UInt16.ofNat <$> decodeUnsigned 16 "u16" v

/-- A value that has to be an integer of 32 unsigned bits. -/
def decodeU32 (v : Json) : Except DecodeError UInt32 := UInt32.ofNat <$> decodeUnsigned 32 "u32" v

/-- A value that has to be an integer of 64 unsigned bits. -/
def decodeU64 (v : Json) : Except DecodeError UInt64 := UInt64.ofNat <$> decodeUnsigned 64 "u64" v

/-- A value that has to be a list of strings. -/
def decodeStrings : Json → Except DecodeError (List String)
  | .arr items => items.mapM decodeString
  | v => .error (.invalidType v "a sequence")

/-- A value that may be `null`. -/
def decodeOption {α : Type} (decode : Json → Except DecodeError α) :
    Json → Except DecodeError (Option α)
  | .null => .ok none
  | v => some <$> decode v

/-- A field that may be left out. -/
def optionalField {α : Type} (fields : List (String × Json)) (name : String)
    (decode : Json → Except DecodeError α) : Except DecodeError (Option α) :=
  match findEntry name fields with
  | some v => decodeOption decode v
  | none => .ok none

/-- A field that has a default. -/
def defaultField {α : Type} (fields : List (String × Json)) (name : String) (default : α)
    (decode : Json → Except DecodeError α) : Except DecodeError α :=
  match findEntry name fields with
  | some v => decode v
  | none => .ok default

/-- The check a decoder makes. -/
def checking {α : Type} (decode : Json → Except DecodeError α) : FieldCheck :=
  fun v => decode v >>= fun _ => .ok ()

/-- The entries a struct is read from.  The fields of an object are checked as they come,
those it lacks are left to the reader of the struct; an array has to hold all of them but
the last `defaulted`. -/
def structFields (type : String) (checks : List (String × FieldCheck)) (defaulted : Nat) :
    Json → Except DecodeError (List (String × Json))
  | .obj fields => do
      fields.forM fun (key, v) =>
        match checks.lookup key with
        | some check => check v
        | none => .ok ()
      pure fields
  | .arr items => do
      (checks.zip items).forM fun (check, v) => check.2 v
      if items.length + defaulted < checks.length then
        .error (.invalidLength items.length s!"struct {type} with {checks.length} elements")
      else if checks.length < items.length then
        .error (.invalidLength items.length "fewer elements in array")
      else pure ((checks.map Prod.fst).zip items)
  | v => .error (.invalidType v s!"struct {type}")

/-- The entries of a struct with defaults among its fields, not only at the end: an array may
stop before a field that has one. -/
def structFieldsDefaulting (type : String) (checks : List (String × FieldCheck))
    (defaulted : List String) : Json → Except DecodeError (List (String × Json))
  | .arr items => do
      (checks.zip items).forM fun (check, v) => check.2 v
      match (checks.drop items.length).findIdx? fun check => !defaulted.contains check.1 with
      | some i =>
          .error (.invalidLength (items.length + i) s!"struct {type} with {checks.length} elements")
      | none =>
          if checks.length < items.length then
            .error (.invalidLength items.length "fewer elements in array")
          else pure ((checks.map Prod.fst).zip items)
  | v => structFields type checks 0 v

/-- The object with these fields, leaving out those without a value. -/
def record (fields : List (String × Option Json)) : Json :=
  .obj (fields.foldl (fun entries (key, value) =>
    match value with
    | some v => insertEntry key v entries
    | none => entries) [])

/-- Parse the items of an enveloped answer, one by one. -/
def parseItems {α : Type} (what : String) (ofJson : Json → Except DecodeError α) (val : Json) :
    Except UnifiError (List α) := do
  let data ← unwrapEnvelopedData val
  data.mapM fun item =>
    (ofJson item).mapError fun e => .malformed s!"{what} parse failed: {e.toString}"

/-- Parse the items of a Private v2 answer, one by one. -/
def parseBareItems {α : Type} (what : String) (ofJson : Json → Except DecodeError α)
    (val : Json) : Except UnifiError (List α) := do
  let data ← unwrapPrivateV2Data val
  data.mapM fun item =>
    (ofJson item).mapError fun e => .malformed s!"{what} parse failed: {e.toString}"

/-! ## Stations -/

/-- A wireless or wired client associated with the site. -/
structure Station where
  id : String
  clientType : String
  name : Option String
  connectedAt : Option String
  ipAddress : Option String
  macAddress : String
  uplinkDeviceId : Option String

namespace Station

/-- Read a station. -/
def ofJson (v : Json) : Except DecodeError Station := do
  let string := checking decodeString
  let optional := checking (decodeOption decodeString)
  let fields ← structFields "Station"
    [("id", string), ("type", string), ("name", optional), ("connectedAt", optional),
      ("ipAddress", optional), ("macAddress", string), ("uplinkDeviceId", optional)] 0 v
  pure
    { id := ← decodeString (← field fields "id")
      clientType := ← decodeString (← field fields "type")
      name := ← optionalField fields "name" decodeString
      connectedAt := ← optionalField fields "connectedAt" decodeString
      ipAddress := ← optionalField fields "ipAddress" decodeString
      macAddress := ← decodeString (← field fields "macAddress")
      uplinkDeviceId := ← optionalField fields "uplinkDeviceId" decodeString }

/-- Write a station. -/
def toJson (s : Station) : Json :=
  record
    [("id", some (.str s.id)), ("type", some (.str s.clientType)), ("name", s.name.map .str),
      ("connectedAt", s.connectedAt.map .str), ("ipAddress", s.ipAddress.map .str),
      ("macAddress", some (.str s.macAddress)), ("uplinkDeviceId", s.uplinkDeviceId.map .str)]

end Station

/-- Parse stations from an Integration API response. -/
def parseStations : Json → Except UnifiError (List Station) :=
  parseItems "station" Station.ofJson

/-! ## Devices -/

/-- A device capability set: the names, or the detail of each. -/
inductive DeviceCapability where
  | names (values : List String)
  | detail (fields : List (String × Json))

namespace DeviceCapability

/-- Read a capability set. -/
def ofJson : Json → Except DecodeError DeviceCapability
  | .arr items =>
      match items.mapM Json.asStr? with
      | some values => .ok (.names values)
      | none => .error (.untaggedMismatch "DeviceCapability")
  | .obj fields => .ok (.detail fields)
  | _ => .error (.untaggedMismatch "DeviceCapability")

/-- Write a capability set. -/
def toJson : DeviceCapability → Json
  | .names values => .arr (values.map .str)
  | .detail fields => .obj fields

end DeviceCapability

/-- An adopted device. -/
structure Device where
  id : String
  macAddress : String
  ipAddress : Option String
  name : Option String
  model : String
  state : String
  supported : Bool
  firmwareVersion : String
  firmwareUpdatable : Bool
  features : DeviceCapability
  interfaces : DeviceCapability

namespace Device

/-- A capability set that may be left out. -/
def capability (fields : List (String × Json)) (name : String) :
    Except DecodeError DeviceCapability :=
  match findEntry name fields with
  | some v => DeviceCapability.ofJson v
  | none => .ok (.names [])

/-- Read a device. -/
def ofJson (v : Json) : Except DecodeError Device := do
  let string := checking decodeString
  let optional := checking (decodeOption decodeString)
  let fields ← structFields "Device"
    [("id", string), ("macAddress", string), ("ipAddress", optional), ("name", optional),
      ("model", string), ("state", string), ("supported", checking decodeBool),
      ("firmwareVersion", string), ("firmwareUpdatable", checking decodeBool),
      ("features", checking DeviceCapability.ofJson),
      ("interfaces", checking DeviceCapability.ofJson)] 2 v
  pure
    { id := ← decodeString (← field fields "id")
      macAddress := ← decodeString (← field fields "macAddress")
      ipAddress := ← optionalField fields "ipAddress" decodeString
      name := ← optionalField fields "name" decodeString
      model := ← decodeString (← field fields "model")
      state := ← decodeString (← field fields "state")
      supported := ← decodeBool (← field fields "supported")
      firmwareVersion := ← decodeString (← field fields "firmwareVersion")
      firmwareUpdatable := ← decodeBool (← field fields "firmwareUpdatable")
      features := ← capability fields "features"
      interfaces := ← capability fields "interfaces" }

/-- Write a device. -/
def toJson (d : Device) : Json :=
  record
    [("id", some (.str d.id)), ("macAddress", some (.str d.macAddress)),
      ("ipAddress", d.ipAddress.map .str), ("name", d.name.map .str),
      ("model", some (.str d.model)), ("state", some (.str d.state)),
      ("supported", some (.bool d.supported)),
      ("firmwareVersion", some (.str d.firmwareVersion)),
      ("firmwareUpdatable", some (.bool d.firmwareUpdatable)),
      ("features", some d.features.toJson), ("interfaces", some d.interfaces.toJson)]

end Device

/-- Parse devices from an Integration API response. -/
def parseDevices : Json → Except UnifiError (List Device) :=
  parseItems "device" Device.ofJson

/-! ## Sites -/

/-- A site. -/
structure Site where
  id : String
  internalReference : String
  name : String

namespace Site

/-- Read a site. -/
def ofJson (v : Json) : Except DecodeError Site := do
  let string := checking decodeString
  let fields ← structFields "Site"
    [("id", string), ("internalReference", string), ("name", string)] 0 v
  pure
    { id := ← decodeString (← field fields "id")
      internalReference := ← decodeString (← field fields "internalReference")
      name := ← decodeString (← field fields "name") }

/-- Write a site. -/
def toJson (s : Site) : Json :=
  record
    [("id", some (.str s.id)), ("internalReference", some (.str s.internalReference)),
      ("name", some (.str s.name))]

end Site

/-- Parse sites from an Integration API response. -/
def parseSites : Json → Except UnifiError (List Site) :=
  parseItems "site" Site.ofJson

/-! ## Statistics -/

/-- Device statistics. -/
structure DeviceStats where
  mac : Option String
  name : Option String

/-- Read device statistics. -/
def DeviceStats.ofJson (v : Json) : Except DecodeError DeviceStats := do
  let optional := checking (decodeOption decodeString)
  let fields ← structFields "DeviceStats" [("mac", optional), ("name", optional)] 0 v
  pure
    { mac := ← optionalField fields "mac" decodeString
      name := ← optionalField fields "name" decodeString }

/-- Write device statistics. -/
def DeviceStats.toJson (s : DeviceStats) : Json :=
  record [("mac", s.mac.map .str), ("name", s.name.map .str)]

/-- Station statistics. -/
structure StationStats where
  mac : Option String
  hostname : Option String

/-- Read station statistics. -/
def StationStats.ofJson (v : Json) : Except DecodeError StationStats := do
  let optional := checking (decodeOption decodeString)
  let fields ← structFields "StationStats" [("mac", optional), ("hostname", optional)] 0 v
  pure
    { mac := ← optionalField fields "mac" decodeString
      hostname := ← optionalField fields "hostname" decodeString }

/-- Write station statistics. -/
def StationStats.toJson (s : StationStats) : Json :=
  record [("mac", s.mac.map .str), ("hostname", s.hostname.map .str)]

/-- An entry of the controller's event log. -/
structure ControllerEvent where
  id : Option String
  eventType : String
  subsystem : Option String
  time : Option Int
  msg : Option String

/-- Read an event; its type is the controller's `key`. -/
def ControllerEvent.ofJson (v : Json) : Except DecodeError ControllerEvent := do
  let optional := checking (decodeOption decodeString)
  let fields ← structFields "Event"
    [("_id", optional), ("key", checking decodeString), ("subsystem", optional),
      ("time", checking (decodeOption decodeI64)), ("msg", optional)] 0 v
  pure
    { id := ← optionalField fields "_id" decodeString
      eventType := ← decodeString (← field fields "key")
      subsystem := ← optionalField fields "subsystem" decodeString
      time := ← optionalField fields "time" decodeI64
      msg := ← optionalField fields "msg" decodeString }

/-- A signed integer as a number. -/
def Json.ofI64 (n : Int) : Json :=
  if 0 ≤ n then .num (.posInt (UInt64.ofNat n.toNat)) else .num (.negInt (Int64.ofInt n))

/-- Write an event; its type goes out under another name than it came in. -/
def ControllerEvent.toJson (e : ControllerEvent) : Json :=
  record
    [("_id", e.id.map .str), ("event_type", some (.str e.eventType)),
      ("subsystem", e.subsystem.map .str), ("time", e.time.map Json.ofI64),
      ("msg", e.msg.map .str)]

/-- Parse device statistics from a Private v1 response. -/
def parseDeviceStats : Json → Except UnifiError (List DeviceStats) :=
  parseItems "device stats" DeviceStats.ofJson

/-- Parse station statistics from a Private v1 response. -/
def parseStationStats : Json → Except UnifiError (List StationStats) :=
  parseItems "station stats" StationStats.ofJson

/-- Parse event log entries from a Private v1 response. -/
def parseEvents : Json → Except UnifiError (List ControllerEvent) :=
  parseItems "event" ControllerEvent.ofJson

end UnifiMcp
