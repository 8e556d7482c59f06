import UnifiMcp.Json.Render
import UnifiMcp.Model.Records

/-!
# Firewall records

Groups, zones, zone-based policies and the legacy rules.  A policy keeps every field it came
with; of the others only the named fields are kept.
-/

namespace UnifiMcp

open Collections

/-! ## Groups -/

/-- A firewall address or port group. -/
structure FirewallGroup where
  id : String
  name : String
  groupType : String
  groupMembers : List String
  externalId : Option String

/-- A list of strings as a value. -/
def Json.ofNames (names : List String) : Json := .arr (names.map .str)

namespace FirewallGroup

/-- Read a group. -/
def ofJson (v : Json) : Except DecodeError FirewallGroup := do
  let string := checking decodeString
  let fields ← structFields "FirewallGroup"
    [("_id", string), ("name", string), ("group_type", string),
      ("group_members", checking decodeStrings),
      ("external_id", checking (decodeOption decodeString))] 0 v
  pure
    { id := ← decodeString (← field fields "_id")
      name := ← decodeString (← field fields "name")
      groupType := ← decodeString (← field fields "group_type")
      groupMembers := ← decodeStrings (← field fields "group_members")
      externalId := ← optionalField fields "external_id" decodeString }

/-- Write a group. -/
def toJson (g : FirewallGroup) : Json :=
  record
    [("_id", some (.str g.id)), ("name", some (.str g.name)),
      ("group_type", some (.str g.groupType)), ("group_members", some (.ofNames g.groupMembers)),
      ("external_id", g.externalId.map .str)]

end FirewallGroup

/-- Parse firewall groups from a Private v1 response. -/
def parseFirewallGroups : Json → Except UnifiError (List FirewallGroup) :=
  parseItems "firewall group" FirewallGroup.ofJson

/-! ## Zones -/

/-- A firewall zone. -/
structure FirewallZone where
  id : String
  name : String
  defaultZone : Bool
  networkIds : List String
  externalId : Option String

namespace FirewallZone

/-- Read a zone. -/
def ofJson (v : Json) : Except DecodeError FirewallZone := do
  let string := checking decodeString
  let fields ← structFieldsDefaulting "FirewallZone"
    [("_id", string), ("name", string), ("default_zone", checking decodeBool),
      ("network_ids", checking decodeStrings),
      ("external_id", checking (decodeOption decodeString))] ["default_zone", "network_ids"] v
  pure
    { id := ← decodeString (← field fields "_id")
      name := ← decodeString (← field fields "name")
      defaultZone := ← defaultField fields "default_zone" false decodeBool
      networkIds := ← defaultField fields "network_ids" [] decodeStrings
      externalId := ← optionalField fields "external_id" decodeString }

/-- Write a zone. -/
def toJson (z : FirewallZone) : Json :=
  record
    [("_id", some (.str z.id)), ("name", some (.str z.name)),
      ("default_zone", some (.bool z.defaultZone)),
      ("network_ids", some (.ofNames z.networkIds)), ("external_id", z.externalId.map .str)]

end FirewallZone

/-- Parse firewall zones from a Private v2 response. -/
def parseFirewallZones : Json → Except UnifiError (List FirewallZone) :=
  parseBareItems "firewall zone" FirewallZone.ofJson

/-! ## Policies -/

/-- A zone-based firewall policy, with every other field it came with. -/
structure FirewallPolicy where
  id : String
  name : String
  action : String
  enabled : Bool
  index : UInt32
  predefined : Bool
  hits : Option UInt64
  rest : List (String × Json)

namespace FirewallPolicy

/-- The named fields and what their values may be. -/
def checks : List (String × FieldCheck) :=
  let string := checking decodeString
  [("_id", string), ("name", string), ("action", string), ("enabled", checking decodeBool),
    ("index", checking decodeU32), ("predefined", checking decodeBool),
    ("hits", checking (decodeOption decodeU64))]

/-- Read a policy.  It has to be an object, since its other fields are kept. -/
def ofJson : Json → Except DecodeError FirewallPolicy
  | .obj entries => do
      let fields ← structFields "FirewallPolicy" checks 0 (.obj entries)
      pure
        { id := ← decodeString (← field fields "_id")
          name := ← decodeString (← field fields "name")
          action := ← decodeString (← field fields "action")
          enabled := ← decodeBool (← field fields "enabled")
          index := ← decodeU32 (← field fields "index")
          predefined := ← defaultField fields "predefined" false decodeBool
          hits := ← optionalField fields "hits" decodeU64
          rest := fields.filter fun entry => !(checks.map Prod.fst).contains entry.1 }
  | v => .error (.invalidType v "struct FirewallPolicy")

/-- Write a policy. -/
def toJson (p : FirewallPolicy) : Json :=
  record
    ([("_id", some (.str p.id)), ("name", some (.str p.name)), ("action", some (.str p.action)),
      ("enabled", some (.bool p.enabled)), ("index", some (.num (.posInt p.index.toUInt64))),
      ("predefined", some (.bool p.predefined)),
      ("hits", p.hits.map fun hits => .num (.posInt hits))] ++
        p.rest.map fun (key, v) => (key, some v))

end FirewallPolicy

/-- Parse firewall policies from a Private v2 response. -/
def parseFirewallPolicies : Json → Except UnifiError (List FirewallPolicy) :=
  parseBareItems "firewall policy" FirewallPolicy.ofJson

/-! ## Legacy rules -/

/-- The digits of an unsigned decimal number, read from the left into `value`.  At each
character a digit that is none is reported before a number that got too large. -/
def parseDigits (bound : Nat) : Nat → List Char → Except String Nat
  | value, [] => .ok value
  | value, c :: rest =>
      if !c.isDigit then .error "invalid digit found in string"
      else
        let value := 10 * value + (c.toNat - '0'.toNat)
        if bound ≤ value then .error "number too large to fit in target type"
        else parseDigits bound value rest

/-- `str::parse::<u32>`: decimal digits after an optional plus sign. -/
def parseU32 (s : String) : Except String UInt32 :=
  match s.toList with
  | [] => .error "cannot parse integer from empty string"
  | ['+'] => .error "invalid digit found in string"
  | '+' :: digits => UInt32.ofNat <$> parseDigits (2 ^ 32) 0 digits
  | digits => UInt32.ofNat <$> parseDigits (2 ^ 32) 0 digits

/-- Read a rule's index: a number, a numeric string, or nothing. -/
def deserializeRuleIndex (number : Number → String) : Json → Except DecodeError (Option UInt32)
  | .null => .ok none
  | .str s =>
      if s = "" then .ok none
      else
        match parseU32 s with
        | .ok index => .ok (some index)
        | .error e => .error (.custom s!"invalid rule_index {s.quote}: {e}")
  | .num (.posInt n) =>
      if n.toNat < 2 ^ 32 then .ok (some n.toUInt32)
      else .error (.custom s!"rule_index {number (.posInt n)} is out of range for u32")
  | .num n => .error (.custom s!"rule_index {number n} is out of range for u32")
  | other =>
      .error (.custom
        s!"invalid rule_index: expected a string or number, got {other.compact number}")

/-- A legacy, non-zone-based firewall rule. -/
structure FirewallRule where
  id : String
  name : String
  ruleset : String
  ruleIndex : Option UInt32
  enabled : Bool
  action : String
  protocol : Option String
  srcAddress : Option String
  dstAddress : Option String
  srcPort : Option String
  dstPort : Option String
  srcFirewallgroupIds : Option (List String)
  dstFirewallgroupIds : Option (List String)
  srcNetworkconfId : Option String
  srcNetworkconfType : Option String
  dstNetworkconfId : Option String
  dstNetworkconfType : Option String
  srcMacAddress : Option String
  stateEstablished : Option Bool
  stateRelated : Option Bool
  stateNew : Option Bool
  stateInvalid : Option Bool
  protocolMatchExcepted : Option Bool
  logging : Option Bool
  ipsec : Option String
  icmpTypename : Option String

namespace FirewallRule

/-- Read a rule. -/
def ofJson (number : Number → String) (v : Json) : Except DecodeError FirewallRule := do
  let string := checking decodeString
  let optional := checking (decodeOption decodeString)
  let flag := checking (decodeOption decodeBool)
  let ids := checking (decodeOption decodeStrings)
  let fields ← structFieldsDefaulting "FirewallRule"
    [("_id", string), ("name", string), ("ruleset", string),
      ("rule_index", checking (deserializeRuleIndex number)), ("enabled", checking decodeBool),
      ("action", string), ("protocol", optional), ("src_address", optional),
      ("dst_address", optional), ("src_port", optional), ("dst_port", optional),
      ("src_firewallgroup_ids", ids), ("dst_firewallgroup_ids", ids),
      ("src_networkconf_id", optional), ("src_networkconf_type", optional),
      ("dst_networkconf_id", optional), ("dst_networkconf_type", optional),
      ("src_mac_address", optional), ("state_established", flag), ("state_related", flag),
      ("state_new", flag), ("state_invalid", flag), ("protocol_match_excepted", flag),
      ("logging", flag), ("ipsec", optional), ("icmp_typename", optional)]
    ["rule_index", "src_firewallgroup_ids", "dst_firewallgroup_ids"] v
  pure
    { id := ← decodeString (← field fields "_id")
      name := ← decodeString (← field fields "name")
      ruleset := ← decodeString (← field fields "ruleset")
      ruleIndex := ← defaultField fields "rule_index" none (deserializeRuleIndex number)
      enabled := ← decodeBool (← field fields "enabled")
      action := ← decodeString (← field fields "action")
      protocol := ← optionalField fields "protocol" decodeString
      srcAddress := ← optionalField fields "src_address" decodeString
      dstAddress := ← optionalField fields "dst_address" decodeString
      srcPort := ← optionalField fields "src_port" decodeString
      dstPort := ← optionalField fields "dst_port" decodeString
      srcFirewallgroupIds := ← optionalField fields "src_firewallgroup_ids" decodeStrings
      dstFirewallgroupIds := ← optionalField fields "dst_firewallgroup_ids" decodeStrings
      srcNetworkconfId := ← optionalField fields "src_networkconf_id" decodeString
      srcNetworkconfType := ← optionalField fields "src_networkconf_type" decodeString
      dstNetworkconfId := ← optionalField fields "dst_networkconf_id" decodeString
      dstNetworkconfType := ← optionalField fields "dst_networkconf_type" decodeString
      srcMacAddress := ← optionalField fields "src_mac_address" decodeString
      stateEstablished := ← optionalField fields "state_established" decodeBool
      stateRelated := ← optionalField fields "state_related" decodeBool
      stateNew := ← optionalField fields "state_new" decodeBool
      stateInvalid := ← optionalField fields "state_invalid" decodeBool
      protocolMatchExcepted := ← optionalField fields "protocol_match_excepted" decodeBool
      logging := ← optionalField fields "logging" decodeBool
      ipsec := ← optionalField fields "ipsec" decodeString
      icmpTypename := ← optionalField fields "icmp_typename" decodeString }

/-- Write a rule. -/
def toJson (r : FirewallRule) : Json :=
  record
    [("_id", some (.str r.id)), ("name", some (.str r.name)), ("ruleset", some (.str r.ruleset)),
      ("rule_index", r.ruleIndex.map fun index => .num (.posInt index.toUInt64)),
      ("enabled", some (.bool r.enabled)), ("action", some (.str r.action)),
      ("protocol", r.protocol.map .str), ("src_address", r.srcAddress.map .str),
      ("dst_address", r.dstAddress.map .str), ("src_port", r.srcPort.map .str),
      ("dst_port", r.dstPort.map .str),
      ("src_firewallgroup_ids", r.srcFirewallgroupIds.map .ofNames),
      ("dst_firewallgroup_ids", r.dstFirewallgroupIds.map .ofNames),
      ("src_networkconf_id", r.srcNetworkconfId.map .str),
      ("src_networkconf_type", r.srcNetworkconfType.map .str),
      ("dst_networkconf_id", r.dstNetworkconfId.map .str),
      ("dst_networkconf_type", r.dstNetworkconfType.map .str),
      ("src_mac_address", r.srcMacAddress.map .str),
      ("state_established", r.stateEstablished.map .bool),
      ("state_related", r.stateRelated.map .bool), ("state_new", r.stateNew.map .bool),
      ("state_invalid", r.stateInvalid.map .bool),
      ("protocol_match_excepted", r.protocolMatchExcepted.map .bool),
      ("logging", r.logging.map .bool), ("ipsec", r.ipsec.map .str),
      ("icmp_typename", r.icmpTypename.map .str)]

end FirewallRule

/-- Parse legacy firewall rules from a Private v1 response. -/
def parseFirewallRules (number : Number → String) : Json → Except UnifiError (List FirewallRule) :=
  parseItems "firewall rule" (FirewallRule.ofJson number)

end UnifiMcp
