import UnifiMcp.Fixtures.Value
import UnifiMcp.Text.Pattern
import Mathlib.Algebra.Group.Nat.Defs
import Mathlib.Data.List.Infix
import Mathlib.Tactic.Common

/-!
# The check that fixtures are scrubbed

`check_fixture` of `verify-fixtures-scrubbed.py` walks a document and reports what looks like a
credential, an address or a denied identifier.  Its checks stand in the branch for dictionaries, so
they see the values of keys: a string in an array, or one that is the whole document, is walked over
and never looked at.  `reportsLeaves_iff` says for which documents every string that should be
reported leads to a report all the same.
-/

namespace UnifiMcp

namespace Fixtures

open Text

/-! ## Python's library -/

/-- The version of an address. -/
inductive IpVersion where
  | v4
  | v6
  deriving DecidableEq

/-- The bits of an address. -/
def IpVersion.width : IpVersion → Nat
  | .v4 => 32
  | .v6 => 128

/-- An address of `ipaddress`. -/
structure IpAddress where
  version : IpVersion
  value : Nat
  scopeId : Option String := none
  deriving DecidableEq

/-- A network of `ipaddress`: its first address, and how many of the leading bits are its own. -/
structure IpNetwork where
  version : IpVersion
  base : Nat
  length : Nat
  deriving DecidableEq

namespace IpNetwork

/-- `addr in net`. -/
def has (net : IpNetwork) (addr : IpAddress) : Bool :=
  decide (addr.version = net.version ∧
    addr.value / 2 ^ (net.version.width - net.length) =
      net.base / 2 ^ (net.version.width - net.length))

/-- The first address. -/
def networkAddress (net : IpNetwork) : IpAddress := ⟨net.version, net.base, none⟩

/-- The last address. -/
def broadcastAddress (net : IpNetwork) : IpAddress :=
  ⟨net.version, net.base + (2 ^ (net.version.width - net.length) - 1), none⟩

/-- `net.overlaps(other)`. -/
def overlaps (net other : IpNetwork) : Bool :=
  other.has net.networkAddress || other.has net.broadcastAddress ||
    net.has other.networkAddress || net.has other.broadcastAddress

end IpNetwork

/-- What the script uses of Python's library.  Which addresses are global differs between its
releases. -/
structure PyLib where
  /-- `str.lower`. -/
  lower : String → String
  /-- `ipaddress.ip_address`; none for a `ValueError`. -/
  ipAddress : String → Option IpAddress
  /-- `ipaddress.ip_network` without `strict`. -/
  ipNetwork : String → Option IpNetwork
  /-- `str` of an address. -/
  strAddress : IpAddress → String
  addressIsGlobal : IpAddress → Bool
  networkIsGlobal : IpNetwork → Bool
  /-- `hashlib.sha256(value.encode()).hexdigest()`. -/
  sha256Hex : String → String
  /-- `str` of a float. -/
  strFloat : PyFloat → String

/-! ## Patterns and tables -/

/-- A letter under `re.IGNORECASE`.  Four letters that are not ASCII count as one that is. -/
def ignoringCase (c : Char) : Pattern :=
  .one fun d => decide (d.toLower = c.toLower) ||
    (decide (c.toLower = 'i') && decide (d.toNat = 0x130 ∨ d.toNat = 0x131)) ||
    (decide (c.toLower = 'k') && decide (d.toNat = 0x212a)) ||
    (decide (c.toLower = 's') && decide (d.toNat = 0x17f))

/-- A word under `re.IGNORECASE`. -/
def wordIgnoringCase (s : String) : Pattern := .all (s.toList.map ignoringCase)

/-- Credential-shaped field name patterns. -/
def credentialPattern : Pattern :=
  .oneOf (["pass", "psk", "secret", "token", "key", "cred", "auth", "hash", "salt", "priv",
    "cert"].map wordIgnoringCase)

/-- `[A-Za-z0-9+/]`. -/
def isBase64 (c : Char) : Bool := c.isAlphanum || c = '+' || c = '/'

/-- High-entropy value pattern: base64-like strings of 32 characters or more. -/
def highEntropyPattern : Pattern :=
  .all [.start, .rep (.one isBase64) 32 none, .rep (.word "=") 0 (some 2), .stop]

/-- `[0-9A-Fa-f]` so many times. -/
def hexDigits (n : Nat) : Pattern :=
  .rep (.one fun c => c.isDigit || ('A' ≤ c && c ≤ 'F') || ('a' ≤ c && c ≤ 'f')) n (some n)

/-- MAC address pattern: `aa:bb:cc:dd:ee:ff` or `aa-bb-cc-dd-ee-ff`, `aabb.ccdd.eeff`, and
`aabbccddeeff`. -/
def macPattern : Pattern :=
  .oneOf [
    .all [.start, .rep (.seq (hexDigits 2) (.one fun c => c = ':' || c = '-')) 5 (some 5),
      hexDigits 2, .stop],
    .all [.start, .rep (.seq (hexDigits 4) (.word ".")) 2 (some 2), hexDigits 4, .stop],
    .all [.start, hexDigits 12, .stop]]

/-- Accepted credential placeholder patterns. -/
def placeholderPatterns : List Pattern :=
  [wordIgnoringCase "REDACT", wordIgnoringCase "EXAMPLE",
    .all [.start, .rep (.one fun c => c = 'A' || c = '0') 1 none, .rep (.word "=") 0 (some 1),
      .stop],
    .all [.start, .word "SHA256:0000"]]

/-- UniFi structural identifiers: exempt from the entropy check. -/
def structuralIdKeys : List String :=
  ["_id", "site_id", "device_id", "anon_client_id", "network_id", "user_id", "usergroup_id",
    "group_id", "wlan_id", "wlangroup_id", "mac", "oui"]

/-- Fields exempt from MAC validation. -/
def macExemptionKeys : List String := ["serial"]

/-- Documentation IPv4 ranges to allow: `192.0.2.0/24`, `198.51.100.0/24`, `203.0.113.0/24`. -/
def docIpv4Ranges : List IpNetwork :=
  [⟨.v4, 0xC0000200, 24⟩, ⟨.v4, 0xC6336400, 24⟩, ⟨.v4, 0xCB007100, 24⟩]

/-- Documentation IPv6 ranges to allow: `2001:db8::/32`. -/
def docIpv6Ranges : List IpNetwork := [⟨.v6, 0x20010DB8 * 2 ^ 96, 32⟩]

/-- Well-known public resolvers to allow. -/
def allowedPublicIps : List String :=
  ["1.1.1.1", "1.1.1.2", "1.0.0.1", "1.0.0.2", "8.8.8.8", "8.8.4.4", "9.9.9.9"]

/-- The range of a public resolver to allow: `2606:4700::/32`. -/
def allowedPublicPrefixes : List IpNetwork := [⟨.v6, 0x26064700 * 2 ^ 96, 32⟩]

/-- Special structural networks to allow: the default routes. -/
def structuralNetworks : List String := ["::/0", "0.0.0.0/0"]

/-- MAC address ranges to allow: locally administered, and for documentation. -/
def allowedMacPrefixes : List String := ["02:00:", "00:00:5e:"]

/-- Geographic coordinate field names. -/
def geoCoordKeys : List String := ["lat", "latitude", "lng", "longitude"]

/-- DHCPv6 suffix-only field names: they hold IPv6 host parts. -/
def dhcpv6SuffixKeys : List String :=
  ["dhcpdv6_start", "dhcpdv6_stop", "ipv6_pd_start", "ipv6_pd_stop"]

/-! ## What is accepted -/

/-- Check if a value matches an accepted credential placeholder. -/
def isPlaceholder (value : String) : Bool := placeholderPatterns.any fun p => p.search value

/-- The first twelve characters in pairs, with colons between them. -/
def colonPairs (digits : List Char) : List Char :=
  [':'].intercalate ((List.range 6).map fun i => (digits.drop (2 * i)).take 2)

/-- A MAC address in capitals with colons.  The capitals are those of ASCII, since only what the
MAC pattern matches is asked about. -/
def normalizedMac (mac : String) : List Char :=
  let upper := mac.toList.map Char.toUpper
  if mac.toList.length = 12 ∧ ':' ∉ mac.toList ∧ '-' ∉ mac.toList ∧ '.' ∉ mac.toList then
    colonPairs upper
  else
    let colons := upper.map fun c => if c = '-' then ':' else c
    if '.' ∈ colons then colonPairs (colons.filter fun c => decide (c ≠ '.')) else colons

/-- Check if a MAC address is in the allowed synthetic ranges. -/
def isAllowedMac (mac : String) : Bool :=
  allowedMacPrefixes.any fun allowed =>
    decide (allowed.toList.map Char.toUpper <+: normalizedMac mac)

section Checks

variable (py : PyLib)

/-- Check if an address is in the allowed documentation or resolver ranges. -/
def isAllowedPublicIp (addrStr : String) : Bool :=
  match py.ipAddress addrStr with
  | none => false
  | some addr =>
      decide (addrStr ∈ allowedPublicIps) ||
        (match addr.version with
          | .v4 => docIpv4Ranges.any fun net => net.has addr
          | .v6 => docIpv6Ranges.any fun net => net.has addr) ||
        allowedPublicPrefixes.any fun net => net.has addr

/-- Check if a network is in the allowed ranges or is structural. -/
def isAllowedNetwork (netStr : String) (net : IpNetwork) : Bool :=
  decide (netStr ∈ structuralNetworks) ||
    (match net.version with
      | .v4 => docIpv4Ranges.any net.overlaps
      | .v6 => docIpv6Ranges.any net.overlaps) ||
    isAllowedPublicIp py (py.strAddress net.networkAddress)

/-- A short hash of a value. -/
def hashValue (value : String) : String := String.ofList ((py.sha256Hex value).toList.take 8)

/-- An address or a network. -/
inductive ParsedIp where
  | address (addr : IpAddress)
  | network (net : IpNetwork)

/-- Extract the IP address or network that a value is. -/
def extractIpsFromValue (value : String) : List ParsedIp :=
  match py.ipAddress value with
  | some addr => [.address addr]
  | none =>
      match py.ipNetwork value with
      | some net => [.network net]
      | none => []

/-- A number that is not zero; `True` is the number one. -/
def nonZero : Value → Bool
  | .bool b => b
  | .int n => decide (n ≠ 0)
  | .float (.finite q) => decide (q ≠ 0)
  | .float (.infinity _) | .float .nan => true
  | _ => false

/-- `str` of a number. -/
def strNumber : Value → String
  | .bool b => if b then "True" else "False"
  | .int n => toString n
  | .float x => py.strFloat x
  | _ => ""

/-! ## The checks -/

/-- The text of a finding about a string. -/
def found (what value : String) : String :=
  s!"{what} (len={value.length}, hash={hashValue py value})"

/-- Check 1: credential-shaped field names. -/
def credentialFindings (key value : String) : List String :=
  if credentialPattern.search key && decide (value ≠ "") && !isPlaceholder value then
    [found py "credential-shaped field" value]
  else []

/-- Check 2: high-entropy values. -/
def entropyFindings (key value : String) : List String :=
  if highEntropyPattern.matchesStart value &&
      (decide (key ∉ structuralIdKeys) && !isPlaceholder value) then
    [found py "high-entropy value" value]
  else []

/-- Check 3: public IPs, but for `policies.json` and DHCPv6 suffixes. -/
def publicIpFindings (inPolicies : Bool) (key value : String) : List String :=
  if !inPolicies && decide (key ∉ dhcpv6SuffixKeys) then
    (extractIpsFromValue py value).flatMap fun
      | .address addr =>
          if py.addressIsGlobal addr && !isAllowedPublicIp py (py.strAddress addr) then
            [found py "public IP" value]
          else []
      | .network net =>
          if py.networkIsGlobal net && !isAllowedNetwork py value net then
            [found py "public IP network" value]
          else []
  else []

/-- Check 4: non-zero coordinates. -/
def coordinateFindings (key : String) (value : Value) : List String :=
  if decide (py.lower key ∈ geoCoordKeys) && nonZero value then
    [s!"non-zero coordinate (hash={hashValue py (strNumber py value)})"]
  else []

/-- Check 5: MAC addresses. -/
def macFindings (key value : String) : List String :=
  if macPattern.matchesStart value &&
      (decide (key ∉ macExemptionKeys) && !isAllowedMac value) then
    [found py "MAC address" value]
  else []

/-- A text contains another. -/
def isIn (needle text : String) : Bool := decide (needle.toList <:+: text.toList)

/-- Check 6: denylist matches. -/
def denylistFindings (denylist : List String) (value : String) : List String :=
  denylist.flatMap fun denied =>
    if isIn denied (py.lower value) then [found py "denylist match" value] else []

/-! ## The walk -/

variable (denylist : List String) (inPolicies : Bool)

/-- What the checks find of the value of a key. -/
def findings (key : String) : Value → List String
  | .str value =>
      credentialFindings py key value ++ entropyFindings py key value ++
        publicIpFindings py inPolicies key value ++ macFindings py key value ++
        denylistFindings py denylist value
  | value => coordinateFindings py key value

variable (filepath : String)

/-- The path of a key under a path. -/
def keyPath (path key : String) : String := if path = "" then key else s!"{path}.{key}"

mutual

/-- Recursively walk a JSON structure checking each value. -/
def walk (path : String) : Value → List String
  | .null | .bool _ | .int _ | .float _ | .str _ => []
  | .list items => walkItems path 0 items
  | .dict pairs => walkPairs path pairs

/-- Walk the items of a list, from a position on. -/
def walkItems (path : String) (position : Nat) : List Value → List String
  | [] => []
  | item :: items => walk s!"{path}[{position}]" item ++ walkItems path (position + 1) items

/-- Walk the pairs of a dictionary. -/
def walkPairs (path : String) : List (String × Value) → List String
  | [] => []
  | (key, value) :: pairs =>
      (findings py denylist inPolicies key value).map
          (fun finding => s!"{filepath}:{keyPath path key} — {finding}") ++
        walk (keyPath path key) value ++ walkPairs path pairs

end

/-- Check one fixture file for sensitive data.  The document is what the text decodes to, before
its objects become dictionaries, or why it does not decode. -/
def checkFixture (document : Except String Value) : List String :=
  match document with
  | .error e => [s!"{filepath}: JSON decode error: {e}"]
  | .ok document => walk py denylist inPolicies filepath "" document.load

/-! ## What should be reported -/

/-- The string does not stand directly under one of these keys. -/
def Place.NotUnder (place : Place) (keys : List String) : Prop :=
  ∀ k, place = .key k → k ∉ keys

/-- A string that should be reported, wherever it stands. -/
inductive Offends (leaf : Leaf) : Prop where
  /-- It contains a denied identifier. -/
  | denied (identifier : String) (listed : identifier ∈ denylist)
      (contained : isIn identifier (py.lower leaf.value) = true)
  /-- It is a global address outside the allowed ranges. -/
  | publicIp (addr : IpAddress) (checked : inPolicies = false)
      (whole : leaf.place.NotUnder dhcpv6SuffixKeys)
      (parsed : py.ipAddress leaf.value = some addr) (isGlobal : py.addressIsGlobal addr = true)
      (outside : isAllowedPublicIp py (py.strAddress addr) = false)
  /-- It is a MAC address outside the allowed ones. -/
  | mac (counted : leaf.place.NotUnder macExemptionKeys)
      (shaped : macPattern.matchesStart leaf.value = true)
      (outside : isAllowedMac leaf.value = false)

/-- One of the checks objects to the value of a key. -/
inductive Flagged (key : String) : Value → Prop where
  | credential {value : String} (named : credentialPattern.search key = true)
      (given : value ≠ "") (real : isPlaceholder value = false) : Flagged key (.str value)
  | entropy {value : String} (shaped : highEntropyPattern.matchesStart value = true)
      (counted : key ∉ structuralIdKeys) (real : isPlaceholder value = false) :
      Flagged key (.str value)
  | publicIp {value : String} (addr : IpAddress) (checked : inPolicies = false)
      (whole : key ∉ dhcpv6SuffixKeys) (parsed : py.ipAddress value = some addr)
      (isGlobal : py.addressIsGlobal addr = true)
      (outside : isAllowedPublicIp py (py.strAddress addr) = false) : Flagged key (.str value)
  | publicNetwork {value : String} (net : IpNetwork) (checked : inPolicies = false)
      (whole : key ∉ dhcpv6SuffixKeys) (noAddress : py.ipAddress value = none)
      (parsed : py.ipNetwork value = some net) (isGlobal : py.networkIsGlobal net = true)
      (outside : isAllowedNetwork py value net = false) : Flagged key (.str value)
  | mac {value : String} (shaped : macPattern.matchesStart value = true)
      (counted : key ∉ macExemptionKeys) (outside : isAllowedMac value = false) :
      Flagged key (.str value)
  | denied {value : String} (identifier : String) (listed : identifier ∈ denylist)
      (contained : isIn identifier (py.lower value) = true) : Flagged key (.str value)
  | coordinate {value : Value} (named : py.lower key ∈ geoCoordKeys)
      (nonZero : nonZero value = true) : Flagged key value

/-- The string is the value of a key in what is loaded. -/
def IsEntry (document : Value) (leaf : Leaf) : Prop :=
  ∃ k, leaf.place = .key k ∧ (k, .str leaf.value) ∈ document.load.entries

variable {py denylist inPolicies filepath}

/-- Under a key, every string that should be reported is objected to. -/
theorem Offends.flagged {k s : String} (h : Offends py denylist inPolicies ⟨.key k, s⟩) :
    Flagged py denylist inPolicies k (.str s) := by
  cases h with
  | denied identifier hlisted hcontained => exact .denied identifier hlisted hcontained
  | publicIp addr hchecked hwhole hparsed hglobal houtside =>
      exact .publicIp addr hchecked (hwhole k rfl) hparsed hglobal houtside
  | mac hcounted hshaped houtside => exact .mac hshaped (hcounted k rfl) houtside

/-! ## What each check finds -/

section Findings

variable {key value : String}

theorem credentialFindings_eq_nil_iff : credentialFindings py key value = [] ↔
    ¬ (credentialPattern.search key = true ∧ value ≠ "" ∧ isPlaceholder value = false) := by
  unfold credentialFindings
  simp [and_assoc]

theorem entropyFindings_eq_nil_iff : entropyFindings py key value = [] ↔
    ¬ (highEntropyPattern.matchesStart value = true ∧ key ∉ structuralIdKeys ∧
      isPlaceholder value = false) := by
  unfold entropyFindings
  simp

theorem publicIpFindings_eq_nil_iff : publicIpFindings py inPolicies key value = [] ↔
    ¬ (inPolicies = false ∧ key ∉ dhcpv6SuffixKeys ∧
      ((∃ addr, py.ipAddress value = some addr ∧ py.addressIsGlobal addr = true ∧
          isAllowedPublicIp py (py.strAddress addr) = false) ∨
        ∃ net, py.ipAddress value = none ∧ py.ipNetwork value = some net ∧
          py.networkIsGlobal net = true ∧ isAllowedNetwork py value net = false)) := by
  unfold publicIpFindings extractIpsFromValue
  cases py.ipAddress value with
  | some addr => simp
  | none =>
      cases py.ipNetwork value with
      | some net => simp
      | none => simp

theorem macFindings_eq_nil_iff : macFindings py key value = [] ↔
    ¬ (macPattern.matchesStart value = true ∧ key ∉ macExemptionKeys ∧
      isAllowedMac value = false) := by
  unfold macFindings
  simp

theorem denylistFindings_eq_nil_iff : denylistFindings py denylist value = [] ↔
    ¬ ∃ identifier ∈ denylist, isIn identifier (py.lower value) = true := by
  unfold denylistFindings
  simp

theorem coordinateFindings_eq_nil_iff {value : Value} : coordinateFindings py key value = [] ↔
    ¬ (py.lower key ∈ geoCoordKeys ∧ nonZero value = true) := by
  unfold coordinateFindings
  simp

end Findings

/-- The checks find something in a string if and only if one of them objects to it. -/
theorem findings_str_eq_nil_iff {key value : String} :
    findings py denylist inPolicies key (.str value) = [] ↔
      ¬ Flagged py denylist inPolicies key (.str value) := by
  unfold findings
  simp only [List.append_eq_nil_iff, credentialFindings_eq_nil_iff, entropyFindings_eq_nil_iff,
    publicIpFindings_eq_nil_iff, macFindings_eq_nil_iff, denylistFindings_eq_nil_iff]
  constructor
  · rintro ⟨⟨⟨⟨hcredential, hentropy⟩, hip⟩, hmac⟩, hdenied⟩ hflagged
    cases hflagged with
    | credential hnamed hgiven hreal => exact hcredential ⟨hnamed, hgiven, hreal⟩
    | entropy hshaped hcounted hreal => exact hentropy ⟨hshaped, hcounted, hreal⟩
    | publicIp addr hchecked hwhole hparsed hglobal houtside =>
        exact hip ⟨hchecked, hwhole, .inl ⟨addr, hparsed, hglobal, houtside⟩⟩
    | publicNetwork net hchecked hwhole hnone hparsed hglobal houtside =>
        exact hip ⟨hchecked, hwhole, .inr ⟨net, hnone, hparsed, hglobal, houtside⟩⟩
    | mac hshaped hcounted houtside => exact hmac ⟨hshaped, hcounted, houtside⟩
    | denied identifier hlisted hcontained => exact hdenied ⟨identifier, hlisted, hcontained⟩
    | coordinate hnamed hnonzero => cases hnonzero
  · intro hflagged
    refine ⟨⟨⟨⟨?_, ?_⟩, ?_⟩, ?_⟩, ?_⟩
    · exact fun ⟨hnamed, hgiven, hreal⟩ => hflagged (.credential hnamed hgiven hreal)
    · exact fun ⟨hshaped, hcounted, hreal⟩ => hflagged (.entropy hshaped hcounted hreal)
    · rintro ⟨hchecked, hwhole, ⟨addr, hparsed, hglobal, houtside⟩ |
        ⟨net, hnone, hparsed, hglobal, houtside⟩⟩
      · exact hflagged (.publicIp addr hchecked hwhole hparsed hglobal houtside)
      · exact hflagged (.publicNetwork net hchecked hwhole hnone hparsed hglobal houtside)
    · exact fun ⟨hshaped, hcounted, houtside⟩ => hflagged (.mac hshaped hcounted houtside)
    · exact fun ⟨identifier, hlisted, hcontained⟩ =>
        hflagged (.denied identifier hlisted hcontained)

theorem findings_eq_nil_iff {key : String} {value : Value} :
    findings py denylist inPolicies key value = [] ↔
      ¬ Flagged py denylist inPolicies key value := by
  have hother : ∀ {value : Value}, (∀ s, value ≠ .str s) →
      (coordinateFindings py key value = [] ↔ ¬ Flagged py denylist inPolicies key value) := by
    intro value hstr
    rw [coordinateFindings_eq_nil_iff, not_iff_not]
    constructor
    · exact fun ⟨hnamed, hnonzero⟩ => .coordinate hnamed hnonzero
    · intro hflagged
      cases hflagged with
      | coordinate hnamed hnonzero => exact ⟨hnamed, hnonzero⟩
      | credential | entropy | publicIp | publicNetwork | mac | denied => exact absurd rfl (hstr _)
  cases value with
  | str s => exact findings_str_eq_nil_iff
  | null | bool b | int n | float x | list items | dict pairs => exact hother nofun

/-! ## What is reported -/

mutual

/-- The walk reports nothing if and only if no value of a key is flagged. -/
theorem walk_eq_nil_iff (path : String) : ∀ v : Value,
    walk py denylist inPolicies filepath path v = [] ↔
      ∀ e ∈ v.entries, ¬ Flagged py denylist inPolicies e.1 e.2
  | .null | .bool _ | .int _ | .float _ | .str _ => by simp [walk, Value.entries]
  | .list items => by
      rw [walk, Value.entries]
      exact walkItems_eq_nil_iff path 0 items
  | .dict pairs => by
      rw [walk, Value.entries]
      exact walkPairs_eq_nil_iff path pairs

theorem walkItems_eq_nil_iff (path : String) : ∀ (position : Nat) (items : List Value),
    walkItems py denylist inPolicies filepath path position items = [] ↔
      ∀ e ∈ Value.entriesItems items, ¬ Flagged py denylist inPolicies e.1 e.2
  | _, [] => by simp [walkItems, Value.entriesItems]
  | position, item :: items => by
      rw [walkItems, Value.entriesItems, List.append_eq_nil_iff, List.forall_mem_append,
        walk_eq_nil_iff _ item, walkItems_eq_nil_iff path _ items]

theorem walkPairs_eq_nil_iff (path : String) : ∀ pairs : List (String × Value),
    walkPairs py denylist inPolicies filepath path pairs = [] ↔
      ∀ e ∈ Value.entriesPairs pairs, ¬ Flagged py denylist inPolicies e.1 e.2
  | [] => by simp [walkPairs, Value.entriesPairs]
  | (key, value) :: pairs => by
      rw [walkPairs, Value.entriesPairs, List.append_eq_nil_iff, List.append_eq_nil_iff,
        List.map_eq_nil_iff, List.forall_mem_cons, List.forall_mem_append,
        findings_eq_nil_iff, walk_eq_nil_iff _ value, walkPairs_eq_nil_iff path pairs, and_assoc]

end

/-- A document is reported if and only if the value of some key is flagged. -/
theorem checkFixture_ne_nil_iff {document : Value} :
    checkFixture py denylist inPolicies filepath (.ok document) ≠ [] ↔
      ∃ e ∈ document.load.entries, Flagged py denylist inPolicies e.1 e.2 := by
  unfold checkFixture
  rw [ne_eq, walk_eq_nil_iff]
  simp only [not_forall, not_not, exists_prop]

/-- Where no key is repeated, a string under a key that should be reported is. -/
theorem checkFixture_ne_nil_of_key {document : Value} (hrepeats : document.NoRepeats)
    {k s : String} (hleaf : ⟨.key k, s⟩ ∈ document.leaves .top)
    (h : Offends py denylist inPolicies ⟨.key k, s⟩) :
    checkFixture py denylist inPolicies filepath (.ok document) ≠ [] :=
  checkFixture_ne_nil_iff.2 ⟨_, Value.mem_entries_of_leaf hrepeats hleaf, h.flagged⟩

variable (py denylist inPolicies filepath)

/-- Every string of the document that should be reported leads to a report. -/
def ReportsLeaves (document : Value) : Prop :=
  ∀ leaf ∈ document.leaves .top, Offends py denylist inPolicies leaf →
    checkFixture py denylist inPolicies filepath (.ok document) ≠ []

/-- **When every string that should be reported leads to a report.**  Each stands under a key, with
the value that is kept if the key is repeated; or the value of some key is flagged anyway. -/
theorem reportsLeaves_iff (document : Value) :
    ReportsLeaves py denylist inPolicies filepath document ↔
      (∀ leaf ∈ document.leaves .top, Offends py denylist inPolicies leaf →
          IsEntry document leaf) ∨
        ∃ e ∈ document.load.entries, Flagged py denylist inPolicies e.1 e.2 := by
  unfold ReportsLeaves
  rw [checkFixture_ne_nil_iff]
  constructor
  · intro h
    by_cases hflagged : ∃ e ∈ document.load.entries, Flagged py denylist inPolicies e.1 e.2
    · exact .inr hflagged
    · exact .inl fun leaf hleaf hoffends => absurd (h leaf hleaf hoffends) hflagged
  · rintro (hentries | hflagged) leaf hleaf hoffends
    · obtain ⟨k, hplace, hentry⟩ := hentries leaf hleaf hoffends
      obtain ⟨place, value⟩ := leaf
      obtain rfl : place = .key k := hplace
      exact ⟨_, hentry, hoffends.flagged⟩
    · exact hflagged

end Checks

/-! ## A site's name in an array -/

/-- Python's library on texts in lower case that are no addresses. -/
def plainPy : PyLib where
  lower s := s
  ipAddress _ := none
  ipNetwork _ := none
  strAddress _ := ""
  addressIsGlobal _ := false
  networkIsGlobal _ := false
  sha256Hex _ := "00000000"
  strFloat _ := "0.0"

/-- **A denied name in an array is not reported.** -/
theorem not_reportsLeaves_siteName :
    ¬ ∀ (py : PyLib) (denylist : List String) (inPolicies : Bool) (filepath : String)
      (document : Value), ReportsLeaves py denylist inPolicies filepath document := by
  intro h
  have hleaf : ⟨.item, "acme-hq"⟩ ∈ (Value.list [.str "acme-hq"]).leaves .top := by
    simp [Value.leaves, Value.leavesItems]
  have hoffends : Offends plainPy ["acme-hq"] false ⟨.item, "acme-hq"⟩ :=
    .denied "acme-hq" (List.mem_singleton_self _) (by decide)
  exact h plainPy ["acme-hq"] false "sites.json" _ _ hleaf hoffends rfl

end Fixtures

end UnifiMcp
