import UnifiMcp.Tools.ListPages

/-!
# Getting one resource, however it is answered

A controller answers the request for one resource bare, in an envelope, or alone in an array.
`normalizeSingle` brings each shape to that of the kind's collection, so every kind reads the
same resource from each of them, and the same as from its collection
(`parseSingleResource_shape`).  The source has two tables of parsers, one for collections and
one for single resources; `parseSingleResource_eq` says that they agree.
-/

namespace UnifiMcp

open Collections

/-! ## The table of parsers for a single resource -/

/-- Parse a normalised single-resource response through the parser of its kind. -/
def parseNormalised (number : Number → String) (kind : ResourceKind) (raw : Json) :
    Except UnifiError Json :=
  match kind with
  | .station => rendered Station.toJson (parseStations raw)
  | .device => rendered Device.toJson (parseDevices raw)
  | .network => rendered NetworkConf.toJson (parseNetworks raw)
  | .wlan => rendered Wlan.toJson (parseWlans raw)
  | .portProfile => rendered PortProfile.toJson (parsePortProfiles raw)
  | .dhcpReservation => rendered DhcpReservation.toJson (parseDhcpReservations raw)
  | .firewallPolicy => rendered FirewallPolicy.toJson (parseFirewallPolicies raw)
  | .firewallZone => rendered FirewallZone.toJson (parseFirewallZones raw)
  | .firewallGroup => rendered FirewallGroup.toJson (parseFirewallGroups raw)
  | .trafficRoute => rendered TrafficRoute.toJson (parseTrafficRoutes raw)
  | .radiusProfile => rendered RadiusProfile.toJson (parseRadiusProfiles raw)
  | .firewallRule => rendered FirewallRule.toJson (parseFirewallRules number raw)
  | .portForward => rendered PortForward.toJson (parsePortForwards raw)
  | .staticRoute => rendered Route.toJson (parseRoutes raw)

/-- The item of a list of one, and any other list as it is. -/
def onlyItem : Json → Json
  | .arr [item] => item
  | parsed => parsed

/-- A single resource is read by the same parser as the items of its collection. -/
theorem parseSingleResource_eq (number : Number → String) (kind : ResourceKind) (raw : Json) :
    parseSingleResource number kind raw =
      (parseNormalised number kind (normalizeSingle kind raw)).map onlyItem := by
  have htable : parseNormalised number kind = parseResourceList number kind := by
    cases kind <;> rfl
  rw [htable]
  unfold parseSingleResource
  cases parseResourceList number kind (normalizeSingle kind raw) with
  | error e => rfl
  | ok parsed =>
      cases parsed with
      | null | bool _ | num _ | str _ | obj _ => rfl
      | arr items =>
          match items with
          | [] | [_] | _ :: _ :: _ => rfl

/-! ## The shapes of an answer -/

/-- `raw` is an answer that holds the resource `r` of a kind: bare, in an envelope as it is or
alone in an array, or, where there are no envelopes, alone in a bare array. -/
inductive SingleShape (k : ResourceKind) (r : Json) : Json → Prop
  | bare : SingleShape k r r
  | envelopedObject {raw : Json} (hsurface : k.surface ≠ .privateV2)
      (hdata : raw.get? "data" = some r) : SingleShape k r raw
  | envelopedArray {raw : Json} (hsurface : k.surface ≠ .privateV2)
      (hdata : raw.get? "data" = some (.arr [r])) : SingleShape k r raw
  | bareArray (hsurface : k.surface = .privateV2) : SingleShape k r (.arr [r])

variable {k : ResourceKind} {fields : List (String × Json)} {raw : Json}

/-- Every shape is brought to a collection that holds the resource alone. -/
theorem SingleShape.collectionItems_normalizeSingle (h : SingleShape k (.obj fields) raw)
    (hdata : findEntry "data" fields = none) :
    collectionItems k.surface (normalizeSingle k raw) = .ok [.obj fields] := by
  cases h with
  | bare =>
      unfold normalizeSingle
      rw [Json.get?_obj, hdata]
      cases k <;> rfl
  | envelopedObject hsurface hobject =>
      unfold normalizeSingle
      rw [hobject]
      cases hk : k.surface with
      | privateV2 => exact absurd hk hsurface
      | supported | privateV1 | cloud => rfl
  | envelopedArray hsurface harray =>
      unfold normalizeSingle
      rw [harray]
      cases hk : k.surface with
      | privateV2 => exact absurd hk hsurface
      | supported | privateV1 | cloud =>
          change unwrapEnvelopedData raw = _
          unfold unwrapEnvelopedData
          rw [harray]
          rfl
  | bareArray hsurface =>
      have hnormal : normalizeSingle k (.arr [.obj fields]) = .arr [.obj fields] := rfl
      rw [hnormal, hsurface]
      rfl

/-- **A resource is read the same from every shape it may be answered in.**  What the parser of
its kind reads of it alone in a collection is what getting it gives, for every kind. -/
theorem parseSingleResource_shape {number : Number → String} {item : Json}
    (hdata : findEntry "data" fields = none)
    (hkept : parseResourceList number k (wholeCollection k [.obj fields]) = .ok (.arr [item]))
    (hshape : SingleShape k (.obj fields) raw) :
    parseSingleResource number k raw = .ok item := by
  obtain ⟨select, read, hreads⟩ := exists_readsItems number k
  have hitems := hshape.collectionItems_normalizeSingle hdata
  have hlist : parseResourceList number k (normalizeSingle k raw) = .ok (.arr [item]) := by
    rw [hreads.parse hitems, ← hkept, hreads.parse (collectionItems_wholeCollection k _)]
  unfold parseSingleResource
  rw [hlist]
  rfl

/-- A zone, alone in an array. -/
theorem parseSingleResource_shape_zone :
    parseSingleResource plainNumber .firewallZone
        (.arr [.obj [("_id", .str "z1"), ("name", .str "Internal")]]) =
      .ok (.obj [("_id", .str "z1"), ("default_zone", .bool false), ("name", .str "Internal"),
        ("network_ids", .arr [])]) :=
  parseSingleResource_shape rfl rfl (.bareArray rfl)

end UnifiMcp
