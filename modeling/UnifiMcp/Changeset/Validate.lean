import UnifiMcp.Client.ControllerOps

/-!
# Local validation of zone deletions

UniFi has no dry run, so what a change set would do to the firewall zones is checked
here.  `checkZoneDeletions` walks the plan in staging order over the resources the plan
addresses, seeded with their live state, and refuses a zone deletion that something
still names and a write that names a zone already deleted.  `checkZoneReferences` looks the
zones that staged bodies name up in the controller's zone list.
-/

namespace UnifiMcp

open Collections

/-- The resource kind whose deletion removes a zone a policy could name. -/
def zoneKind : String := "firewall_zone"

/-- The body fields a zone reference can appear under. -/
def zoneReferenceFields : List String := ["source", "destination"]

/-- The zones this change set deletes. -/
def zonesDeletedBy (mutations : List StagedMutation) : List String :=
  mutations.filterMap fun
    | .delete kind id => if kind = zoneKind then some id else none
    | _ => none

/-- Whether an update of this kind is a fragment that apply merges. -/
def mergesPartially (kind : String) : Bool :=
  match ResourceKind.ofName? kind with
  | some resourceKind => resourceKind.surface = .privateV2
  | none => false

/-- Overlay a staged fragment on a resource the way apply does. -/
def overlay (base fragment : Json) : Json :=
  match base, fragment with
  | .obj baseObject, .obj fragmentObject =>
      .obj (fragmentObject.foldl (fun fields (key, value) =>
        if key ≠ "_id" ∧ key ≠ "site_id" then insertEntry key value fields else fields)
        baseObject)
  | base, _ => base

/-- The zone one side of a resource names, if any. -/
def zoneOf (resource : Json) (field : String) : Option String :=
  ((resource.get? field).bind (·.get? "zone_id")).bind Json.asStr?

/-- Refuse a write naming a zone an earlier mutation in the set removed. -/
def refuseReferenceToDeleted (preview : String) (resource : Json) (deleted : List String) :
    List String → Except UnifiError Unit
  | [] => .ok ()
  | field :: rest =>
      match zoneOf resource field with
      | none => refuseReferenceToDeleted preview resource deleted rest
      | some zoneId =>
          if zoneId ∈ deleted then
            .error (.referenceNotFound
              (s!"staged {preview} names {field}.zone_id '{zoneId}', which an earlier " ++
                "mutation in this change set deletes"))
          else refuseReferenceToDeleted preview resource deleted rest

/-- What the walk over a plan knows: the resources it addresses by id, those it created,
and the zones it deleted.  A resource is kept with a description for messages. -/
structure ZoneView where
  live : SortedMap String (String × Json)
  created : List (String × Json)
  deleted : List String

/-- Every resource the set addresses by id, with its live state.  Zones name no zone. -/
def seedLive (preimage : Preimage) :
    List StagedMutation → SortedMap String (String × Json) → SortedMap String (String × Json)
  | [], live => live
  | m :: rest, live =>
      match m.target with
      | none => seedLive preimage rest live
      | some (kind, id) =>
          if kind = zoneKind then seedLive preimage rest live
          else
            match preimage.getResource id with
            | some resource =>
                seedLive preimage rest (live.insert id (s!"the live {kind} {id}", resource))
            | none => seedLive preimage rest live

/-- Refuse to delete a zone that one of these resources still names. -/
def refuseIfStillNamed (id : String) : List (String × Json) → Except UnifiError Unit
  | [] => .ok ()
  | (preview, resource) :: rest =>
      match zoneReferenceFields.find? fun field => zoneOf resource field = some id with
      | some field =>
          .error (.referenceNotFound
            (s!"staged delete firewall_zone {id} would remove a zone {preview} still names " ++
              s!"as {field}.zone_id; stage the change that moves it off the zone before " ++
              "the delete"))
      | none => refuseIfStillNamed id rest

/-- Walk over one mutation. -/
def ZoneView.walk (view : ZoneView) : StagedMutation → Except UnifiError ZoneView
  | .create kind body => do
      let preview := (StagedMutation.create kind body).preview
      refuseReferenceToDeleted preview body view.deleted zoneReferenceFields
      pure { view with created := view.created ++ [(preview, body)] }
  | .update kind id body => do
      let preview := (StagedMutation.update kind id body).preview
      let current := ((view.live.get? id).map Prod.snd).getD (.obj [])
      let resource := if mergesPartially kind then overlay current body else body
      refuseReferenceToDeleted preview resource view.deleted zoneReferenceFields
      pure { view with live := view.live.insert id (preview, resource) }
  | .delete kind id =>
      if kind = zoneKind then do
        refuseIfStillNamed id (view.live.values ++ view.created)
        pure { view with deleted := id :: view.deleted }
      else pure { view with live := view.live.erase id }
  | .restore _ => pure view

/-- Walk over a plan. -/
def ZoneView.walkAll (view : ZoneView) : List StagedMutation → Except UnifiError Unit
  | [] => .ok ()
  | m :: rest => do
      let view ← view.walk m
      view.walkAll rest

/-- Refuse a change set whose zone deletions and policy writes contradict. -/
def checkZoneDeletions (preimage : Preimage) (mutations : List StagedMutation) :
    Except UnifiError Unit :=
  if (zonesDeletedBy mutations).isEmpty then .ok ()
  else ZoneView.walkAll ⟨seedLive preimage mutations .empty, [], []⟩ mutations

/-- The merge checked here is the one apply performs. -/
theorem overlay_eq_mergeStaged (base fragment : Json) :
    overlay base fragment = mergeStaged base fragment := by
  cases base <;> cases fragment <;> rfl

/-! ## Coverage and references -/

/-- Validate that all staged mutations are covered by the pre-image. -/
def validateLocally (preimage : Preimage) : List StagedMutation → Except UnifiError Unit
  | [] => .ok ()
  | mutation :: rest =>
      if preimage.covers mutation then validateLocally preimage rest
      else
        .error (.malformed
          s!"mutation {mutation.preview} references a resource not in the pre-image")

/-- The firewall zones a staged mutation is allowed to reference. -/
structure ZoneIndex where
  /-- Zone `_id` to zone name. -/
  byId : SortedMap String String
  /-- Zone `external_id` to the `_id` the controller wants instead. -/
  byExternalId : SortedMap String String

/-- What a zone identifier in a staged body resolves to. -/
inductive ZoneLookup where
  | known
  | externalId (id : String)
  | absent

namespace ZoneIndex

/-- Add the zones of a list; the first of them is at this position. -/
def addZones (index : ZoneIndex) (position : Nat) : List Json → Except UnifiError ZoneIndex
  | [] => .ok index
  | item :: rest =>
      match item.getStr? "_id" with
      | none => .error (.malformed s!"firewall zone at position {position} has no `_id`")
      | some id =>
          let byExternalId := match item.getStr? "external_id" with
            | some external => index.byExternalId.insert external id
            | none => index.byExternalId
          let name := (item.getStr? "name").getD "<unnamed>"
          addZones ⟨index.byId.insert id name, byExternalId⟩ (position + 1) rest

/-- Build the index from the controller's firewall zone list. -/
def fromZoneList (raw : Json) : Except UnifiError ZoneIndex :=
  match raw.asArray? with
  | none => .error (.malformed "firewall zone list is not an array")
  | some items => addZones ⟨.empty, .empty⟩ 0 items

/-- How many zones the controller reported. -/
def len (index : ZoneIndex) : Nat := index.byId.entries.length

/-- Resolve one identifier taken from a staged body. -/
def resolve (index : ZoneIndex) (identifier : String) : ZoneLookup :=
  if (index.byId.get? identifier).isSome then .known
  else
    match index.byExternalId.get? identifier with
    | some id => .externalId id
    | none => .absent

end ZoneIndex

/-- The body a mutation stages, if it has one. -/
def StagedMutation.body? : StagedMutation → Option Json
  | .create _ body | .update _ _ body => some body
  | .delete _ _ | .restore _ => none

/-- The zones a mutation's body names, each with the field it stands under. -/
def zonesNamedBy (mutation : StagedMutation) : List (String × String) :=
  match mutation.body? with
  | none => []
  | some body => zoneReferenceFields.filterMap fun field =>
      (zoneOf body field).map fun zoneId => (field, zoneId)

/-- The zone identifiers staged mutations reference, in staging order. -/
def referencedZoneIds (mutations : List StagedMutation) : List String :=
  (mutations.flatMap zonesNamedBy).foldl (fun referenced (_, zoneId) =>
    if zoneId ∈ referenced then referenced else referenced ++ [zoneId]) []

/-- Check one zone that a mutation names. -/
def checkZoneReference (zones : ZoneIndex) (preview field zoneId : String) :
    Except UnifiError Unit :=
  match zones.resolve zoneId with
  | .known => .ok ()
  | .externalId id =>
      .error (.referenceNotFound
        (s!"staged {preview} names {field}.zone_id '{zoneId}', which is that zone's " ++
          s!"external_id; the controller addresses it by `_id` '{id}'"))
  | .absent =>
      .error (.referenceNotFound
        (s!"staged {preview} names {field}.zone_id '{zoneId}', which is not one of the " ++
          s!"{zones.len} firewall zones on this controller"))

/-- Check that every zone a staged body names exists on the controller. -/
def checkZoneReferences (zones : ZoneIndex) (mutations : List StagedMutation) :
    Except UnifiError Unit :=
  mutations.forM fun mutation => (zonesNamedBy mutation).forM fun (field, zoneId) =>
    checkZoneReference zones mutation.preview field zoneId

end UnifiMcp
