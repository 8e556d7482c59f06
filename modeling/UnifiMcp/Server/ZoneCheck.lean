import UnifiMcp.Server.MemoryStore
import UnifiMcp.Server.Reads
import UnifiMcp.Tools.ListPages

/-!
# The zones a plan names

`unifi_validate_change_set` looks the zones that staged bodies name up in the controller's
zone list, which it reads only when a body names one.  The list is read through the listing
tool without a limit, so it is the first page of 200 zones that the plan is checked against.
`zoneCheck_ok_iff` says that this is what the verdict comes to, `zoneCheck_exact_iff` when it
is the verdict over all the zones of the controller.
-/

namespace UnifiMcp

open Interaction Collections

/-! ## The index and the check -/

theorem isSome_get?_insert {index : SortedMap String String} {key id name : String} :
    ((index.insert key name).get? id).isSome = true ↔
      (index.get? id).isSome = true ∨ key = id := by
  by_cases h : id = key
  · subst h
    simp
  · simp [SortedMap.get?_insert_of_ne _ h, Ne.symm h]

/-- A zone is in the index when it was, or is one of those that are added. -/
theorem isSome_get?_addZones {items : List Json} {index index' : ZoneIndex} {position : Nat}
    (h : index.addZones position items = .ok index') (id : String) :
    (index'.byId.get? id).isSome = true ↔
      (index.byId.get? id).isSome = true ∨ ∃ item ∈ items, item.getStr? "_id" = some id := by
  induction items generalizing index position with
  | nil =>
      cases h
      simp
  | cons item rest ih =>
      rw [ZoneIndex.addZones] at h
      cases hid : item.getStr? "_id" with
      | none =>
          rw [hid] at h
          cases h
      | some id' =>
          rw [hid] at h
          rw [ih h, isSome_get?_insert, List.exists_mem_cons_iff, hid, Option.some.injEq, or_assoc]

/-- Zones with an `_id` are all indexed. -/
theorem exists_addZones_eq_ok {items : List Json}
    (h : ∀ item ∈ items, (item.getStr? "_id").isSome = true) (index : ZoneIndex)
    (position : Nat) : ∃ index', index.addZones position items = .ok index' := by
  induction items generalizing index position with
  | nil => exact ⟨index, rfl⟩
  | cons item rest ih =>
      obtain ⟨hitem, hrest⟩ := List.forall_mem_cons.1 h
      obtain ⟨id, hid⟩ := Option.isSome_iff_exists.1 hitem
      rw [ZoneIndex.addZones, hid]
      exact ih hrest _ _

theorem checkZoneReference_eq_ok {zones : ZoneIndex} {preview field zoneId : String} :
    checkZoneReference zones preview field zoneId = .ok () ↔
      (zones.byId.get? zoneId).isSome = true := by
  unfold checkZoneReference ZoneIndex.resolve
  by_cases h : (zones.byId.get? zoneId).isSome = true
  · simp [h]
  · cases zones.byExternalId.get? zoneId with
    | some id => simp [h]
    | none => simp [h]

/-- The zones that the bodies of a plan name. -/
def NamesZone (mutations : List StagedMutation) (id : String) : Prop :=
  ∃ mutation ∈ mutations, ∃ field, (field, id) ∈ zonesNamedBy mutation

theorem checkZoneReferences_eq_ok {zones : ZoneIndex} {mutations : List StagedMutation} :
    checkZoneReferences zones mutations = .ok () ↔
      ∀ id, NamesZone mutations id → (zones.byId.get? id).isSome = true := by
  unfold checkZoneReferences
  rw [forM_eq_ok]
  constructor
  · rintro h id ⟨mutation, hmutation, field, hnamed⟩
    exact checkZoneReference_eq_ok.1 (forM_eq_ok.1 (h mutation hmutation) _ hnamed)
  · intro h mutation hmutation
    refine forM_eq_ok.2 fun named hnamed => checkZoneReference_eq_ok.2 ?_
    exact h named.2 ⟨mutation, hmutation, named.1, hnamed⟩

/-- The identifiers that are collected are those the bodies name. -/
theorem mem_referencedZoneIds {mutations : List StagedMutation} {id : String} :
    id ∈ referencedZoneIds mutations ↔ NamesZone mutations id := by
  have hfold : ∀ (named : List (String × String)) (seen : List String),
      id ∈ named.foldl (fun referenced e =>
        if e.2 ∈ referenced then referenced else referenced ++ [e.2]) seen ↔
        id ∈ seen ∨ ∃ field, (field, id) ∈ named := by
    intro named
    induction named with
    | nil => simp
    | cons n rest ih =>
        obtain ⟨field, zoneId⟩ := n
        intro seen
        rw [List.foldl_cons, ih]
        by_cases hseen : zoneId ∈ seen
        · have hid : id = zoneId → id ∈ seen := fun h => h ▸ hseen
          simp only [hseen, if_true, List.mem_cons, Prod.mk.injEq, exists_or, exists_eq_left]
          tauto
        · simp only [hseen, if_false, List.mem_append, List.mem_cons, Prod.mk.injEq, exists_or,
            exists_eq_left, List.not_mem_nil, or_false, or_assoc]
  unfold referencedZoneIds NamesZone
  refine (hfold _ _).trans ?_
  simp only [List.not_mem_nil, false_or, List.mem_flatMap]
  constructor
  · rintro ⟨field, m, hm, h⟩
    exact ⟨m, hm, field, h⟩
  · rintro ⟨m, hm, field, h⟩
    exact ⟨field, m, hm, h⟩

/-! ## The list of zones -/

theorem getStr?_toJson_zone (zone : FirewallZone) :
    zone.toJson.getStr? "_id" = some zone.id := by
  obtain ⟨id, name, defaultZone, networkIds, externalId⟩ := zone
  cases externalId <;> rfl

/-- `FieldAllowlist::project` keeps the fields it names. -/
def KeepsNamed (project : List String → Json → Json) : Prop :=
  ∀ allow fields key, key ∈ allow →
    (project allow (.obj fields)).get? key = (Json.obj fields).get? key

section Listed

variable {tools : Toolkit} {zones : List FirewallZone}

/-- A zone as it is listed. -/
def listedZone (tools : Toolkit) (zone : FirewallZone) : Json :=
  tools.projectResource .firewallZone zone.toJson

theorem getStr?_listedZone (hkeeps : KeepsNamed tools.project) (zone : FirewallZone) :
    (listedZone tools zone).getStr? "_id" = some zone.id := by
  have hget : (listedZone tools zone).get? "_id" = zone.toJson.get? "_id" :=
    hkeeps firewallZoneFields _ "_id" (by decide)
  rw [← getStr?_toJson_zone zone, Json.getStr?, Json.getStr?, hget]

variable (zones) in
/-- The index of a list of zones has their identifiers. -/
theorem exists_fromZoneList (hkeeps : KeepsNamed tools.project) :
    ∃ index, ZoneIndex.fromZoneList (.arr (zones.map (listedZone tools))) = .ok index ∧
      ∀ id, (index.byId.get? id).isSome = true ↔ ∃ zone ∈ zones, zone.id = id := by
  have hids : ∀ item ∈ zones.map (listedZone tools), (item.getStr? "_id").isSome = true := by
    intro item hitem
    obtain ⟨zone, -, rfl⟩ := List.mem_map.1 hitem
    rw [getStr?_listedZone hkeeps]
    rfl
  obtain ⟨index, hindex⟩ := exists_addZones_eq_ok hids ⟨.empty, .empty⟩ 0
  refine ⟨index, hindex, fun id => ?_⟩
  rw [isSome_get?_addZones hindex]
  simp [getStr?_listedZone hkeeps]

end Listed

/-! ## The check of the server -/

namespace UnifiServer

/-- The check of the zones a plan names.  The list is read when a staged body names one. -/
def zoneCheck (kit : ReadKit) (controller : String) (mutations : List StagedMutation) :
    ServerM Unit :=
  if !(referencedZoneIds mutations).isEmpty then checkLiveZones kit controller mutations
  else pure ()

/-- It is the last check that `unifi_validate_change_set` makes. -/
theorem unifiValidateChangeSet_eq (server : UnifiServer) (kit : ReadKit)
    (caller : Option CallerCtx) (args : ValidateChangeSetArgs) :
    server.unifiValidateChangeSet kit caller args = (do
      server.authorize caller "unifi_validate_change_set" args.controller
      let record ← recordFor args.changeSetId args.controller
      let (mutations, preimage) ← Fallible.ofExcept (planOf record)
      orFail (fun e => s!"local validation failed: {e.toString}")
        (validateLocally preimage mutations)
      orFail (fun e => s!"schema constraints failed: {e.toString}")
        (checkWritableFields server.mecmcp.number mutations)
      orFail referenceCheckFailed (checkZoneDeletions preimage mutations)
      zoneCheck kit args.controller mutations
      pure (.obj
        [("change_set_id", .str record.id),
          ("note",
            .str "UniFi has no server-side dry-run validation; this is client-side only"),
          ("valid", .bool true)])) := by
  unfold unifiValidateChangeSet zoneCheck
  refine bind_congr fun _ => bind_congr fun record => bind_congr fun plan => ?_
  obtain ⟨mutations, preimage⟩ := plan
  refine bind_congr fun _ => bind_congr fun _ => bind_congr fun _ => ?_
  split_ifs
  · rfl
  · rfl

/-- The surroundings of a check: the client of its controller, what that answers the
client, and whatever is answered otherwise. -/
def checkedAgainst (client : UnifiClient) (upstream : Upstream)
    (other : (op : ServerOp) → op.Answer) : (op : ServerOp) → Caches → op.Answer × Caches
  | .clientFor _, s => (.ok (some client), s)
  | .client _ op, s => clientAnswer upstream op s
  | op, s => (other op, s)

section Checked

variable {kit : ReadKit} {controller : String} {mutations : List StagedMutation}
  {client : UnifiClient} {upstream : Upstream} {other : (op : ServerOp) → op.Answer}
  {caches : Caches} {site : String} {items : List Json} {zones : List FirewallZone}

/-- What the check reads: a controller that serves these zones, where the listing may be
made and `page` grants the window of a listing without a limit. -/
structure ReadsZones (kit : ReadKit) (client : UnifiClient) (upstream : Upstream) (site : String)
    (items : List Json) (zones : List FirewallZone) : Prop where
  many : ∀ allow items,
    kit.projectMany allow (.arr items) = .arr (items.map (kit.project allow))
  keeps : KeepsNamed kit.project
  page : ∃ w, kit.page 0 200 = .ok w ∧ w.start.toNat = 0 ∧ w.size.toNat = 200
  permitted : UnifiClient.ensureSurfacePermitted client.controller .privateV2 = .ok ()
  expands : ∃ path,
    client.expandPath ResourceKind.firewallZone.pathTemplate [("site", site)] = .ok path
  site_eq : site = client.controller.site
  serves : ServesCollection client .firewallZone site items upstream
  parses : parseFirewallZones (.arr items) = .ok zones

variable (controller mutations other caches) in
/-- Against a zone list that can be read, the verdict is that over its first 200 zones. -/
theorem eval_checkLiveZones (h : ReadsZones kit client upstream site items zones) :
    ∃ index : ZoneIndex,
      (∀ id, (index.byId.get? id).isSome = true ↔ ∃ zone ∈ zones.take 200, zone.id = id) ∧
      ((checkLiveZones kit controller mutations).eval (checkedAgainst client upstream other)
        caches).1 = (checkZoneReferences index mutations).mapError referenceCheckFailed := by
  obtain ⟨w, hw, hstart, hsize⟩ := h.page
  have hwhole : parseResourceList kit.number .firewallZone (wholeCollection .firewallZone items) =
      .ok (.arr (zones.map FirewallZone.toJson)) :=
    congrArg (rendered FirewallZone.toJson) h.parses
  obtain ⟨index, hindex, hids⟩ := exists_fromZoneList (zones.take 200) h.keeps
  refine ⟨index, hids, ?_⟩
  have hmany : ∀ allow items, kit.toToolkit.projectMany allow (.arr items) =
      .arr (items.map (kit.toToolkit.project allow)) := h.many
  have hsite : client.FindsSite upstream ⟨controller, .firewallZone, none, none, none⟩ site
      caches := ⟨[], caches, by rw [h.site_eq]; rfl⟩
  obtain ⟨t, caches', -, heval⟩ :=
    UnifiClient.eval_listResources ⟨controller, .firewallZone, none, none, none⟩ hmany h.permitted
      h.expands h.serves hwhole hw hsite
  rw [projectResourceList_arr h.many, hstart, hsize] at heval
  have hlisted : (client.listResources kit.toToolkit
      ⟨controller, .firewallZone, none, none, none⟩).eval upstream caches =
        (.ok (.arr ((zones.take 200).map (listedZone kit.toToolkit))), t, caches') := by
    rw [heval, itemsOf, List.drop_zero, List.map_map, ← List.map_take]
    rfl
  have hforward : ∀ (op : ClientOp) s, ∃ t, (Program.perform ServerSig (.client controller op)).eval
      (checkedAgainst client upstream other) s =
        ((clientAnswer upstream op s).1, t, (clientAnswer upstream op s).2) :=
    fun op s => ⟨_, rfl⟩
  obtain ⟨t', hserver⟩ := Program.eval_interpret hforward
    (client.listResources kit.toToolkit ⟨controller, .firewallZone, none, none, none⟩).run caches
  have hrun : ∃ t, (checkLiveZones kit controller mutations).eval
      (checkedAgainst client upstream other) caches =
        ((checkZoneReferences index mutations).mapError referenceCheckFailed, t, caches') := by
    unfold ClientM.eval Fallible.eval at hlisted
    rw [hlisted] at hserver
    have hclient : ∃ t, (clientFor controller).eval (checkedAgainst client upstream other) caches =
        (.ok client, t, caches) := ⟨_, rfl⟩
    refine Fallible.exists_eval_bind hclient ?_
    refine Fallible.exists_eval_bind ⟨_, Fallible.eval_lift hserver⟩ ?_
    refine Fallible.exists_eval_bind (Fallible.exists_eval_ofExcept rfl caches') ?_
    have hzones := congrArg (Except.mapError (zoneListUnreadable controller)) hindex
    exact Fallible.exists_eval_bind (Fallible.exists_eval_ofExcept hzones caches') ⟨[], rfl⟩
  obtain ⟨_, hrun⟩ := hrun
  rw [hrun]

/-- Whether the check lets the plan through. -/
def Accepted (verdict : ServerM Unit) (client : UnifiClient) (upstream : Upstream)
    (other : (op : ServerOp) → op.Answer) (caches : Caches) : Prop :=
  (verdict.eval (checkedAgainst client upstream other) caches).1 = .ok ()

theorem accepted_checkLiveZones_iff (h : ReadsZones kit client upstream site items zones) :
    Accepted (checkLiveZones kit controller mutations) client upstream other caches ↔
      ∀ id, NamesZone mutations id → ∃ zone ∈ zones.take 200, zone.id = id := by
  obtain ⟨index, hids, heval⟩ := eval_checkLiveZones controller mutations other caches h
  have hmap : (checkZoneReferences index mutations).mapError referenceCheckFailed = .ok () ↔
      checkZoneReferences index mutations = .ok () := by
    cases checkZoneReferences index mutations with
    | ok _ => simp [Except.mapError]
    | error e => exact ⟨nofun, nofun⟩
  rw [Accepted, heval, hmap, checkZoneReferences_eq_ok]
  exact forall₂_congr fun id _ => hids id

/-- A plan is let through when the first 200 zones have all those that it names. -/
theorem accepted_zoneCheck_iff (h : ReadsZones kit client upstream site items zones) :
    Accepted (zoneCheck kit controller mutations) client upstream other caches ↔
      ∀ id, NamesZone mutations id → ∃ zone ∈ zones.take 200, zone.id = id := by
  unfold zoneCheck
  cases hnone : (referencedZoneIds mutations).isEmpty with
  | false => exact accepted_checkLiveZones_iff h
  | true =>
      have hempty : referencedZoneIds mutations = [] := List.isEmpty_iff.1 hnone
      have hnamed : ∀ id, ¬ NamesZone mutations id := fun id hid => by
        rw [← mem_referencedZoneIds, hempty] at hid
        exact nomatch hid
      exact ⟨fun _ id hid => absurd hid (hnamed id), fun _ => rfl⟩

/-- **When the zone check is exact.**  The plan is let through if and only if all the zones
that it names are on the controller, and not reading the list changes no verdict, exactly
when the first 200 zones of the list have all of them or the controller lacks one. -/
theorem zoneCheck_exact_iff (h : ReadsZones kit client upstream site items zones) :
    ((Accepted (zoneCheck kit controller mutations) client upstream other caches ↔
          ∀ id, NamesZone mutations id → ∃ zone ∈ zones, zone.id = id) ∧
        (referencedZoneIds mutations = [] →
          (Accepted (zoneCheck kit controller mutations) client upstream other caches ↔
            Accepted (checkLiveZones kit controller mutations) client upstream other caches))) ↔
      ((∀ id, NamesZone mutations id → ∃ zone ∈ zones.take 200, zone.id = id) ∨
        ∃ id, NamesZone mutations id ∧ ∀ zone ∈ zones, zone.id ≠ id) := by
  rw [accepted_zoneCheck_iff h, accepted_checkLiveZones_iff h]
  have hall : (∀ id, NamesZone mutations id → ∃ zone ∈ zones.take 200, zone.id = id) →
      ∀ id, NamesZone mutations id → ∃ zone ∈ zones, zone.id = id := by
    intro hfirst id hid
    obtain ⟨zone, hzone, heq⟩ := hfirst id hid
    exact ⟨zone, List.mem_of_mem_take hzone, heq⟩
  constructor
  · rintro ⟨hiff, -⟩
    by_cases hthere : ∀ id, NamesZone mutations id → ∃ zone ∈ zones, zone.id = id
    · exact .inl (hiff.2 hthere)
    · push Not at hthere
      exact .inr hthere
  · intro hcondition
    refine ⟨⟨hall, fun hthere => ?_⟩, fun _ => Iff.rfl⟩
    rcases hcondition with hfirst | ⟨id, hid, hmissing⟩
    · exact hfirst
    · obtain ⟨zone, hzone, heq⟩ := hthere id hid
      exact absurd heq (hmissing zone hzone)

end Checked

/-! ## A controller with many zones -/

/-- The zone whose identifier has this length. -/
def zoneOfLength (n : Nat) : FirewallZone where
  id := String.ofList (List.replicate n 'z')
  name := "zone"
  defaultZone := false
  networkIds := []
  externalId := none

/-- A controller with some zones. -/
def zonesUpstream (count : Nat) : Upstream := fun _ =>
  .ok ⟨200, "", .ok (.arr (((List.range count).map zoneOfLength).map FirewallZone.toJson))⟩

theorem zoneOfLength_injective {m n : Nat} (h : (zoneOfLength m).id = (zoneOfLength n).id) :
    m = n := by
  have hlists := congrArg (List.length ∘ String.toList) h
  simpa [zoneOfLength] using hlists

theorem readsZones_upstream (count : Nat) :
    ReadsZones .plain guestClient (zonesUpstream count) "default"
      (((List.range count).map zoneOfLength).map FirewallZone.toJson)
      ((List.range count).map zoneOfLength) where
  many _ _ := rfl
  keeps allow fields key hkey := by
    change findEntry key (fields.filter fun e => e.1 ∈ allow) = findEntry key fields
    rw [findEntry_filter (fun key => key ∈ allow), if_pos (decide_eq_true hkey)]
  page := ⟨⟨0, 200⟩, rfl, rfl, rfl⟩
  permitted := rfl
  expands := ⟨_, rfl⟩
  site_eq := rfl
  serves _ _ _ _ := ⟨_, _, rfl, (show 200 < 300 by decide), rfl, rfl⟩
  parses := by
    refine mapM_eq_ok.2 (List.forall₂_map_left_iff.2 (List.forall₂_same.2 ?_))
    intro zone hzone
    obtain ⟨n, -, rfl⟩ := List.mem_map.1 hzone
    rfl

/-- A policy from the zone whose identifier has this length. -/
def policyFromZone (n : Nat) : List StagedMutation :=
  [.create "firewall_policy" (.obj [("source", .obj [("zone_id", .str (zoneOfLength n).id)])])]

theorem namesZone_policyFromZone {n : Nat} {id : String} :
    NamesZone (policyFromZone n) id ↔ id = (zoneOfLength n).id := by
  have hnamed : zonesNamedBy (.create "firewall_policy"
      (.obj [("source", .obj [("zone_id", .str (zoneOfLength n).id)])])) =
        [("source", (zoneOfLength n).id)] := rfl
  simp [NamesZone, policyFromZone, hnamed]

/-- No request is answered outside of the check. -/
def noReply : (op : ClientOp) → op.Answer
  | .send _ => .error .connect
  | .cachedSiteUuid | .cacheSiteUuid _ | .cachedVersion | .cacheVersion _ => .error .poisoned

/-- What the server asks besides is answered from an empty store. -/
def noAnswer (op : ServerOp) : op.Answer :=
  ((oneController guestClient noReply).answer op emptyWorld).1

/-- With two zones a policy from the second is let through. -/
theorem zoneCheck_exact_iff_two :
    (Accepted (zoneCheck .plain "main" (policyFromZone 1)) guestClient (zonesUpstream 2) noAnswer
          ⟨.ok none, .ok none⟩ ↔
        ∀ id, NamesZone (policyFromZone 1) id →
          ∃ zone ∈ (List.range 2).map zoneOfLength, zone.id = id) ∧
      (referencedZoneIds (policyFromZone 1) = [] →
        (Accepted (zoneCheck .plain "main" (policyFromZone 1)) guestClient (zonesUpstream 2)
            noAnswer ⟨.ok none, .ok none⟩ ↔
          Accepted (checkLiveZones .plain "main" (policyFromZone 1)) guestClient
            (zonesUpstream 2) noAnswer ⟨.ok none, .ok none⟩)) := by
  refine (zoneCheck_exact_iff (readsZones_upstream 2)).2 (.inl fun id hid => ?_)
  rw [namesZone_policyFromZone] at hid
  have hmem : zoneOfLength 1 ∈ (List.range 2).map zoneOfLength :=
    List.mem_map_of_mem (List.mem_range.2 (show 1 < 2 by decide))
  exact ⟨zoneOfLength 1, hmem, hid.symm⟩

/-- With 201 zones a policy from the last is refused. -/
theorem not_zoneCheck_exact :
    ¬ ((Accepted (zoneCheck .plain "main" (policyFromZone 200)) guestClient (zonesUpstream 201)
            noAnswer ⟨.ok none, .ok none⟩ ↔
          ∀ id, NamesZone (policyFromZone 200) id →
            ∃ zone ∈ (List.range 201).map zoneOfLength, zone.id = id) ∧
        (referencedZoneIds (policyFromZone 200) = [] →
          (Accepted (zoneCheck .plain "main" (policyFromZone 200)) guestClient
              (zonesUpstream 201) noAnswer ⟨.ok none, .ok none⟩ ↔
            Accepted (checkLiveZones .plain "main" (policyFromZone 200)) guestClient
              (zonesUpstream 201) noAnswer ⟨.ok none, .ok none⟩))) := by
  rintro ⟨hiff, -⟩
  have hthere : ∀ id, NamesZone (policyFromZone 200) id →
      ∃ zone ∈ (List.range 201).map zoneOfLength, zone.id = id := by
    intro id hid
    rw [namesZone_policyFromZone] at hid
    have hmem : zoneOfLength 200 ∈ (List.range 201).map zoneOfLength :=
      List.mem_map_of_mem (List.mem_range.2 (show 200 < 201 by decide))
    exact ⟨zoneOfLength 200, hmem, hid.symm⟩
  obtain ⟨zone, hzone, hid⟩ := (accepted_zoneCheck_iff (readsZones_upstream 201)).1
    (hiff.2 hthere) _ (namesZone_policyFromZone.2 rfl)
  rw [← List.map_take, List.take_range] at hzone
  obtain ⟨n, hn, rfl⟩ := List.mem_map.1 hzone
  have hlast : n = 200 := zoneOfLength_injective hid
  have hbound := List.mem_range.1 hn
  omega

end UnifiServer

end UnifiMcp
