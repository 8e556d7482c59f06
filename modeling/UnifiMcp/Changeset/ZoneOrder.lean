import UnifiMcp.Changeset.Validate
import UnifiMcp.Client.Serving
import UnifiMcp.Collections.Mapped
import Mathlib.Logic.Function.Basic

/-!
# Zone deletions in plan order

`PlanState` is the controller as far as a plan concerns it: the resources the plan
addresses, what the plan has created, and the zones it has deleted.  Its `step` is what
carrying out one mutation does, with the merge of the Private v2 surface.  A plan
executes safely when no step deletes a zone that something still names or writes
something that names a deleted zone.

`checkZoneDeletions_ok_iff` says that the check accepts exactly these plans.
-/

namespace UnifiMcp

open Interaction Collections

/-! ## Carrying out a plan -/

/-- What an update leaves in place of `current`. -/
def written (kind : String) (current body : Json) : Json :=
  if mergesPartially kind then mergeStaged current body else body

/-- The controller as far as a plan concerns it. -/
structure PlanState where
  /-- The addressed resources, by kind and id. -/
  held : String × String → Option Json
  created : List Json
  deletedZones : List String

/-- What carrying out one mutation does. -/
def PlanState.step (s : PlanState) : StagedMutation → PlanState
  | .create _ body => { s with created := s.created ++ [body] }
  | .update kind id body =>
      match s.held (kind, id) with
      | some current =>
          { s with held := Function.update s.held (kind, id) (some (written kind current body)) }
      | none => s
  | .delete kind id =>
      { s with
        held := Function.update s.held (kind, id) none
        deletedZones := if kind = zoneKind then id :: s.deletedZones else s.deletedZones }
  | .restore _ => s

/-- A resource names a zone on one of its two sides. -/
def Names (resource : Json) (zone : String) : Prop :=
  ∃ field ∈ zoneReferenceFields, zoneOf resource field = some zone

/-- Carrying out `m` neither deletes a zone still named nor writes a reference to a
deleted one. -/
def PlanState.SafeStep (s : PlanState) : StagedMutation → Prop
  | .create _ body => ∀ zone ∈ s.deletedZones, ¬ Names body zone
  | .update kind id body => ∀ current, s.held (kind, id) = some current →
      ∀ zone ∈ s.deletedZones, ¬ Names (written kind current body) zone
  | .delete kind id => kind = zoneKind →
      (∀ target v, s.held target = some v → ¬ Names v id) ∧ ∀ v ∈ s.created, ¬ Names v id
  | .restore _ => True

/-- Every step of the plan is safe. -/
def PlanState.ExecutesSafely (s : PlanState) : List StagedMutation → Prop
  | [] => True
  | m :: rest => s.SafeStep m ∧ (s.step m).ExecutesSafely rest

/-- The plan addresses this resource, at some position. -/
def Addresses (mutations : List StagedMutation) (target : String × String) : Prop :=
  ∃ m ∈ mutations, m.target = some target

instance (mutations : List StagedMutation) (target : String × String) :
    Decidable (Addresses mutations target) :=
  inferInstanceAs (Decidable (∃ m ∈ mutations, m.target = some target))

/-- Before the plan: the addressed resources have their pre-image values. -/
def PlanState.before (preimage : Preimage) (mutations : List StagedMutation) : PlanState where
  held target := if Addresses mutations target then preimage.getResource target.2 else none
  created := []
  deletedZones := []

/-- The body an update sends, over a controller that holds `current`, is what `written`
says. -/
theorem mergedBody_eq_written {c : UnifiClient} {read : Holdings} {k : ResourceKind}
    {id : String} {body merged current : Json} {t : List (Event ClientSig)}
    (h : (c.mergedBody k.surface k.name id body).Gives t (.ok merged))
    (hread : ∀ e ∈ t, ReadsFrom read e) (hheld : ∀ site v, read k site id = some v → v = current) :
    merged = written k.name current body := by
  have hkind : mergesPartially k.name = decide (k.surface = .privateV2) := by
    rw [mergesPartially, ResourceKind.ofName?_eq_some.2 rfl]
  rw [written, hkind]
  unfold UnifiClient.mergedBody at h
  split_ifs at h with hs
  · rw [if_pos (decide_eq_true hs)]
    obtain ⟨t₁, t₂, r, rfl, hfetch, hrest⟩ := Fallible.gives_bind_ok.1 h
    cases r with
    | none => cases (Fallible.gives_throw.1 hrest).2
    | some v =>
        obtain ⟨k', t₃, t₄, site, hname, -, -, hv⟩ := UnifiClient.fetchResource_ok hfetch
          fun e he => hread e (List.mem_append_left _ he)
        obtain rfl := ResourceKind.name_injective hname
        have hcurrent := hheld site v (hv (.inr rfl)).symm
        obtain ⟨-, hmerged⟩ := Fallible.gives_pure.1 hrest
        rw [Except.ok.inj hmerged, hcurrent]
  · rw [if_neg (by simpa using hs)]
    exact Except.ok.inj (Fallible.gives_pure.1 h).2

/-! ## The two refusals -/

theorem refuseReferenceToDeleted_ok {preview : String} {resource : Json}
    {deleted : List String} {fields : List String} :
    refuseReferenceToDeleted preview resource deleted fields = .ok () ↔
      ∀ field ∈ fields, ∀ zone, zoneOf resource field = some zone → zone ∉ deleted := by
  induction fields with
  | nil => simp [refuseReferenceToDeleted]
  | cons field rest ih =>
      unfold refuseReferenceToDeleted
      cases hzone : zoneOf resource field with
      | none => simp [hzone, ih]
      | some zone =>
          by_cases hdeleted : zone ∈ deleted
          · simp [hzone, hdeleted]
          · simp [hzone, hdeleted, ih]

/-- A write is let through exactly when it names no deleted zone. -/
theorem refuseReferenceToDeleted_iff {preview : String} {resource : Json}
    {deleted : List String} :
    refuseReferenceToDeleted preview resource deleted zoneReferenceFields = .ok () ↔
      ∀ zone ∈ deleted, ¬ Names resource zone := by
  rw [refuseReferenceToDeleted_ok]
  constructor
  · rintro h zone hzone ⟨field, hfield, hnames⟩
    exact h field hfield zone hnames hzone
  · intro h field hfield zone hnames hzone
    exact h zone hzone ⟨field, hfield, hnames⟩

/-- A deletion is let through exactly when nothing names the zone. -/
theorem refuseIfStillNamed_iff {id : String} {resources : List (String × Json)} :
    refuseIfStillNamed id resources = .ok () ↔ ∀ e ∈ resources, ¬ Names e.2 id := by
  induction resources with
  | nil => simp [refuseIfStillNamed]
  | cons e rest ih =>
      obtain ⟨preview, resource⟩ := e
      unfold refuseIfStillNamed
      cases hfind : zoneReferenceFields.find? fun field => zoneOf resource field = some id with
      | some field =>
          have hnames : Names resource id :=
            ⟨field, List.mem_of_find?_eq_some hfind, by simpa using List.find?_some hfind⟩
          simp [hnames]
      | none =>
          have hnot : ¬ Names resource id := by
            rintro ⟨field, hfield, hzone⟩
            have hno := List.find?_eq_none.1 hfind field hfield
            exact hno (by simpa using hzone)
          simp [hnot, ih]

/-! ## Resources that name no zone -/

/-- A value without a `source` and without a `destination`. -/
def NoReferences (v : Json) : Prop := ∀ field ∈ zoneReferenceFields, v.get? field = none

theorem NoReferences.not_names {v : Json} (h : NoReferences v) (zone : String) :
    ¬ Names v zone := by
  rintro ⟨field, hfield, hzone⟩
  rw [zoneOf, h field hfield] at hzone
  cases hzone

/-- Merging adds no field that the staged fragment does not have. -/
theorem findEntry_mergeFields_none {current staged : List (String × Json)} {key : String}
    (hcurrent : findEntry key current = none) (hstaged : findEntry key staged = none) :
    findEntry key (mergeFields current staged) = none := by
  induction staged generalizing current with
  | nil => exact hcurrent
  | cons e rest ih =>
      obtain ⟨k, v⟩ := e
      rw [findEntry_cons] at hstaged
      split_ifs at hstaged with hk
      show findEntry key (mergeFields _ rest) = none
      refine ih ?_ hstaged
      dsimp only
      split_ifs with hmanaged
      · rw [findEntry_insertEntry_of_ne (Ne.symm hk)]
        exact hcurrent
      · exact hcurrent

theorem NoReferences.written {kind : String} {current body : Json} (hcurrent : NoReferences current)
    (hbody : NoReferences body) : NoReferences (written kind current body) := by
  unfold UnifiMcp.written
  split_ifs
  · intro field hfield
    have hc := hcurrent field hfield
    have hb := hbody field hfield
    cases current with
    | obj currentFields =>
        cases body with
        | obj bodyFields => exact findEntry_mergeFields_none hc hb
        | null | bool b | num n | str s | arr items => exact hc
    | null | bool b | num n | str s | arr items => exact hc
  · exact hbody

theorem noReferences_empty : NoReferences (.obj []) := fun _ _ => rfl

/-! ## The seed -/

/-- What the check has under an id, without its description. -/
def ZoneView.resource (view : ZoneView) (id : String) : Option Json :=
  (view.live.get? id).map Prod.snd

/-- A live value already seeded stays, if it is the pre-image's. -/
theorem seedLive_keeps {preimage : Preimage} {mutations : List StagedMutation}
    {live : SortedMap String (String × Json)} {id : String} {v : Json}
    (hpre : preimage.getResource id = some v) (hlive : (live.get? id).map Prod.snd = some v) :
    ((seedLive preimage mutations live).get? id).map Prod.snd = some v := by
  induction mutations generalizing live with
  | nil => exact hlive
  | cons m rest ih =>
      unfold seedLive
      cases htarget : m.target with
      | none => exact ih hlive
      | some target =>
          obtain ⟨kind, id'⟩ := target
          dsimp only
          split_ifs with hzone
          · exact ih hlive
          · cases hget : preimage.getResource id' with
            | none => exact ih hlive
            | some v' =>
                refine ih ?_
                by_cases hid : id = id'
                · subst hid
                  rw [hpre] at hget
                  cases hget
                  simp
                · rw [SortedMap.get?_insert_of_ne _ hid]
                  exact hlive

/-- Every addressed resource but the zones is seeded with its pre-image value. -/
theorem seedLive_complete {preimage : Preimage} {mutations : List StagedMutation}
    {live : SortedMap String (String × Json)} {kind id : String} {v : Json}
    (haddress : Addresses mutations (kind, id)) (hkind : kind ≠ zoneKind)
    (hpre : preimage.getResource id = some v) :
    ((seedLive preimage mutations live).get? id).map Prod.snd = some v := by
  induction mutations generalizing live with
  | nil =>
      obtain ⟨m, hm, -⟩ := haddress
      cases hm
  | cons m rest ih =>
      obtain ⟨m', hm', htarget'⟩ := haddress
      unfold seedLive
      rcases List.mem_cons.1 hm' with rfl | hm'
      · rw [htarget']
        dsimp only
        rw [if_neg hkind, hpre]
        exact seedLive_keeps hpre (by simp)
      · have ih' := fun live => @ih live ⟨m', hm', htarget'⟩
        cases htarget : m.target with
        | none => exact ih' live
        | some target =>
            dsimp only
            split_ifs with hzone
            · exact ih' live
            · cases preimage.getResource target.2 with
              | none => exact ih' live
              | some v' => exact ih' _

/-- Nothing else is seeded. -/
theorem seedLive_sound {preimage : Preimage} {mutations : List StagedMutation}
    {live : SortedMap String (String × Json)} {id : String} {e : String × Json}
    (h : (seedLive preimage mutations live).get? id = some e) :
    live.get? id = some e ∨ ∃ kind, kind ≠ zoneKind ∧ Addresses mutations (kind, id) := by
  induction mutations generalizing live with
  | nil => exact .inl h
  | cons m rest ih =>
      have later : (∃ kind, kind ≠ zoneKind ∧ Addresses rest (kind, id)) →
          ∃ kind, kind ≠ zoneKind ∧ Addresses (m :: rest) (kind, id) := by
        rintro ⟨kind, hkind, m', hm', htarget⟩
        exact ⟨kind, hkind, m', List.mem_cons_of_mem _ hm', htarget⟩
      unfold seedLive at h
      cases htarget : m.target with
      | none =>
          rw [htarget] at h
          exact (ih h).imp_right later
      | some target =>
          obtain ⟨kind, id'⟩ := target
          rw [htarget] at h
          dsimp only at h
          split_ifs at h with hzone
          · exact (ih h).imp_right later
          · cases hget : preimage.getResource id' with
            | none =>
                rw [hget] at h
                exact (ih h).imp_right later
            | some v =>
                rw [hget] at h
                rcases ih h with hlive | hrest
                · by_cases hid : id = id'
                  · subst hid
                    exact .inr ⟨kind, hzone, m, List.mem_cons_self, htarget⟩
                  · rw [SortedMap.get?_insert_of_ne _ hid] at hlive
                    exact .inl hlive
                · exact .inr (later hrest)

/-! ## The check follows the plan -/

/-- What `checkZoneDeletions` knows, related to the controller the plan is carried out on. -/
structure Follows (mutations : List StagedMutation) (view : ZoneView) (s : PlanState) :
    Prop where
  live : ∀ kind id, kind ≠ zoneKind → Addresses mutations (kind, id) →
    view.resource id = s.held (kind, id)
  known : ∀ id v, view.resource id = some v →
    NoReferences v ∨ ∃ kind, kind ≠ zoneKind ∧ Addresses mutations (kind, id)
  zones : ∀ id v, s.held (zoneKind, id) = some v → NoReferences v
  held : ∀ target v, s.held target = some v → Addresses mutations target
  created : view.created.map Prod.snd = s.created
  deleted : view.deleted = s.deletedZones

/-- The plan is of the shape staging produces: ids are used under one kind, everything
updated or deleted is in the pre-image, zones carry no zone references of their own, and
nothing is addressed after it was deleted. -/
structure ZonePlan (preimage : Preimage) (mutations : List StagedMutation) : Prop where
  oneKind : ∀ kind kind' id, Addresses mutations (kind, id) → Addresses mutations (kind', id) →
    kind = kind'
  covered : ∀ kind id, Addresses mutations (kind, id) → (preimage.getResource id).isSome
  zoneBodies : ∀ id body, .update zoneKind id body ∈ mutations → NoReferences body
  zoneValues : ∀ id v, Addresses mutations (zoneKind, id) → preimage.getResource id = some v →
    NoReferences v
  notAfterDeletion : mutations.Pairwise fun m m' =>
    ∀ kind id, m = .delete kind id → ∀ kind', m'.target ≠ some (kind', id)

theorem ZoneView.mem_resources {view : ZoneView} {e : String × Json}
    (h : e ∈ view.live.values) : ∃ id, view.resource id = some e.2 := by
  obtain ⟨id, hid⟩ := SortedMap.mem_values.1 h
  exact ⟨id, by rw [ZoneView.resource, hid]; rfl⟩

theorem ZoneView.exists_of_resource {view : ZoneView} {id : String} {v : Json}
    (h : view.resource id = some v) : ∃ e ∈ view.live.values, e.2 = v := by
  obtain ⟨e, he, rfl⟩ := Option.map_eq_some_iff.1 h
  exact ⟨e, SortedMap.mem_values.2 ⟨id, he⟩, rfl⟩

/-- The zone is still named by something the check knows exactly when it is by something
the controller holds or the plan created. -/
theorem Follows.still_named_iff {mutations : List StagedMutation} {view : ZoneView}
    {s : PlanState} (h : Follows mutations view s) (zone : String) :
    (∀ e ∈ view.live.values ++ view.created, ¬ Names e.2 zone) ↔
      (∀ target v, s.held target = some v → ¬ Names v zone) ∧
        ∀ v ∈ s.created, ¬ Names v zone := by
  constructor
  · intro hview
    refine ⟨?_, ?_⟩
    · rintro ⟨kind, id⟩ v hv
      by_cases hkind : kind = zoneKind
      · subst hkind
        exact (h.zones id v hv).not_names zone
      · have hlive := h.live kind id hkind (h.held _ v hv)
        obtain ⟨e, he, rfl⟩ := ZoneView.exists_of_resource (hlive.trans hv)
        exact hview e (List.mem_append_left _ he)
    · intro v hv
      rw [← h.created] at hv
      obtain ⟨e, he, rfl⟩ := List.mem_map.1 hv
      exact hview e (List.mem_append_right _ he)
  · rintro ⟨hheld, hcreated⟩ e he
    rcases List.mem_append.1 he with he | he
    · obtain ⟨id, hid⟩ := ZoneView.mem_resources he
      rcases h.known id e.2 hid with hnone | ⟨kind, hkind, haddress⟩
      · exact hnone.not_names zone
      · exact hheld (kind, id) e.2 ((h.live kind id hkind haddress).symm.trans hid)
    · refine hcreated e.2 ?_
      rw [← h.created]
      exact List.mem_map_of_mem he

theorem follows_before {preimage : Preimage} {mutations : List StagedMutation}
    (hplan : ZonePlan preimage mutations) :
    Follows mutations ⟨seedLive preimage mutations .empty, [], []⟩
      (.before preimage mutations) := by
  refine ⟨?_, ?_, ?_, ?_, rfl, rfl⟩
  · intro kind id hkind haddress
    obtain ⟨v, hv⟩ := Option.isSome_iff_exists.1 (hplan.covered kind id haddress)
    show ((seedLive preimage mutations .empty).get? id).map Prod.snd = if _ then _ else _
    rw [seedLive_complete haddress hkind hv, if_pos haddress, hv]
  · intro id v hv
    obtain ⟨e, he, -⟩ := Option.map_eq_some_iff.1 hv
    rcases seedLive_sound he with hempty | hseeded
    · rw [SortedMap.get?_empty] at hempty
      cases hempty
    · exact .inr hseeded
  · intro id v hv
    simp only [PlanState.before] at hv
    split_ifs at hv with haddress
    exact hplan.zoneValues id v haddress hv
  · intro target v hv
    simp only [PlanState.before] at hv
    split_ifs at hv with haddress
    exact haddress

/-! ## One mutation -/

/-- What an update leaves under an id, as the check computes it. -/
def ZoneView.overlaid (view : ZoneView) (kind id : String) (body : Json) : Json :=
  written kind ((view.resource id).getD (.obj [])) body

/-- The refusals of the check for one mutation, none of which applies. -/
def ZoneView.Permits (view : ZoneView) : StagedMutation → Prop
  | .create _ body => ∀ zone ∈ view.deleted, ¬ Names body zone
  | .update kind id body => ∀ zone ∈ view.deleted, ¬ Names (view.overlaid kind id body) zone
  | .delete kind id => kind = zoneKind →
      ∀ e ∈ view.live.values ++ view.created, ¬ Names e.2 id
  | .restore _ => True

/-- What the check knows after a mutation it let through. -/
def ZoneView.next (view : ZoneView) : StagedMutation → ZoneView
  | .create kind body =>
      { view with created := view.created ++ [((StagedMutation.create kind body).preview, body)] }
  | .update kind id body =>
      { view with
        live := view.live.insert id
          ((StagedMutation.update kind id body).preview, view.overlaid kind id body) }
  | .delete kind id =>
      if kind = zoneKind then { view with deleted := id :: view.deleted }
      else { view with live := view.live.erase id }
  | .restore _ => view

theorem except_bind_pure_ok {ε α : Type} {x : Except ε Unit} {a b : α} :
    ((do x; pure a) : Except ε α) = .ok b ↔ x = .ok () ∧ a = b := by
  rw [Collections.bind_eq_ok]
  constructor
  · rintro ⟨_, hx, ha⟩
    exact ⟨hx, Except.ok.inj ha⟩
  · rintro ⟨hx, rfl⟩
    exact ⟨(), hx, rfl⟩

/-- The check lets a mutation through exactly when no refusal applies. -/
theorem walk_ok_iff {view view' : ZoneView} {m : StagedMutation} :
    view.walk m = .ok view' ↔ view.Permits m ∧ view.next m = view' := by
  cases m with
  | create kind body =>
      rw [ZoneView.walk, except_bind_pure_ok, refuseReferenceToDeleted_iff]
      rfl
  | update kind id body =>
      rw [ZoneView.walk, except_bind_pure_ok, refuseReferenceToDeleted_iff]
      simp only [overlay_eq_mergeStaged]
      rfl
  | delete kind id =>
      rw [ZoneView.walk, ZoneView.Permits, ZoneView.next]
      split_ifs with hzone
      · rw [except_bind_pure_ok, refuseIfStillNamed_iff]
        simp [hzone]
      · constructor
        · intro h
          exact ⟨fun hkind => absurd hkind hzone, Except.ok.inj h⟩
        · rintro ⟨-, rfl⟩
          rfl
  | restore backupId =>
      constructor
      · intro h
        exact ⟨trivial, Except.ok.inj h⟩
      · rintro ⟨-, rfl⟩
        rfl

section Step

variable {preimage : Preimage} {mutations : List StagedMutation} {view : ZoneView}
  {s : PlanState}

/-- An update of something other than a zone overlays what the controller holds. -/
theorem Follows.overlaid_eq (h : Follows mutations view s) {kind id : String} {body : Json}
    (hkind : kind ≠ zoneKind) (haddress : Addresses mutations (kind, id)) {current : Json}
    (hheld : s.held (kind, id) = some current) :
    view.overlaid kind id body = written kind current body := by
  rw [ZoneView.overlaid, h.live kind id hkind haddress, hheld, Option.getD_some]

/-- An update of a zone overlays something that names no zone. -/
theorem Follows.noReferences_overlaid (h : Follows mutations view s)
    (hplan : ZonePlan preimage mutations) {id : String} {body : Json}
    (hm : .update zoneKind id body ∈ mutations) :
    NoReferences (view.overlaid zoneKind id body) := by
  refine NoReferences.written ?_ (hplan.zoneBodies id body hm)
  cases hresource : view.resource id with
  | none => exact noReferences_empty
  | some v =>
      rcases h.known id v hresource with hnone | ⟨kind, hkind, haddress⟩
      · exact hnone
      · -- The id is that of a zone, so it is not addressed under another kind.
        have hzone : Addresses mutations (zoneKind, id) := ⟨_, hm, rfl⟩
        exact absurd (hplan.oneKind kind zoneKind id haddress hzone) hkind

/-- The refusals of the check are the unsafe steps. -/
theorem Follows.permits_iff (h : Follows mutations view s)
    (hplan : ZonePlan preimage mutations) {m : StagedMutation} (hm : m ∈ mutations)
    (hheld : ∀ target, m.target = some target → (s.held target).isSome) :
    view.Permits m ↔ s.SafeStep m := by
  cases m with
  | create kind body =>
      rw [ZoneView.Permits, PlanState.SafeStep, h.deleted]
  | update kind id body =>
      obtain ⟨current, hcurrent⟩ := Option.isSome_iff_exists.1 (hheld (kind, id) rfl)
      rw [ZoneView.Permits, PlanState.SafeStep, h.deleted]
      by_cases hkind : kind = zoneKind
      · subst hkind
        have hleft := h.noReferences_overlaid hplan hm
        have hright : NoReferences (written zoneKind current body) :=
          (h.zones id current hcurrent).written (hplan.zoneBodies id body hm)
        constructor
        · intro _ current' hcurrent' zone _
          obtain rfl := Option.some.inj (hcurrent.symm.trans hcurrent')
          exact hright.not_names zone
        · intro _ zone _
          exact hleft.not_names zone
      · rw [h.overlaid_eq hkind ⟨_, hm, rfl⟩ hcurrent]
        constructor
        · intro hsafe current' hcurrent'
          obtain rfl := Option.some.inj (hcurrent.symm.trans hcurrent')
          exact hsafe
        · intro hsafe
          exact hsafe current hcurrent
  | delete kind id =>
      rw [ZoneView.Permits, PlanState.SafeStep, h.still_named_iff id]
  | restore backupId => exact Iff.rfl

/-- What the check has under an id after an update. -/
theorem ZoneView.resource_insert (view : ZoneView) (id id' : String) (e : String × Json) :
    ZoneView.resource { view with live := view.live.insert id e } id' =
      if id' = id then some e.2 else view.resource id' := by
  unfold ZoneView.resource
  split_ifs with hid
  · subst hid
    rw [SortedMap.get?_insert_self]
    rfl
  · rw [SortedMap.get?_insert_of_ne _ hid]

theorem ZoneView.resource_erase (view : ZoneView) (id id' : String) :
    ZoneView.resource { view with live := view.live.erase id } id' =
      if id' = id then none else view.resource id' := by
  unfold ZoneView.resource
  split_ifs with hid
  · subst hid
    rw [SortedMap.get?_erase_self]
    rfl
  · rw [SortedMap.get?_erase_of_ne _ hid]

/-- What the check has under an id after a deletion: a zone is not kept there. -/
theorem ZoneView.resource_next_delete (view : ZoneView) (kind id id' : String) :
    (view.next (.delete kind id)).resource id' =
      if kind ≠ zoneKind ∧ id' = id then none else view.resource id' := by
  by_cases hkind : kind = zoneKind
  · rw [if_neg fun h => h.1 hkind]
    simp only [ZoneView.next, if_pos hkind]
    rfl
  · simp only [ZoneView.next, if_false, ZoneView.resource_erase, ne_eq, hkind,
      not_false_eq_true, true_and]

theorem PlanState.step_update {kind id : String} {body current : Json}
    (h : s.held (kind, id) = some current) :
    s.step (.update kind id body) =
      { s with held := Function.update s.held (kind, id) (some (written kind current body)) } := by
  simp only [PlanState.step, h]

theorem PlanState.held_step_update {kind id : String} {body current : Json}
    (h : s.held (kind, id) = some current) (target : String × String) :
    (s.step (.update kind id body)).held target =
      if target = (kind, id) then some (written kind current body) else s.held target := by
  rw [PlanState.step_update h]
  exact Function.update_apply ..

theorem PlanState.held_step_delete (s : PlanState) (kind id : String)
    (target : String × String) :
    (s.step (.delete kind id)).held target =
      if target = (kind, id) then none else s.held target :=
  Function.update_apply ..

/-- Only a zone deletion adds to the deleted zones. -/
theorem PlanState.deletedZones_step {m : StagedMutation} (h : ∀ id, m ≠ .delete zoneKind id) :
    (s.step m).deletedZones = s.deletedZones := by
  cases m with
  | create kind body => rfl
  | restore backupId => rfl
  | update kind id body =>
      cases hcurrent : s.held (kind, id) with
      | none => simp only [PlanState.step, hcurrent]
      | some current => rw [PlanState.step_update hcurrent]
  | delete kind id =>
      have hkind : kind ≠ zoneKind := fun hkind => h id (hkind ▸ rfl)
      simp [PlanState.step, hkind]

/-- An update keeps the check in step with the controller. -/
theorem Follows.next_update (h : Follows mutations view s) (hplan : ZonePlan preimage mutations)
    {kind id : String} {body current : Json} (hm : .update kind id body ∈ mutations)
    (hcurrent : s.held (kind, id) = some current) :
    Follows mutations (view.next (.update kind id body)) (s.step (.update kind id body)) := by
  have haddress : Addresses mutations (kind, id) := ⟨_, hm, rfl⟩
  have hheld : ∀ target, (s.step (.update kind id body)).held target =
      if target = (kind, id) then some (written kind current body) else s.held target :=
    PlanState.held_step_update hcurrent
  refine ⟨?_, ?_, ?_, ?_, ?_, ?_⟩
  · intro kind' id' hkind' haddress'
    rw [ZoneView.next, ZoneView.resource_insert, hheld]
    by_cases hid : id' = id
    · subst hid
      obtain rfl := hplan.oneKind kind' kind id' haddress' haddress
      rw [if_pos rfl, if_pos rfl, h.overlaid_eq hkind' haddress hcurrent]
    · have hne : (kind', id') ≠ (kind, id) := fun heq => hid (Prod.ext_iff.1 heq).2
      rw [if_neg hid, if_neg hne, h.live kind' id' hkind' haddress']
  · intro id' v hv
    rw [ZoneView.next, ZoneView.resource_insert] at hv
    split_ifs at hv with hid
    · subst hid
      obtain rfl := Option.some.inj hv
      by_cases hkind : kind = zoneKind
      · subst hkind
        exact .inl (h.noReferences_overlaid hplan hm)
      · exact .inr ⟨kind, hkind, haddress⟩
    · exact h.known id' v hv
  · intro id' v hv
    rw [hheld] at hv
    split_ifs at hv with hkey
    · obtain ⟨rfl, rfl⟩ := Prod.ext_iff.1 hkey
      obtain rfl := Option.some.inj hv
      exact (h.zones id' current hcurrent).written (hplan.zoneBodies id' body hm)
    · exact h.zones id' v hv
  · intro target v hv
    rw [hheld] at hv
    split_ifs at hv with hkey
    · exact hkey ▸ haddress
    · exact h.held target v hv
  · rw [PlanState.step_update hcurrent]
    exact h.created
  · rw [PlanState.step_update hcurrent]
    exact h.deleted

/-- A deletion keeps the check in step with the controller. -/
theorem Follows.next_delete (h : Follows mutations view s) (hplan : ZonePlan preimage mutations)
    {kind id : String} (hm : .delete kind id ∈ mutations) :
    Follows mutations (view.next (.delete kind id)) (s.step (.delete kind id)) := by
  have haddress : Addresses mutations (kind, id) := ⟨_, hm, rfl⟩
  have hheld := s.held_step_delete kind id
  have hbefore : ∀ target v, (s.step (.delete kind id)).held target = some v →
      s.held target = some v := by
    intro target v hv
    rw [hheld] at hv
    split_ifs at hv
    exact hv
  refine ⟨?_, ?_, fun id' v hv => h.zones id' v (hbefore _ v hv),
    fun target v hv => h.held target v (hbefore target v hv), ?_, ?_⟩
  · intro kind' id' hkind' haddress'
    rw [hheld, ZoneView.resource_next_delete]
    by_cases hid : id' = id
    · subst hid
      obtain rfl := hplan.oneKind kind' kind id' haddress' haddress
      rw [if_pos ⟨hkind', rfl⟩, if_pos rfl]
    · have hne : (kind', id') ≠ (kind, id) := fun heq => hid (Prod.ext_iff.1 heq).2
      rw [if_neg fun hboth => hid hboth.2, if_neg hne, h.live kind' id' hkind' haddress']
  · intro id' v hv
    rw [ZoneView.resource_next_delete] at hv
    split_ifs at hv
    exact h.known id' v hv
  · unfold ZoneView.next
    dsimp only
    split_ifs <;> exact h.created
  · unfold ZoneView.next PlanState.step
    dsimp only
    split_ifs
    · rw [h.deleted]
    · exact h.deleted

/-- What the check knows after a mutation follows what the mutation does. -/
theorem Follows.next (h : Follows mutations view s) (hplan : ZonePlan preimage mutations)
    {m : StagedMutation} (hm : m ∈ mutations)
    (hheld : ∀ target, m.target = some target → (s.held target).isSome) :
    Follows mutations (view.next m) (s.step m) := by
  cases m with
  | create kind body =>
      refine ⟨h.live, h.known, h.zones, h.held, ?_, h.deleted⟩
      simp [ZoneView.next, PlanState.step, h.created]
  | restore backupId => exact h
  | update kind id body =>
      obtain ⟨current, hcurrent⟩ := Option.isSome_iff_exists.1 (hheld (kind, id) rfl)
      exact h.next_update hplan hm hcurrent
  | delete kind id => exact h.next_delete hplan hm

/-- A resource stays until it is deleted. -/
theorem PlanState.held_step {m : StagedMutation} {target : String × String}
    (hheld : (s.held target).isSome)
    (hm : ∀ kind id, m = .delete kind id → target ≠ (kind, id)) :
    ((s.step m).held target).isSome := by
  cases m with
  | create kind body => exact hheld
  | restore backupId => exact hheld
  | update kind id body =>
      cases hcurrent : s.held (kind, id) with
      | none => simpa only [PlanState.step, hcurrent] using hheld
      | some current =>
          rw [PlanState.held_step_update hcurrent]
          split_ifs
          · rfl
          · exact hheld
  | delete kind id =>
      rw [PlanState.held_step_delete, if_neg (hm kind id rfl)]
      exact hheld

/-! ## The whole plan -/

/-- The walk over the rest of a plan succeeds exactly when the rest executes safely. -/
theorem Follows.walkAll_ok_iff (hplan : ZonePlan preimage mutations) {rest : List StagedMutation}
    (hrest : ∀ m ∈ rest, m ∈ mutations) (hdelete : rest.Pairwise fun m m' =>
      ∀ kind id, m = .delete kind id → ∀ kind', m'.target ≠ some (kind', id))
    (h : Follows mutations view s)
    (hheld : ∀ m ∈ rest, ∀ target, m.target = some target → (s.held target).isSome) :
    view.walkAll rest = .ok () ↔ s.ExecutesSafely rest := by
  induction rest generalizing view s with
  | nil => exact ⟨fun _ => trivial, fun _ => rfl⟩
  | cons m rest ih =>
      obtain ⟨hm, hrest'⟩ := List.forall_mem_cons.1 hrest
      obtain ⟨hhere, hheld'⟩ := List.forall_mem_cons.1 hheld
      obtain ⟨hafter, hdelete'⟩ := List.pairwise_cons.1 hdelete
      have hnext := h.next hplan hm hhere
      have hstay : ∀ m' ∈ rest, ∀ target, m'.target = some target →
          ((s.step m).held target).isSome := by
        rintro m' hm' ⟨kind', id'⟩ htarget
        refine PlanState.held_step (hheld' m' hm' _ htarget) ?_
        intro kind id hdel heq
        exact hafter m' hm' kind id hdel kind (htarget.trans (congrArg some heq))
      have hwalk : view.walkAll (m :: rest) = .ok () ↔
          ∃ view', view.walk m = .ok view' ∧ view'.walkAll rest = .ok () := by
        rw [ZoneView.walkAll]
        exact Collections.bind_eq_ok
      rw [hwalk, PlanState.ExecutesSafely, ← h.permits_iff hplan hm hhere,
        ← ih hrest' hdelete' hnext hstay]
      constructor
      · rintro ⟨view', hstep, hall⟩
        obtain ⟨hpermits, rfl⟩ := walk_ok_iff.1 hstep
        exact ⟨hpermits, hall⟩
      · rintro ⟨hpermits, hall⟩
        exact ⟨_, walk_ok_iff.2 ⟨hpermits, rfl⟩, hall⟩

end Step

/-- A plan that deletes no zone executes safely. -/
theorem executesSafely_of_no_zone_deletion {s : PlanState} {mutations : List StagedMutation}
    (h : zonesDeletedBy mutations = []) (hdeleted : s.deletedZones = []) :
    s.ExecutesSafely mutations := by
  induction mutations generalizing s with
  | nil => trivial
  | cons m rest ih =>
      have hsplit := h
      rw [zonesDeletedBy, List.filterMap_cons] at hsplit
      have hnot : ∀ id, m ≠ .delete zoneKind id := by
        rintro id rfl
        simp at hsplit
      have hrest : zonesDeletedBy rest = [] := by
        split at hsplit
        · exact hsplit
        · cases hsplit
      refine ⟨?_, ih hrest ((PlanState.deletedZones_step hnot).trans hdeleted)⟩
      cases m with
      | create kind body => simp [PlanState.SafeStep, hdeleted]
      | update kind id body => simp [PlanState.SafeStep, hdeleted]
      | delete kind id =>
          intro hkind
          exact absurd (hkind ▸ rfl) (hnot id)
      | restore backupId => trivial

/-- The check accepts exactly the plans that never delete a zone still named and never
write a reference to a zone already deleted. -/
theorem checkZoneDeletions_ok_iff (preimage : Preimage) (mutations : List StagedMutation)
    (hplan : ZonePlan preimage mutations) :
    checkZoneDeletions preimage mutations = .ok () ↔
      (PlanState.before preimage mutations).ExecutesSafely mutations := by
  unfold checkZoneDeletions
  split_ifs with hzones
  · have hnone := executesSafely_of_no_zone_deletion
      (s := .before preimage mutations) (List.isEmpty_iff.1 hzones) rfl
    exact ⟨fun _ => hnone, fun _ => rfl⟩
  · refine Follows.walkAll_ok_iff hplan (fun _ hm => hm) hplan.notAfterDeletion
      (follows_before hplan) ?_
    rintro m hm ⟨kind, id⟩ htarget
    have haddress : Addresses mutations (kind, id) := ⟨m, hm, htarget⟩
    show (if Addresses mutations (kind, id) then preimage.getResource id else none).isSome
    rw [if_pos haddress]
    exact hplan.covered kind id haddress

/-- A policy is moved off a zone and then the zone is deleted; the other way round the
plan is refused. -/
theorem checkZoneDeletions_ok_iff_moved :
    let side := fun zone : String => Json.obj [("zone_id", .str zone)]
    let preimage := Preimage.fromResources
      [.obj [("_id", .str "z1"), ("name", .str "iot")],
        .obj [("_id", .str "p1"), ("destination", side "z9"), ("source", side "z1")]]
    let move := StagedMutation.update "firewall_policy" "p1" (.obj [("source", side "z2")])
    let drop := StagedMutation.delete zoneKind "z1"
    (PlanState.before preimage [move, drop]).ExecutesSafely [move, drop] ∧
      checkZoneDeletions preimage [drop, move] ≠ .ok () := by
  intro side preimage move drop
  have addresses : ∀ kind id, Addresses [move, drop] (kind, id) →
      (kind, id) = ("firewall_policy", "p1") ∨ (kind, id) = (zoneKind, "z1") := by
    intro kind id h
    simpa [Addresses, move, drop, StagedMutation.target, eq_comm] using h
  refine ⟨(checkZoneDeletions_ok_iff preimage [move, drop] ⟨?_, ?_, ?_, ?_, ?_⟩).1 (by decide),
    by decide⟩
  · intro kind kind' id h h'
    rcases addresses kind id h with h | h <;> rcases addresses kind' id h' with h' | h' <;>
      simp_all
  · intro kind id h
    rcases addresses kind id h with h | h <;> cases h <;> decide
  · intro id body h
    simp [move, drop, zoneKind] at h
  · intro id v h hv
    rcases addresses zoneKind id h with h | h
    · simp [zoneKind] at h
    · cases h
      have hzone : preimage.getResource "z1" =
          some (.obj [("_id", .str "z1"), ("name", .str "iot")]) := by decide
      obtain rfl := Option.some.inj (hzone.symm.trans hv)
      simp [NoReferences, zoneReferenceFields, Json.get?, findEntry]
  · simp [move, drop, StagedMutation.target]

end UnifiMcp
