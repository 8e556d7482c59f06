import UnifiMcp.Collections.Mapped
import UnifiMcp.Tools.Projection
import UnifiMcp.Tools.Resources

/-!
# The parsers read what may be shown

`ReadsOnly allow f` says that the reader `f` comes to the same on two objects that agree on the
fields `allow` names.  A struct's reader does when it names no other fields, however many
fields the objects have besides (`readsOnly_struct`).  Every kind's reader, `filter` and all,
reads fields of the kind's allowlist only.
-/

namespace UnifiMcp

open Collections

/-- What a reader makes of an object depends on these fields only. -/
def ReadsOnly {α : Type} (allow : List String) (f : Json → α) : Prop :=
  ∀ fields fields', SameFields allow fields fields' → f (.obj fields) = f (.obj fields')

theorem ReadsOnly.eq {α : Type} {allow : List String} {f : Json → α} (h : ReadsOnly allow f)
    {v v' : Json} (hv : AgreeOn allow v v') : f v = f v' := by
  rcases hv with rfl | ⟨fields, fields', rfl, rfl, hsame⟩
  · rfl
  · exact h fields fields' hsame

/-- What is checked of the entries that pass a test is checked of the others in vain. -/
theorem forM_filter {α ε : Type} (p : α → Bool) {f : α → Except ε Unit}
    (h : ∀ a, p a = false → f a = .ok ()) (l : List α) : l.forM f = (l.filter p).forM f := by
  induction l with
  | nil => rfl
  | cons a l ih =>
      have hcons : (a :: l).forM f = f a >>= fun _ => l.forM f := rfl
      by_cases ha : p a = true
      · rw [hcons, ih, List.filter_cons_of_pos ha]
        rfl
      · rw [hcons, ih, List.filter_cons_of_neg ha, h a (by simpa using ha)]
        rfl

/-- The check of one entry of an object. -/
def checkEntry (checks : List (String × FieldCheck)) (entry : String × Json) :
    Except DecodeError Unit :=
  match checks.lookup entry.1 with
  | some check => check entry.2
  | none => .ok ()

theorem structFields_obj (type : String) (checks : List (String × FieldCheck)) (defaulted : Nat)
    (fields : List (String × Json)) :
    structFields type checks defaulted (.obj fields) =
      fields.forM (checkEntry checks) >>= fun _ => pure fields := rfl

/-- An entry under a name the struct does not have passes. -/
theorem checkEntry_of_not_mem {checks : List (String × FieldCheck)} {entry : String × Json}
    (h : entry.1 ∉ checks.map Prod.fst) : checkEntry checks entry = .ok () := by
  have hnone : checks.lookup entry.1 = none := by
    refine List.lookup_eq_none_iff.2 fun check hcheck => bne_iff_ne.2 ?_
    intro hkey
    exact h (hkey ▸ List.mem_map_of_mem hcheck)
  rw [checkEntry, hnone]

/-- **A struct reads the fields it names.** -/
theorem readsOnly_struct {α : Type} {allow : List String} {type : String}
    {checks : List (String × FieldCheck)} {defaulted : Nat}
    {build : List (String × Json) → Except DecodeError α}
    (hchecks : ∀ name ∈ checks.map Prod.fst, name ∈ allow)
    (hbuild : ∀ fields fields', SameFields allow fields fields' → build fields = build fields') :
    ReadsOnly allow fun v => structFields type checks defaulted v >>= build := by
  intro fields fields' hsame
  have hskip : ∀ entry : String × Json, decide (entry.1 ∈ allow) = false →
      checkEntry checks entry = .ok () := fun entry hentry =>
    checkEntry_of_not_mem fun hmem => of_decide_eq_false hentry (hchecks _ hmem)
  dsimp only
  rw [structFields_obj, structFields_obj, forM_filter _ hskip fields, forM_filter _ hskip fields',
    hsame.filter_eq]
  cases (fields'.filter fun entry => decide (entry.1 ∈ allow)).forM (checkEntry checks) with
  | error e => rfl
  | ok u => exact hbuild fields fields' hsame

/-- And so does one with defaults among its fields. -/
theorem readsOnly_structDefaulting {α : Type} {allow : List String} {type : String}
    {checks : List (String × FieldCheck)} {defaulted : List String}
    {build : List (String × Json) → Except DecodeError α}
    (hchecks : ∀ name ∈ checks.map Prod.fst, name ∈ allow)
    (hbuild : ∀ fields fields', SameFields allow fields fields' → build fields = build fields') :
    ReadsOnly allow fun v => structFieldsDefaulting type checks defaulted v >>= build := by
  have hstruct : ReadsOnly allow fun v => structFields type checks 0 v >>= build :=
    readsOnly_struct hchecks hbuild
  exact hstruct

/-! ## The readers of the kinds -/

theorem readsOnly_station : ReadsOnly stationFields Station.ofJson :=
  readsOnly_struct (by decide) fun fields fields' h => by
    simp (disch := decide) only [field, optionalField, h.same]

theorem readsOnly_device : ReadsOnly deviceFields Device.ofJson :=
  readsOnly_struct (by decide) fun fields fields' h => by
    simp (disch := decide) only [field, optionalField, Device.capability, h.same]

theorem readsOnly_network : ReadsOnly networkFields NetworkConf.ofJson :=
  readsOnly_struct (by decide) fun fields fields' h => by
    simp (disch := decide) only [field, optionalField, h.same]

theorem readsOnly_wlan : ReadsOnly wlanFields Wlan.ofJson :=
  readsOnly_struct (by decide) fun fields fields' h => by
    simp (disch := decide) only [field, optionalField, defaultField, h.same]

theorem readsOnly_portProfile : ReadsOnly portProfileFields PortProfile.ofJson :=
  readsOnly_struct (by decide) fun fields fields' h => by
    simp (disch := decide) only [field, optionalField, h.same]

theorem readsOnly_dhcpReservation : ReadsOnly dhcpReservationFields DhcpReservation.ofJson :=
  readsOnly_struct (by decide) fun fields fields' h => by
    simp (disch := decide) only [field, optionalField, h.same]

/-- Whether a record is of a reservation is one of the fields that may be shown. -/
theorem readsOnly_usesFixedIp : ReadsOnly dhcpReservationFields usesFixedIp := by
  intro fields fields' h
  have hflag : (Json.obj fields).get? "use_fixedip" = (Json.obj fields').get? "use_fixedip" :=
    h.same "use_fixedip" (by decide)
  rw [usesFixedIp, usesFixedIp, hflag]

theorem readsOnly_radiusProfile : ReadsOnly radiusProfileFields RadiusProfile.ofJson :=
  readsOnly_struct (by decide) fun fields fields' h => by
    simp (disch := decide) only [field, optionalField, h.same]

theorem readsOnly_firewallGroup : ReadsOnly firewallGroupFields FirewallGroup.ofJson :=
  readsOnly_struct (by decide) fun fields fields' h => by
    simp (disch := decide) only [field, optionalField, h.same]

theorem readsOnly_firewallZone : ReadsOnly firewallZoneFields FirewallZone.ofJson :=
  readsOnly_structDefaulting (by decide) fun fields fields' h => by
    simp (disch := decide) only [field, optionalField, defaultField, h.same]

theorem readsOnly_firewallRule (number : Number → String) :
    ReadsOnly firewallRuleFields (FirewallRule.ofJson number) :=
  readsOnly_structDefaulting (by simp only [List.map_cons, List.map_nil]; decide)
    fun fields fields' h => by
      simp (disch := decide) only [field, optionalField, defaultField, h.same]

theorem readsOnly_trafficRoute : ReadsOnly trafficRouteFields TrafficRoute.ofJson :=
  readsOnly_struct (by decide) fun fields fields' h => by
    simp (disch := decide) only [field, optionalField, h.same]

theorem readsOnly_portForward : ReadsOnly portForwardFields PortForward.ofJson :=
  readsOnly_struct (by decide) fun fields fields' h => by
    simp (disch := decide) only [field, optionalField, h.same]

theorem readsOnly_route : ReadsOnly staticRouteFields Route.ofJson :=
  readsOnly_struct (by decide) fun fields fields' h => by
    simp (disch := decide) only [field, optionalField, h.same]

end UnifiMcp
