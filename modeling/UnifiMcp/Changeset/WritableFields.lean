import UnifiMcp.Changeset.Preimage
import UnifiMcp.Json.Render

/-!
# What a staged mutation may write

`checkWritableFields` refuses a mutation that names a kind this server does not write,
and a body that sets a field its kind does not allow.  It looks at the mutations alone.
-/

namespace UnifiMcp

/-- The top-level body fields a staged create or update may set.  `none` means that the
kind may not be written at all. -/
def writableFields : ResourceKind → Option (List String)
  | .station | .device => none
  | .network =>
      some ["name", "purpose", "ip_subnet", "vlan", "dhcpd_enabled", "dhcpd_start", "dhcpd_stop",
        "wan_dns1", "wan_dns2", "wan_ipv6_dns1", "wan_ipv6_dns2"]
  | .wlan => some ["name", "enabled", "security", "wlan_band", "is_guest"]
  | .portProfile => some ["name", "forward", "native_networkconf_id"]
  | .dhcpReservation => some ["mac", "last_ip", "fixed_ip", "hostname", "use_fixedip"]
  | .firewallGroup => some ["name", "group_type", "group_members"]
  | .radiusProfile => some ["name", "external_id"]
  | .firewallZone => some ["name", "default_zone", "network_ids", "external_id"]
  | .firewallPolicy =>
      some ["name", "action", "enabled", "index", "predefined", "source", "destination",
        "protocol", "schedule", "connection_state_type", "connection_states", "ip_version",
        "logging"]
  | .trafficRoute => some ["name"]
  | .firewallRule | .portForward | .staticRoute => none

/-- The kind and, for a create or an update, the body that is checked. -/
def StagedMutation.checked : StagedMutation → Option (String × Option Json)
  | .create kind body | .update kind _ body => some (kind, some body)
  | .delete kind _ => some (kind, none)
  | .restore _ => none

/-- Check the fields of a body against the allowed ones. -/
def checkFields (preview kind : String) (allowed : List String) :
    List (String × Json) → Except UnifiError Unit
  | [] => .ok ()
  | (field, _) :: rest =>
      if field ∈ allowed then checkFields preview kind allowed rest
      else
        .error (.writeRefused
          (s!"staged {preview} sets field '{field}', which is not writable for kind '{kind}'; " ++
            "allowed fields are: " ++ ", ".intercalate allowed))

/-- Check one mutation.  `number` renders the numbers of a body that is quoted. -/
def checkWritable (number : Number → String) (mutation : StagedMutation) :
    Except UnifiError Unit :=
  match mutation.checked with
  | none => .ok ()
  | some (kind, body) => do
      let resourceKind ← (ResourceKind.parse kind).mapError fun e =>
        .writeRefused s!"invalid resource kind '{kind}': {e}"
      match writableFields resourceKind with
      | none =>
          .error (.writeRefused
            (s!"staged {mutation.preview} names kind '{kind}', which this server refuses to " ++
              "write: no supported write route exists for it through unifi_stage_change. " ++
              "Device and client state changes go through unifi_device_action or " ++
              "unifi_client_action."))
      | some allowed =>
          match body with
          | none => .ok ()
          | some (.obj fields) => checkFields mutation.preview kind allowed fields
          | some body =>
              .error (.writeRefused
                (s!"staged {mutation.preview} for kind '{kind}' has a non-object body " ++
                  s!"({body.compact number}); the body must be a JSON object naming only " ++
                  "writable fields"))

/-- Refuse a staged mutation naming a kind this server will not write, or setting a body
field its kind does not allow. -/
def checkWritableFields (number : Number → String) : List StagedMutation → Except UnifiError Unit
  | [] => .ok ()
  | mutation :: rest => do
      checkWritable number mutation
      checkWritableFields number rest

theorem checkFields_eq_ok {preview kind : String} {allowed : List String}
    {fields : List (String × Json)} :
    checkFields preview kind allowed fields = .ok () ↔ ∀ e ∈ fields, e.1 ∈ allowed := by
  induction fields with
  | nil => exact ⟨fun _ e he => absurd he List.not_mem_nil, fun _ => rfl⟩
  | cons e rest ih =>
      obtain ⟨field, v⟩ := e
      rw [checkFields, List.forall_mem_cons]
      split_ifs with hfield
      · rw [ih]
        exact ⟨fun h => ⟨hfield, h⟩, fun h => h.2⟩
      · exact ⟨nofun, fun h => absurd h.1 hfield⟩

/-- The kind of a checked mutation may be written, and its body sets writable fields only. -/
theorem checkWritable_ok {number : Number → String} {m : StagedMutation} {kind : String}
    {body : Option Json} (h : checkWritable number m = .ok ())
    (hchecked : m.checked = some (kind, body)) :
    ∃ k allowed, ResourceKind.parse kind = .ok k ∧ writableFields k = some allowed ∧
      ∀ v, body = some v → ∃ fields, v = .obj fields ∧ ∀ e ∈ fields, e.1 ∈ allowed := by
  unfold checkWritable at h
  rw [hchecked] at h
  dsimp only at h
  cases hparse : ResourceKind.parse kind with
  | error e =>
      rw [hparse] at h
      cases h
  | ok k =>
      rw [hparse] at h
      simp only [Except.mapError, Bind.bind, Except.bind] at h
      cases hallowed : writableFields k with
      | none =>
          rw [hallowed] at h
          cases h
      | some allowed =>
          rw [hallowed] at h
          refine ⟨k, allowed, rfl, hallowed, ?_⟩
          rintro v rfl
          cases v with
          | obj fields => exact ⟨fields, rfl, checkFields_eq_ok.1 h⟩
          | null | bool _ | num _ | str _ | arr _ => cases h

/-- Nothing the check lets through is served from the Integration API. -/
theorem surface_of_writable {k : ResourceKind} (h : (writableFields k).isSome) :
    k.surface ≠ .supported := by
  revert h
  cases k <;> decide

/-- Every mutation of a list the check lets through passes on its own. -/
theorem checkWritable_of_mem {number : Number → String} {mutations : List StagedMutation}
    (h : checkWritableFields number mutations = .ok ()) {m : StagedMutation} (hm : m ∈ mutations) :
    checkWritable number m = .ok () := by
  induction mutations with
  | nil => cases hm
  | cons m' rest ih =>
      rw [checkWritableFields] at h
      cases hhere : checkWritable number m' with
      | error e =>
          rw [hhere] at h
          cases h
      | ok u =>
          rw [hhere] at h
          rcases List.mem_cons.1 hm with rfl | hm
          · exact hhere
          · exact ih h hm

end UnifiMcp
