import UnifiMcp.Json.Unambiguous
import UnifiMcp.Server.MemoryStore
import UnifiMcp.Server.StoredPlan

/-!
# What the fingerprint of a plan tells apart

The fingerprint of a plan hashes the pre-image entries of its mutations, leaving out the
mutations that have none.  Which mutation an entry belongs to is not part of what is hashed.
It need not be: an entry carries its own id, so from the entries alone every id the plan
addresses can be looked up again, and is found absent when it was absent.
-/

namespace UnifiMcp

/-- The ids a plan updates or deletes. -/
def AddressesId (mutations : List StagedMutation) (id : String) : Prop :=
  ∃ m ∈ mutations, m.resourceId = some id

/-- The entries a fingerprint is taken of. -/
theorem filterMap_preimage_actionsFor (mutations : List StagedMutation) (preimage : Preimage) :
    (actionsFor mutations preimage).filterMap (·.preimage) =
      mutations.filterMap fun m => m.resourceId.bind preimage.getResource := by
  simp only [actionsFor, List.filterMap_map, Function.comp_def]

/-- Two pre-images that agree on what a plan addresses give it the same actions. -/
theorem actionsFor_congr {mutations : List StagedMutation} {p q : Preimage}
    (h : ∀ id, AddressesId mutations id → p.getResource id = q.getResource id) :
    actionsFor mutations p = actionsFor mutations q := by
  refine List.map_congr_left fun m hm => ?_
  cases hid : m.resourceId with
  | none => rfl
  | some id =>
      have hsame : p.getResource id = q.getResource id := h id ⟨m, hm, hid⟩
      simp only [Option.bind_some, hsame]

/-- **The fingerprint binds to what the plan's ids stood for.**  With a digest that does not
collide and an encoding that is injective, two pre-images give a plan the same fingerprint
exactly when they agree, also on absence, on every id the plan updates or deletes. -/
theorem fingerprintOf_eq_iff (server : UnifiServer)
    (hdigest : Function.Injective server.mecmcp.digestHex)
    (hencode : Function.Injective (Json.compact server.mecmcp.number))
    (mutations : List StagedMutation) (p q : Preimage) :
    server.fingerprintOf (actionsFor mutations p) =
        server.fingerprintOf (actionsFor mutations q) ↔
      ∀ id, AddressesId mutations id → p.getResource id = q.getResource id := by
  constructor
  · rintro h id ⟨m, hm, hid⟩
    have htext := hdigest ((String.append_right_inj "sha256:").1 h)
    have hentries := Json.arr.inj (hencode htext)
    rw [filterMap_preimage_actionsFor, filterMap_preimage_actionsFor] at hentries
    rw [← getResource_fromResources hm hid, hentries, getResource_fromResources hm hid]
  · intro h
    rw [actionsFor_congr h]

/-- A server whose digest of a text is the text. -/
def transparentServer : UnifiServer :=
  { plainServer with mecmcp := { plainMecmcp with digestHex := id, number := Json.writeNumber } }

/-- A plan for two networks, each updated once and the first deleted after that, does not have
the same fingerprint when only the first was there and when only the second was. -/
theorem fingerprintOf_eq_iff_absent :
    transparentServer.fingerprintOf (actionsFor
        [.update "network" "a" .null, .update "network" "b" .null, .delete "network" "a"]
        (.fromResources [.obj [("_id", .str "a")]])) ≠
      transparentServer.fingerprintOf (actionsFor
        [.update "network" "a" .null, .update "network" "b" .null, .delete "network" "a"]
        (.fromResources [.obj [("_id", .str "b")]])) := by
  intro h
  have hagree := (fingerprintOf_eq_iff transparentServer Function.injective_id
    (Json.compact_injective Json.numberSyntax_writeNumber) _ _ _).1 h "a"
    ⟨.update "network" "a" .null, List.mem_cons_self, rfl⟩
  exact absurd hagree (by decide)

end UnifiMcp
