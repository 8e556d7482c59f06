import UnifiMcp.Client.Request

/-!
# Staged mutations and the pre-image

A change set is a list of mutations together with a snapshot of the resources they
update or delete.  The snapshot is what apply compares the controller with before it
writes, and what a rollback writes back.
-/

namespace UnifiMcp

open Interaction

/-- A planned mutation against live configuration. -/
inductive StagedMutation where
  | create (kind : String) (body : Json)
  | update (kind id : String) (body : Json)
  | delete (kind id : String)
  | restore (backupId : String)
  deriving DecidableEq, Repr

namespace StagedMutation

/-- The resource this mutation addresses, if it addresses one by id. -/
def resourceId : StagedMutation → Option String
  | .update _ id _ | .delete _ id => some id
  | .create _ _ | .restore _ => none

/-- The kind and id this mutation addresses, if it addresses a resource by id. -/
def target : StagedMutation → Option (String × String)
  | .update kind id _ | .delete kind id => some (kind, id)
  | .create _ _ | .restore _ => none

/-- Preview this mutation as a human-readable string. -/
def preview : StagedMutation → String
  | .create kind _ => s!"create {kind}"
  | .update kind id _ => s!"update {kind} {id}"
  | .delete kind id => s!"delete {kind} {id}"
  | .restore backupId =>
      s!"restore from backup {backupId} (overwrites entire controller configuration, " ++
      "cannot be undone by rollback)"

theorem resourceId_eq_target (m : StagedMutation) : m.resourceId = m.target.map Prod.snd := by
  cases m <;> rfl

end StagedMutation

/-- A snapshot of controller state before staging mutations. -/
structure Preimage where
  resources : Json
  deriving DecidableEq, Repr

namespace Preimage

/-- Construct a pre-image from the resources it snapshots. -/
def fromResources (resources : List Json) : Preimage :=
  ⟨.obj [("data", .arr resources)]⟩

/-- The entries of a pre-image; none if it does not hold a `data` array. -/
def entries (preimage : Preimage) : List Json :=
  ((preimage.resources.get? "data").bind Json.asArray?).getD []

@[simp] theorem entries_fromResources (resources : List Json) :
    (fromResources resources).entries = resources := rfl

/-- Get the pre-image entry for a resource by id: the first that carries it. -/
def getResource (preimage : Preimage) (id : String) : Option Json :=
  preimage.entries.find? fun item => item.getStr? "_id" = some id

/-- Check if this pre-image covers a given mutation. -/
def covers (preimage : Preimage) : StagedMutation → Bool
  | .update _ id _ => preimage.entries.any fun item => item.getStr? "_id" = some id
  | .create _ _ | .delete _ _ | .restore _ => true

/-- What is found under an id carries that id. -/
theorem getResource_id {preimage : Preimage} {id : String} {v : Json}
    (h : preimage.getResource id = some v) : v.getStr? "_id" = some id := by
  simpa using List.find?_some h

/-- An update is covered exactly when its id can be looked up. -/
theorem covers_update_iff (preimage : Preimage) (kind id : String) (body : Json) :
    preimage.covers (.update kind id body) = true ↔ (preimage.getResource id).isSome := by
  rw [covers, getResource, List.find?_isSome, List.any_eq_true]

/-- The resource in an answer to a single-resource read, by the shape its surface uses. -/
def extractResource (surface : ApiSurface) (kind id : String) (raw : Json) :
    Except UnifiError Json :=
  match surface with
  | .supported | .privateV1 => do
      match ← unwrapEnvelopedData raw with
      | [] => .error (.malformed s!"resource {kind} {id} not found for pre-image capture")
      | item :: _ => .ok item
  | .privateV2 =>
      match raw with
      | .arr [] => .error (.malformed s!"resource {kind} {id} not found for pre-image capture")
      | .arr (item :: _) => .ok item
      | .obj fields => .ok (.obj fields)
      | _ => .error (.malformed s!"unexpected response format for {kind} {id}")
  | .cloud => .error (.malformed "cloud surface not supported")

/-- Capture the pre-image entry of one resource. -/
def captureResource (c : UnifiClient) (kind id : String) : ClientM Json := do
  let resourceKind ← Fallible.ofExcept <| (ResourceKind.parse kind).mapError fun e =>
    .malformed s!"invalid resource kind '{kind}': {e}"
  let surface := resourceKind.surface
  let site ← c.defaultSiteFor surface
  let answer ← (c.get surface resourceKind.singleResourceTemplate
    [("site", site), ("id", id)] []).attempt
  let raw ← Fallible.ofExcept <| answer.mapError fun e =>
    .malformed s!"failed to capture pre-image for {kind} {id}: {e.toString}"
  Fallible.ofExcept (extractResource surface kind id raw)

/-- Capture the entries of every mutation that updates or deletes, in plan order. -/
def captureEntries (c : UnifiClient) : List StagedMutation → ClientM (List Json)
  | [] => pure []
  | .create _ _ :: rest | .restore _ :: rest => captureEntries c rest
  | .update kind id _ :: rest | .delete kind id :: rest => do
      let resource ← captureResource c kind id
      let data ← captureEntries c rest
      pure (resource :: data)

/-- Capture a pre-image from a live controller. -/
def capturePreimage (c : UnifiClient) (mutations : List StagedMutation) : ClientM Preimage := do
  let data ← captureEntries c mutations
  pure (fromResources data)

end Preimage

end UnifiMcp
