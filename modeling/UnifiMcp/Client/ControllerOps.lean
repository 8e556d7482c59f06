import UnifiMcp.Changeset.Apply

/-!
# The controller operations of `UnifiClient`

`UnifiClient` implements the operations apply and rollback call.  The stale check and
the verification read resources through `fetch_resource` and nothing else, so both are
programs over that one question, `FetchSig`; `UnifiClient.controllerOps` puts the
client's own `fetchResource` in for it.
-/

namespace UnifiMcp

open Interaction

/-- The question whether a resource exists, and what it holds. -/
structure FetchOp where
  kind : String
  id : String
  deriving DecidableEq, Repr

/-- The signature of programs that read single resources. -/
abbrev FetchSig : Signature := ⟨FetchOp, fun _ => Except UnifiError (Option Json)⟩

/-- A program over `fetch_resource`. -/
abbrev FetchM (α : Type) : Type := Fallible FetchSig UnifiError α

/-- Fetch one resource. -/
def FetchM.fetch (kind id : String) : FetchM (Option Json) :=
  Fallible.ofAnswer (Program.perform FetchSig ⟨kind, id⟩)

/-! ## The stale check -/

/-- Whether the resources a plan touches still look as they did when the pre-image was
captured. -/
def preimageMatches (preimage : Preimage) : List StagedMutation → FetchM Bool
  | [] => pure true
  | .create _ _ :: rest | .restore _ :: rest => preimageMatches preimage rest
  | .update kind id _ :: rest | .delete kind id :: rest =>
      match preimage.getResource id with
      | none => pure false
      | some recorded => do
          match ← FetchM.fetch kind id with
          | some live => if live = recorded then preimageMatches preimage rest else pure false
          | none => pure false

/-! ## Verification -/

/-- What verification finds wrong with one mutation, if anything. -/
def verifyMutation (createdIds : CreatedIds) (index : Nat) :
    StagedMutation → FetchM (Option String)
  | .create kind _ =>
      match createdIds.lookup index with
      | none => pure none
      | some id => do
          match ← (FetchM.fetch kind id).attempt with
          | .ok (some _) => pure none
          | .ok none =>
              pure (some s!"create {kind} {id}: resource does not exist after apply")
          | .error e =>
              throw (.malformed s!"could not verify create {kind} {id}: {e.toString}")
  | .update kind id body => do
      match ← (FetchM.fetch kind id).attempt with
      | .ok (some fetched) =>
          -- Only `name` is compared.
          match body.get? "name" with
          | some expectedName =>
              if fetched.get? "name" = some expectedName then pure none
              else pure (some s!"update {kind} {id}: field mismatch after apply")
          | none => pure none
      | .ok none => pure (some s!"update {kind} {id}: resource does not exist after apply")
      | .error e =>
          throw (.malformed s!"could not verify update {kind} {id}: {e.toString}")
  | .delete kind id => do
      match ← (FetchM.fetch kind id).attempt with
      | .ok none => pure none
      | .ok (some _) =>
          pure (some s!"delete {kind} {id}: resource still exists after apply")
      | .error e =>
          throw (.malformed s!"could not verify delete {kind} {id}: {e.toString}")
  | .restore _ => pure none

/-- What verification finds wrong with the mutations from position `index` on. -/
def verifyLoop (createdIds : CreatedIds) : Nat → List StagedMutation → FetchM (List String)
  | _, [] => pure []
  | index, mutation :: rest => do
      let failure ← verifyMutation createdIds index mutation
      let failures ← verifyLoop createdIds (index + 1) rest
      pure (failure.toList ++ failures)

/-- Verify that mutations were applied as expected. -/
def verifyApplied (mutations : List StagedMutation) (createdIds : CreatedIds) :
    FetchM Unit := do
  let failedVerifications ← verifyLoop createdIds 0 mutations
  if failedVerifications.isEmpty then pure ()
  else
    throw (.malformed
      (s!"verification failed for {failedVerifications.length} mutations: " ++
        "; ".intercalate failedVerifications))

/-! ## Requests for one mutation -/

/-- Read a kind given as a string, or report it as unknown. -/
def parseKind (kind : String) : ClientM ResourceKind :=
  Fallible.ofExcept <| (ResourceKind.parse kind).mapError fun e =>
    .malformed s!"unknown resource kind '{kind}': {e}"

/-- The items of an answer to a single-resource read, by the shape its surface uses.  The
Private v2 surface answers with a bare array or with one object. -/
def fetchedItems (surface : ApiSurface) (raw : Json) : Except UnifiError (List Json) :=
  match surface with
  | .supported | .privateV1 => unwrapEnvelopedData raw
  | .privateV2 =>
      match raw with
      | .arr items => .ok items
      | .obj fields => .ok [.obj fields]
      | _ => .error (.malformed "expected Private v2 array or object")
  | .cloud => .error (.malformed "cloud surface not supported")

/-- The id in the answer to a create, by the shape its surface uses.  Unlike in
`fetchedItems`, a single Private v2 object is not read here. -/
def createdIdOf (surface : ApiSurface) (kind : String) (response : Json) :
    Except UnifiError String := do
  let items ← match surface with
    | .supported | .privateV1 => unwrapEnvelopedData response
    | .privateV2 =>
        match response.asArray? with
        | some items => .ok items
        | none => .error (.malformed "expected Private v2 bare array")
    | .cloud => .error (.malformed "cloud surface not supported")
  match items with
  | [] => .error (.malformed s!"create {kind}: response has no data")
  | item :: _ =>
      match item.getStr? "_id" with
      | some id => .ok id
      | none => .error (.malformed s!"create {kind}: response has no _id")

/-- Put the staged top-level fields over the current ones, apart from the two the
controller manages. -/
def mergeFields (current staged : List (String × Json)) : List (String × Json) :=
  staged.foldl (fun fields (key, value) =>
    if key ≠ "_id" ∧ key ≠ "site_id" then Collections.insertEntry key value fields
    else fields) current

/-- The body of a Private v2 update: the current resource with the staged fields over it,
and the current resource unchanged unless both are objects. -/
def mergeStaged (current staged : Json) : Json :=
  match current.asObject?, staged.asObject? with
  | some currentFields, some stagedFields => .obj (mergeFields currentFields stagedFields)
  | _, _ => current

/-- Why device configuration writes are refused. -/
def deviceWritesRefused : String :=
  "device configuration writes are not supported: no verified write route exists for " ++
  "kind 'device' on this controller. Device operations (restart, locate, adopt, upgrade, " ++
  "port-action) are available through unifi_device_action."

namespace UnifiClient

variable (c : UnifiClient)

/-- Fetch a resource; `none` if it does not exist.  A 404 means that here, and so does
the error a 404 on a private surface is reported as. -/
def fetchResource (kind id : String) : ClientM (Option Json) := do
  let resourceKind ← parseKind kind
  let surface := resourceKind.surface
  let site ← c.defaultSiteFor surface
  let response ← (c.get surface resourceKind.singleResourceTemplate
    [("site", site), ("id", id)] []).attempt
  match response with
  | .ok raw => do
      let items ← Fallible.ofExcept (fetchedItems surface raw)
      pure items.head?
  | .error (.upstream 404 _) | .error (.privateEndpointAbsent _ _ _) => pure none
  | .error e => throw e

/-- The body an update sends.  On the Private v2 surface the staged fields are merged over
the current resource, so that a fragment does not drop required fields. -/
def mergedBody (surface : ApiSurface) (kind id : String) (body : Json) : ClientM Json :=
  if surface = .privateV2 then do
    match ← c.fetchResource kind id with
    | some current => pure (mergeStaged current body)
    | none => throw (.malformed s!"update {kind} {id}: resource not found before apply")
  else pure body

/-- Apply a single mutation; a create answers with the id the controller assigned. -/
def applyMutation : StagedMutation → ClientM (Option String)
  | .create kind body => do
      let resourceKind ← parseKind kind
      let surface := resourceKind.surface
      let site ← c.defaultSiteFor surface
      let response ← c.post surface resourceKind.pathTemplate [("site", site)] [] body
      let id ← Fallible.ofExcept (createdIdOf surface kind response)
      pure (some id)
  | .update kind id body => do
      let resourceKind ← parseKind kind
      if kind = "device" then throw (.malformed deviceWritesRefused)
      let surface := resourceKind.surface
      let site ← c.defaultSiteFor surface
      let merged ← c.mergedBody surface kind id body
      let _ ← c.put surface resourceKind.singleResourceTemplate [("site", site), ("id", id)] []
        merged
      pure none
  | .delete kind id => do
      let resourceKind ← parseKind kind
      let surface := resourceKind.surface
      let site ← c.defaultSiteFor surface
      let _ ← c.delete surface resourceKind.singleResourceTemplate [("site", site), ("id", id)] []
      pure none
  | .restore _ => throw (.malformed "backup restore not implemented")

/-- Roll back a single mutation: a create by deleting what it created, an update by
writing the prior value back, a delete by creating the prior value again. -/
def rollbackMutation (priorValue : Option Json) (createdId : Option String) :
    StagedMutation → ClientM Unit
  | .create kind _ => do
      let id ← match createdId with
        | some id => pure id
        | none => throw (.malformed s!"rollback create {kind}: no created_id provided")
      let resourceKind ← parseKind kind
      let surface := resourceKind.surface
      let site ← c.defaultSiteFor surface
      let _ ← c.delete surface resourceKind.singleResourceTemplate [("site", site), ("id", id)] []
  | .update kind id _ => do
      let prior ← match priorValue with
        | some prior => pure prior
        | none => throw (.malformed s!"rollback update {kind} {id}: no prior_value")
      let resourceKind ← parseKind kind
      let surface := resourceKind.surface
      let site ← c.defaultSiteFor surface
      let _ ← c.put surface resourceKind.singleResourceTemplate [("site", site), ("id", id)] []
        prior
  | .delete kind _ => do
      let prior ← match priorValue with
        | some prior => pure prior
        | none => throw (.malformed s!"rollback delete {kind}: no prior_value")
      let resourceKind ← parseKind kind
      let surface := resourceKind.surface
      let site ← c.defaultSiteFor surface
      let _ ← c.post surface resourceKind.pathTemplate [("site", site)] [] prior
  | .restore _ => throw (.malformed "restore rollback not supported")

/-- The client's answer to a read of one resource. -/
def fetchOps (op : FetchSig.Op) : Program ClientSig (FetchSig.Answer op) :=
  (c.fetchResource op.kind op.id).run

/-- The client's implementation of the controller operations. -/
def controllerOps : (op : ControllerSig.Op) → Program ClientSig (ControllerSig.Answer op)
  | .applyMutation _ mutation => (c.applyMutation mutation).run
  | .rollbackMutation _ mutation priorValue createdId =>
      (c.rollbackMutation priorValue createdId mutation).run
  | .preimageMatches preimage mutations =>
      Program.interpret c.fetchOps (preimageMatches preimage mutations).run
  | .verifyApplied mutations createdIds =>
      Program.interpret c.fetchOps (verifyApplied mutations createdIds).run

end UnifiClient

/-- `apply_sequentially` over a `UnifiClient`. -/
def applyOver (c : UnifiClient) (preimage : Preimage) (mutations : List StagedMutation) :
    Program ClientSig Outcome :=
  Program.interpret c.controllerOps (applySequentially preimage mutations)

end UnifiMcp
