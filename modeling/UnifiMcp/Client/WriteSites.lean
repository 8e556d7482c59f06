import UnifiMcp.Changeset.WritableFields
import UnifiMcp.Client.KindWrites

/-!
# The site a plan is written to

Every kind that may be staged lives on a private surface, where the site a caller omits is the
one the controller is configured with.  So whatever a plan is answered, its writes and the
writes that roll it back name that site (`asks_applyOver`).
-/

namespace UnifiMcp

open Interaction

/-- The site a request names. -/
def Request.site? (request : Request) : Option String := request.params.lookup "site"

/-- A question that, if it is a write request, names this site. -/
def ClientOp.WritesTo (site : String) : ClientOp → Prop
  | .send request => request.method.isWrite = true → request.site? = some site
  | _ => True

theorem ClientOp.Quiet.writesTo {op : ClientOp} (h : op.Quiet) (site : String) :
    op.WritesTo site := by
  cases op with
  | send request =>
      intro hwrite
      have hread : request.method.isWrite = false := h
      rw [hread] at hwrite
      cases hwrite
  | cachedSiteUuid | cacheSiteUuid uuid | cachedVersion | cacheVersion version => trivial

/-- Its kind, if it is one, is not served from the Integration API. -/
def StagedMutation.OffIntegration (m : StagedMutation) : Prop :=
  ∀ kind k, m.kind? = some kind → ResourceKind.parse kind = .ok k → k.surface ≠ .supported

/-- What may be staged is off the Integration API. -/
theorem offIntegration_of_checkWritable {number : Number → String} {m : StagedMutation}
    (h : checkWritable number m = .ok ()) : m.OffIntegration := by
  intro kind k hkind hparse
  have hchecked : ∃ body, m.checked = some (kind, body) := by
    cases m with
    | restore backupId => cases hkind
    | create kind' body | update kind' id body | delete kind' id =>
        cases hkind
        exact ⟨_, rfl⟩
  obtain ⟨body, hchecked⟩ := hchecked
  obtain ⟨k', allowed, hparse', hallowed, -⟩ := checkWritable_ok h hchecked
  obtain rfl : k' = k := Except.ok.inj (hparse'.symm.trans hparse)
  exact surface_of_writable (Option.isSome_of_eq_some hallowed)

/-! ## The operations of an apply -/

/-- An operation on a mutation of the plan. -/
def ControllerOp.IsOf (mutations : List StagedMutation) : ControllerOp → Prop
  | .applyMutation _ m | .rollbackMutation _ m _ _ => m ∈ mutations
  | .preimageMatches _ _ | .verifyApplied _ _ => True

theorem within_applyLoop {mutations rest : List StagedMutation} (index : Nat)
    {progress : Progress} (hrest : rest ⊆ mutations) (hdone : progress.succeeded ⊆ mutations) :
    (applyLoop index rest progress).Within (ControllerOp.IsOf mutations)
      fun p => p.succeeded ⊆ mutations := by
  induction rest generalizing index progress with
  | nil => exact hdone
  | cons m rest ih =>
      have hm : m ∈ mutations := hrest List.mem_cons_self
      have htail : rest ⊆ mutations := fun m' hm' => hrest (List.mem_cons_of_mem _ hm')
      refine ⟨hm, fun answer => ?_⟩
      cases answer with
      | error e => exact hdone
      | ok createdId =>
          refine ih (index + 1) htail fun m' hm' => ?_
          rcases List.mem_append.1 hm' with hm' | hm'
          · exact hdone hm'
          · exact List.mem_singleton.1 hm' ▸ hm

/-- A rollback asks for the undoing of its entries. -/
theorem asks_rollbackLoop_of {P : ControllerOp → Prop} {preimage : Preimage}
    {createdIds : CreatedIds} {entries : List (StagedMutation × Nat)}
    (hentries : ∀ e ∈ entries,
      P (.rollbackMutation e.2 e.1 (priorValueOf preimage e.1) (createdIds.lookup e.2)))
    (failures : List String) : (rollbackLoop preimage createdIds entries failures).Asks P := by
  induction entries generalizing failures with
  | nil => trivial
  | cons e rest ih =>
      obtain ⟨hfirst, hrest⟩ := List.forall_mem_cons.1 hentries
      obtain ⟨m, forwardIndex⟩ := e
      cases m with
      | restore backupId => exact ih hrest _
      | create kind body | update kind id body | delete kind id =>
          refine ⟨hfirst, fun answer => ?_⟩
          rcases answer with e | _
          · exact ih hrest _
          · exact ih hrest _

theorem asks_rollbackLoop {mutations : List StagedMutation} (preimage : Preimage)
    (createdIds : CreatedIds) {entries : List (StagedMutation × Nat)}
    (hentries : ∀ e ∈ entries, e.1 ∈ mutations) (failures : List String) :
    (rollbackLoop preimage createdIds entries failures).Asks (ControllerOp.IsOf mutations) :=
  asks_rollbackLoop_of (P := ControllerOp.IsOf mutations) hentries failures

/-- An apply works on the mutations of its plan only. -/
theorem asks_applySequentially (preimage : Preimage) (mutations : List StagedMutation) :
    (applySequentially preimage mutations).Asks (ControllerOp.IsOf mutations) := by
  refine ⟨trivial, fun current => ?_⟩
  rcases current with e | (_ | _)
  · trivial
  · trivial
  · have hloop : (applyLoop 0 mutations ⟨[], [], [], []⟩).Within (ControllerOp.IsOf mutations)
        fun p => p.succeeded ⊆ mutations :=
      within_applyLoop 0 (List.Subset.refl mutations) fun _ h => absurd h List.not_mem_nil
    refine hloop.asks_bind fun progress hdone => ?_
    split
    · exact ⟨trivial, fun _ => trivial⟩
    · have hentries : ∀ e ∈ progress.succeeded.zipIdx.reverse, e.1 ∈ mutations := by
        intro e he
        exact hdone (List.fst_mem_of_mem_zipIdx (List.mem_reverse.1 he))
      refine Program.Asks.bind ?_ fun _ => trivial
      exact (asks_rollbackLoop preimage _ hentries []).bind fun _ => trivial

/-! ## Requests -/

namespace UnifiClient

variable {c : UnifiClient}

/-- A request that names a site asks for nothing else that writes. -/
theorem asks_request_writesTo {method : Method} {surface : ApiSurface} {template site : String}
    {params query : List (String × String)} {body : Option Json} :
    (c.request method surface template (("site", site) :: params) query body).Asks
      (ClientOp.WritesTo site) :=
  asks_request (fun _ _ => rfl) fun _ hop => hop.quiet.writesTo site

theorem asksReads_writesTo (site : String) : c.AsksReads (ClientOp.WritesTo site) :=
  asksReads_quiet.mono fun _ hop => hop.writesTo site

/-- Off the Integration API a mutation is written on the configured site. -/
theorem asks_write_writesTo {α : Type} {m : StagedMutation} (hm : m.OffIntegration)
    {w : KindWrite α} (hkind : m.kind? = some w.kind) :
    (c.write w).Asks (ClientOp.WritesTo c.controller.site) := by
  refine (asksReads_writesTo _).write fun k site body hparse hsite => ?_
  rw [hsite (hm w.kind k hkind hparse)]
  exact asks_request_writesTo

/-- Applying a mutation writes to the configured site. -/
theorem asks_applyMutation {m : StagedMutation} (hm : m.OffIntegration) :
    (c.applyMutation m).Asks (ClientOp.WritesTo c.controller.site) :=
  applyMutation_of (fun x => x.Asks _) (fun _ => Fallible.asks_throw _) fun _ hw =>
    asks_write_writesTo hm hw.kind

/-- So does rolling one back. -/
theorem asks_rollbackMutation {m : StagedMutation} (hm : m.OffIntegration)
    (priorValue : Option Json) (createdId : Option String) :
    (c.rollbackMutation priorValue createdId m).Asks (ClientOp.WritesTo c.controller.site) :=
  rollbackMutation_of (fun x => x.Asks _) (fun _ => Fallible.asks_throw _)
    (fun _ hw => asks_write_writesTo hm hw.kind) priorValue

end UnifiClient

/-- **A plan off the Integration API is written to the configured site**, forward and back. -/
theorem asks_applyOver {c : UnifiClient} {mutations : List StagedMutation}
    (hmutations : ∀ m ∈ mutations, m.OffIntegration) (preimage : Preimage) :
    (applyOver c preimage mutations).Asks (ClientOp.WritesTo c.controller.site) := by
  have hfetch : ∀ op, (c.fetchOps op).Asks (ClientOp.WritesTo c.controller.site) := fun op =>
    (UnifiClient.asks_fetchResource op.kind op.id).mono fun op hop => hop.writesTo _
  refine (asks_applySequentially preimage mutations).interpret fun op hop => ?_
  cases op with
  | applyMutation index m => exact UnifiClient.asks_applyMutation (hmutations m hop)
  | rollbackMutation index m priorValue createdId =>
      exact UnifiClient.asks_rollbackMutation (hmutations m hop) priorValue createdId
  | preimageMatches preimage mutations | verifyApplied mutations createdIds =>
      exact (Program.asks_true _).interpret fun op _ => hfetch op

end UnifiMcp
