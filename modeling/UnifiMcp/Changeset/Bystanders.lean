import UnifiMcp.Changeset.Superseding
import UnifiMcp.Changeset.Undoing
import UnifiMcp.Changeset.Verification
import UnifiMcp.Changeset.ZoneOrder
import UnifiMcp.Interaction.Rely

/-!
# The resources a plan leaves alone

A write request that addresses a resource is a PUT or a DELETE at the template of its kind.  While
a plan is carried out such a request is for a resource that the plan addresses, or it is the undo
of a create, and then the id is the one the controller itself has given for what was created.
That an undo cannot reach any other resource depends on the answers: a controller that names an id
which is in use has it deleted.  So the statement is one about what a program secures as long as no
create is answered with the id in question (`secures_applyOver`), and read off the beginning of a
run it says which of the two a request is (`touched_of_begins`).
-/

namespace UnifiMcp

open Interaction

/-- A question that is not a write request for this resource, on whatever site. -/
def ClientOp.Spares (k : ResourceKind) (id : String) : ClientOp → Prop
  | .send request => request.method.isWrite = true → ∀ site, ¬ request.At (k, site, id)
  | _ => True

theorem ClientOp.Quiet.spares {op : ClientOp} (h : op.Quiet) (k : ResourceKind) (id : String) :
    op.Spares k id := by
  cases op with
  | send request =>
      intro hwrite
      have hread : request.method.isWrite = false := h
      rw [hread] at hwrite
      cases hwrite
  | cachedSiteUuid | cacheSiteUuid uuid | cachedVersion | cacheVersion version => trivial

/-- An operation that addresses another resource; what is undone of a create is not this one. -/
def ControllerOp.Spares (target : String × String) : ControllerOp → Prop
  | .applyMutation _ m => m.target ≠ some target
  | .rollbackMutation _ m _ createdId => m.target ≠ some target ∧
      ∀ body, m = .create target.1 body → createdId ≠ some target.2
  | .preimageMatches _ _ | .verifyApplied _ _ => True

/-- No create of this kind was answered with this id. -/
def GivesOther (target : String × String) (e : Event ControllerSig) : Prop :=
  ∀ index body, e ≠ writeEvent index (.create target.1 body) (.ok (some target.2))

/-! ## The operations of an apply -/

section Operations

variable {target : String × String} {mutations : List StagedMutation}

theorem asks_applyLoop_spares (h : ¬ Addresses mutations target) (index : Nat)
    (progress : Progress) :
    (applyLoop index mutations progress).Asks (ControllerOp.Spares target) := by
  induction mutations generalizing index progress with
  | nil => trivial
  | cons m rest ih =>
      have hrest : ¬ Addresses rest target := fun ⟨m', hm', htarget⟩ =>
        h ⟨m', List.mem_cons_of_mem _ hm', htarget⟩
      refine ⟨fun htarget => h ⟨m, List.mem_cons_self, htarget⟩, fun answer => ?_⟩
      cases answer with
      | error e => trivial
      | ok createdId => exact ih hrest _ _

/-- The id recorded for a write is not this one, if it is a create of this kind. -/
def RecordsOther (target : String × String) (progress : Progress) : Prop :=
  ∀ w ∈ progress.succeeded.zipIdx, ∀ body, w.1 = .create target.1 body →
    progress.createdIds.lookup w.2 ≠ some target.2

/-- What was recorded is what the creates were answered with. -/
theorem recordsOther_of_writes {done : List (StagedMutation × Option String)}
    (h : ∀ e ∈ writeEvents 0 done, GivesOther target e) {failed rest : List StagedMutation} :
    RecordsOther target ⟨done.map Prod.fst, failed, rest, CreatedIds.recordAll [] 0 done⟩ := by
  rintro ⟨m, j⟩ hw body rfl hid
  rw [List.zipIdx_map] at hw
  obtain ⟨⟨⟨m, createdId⟩, j'⟩, hdone, heq⟩ := List.mem_map.1 hw
  cases heq
  have hlookup := CreatedIds.lookup_recordAll_eq [] 0 done (fun _ => rfl) hdone
  obtain rfl : createdId = some target.2 := hlookup.symm.trans hid
  exact h _ (mem_writeEvents 0 (List.mk_mem_zipIdx_iff_getElem?.1 hdone)) _ body rfl

theorem secures_applyLoop (h : ¬ Addresses mutations target) :
    (applyLoop 0 mutations ⟨[], [], [], []⟩).Secures (GivesOther target)
      (ControllerOp.Spares target) fun p => p.succeeded ⊆ mutations ∧ RecordsOther target p := by
  refine Program.secures_of_asks (asks_applyLoop_spares h 0 _) fun t progress hrun ht => ?_
  obtain ⟨done, ⟨hall, rfl, rfl⟩ | ⟨m, rest, e, hsplit, rfl, rfl⟩⟩ := runs_applyLoop.1 hrun
  · exact ⟨by rw [hall]; exact List.Subset.refl _, recordsOther_of_writes ht⟩
  · refine ⟨by rw [hsplit]; exact List.subset_append_left _ _, ?_⟩
    exact recordsOther_of_writes fun e' he' => ht e' (List.mem_append_left _ he')

/-- **An apply spares what its plan does not address**, as long as no create is answered with
the id of it. -/
theorem secures_applySequentially (h : ¬ Addresses mutations target) (preimage : Preimage) :
    (applySequentially preimage mutations).Secures (GivesOther target)
      (fun op => op.Spares target ∧ op.IsOf mutations) fun _ => True := by
  refine Program.Secures.and_asks ⟨trivial, fun current _ => ?_⟩
    (asks_applySequentially preimage mutations)
  rcases current with e | (_ | _)
  · trivial
  · trivial
  · refine (secures_applyLoop h).bind fun progress hdone => ?_
    obtain ⟨hsub, hother⟩ := hdone
    split
    · exact ⟨trivial, fun _ _ => trivial⟩
    · -- Undoing a write addresses what the write has addressed, or what it has created.
      have hundo : ∀ w ∈ progress.succeeded.zipIdx.reverse, ControllerOp.Spares target
          (.rollbackMutation w.2 w.1 (priorValueOf preimage w.1)
            (progress.createdIds.lookup w.2)) := by
        intro w hw
        have hw := List.mem_reverse.1 hw
        exact ⟨fun htarget => h ⟨w.1, hsub (List.fst_mem_of_mem_zipIdx hw), htarget⟩, hother w hw⟩
      refine Program.secures_of_asks ?_ fun _ _ _ _ => trivial
      refine Program.Asks.bind ?_ fun _ => trivial
      exact (asks_rollbackLoop_of hundo []).bind fun _ => trivial

end Operations

/-! ## Requests -/

namespace UnifiClient

variable {c : UnifiClient} {k : ResourceKind} {id : String}

theorem asksReads_spares : c.AsksReads (ClientOp.Spares k id) :=
  asksReads_quiet.mono fun _ hop => hop.spares k id

/-- A request to a collection addresses no resource. -/
theorem asks_collection {method : Method} {surface : ApiSurface} {template site : String}
    {query : List (String × String)} {body : Option Json} :
    (c.request method surface template [("site", site)] query body).Asks
      (ClientOp.Spares k id) := by
  refine asks_request (fun path _ site' hat => ?_) fun _ hop => hop.quiet.spares k id
  have hlength := congrArg List.length hat.2
  cases hlength

/-- A request to another resource does not address this one. -/
theorem asks_single {method : Method} {surface : ApiSurface} {k' : ResourceKind}
    {site id' : String} {body : Option Json} (h : ¬ (k'.name = k.name ∧ id' = id)) :
    (c.request method surface k'.singleResourceTemplate [("site", site), ("id", id')] []
      body).Asks (ClientOp.Spares k id) := by
  refine asks_request (fun path _ site' hat => h ?_) fun _ hop => hop.quiet.spares k id
  obtain ⟨htemplate, hparams⟩ := hat
  have hkind : k' = k := ResourceKind.singleResourceTemplate_injective htemplate
  have hid : [("site", site), ("id", id')] = [("site", site'), ("id", id)] := hparams
  simp only [List.cons.injEq, Prod.mk.injEq, true_and, and_true] at hid
  exact ⟨congrArg _ hkind, hid.2⟩

/-- A write spares every resource but its own. -/
theorem asks_write_spares {α : Type} {w : KindWrite α}
    (h : ∀ id', w.id = some id' → ¬ (w.kind = k.name ∧ id' = id)) :
    (c.write w).Asks (ClientOp.Spares k id) := by
  refine asksReads_spares.write fun k' site body hparse _ => ?_
  cases hid : w.id with
  | none =>
      rw [sendWrite_collection hid]
      exact asks_collection
  | some id' =>
      rw [sendWrite_single hid]
      refine asks_single fun hsame => h id' hid ⟨?_, hsame.2⟩
      rw [← hsame.1, ResourceKind.parse_eq_ok.1 hparse]

/-- Applying a mutation spares what it does not address. -/
theorem asks_applyMutation_spares {m : StagedMutation} (h : m.target ≠ some (k.name, id)) :
    (c.applyMutation m).Asks (ClientOp.Spares k id) := by
  refine applyMutation_of (fun x => x.Asks _) (fun _ => Fallible.asks_throw _) fun w hw => ?_
  refine asks_write_spares fun id' hid hsame => h ?_
  rw [hw.target id' hid, hsame.1, hsame.2]

/-- So does rolling one back, unless what it has created has this id. -/
theorem asks_rollbackMutation_spares {m : StagedMutation} (h : m.target ≠ some (k.name, id))
    {createdId : Option String}
    (hcreated : ∀ body, m = .create k.name body → createdId ≠ some id)
    (priorValue : Option Json) :
    (c.rollbackMutation priorValue createdId m).Asks (ClientOp.Spares k id) := by
  refine rollbackMutation_of (fun x => x.Asks _) (fun _ => Fallible.asks_throw _)
    (fun w hw => asks_write_spares fun id' hid hsame => ?_) priorValue
  rcases hw.target id' hid with htarget | ⟨⟨body, hcreate⟩, hnamed⟩
  · rw [hsame.1, hsame.2] at htarget
    exact h htarget
  · rw [hsame.1] at hcreate
    rw [hsame.2] at hnamed
    exact hcreated body hcreate hnamed

end UnifiClient

/-! ## The whole apply -/

section Whole

variable {c : UnifiClient} {k : ResourceKind} {id : String} {mutations : List StagedMutation}

/-- If this is a create of the plan, then it was not answered with this kind and id. -/
def CreatesOther (mutations : List StagedMutation) (k : ResourceKind) (id : String)
    (e : Event ClientSig) : Prop :=
  (∃ body, .create k.name body ∈ mutations) → ¬ CreatedIn [e] k.name id

theorem createdIn_iff_exists {kind : String} {t : List (Event ClientSig)} :
    CreatedIn t kind id ↔ ∃ e ∈ t, CreatedIn [e] kind id := by
  constructor
  · rintro ⟨k', request, response, raw, hk, hmem, hrest⟩
    exact ⟨_, hmem, k', request, response, raw, hk, List.mem_singleton.2 rfl, hrest⟩
  · rintro ⟨e, he, k', request, response, raw, hk, hmem, hrest⟩
    cases List.mem_singleton.1 hmem
    exact ⟨k', request, response, raw, hk, he, hrest⟩

/-- The client carries out an operation that spares a resource by requests that spare it. -/
theorem secures_controllerOps (op : ControllerOp)
    (hop : op.Spares (k.name, id) ∧ op.IsOf mutations) :
    (c.controllerOps op).Secures (CreatesOther mutations k id) (ClientOp.Spares k id)
      fun answer => GivesOther (k.name, id) ⟨op, answer⟩ := by
  obtain ⟨hspares, hof⟩ := hop
  have hfetch : ∀ op, (c.fetchOps op).Asks (ClientOp.Spares k id) := fun op =>
    (UnifiClient.asks_fetchResource op.kind op.id).mono fun op hop => hop.spares k id
  cases op with
  | applyMutation index m =>
      refine Program.secures_of_asks (UnifiClient.asks_applyMutation_spares hspares)
        fun t answer hrun ht => ?_
      rintro index' body heq
      cases heq
      have hcreated : CreatedIn t k.name id := (createdIn_of_gives hrun).2 ⟨body, rfl, rfl⟩
      obtain ⟨e, he, hnamed⟩ := createdIn_iff_exists.1 hcreated
      exact ht e he ⟨body, hof⟩ hnamed
  | rollbackMutation index m priorValue createdId =>
      refine Program.secures_of_asks
        (UnifiClient.asks_rollbackMutation_spares hspares.1 hspares.2 priorValue)
        fun t answer _ _ => ?_
      rintro index' body heq
      cases heq
  | preimageMatches preimage mutations | verifyApplied mutations createdIds =>
      refine Program.secures_of_asks ((Program.asks_true _).interpret fun op _ => hfetch op)
        fun t answer _ _ => ?_
      rintro index' body heq
      cases heq

/-- **Carrying out a plan spares what the plan does not address**, as long as none of its creates
is answered with the id of it. -/
theorem secures_applyOver (h : ¬ Addresses mutations (k.name, id)) (preimage : Preimage) :
    (applyOver c preimage mutations).Secures (CreatesOther mutations k id) (ClientOp.Spares k id)
      fun _ => True :=
  (secures_applySequentially h preimage).interpret secures_controllerOps

/-- **What a write request is for**: a resource of the plan, or one that a create of the plan was
said to have made. -/
theorem touched_of_begins {preimage : Preimage} {before after : List (Event ClientSig)}
    {request : Request} {answer : Except HttpError Response} {site : String}
    (h : (applyOver c preimage mutations).Begins (before ++ sendEvent request answer :: after))
    (hwrite : request.method.isWrite = true) (hat : request.At (k, site, id)) :
    Addresses mutations (k.name, id) ∨
      (∃ body, .create k.name body ∈ mutations) ∧ CreatedIn before k.name id := by
  by_cases haddressed : Addresses mutations (k.name, id)
  · exact .inl haddressed
  · refine .inr (by_contra fun hnone => ?_)
    have hother : ∀ e ∈ before, CreatesOther mutations k id e := by
      intro e he hcreates hnamed
      exact hnone ⟨hcreates, createdIn_iff_exists.2 ⟨e, he, hnamed⟩⟩
    exact (secures_applyOver haddressed preimage).of_begins h hother hwrite site hat

end Whole

end UnifiMcp
