import UnifiMcp.Client.WriteSites
import UnifiMcp.Paths.Template

/-!
# The surface of a request

A request is checked against the surface that its call site names, and its path is expanded
from the template that its call site names; nothing compares the two.  `ApiSurface.Serves` says
which templates belong to a surface and `Sends` what a client sends where the two fit.  Then
the path of every request is below the root of a surface that the controller has opted into
(`Sends.under`).
-/

namespace UnifiMcp

open Interaction Paths

/-- What the paths of a surface are below; nothing is sent to the cloud. -/
def ApiSurface.root : ApiSurface → Option String
  | .supported => some "/proxy/network/integration/v1"
  | .privateV1 => some "/proxy/network/api/s"
  | .privateV2 => some "/proxy/network/v2/api/site"
  | .cloud => none

/-- The template belongs to the surface. -/
def ApiSurface.Serves (surface : ApiSurface) (template : String) : Prop :=
  ∃ root ∈ surface.root, TemplateUnder root template

instance (surface : ApiSurface) (template : String) : Decidable (surface.Serves template) :=
  inferInstanceAs (Decidable (∃ root ∈ surface.root, TemplateUnder root template))

/-- Each kind is served from the surface it is tagged with. -/
theorem ResourceKind.serves_pathTemplate (k : ResourceKind) : k.surface.Serves k.pathTemplate := by
  cases k <;> decide +kernel

theorem ResourceKind.serves_singleResourceTemplate (k : ResourceKind) :
    k.surface.Serves k.singleResourceTemplate := by
  obtain ⟨root, hroot, hunder⟩ := k.serves_pathTemplate
  have hid : k.singleResourceTemplate = k.pathTemplate ++ "/" ++ "{id}" := by
    rw [String.append_assoc]
    rfl
  refine ⟨root, hroot, ?_⟩
  rw [hid]
  exact hunder.append (by decide)

namespace UnifiClient

/-- A request that the client sends: on a surface its controller has opted into, at a template
of that surface and with the path the template expands to. -/
structure Sends (c : UnifiClient) (request : Request) : Prop where
  base : request.base = c.baseUrl
  served : ∃ surface, ensureSurfacePermitted c.controller surface = .ok () ∧
    surface.Serves request.template
  path : c.expandPath request.template request.params = .ok request.path ∨
    request = c.infoRequest

end UnifiClient

/-- A question of this client. -/
def ClientOp.SentBy (c : UnifiClient) : ClientOp → Prop
  | .send request => c.Sends request
  | _ => True

/-- A question of this client that writes nothing. -/
def ClientOp.ReadBy (c : UnifiClient) (op : ClientOp) : Prop := op.SentBy c ∧ op.Quiet

namespace UnifiClient

variable {c : UnifiClient} {request : Request}

/-- **What a client sends is below the root of a surface its controller has opted into.** -/
theorem Sends.under (h : c.Sends request) (hexpand : KeepsSegments c.expandPath) :
    ∃ surface root, ensureSurfacePermitted c.controller surface = .ok () ∧
      surface.root = some root ∧ Under root request.path := by
  obtain ⟨surface, hpermitted, root, hroot, htemplate⟩ := h.served
  refine ⟨surface, root, hpermitted, hroot, htemplate.under_of_fills ?_⟩
  rcases h.path with hpath | rfl
  · exact hexpand.fills hpath
  · -- The version is requested at a path without placeholders.
    have hsame : ∀ s ∈ segments infoPath, Fills s s := by decide +kernel
    exact List.forall₂_same.2 hsame

/-- Without the private surfaces there is only the Integration API. -/
theorem supported_of_permitted {surface : ApiSurface}
    (hoff : c.controller.allowPrivateApi = false)
    (h : ensureSurfacePermitted c.controller surface = .ok ()) : surface = .supported := by
  cases surface with
  | supported => rfl
  | privateV1 | privateV2 =>
      simp only [ensureSurfacePermitted, hoff, Bool.false_eq_true, if_false] at h
      cases h
  | cloud =>
      simp only [ensureSurfacePermitted] at h
      split_ifs at h

theorem Sends.under_integration (h : c.Sends request)
    (hoff : c.controller.allowPrivateApi = false) (hexpand : KeepsSegments c.expandPath) :
    Under "/proxy/network/integration/v1" request.path := by
  obtain ⟨surface, root, hpermitted, hroot, hunder⟩ := h.under hexpand
  rw [supported_of_permitted hoff hpermitted] at hroot
  exact Option.some.inj hroot ▸ hunder

/-! ## What the methods of a client send -/

theorem serves_infoPath : ApiSurface.supported.Serves infoPath := by decide +kernel

theorem serves_sitesPath : ApiSurface.supported.Serves sitesPath := by decide +kernel

theorem sends_infoRequest (c : UnifiClient) : c.Sends c.infoRequest :=
  ⟨rfl, ⟨.supported, rfl, serves_infoPath⟩, .inr rfl⟩

theorem asksVersion_sentBy : c.AsksVersion (ClientOp.SentBy c) :=
  ⟨sends_infoRequest c, trivial, fun _ => trivial⟩

theorem asksVersion_readBy : c.AsksVersion (ClientOp.ReadBy c) :=
  ⟨⟨sends_infoRequest c, rfl⟩, ⟨trivial, trivial⟩, fun _ => ⟨trivial, trivial⟩⟩

section Request

variable {method : Method} {surface : ApiSurface} {template : String}
  {params query : List (String × String)} {body : Option Json}

/-- A request at a template of the surface it names. -/
theorem asks_request_sentBy (h : surface.Serves template) :
    (c.request method surface template params query body).Asks (ClientOp.SentBy c) :=
  asksVersion_sentBy.request fun hpermitted _ hpath => ⟨rfl, ⟨surface, hpermitted, h⟩, .inl hpath⟩

theorem asks_get_readBy (h : surface.Serves template) :
    (c.get surface template params query).Asks (ClientOp.ReadBy c) :=
  asksVersion_readBy.request fun hpermitted _ hpath =>
    ⟨⟨rfl, ⟨surface, hpermitted, h⟩, .inl hpath⟩, rfl⟩

end Request

theorem asks_defaultSiteFor_readBy (surface : ApiSurface) :
    (c.defaultSiteFor surface).Asks (ClientOp.ReadBy c) :=
  asks_defaultSiteFor_of ⟨trivial, trivial⟩ (fun _ => ⟨trivial, trivial⟩)
    (asks_get_readBy serves_sitesPath)

theorem asksReads_readBy : c.AsksReads (ClientOp.ReadBy c) :=
  ⟨asks_defaultSiteFor_readBy, fun k _ _ => asks_get_readBy k.serves_pathTemplate,
    fun k _ => asks_get_readBy k.serves_singleResourceTemplate⟩

theorem asksReads_sentBy : c.AsksReads (ClientOp.SentBy c) :=
  asksReads_readBy.mono fun _ hop => hop.1

/-- A write goes to the surface of its kind. -/
theorem asks_write_sentBy {α : Type} (w : KindWrite α) :
    (c.write w).Asks (ClientOp.SentBy c) := by
  have hserves : ∀ k : ResourceKind, k.surface.Serves (w.template k) := by
    intro k
    unfold KindWrite.template
    split
    · exact k.serves_singleResourceTemplate
    · exact k.serves_pathTemplate
  exact asksReads_sentBy.write fun k _ _ _ _ => asks_request_sentBy (hserves k)

/-- Applying a mutation sends it to the surface of its kind. -/
theorem asks_applyMutation_sentBy (m : StagedMutation) :
    (c.applyMutation m).Asks (ClientOp.SentBy c) :=
  applyMutation_of (fun x => x.Asks _) (fun _ => Fallible.asks_throw _) fun w _ =>
    asks_write_sentBy w

/-- So does rolling one back. -/
theorem asks_rollbackMutation_sentBy (m : StagedMutation) (priorValue : Option Json)
    (createdId : Option String) :
    (c.rollbackMutation priorValue createdId m).Asks (ClientOp.SentBy c) :=
  rollbackMutation_of (fun x => x.Asks _) (fun _ => Fallible.asks_throw _)
    (fun w _ => asks_write_sentBy w) priorValue

end UnifiClient

/-- **All that carrying out a plan sends**: the stale check, the writes, the verification and
the rollback. -/
theorem asks_applyOver_sentBy (c : UnifiClient) (preimage : Preimage)
    (mutations : List StagedMutation) :
    (applyOver c preimage mutations).Asks (ClientOp.SentBy c) := by
  refine (Program.asks_true _).interpret fun op _ => ?_
  cases op with
  | applyMutation index m => exact UnifiClient.asks_applyMutation_sentBy m
  | rollbackMutation index m priorValue createdId =>
      exact UnifiClient.asks_rollbackMutation_sentBy m priorValue createdId
  | preimageMatches preimage mutations | verifyApplied mutations createdIds =>
      exact (Program.asks_true _).interpret fun op _ =>
        UnifiClient.asksReads_sentBy.fetchResource op.kind op.id

end UnifiMcp
