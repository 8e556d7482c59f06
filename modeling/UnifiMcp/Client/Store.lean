import UnifiMcp.Client.Serving
import UnifiMcp.Interaction.World
import Mathlib.Logic.Function.Basic

/-!
# A controller that keeps what it is sent

`Network` is a controller with the resources it holds, together with the site UUID the
client has cached.  A write request is either performed and answered below 300, or it
changes nothing and is answered with an error status or not at all; `Performs` says what
performing one does.  Reads are answered with what is held.  `NetworkStep` is this as a
relation, and `landed` picks the performed writes out of a trace.

The body of an answer is left open.  A create that was performed may be answered with
anything, except that an id read from the answer is the id of what was created.
-/

namespace UnifiMcp

open Interaction

/-- Where a resource is held: its kind, its site and its id. -/
abbrev Key := ResourceKind × String × String

/-- A controller, and the client's cache of its site's UUID. -/
structure Network where
  held : Key → Option Json
  siteUuid : Option String

/-- The request addresses the resource held under this key. -/
def Request.At (request : Request) (key : Key) : Prop :=
  request.template = key.1.singleResourceTemplate ∧
    request.params = [("site", key.2.1), ("id", key.2.2)]

theorem Request.At.unique {request : Request} {key key' : Key} (h : request.At key)
    (h' : request.At key') : key = key' := by
  obtain ⟨k, site, id⟩ := key
  obtain ⟨k', site', id'⟩ := key'
  obtain ⟨htemplate, hparams⟩ := h
  obtain ⟨htemplate', hparams'⟩ := h'
  have hkind : k = k' :=
    ResourceKind.singleResourceTemplate_injective (htemplate.symm.trans htemplate')
  have hlists := hparams.symm.trans hparams'
  simp_all

/-- What performing a write does to the resources held.  A create takes an id that is not
in use. -/
def Performs (held : Key → Option Json) (request : Request) (response : Response)
    (held' : Key → Option Json) : Prop :=
  match request.method with
  | .get => False
  | .put => ∃ key body, request.At key ∧ request.body = some body ∧
      held' = Function.update held key (some body)
  | .post => ∃ (k : ResourceKind) (site id : String) (v : Json),
      request.template = k.pathTemplate ∧ request.params = [("site", site)] ∧
      held (k, site, id) = none ∧ held' = Function.update held (k, site, id) (some v) ∧
      ∀ raw named, response.json = .ok raw → createdIdOf k.surface k.name raw = .ok named →
        named = id
  | .delete => ∃ key, request.At key ∧ held' = Function.update held key none

/-- A request was sent and answered. -/
def Sent (s : Network) (request : Request) (answer : Except HttpError Response)
    (s' : Network) : Prop :=
  if request.method.isWrite then
    (∃ response, answer = .ok response ∧ response.status < 300 ∧
      Performs s.held request response s'.held ∧ s'.siteUuid = s.siteUuid) ∨
    ((∀ response, answer = .ok response → 300 ≤ response.status) ∧ s' = s)
  else s' = s ∧ ReadsFrom (fun k site id => s.held (k, site, id)) (sendEvent request answer)

/-- One question of the client, with the controller before and after. -/
def NetworkStep (s : Network) (e : Event ClientSig) (s' : Network) : Prop :=
  match e with
  | ⟨.send request, answer⟩ => Sent s request answer s'
  | ⟨.cachedSiteUuid, answer⟩ =>
      s' = s ∧ ∀ cached, answer = .ok cached → cached = s.siteUuid
  | ⟨.cacheSiteUuid uuid, answer⟩ =>
      s' = match answer with
        | .ok () => { s with siteUuid := some uuid }
        | .error _ => s
  | ⟨.cachedVersion, _⟩ | ⟨.cacheVersion _, _⟩ => s' = s

/-! ## The writes of a trace -/

/-- The write an event is of, if it is one that was performed. -/
def landedOf : Event ClientSig → Option (Request × Response)
  | ⟨.send request, .ok response⟩ =>
      if request.method.isWrite ∧ response.status < 300 then some (request, response) else none
  | _ => none

/-- The performed writes of a trace, with their answers. -/
def landed (t : List (Event ClientSig)) : List (Request × Response) := t.filterMap landedOf

@[simp] theorem landed_nil : landed [] = [] := rfl

@[simp] theorem landed_append (t₁ t₂ : List (Event ClientSig)) :
    landed (t₁ ++ t₂) = landed t₁ ++ landed t₂ :=
  List.filterMap_append

/-- A write whose answer `apply_mutation` cannot read: a PUT that was not answered with
JSON, or a create that was not answered with an id in the shape of its surface. -/
def Unread (w : Request × Response) : Prop :=
  match w.1.method with
  | .get | .delete => False
  | .put => ∃ message, w.2.json = .error message
  | .post => ∀ k : ResourceKind, w.1.template = k.pathTemplate →
      ∀ raw id, w.2.json = .ok raw → createdIdOf k.surface k.name raw ≠ .ok id

/-- A question that is not a write request. -/
def ClientOp.Quiet : ClientOp → Prop
  | .send request => request.method.isWrite = false
  | _ => True

theorem landed_eq_nil {t : List (Event ClientSig)} (h : ∀ e ∈ t, ClientOp.Quiet e.op) :
    landed t = [] := by
  refine List.filterMap_eq_nil_iff.2 fun e he => ?_
  have hquiet := h e he
  match e, hquiet with
  | ⟨.send request, .ok response⟩, hquiet =>
      have hread : request.method.isWrite = false := hquiet
      simp [landedOf, hread]
  | ⟨.send request, .error _⟩, _ => rfl
  | ⟨.cachedSiteUuid, _⟩, _ | ⟨.cacheSiteUuid _, _⟩, _ | ⟨.cachedVersion, _⟩, _
  | ⟨.cacheVersion _, _⟩, _ => rfl

/-- What is held changes only when a write is performed. -/
theorem held_of_landed_eq_nil {s s' : Network} {t : List (Event ClientSig)}
    (hpath : Path NetworkStep s t s') (h : landed t = []) : s'.held = s.held := by
  have hnone := List.filterMap_eq_nil_iff.1 h
  clear h
  induction hpath with
  | nil => rfl
  | @cons s s₁ s₂ e t head _ ih =>
      obtain ⟨hof, hrest⟩ := List.forall_mem_cons.1 hnone
      rw [ih hrest]
      match e, head, hof with
      | ⟨.send request, answer⟩, head, hof =>
          have hsent : Sent s request answer s₁ := head
          unfold Sent at hsent
          split_ifs at hsent with hwrite
          · rcases hsent with ⟨response, rfl, hstatus, -⟩ | ⟨-, rfl⟩
            · simp [landedOf, hwrite, hstatus] at hof
            · rfl
          · rw [hsent.1]
      | ⟨.cachedSiteUuid, _⟩, head, _ => rw [head.1]
      | ⟨.cacheSiteUuid _, .ok ()⟩, head, _ => rw [show s₁ = _ from head]
      | ⟨.cacheSiteUuid _, .error _⟩, head, _ => rw [show s₁ = s from head]
      | ⟨.cachedVersion, _⟩, head, _ => rw [show s₁ = s from head]
      | ⟨.cacheVersion _, _⟩, head, _ => rw [show s₁ = s from head]

/-- A question other than remembering the site's UUID. -/
def ClientOp.KeepsUuid : ClientOp → Prop
  | .cacheSiteUuid _ => False
  | _ => True

theorem siteUuid_of_step {s s' : Network} {e : Event ClientSig} (he : ClientOp.KeepsUuid e.op)
    (h : NetworkStep s e s') : s'.siteUuid = s.siteUuid := by
  match e, h with
  | ⟨.send request, answer⟩, h =>
      have hsent : Sent s request answer s' := h
      unfold Sent at hsent
      split_ifs at hsent with hwrite
      · rcases hsent with ⟨response, -, -, -, huuid⟩ | ⟨-, rfl⟩
        · exact huuid
        · rfl
      · rw [hsent.1]
  | ⟨.cachedSiteUuid, _⟩, h => rw [h.1]
  | ⟨.cacheSiteUuid _, _⟩, _ => exact he.elim
  | ⟨.cachedVersion, _⟩, h => rw [show s' = s from h]
  | ⟨.cacheVersion _, _⟩, h => rw [show s' = s from h]

/-! ## What the client asks -/

theorem ClientOp.IsVersion.quiet {op : ClientOp} (h : op.IsVersion) : op.Quiet := by
  match op, h with
  | .send request, h => exact congrArg Method.isWrite h.1
  | .cachedVersion, _ | .cacheVersion _, _ => trivial

theorem ClientOp.IsVersion.keepsUuid {op : ClientOp} (h : op.IsVersion) : op.KeepsUuid := by
  match op, h with
  | .send _, _ | .cachedVersion, _ | .cacheVersion _, _ => trivial

namespace UnifiClient

variable {c : UnifiClient} {P : ClientOp → Prop}

/-- Reporting an error response asks for the version, at most. -/
theorem AsksVersion.handleErrorResponse (h : c.AsksVersion P) (surface : ApiSurface)
    (path : String) (status : Nat) (text : String) :
    (handleErrorResponse c surface path status text).Asks P := by
  unfold UnifiClient.handleErrorResponse
  split_ifs
  · refine h.fetch.attempt.bind fun r => ?_
    cases r with
    | ok version => exact Fallible.asks_throw _
    | error e =>
        refine (asks_clientAsk h.cachedVersion).bind fun cached => ?_
        rcases cached with _ | (_ | version) <;> exact Fallible.asks_throw _
  · exact Fallible.asks_throw _

/-- A request asks for itself and for the version. -/
theorem AsksVersion.request (h : c.AsksVersion P) {method : Method} {surface : ApiSurface}
    {template : String} {params query : List (String × String)} {body : Option Json}
    (hsend : ensureSurfacePermitted c.controller surface = .ok () →
      ∀ path, c.expandPath template params = .ok path →
        P (.send (requestOf c method template params query body path))) :
    (c.request method surface template params query body).Asks P := by
  unfold UnifiClient.request
  cases hpermitted : ensureSurfacePermitted c.controller surface with
  | error e => exact Fallible.asks_throw _
  | ok _ =>
      cases hpath : c.expandPath template params with
      | error message => exact Fallible.asks_throw _
      | ok path =>
          refine (asks_send (hsend hpermitted path hpath)).bind fun response => ?_
          split_ifs
          · exact h.handleErrorResponse surface path _ _
          · exact Fallible.asks_ofExcept _

variable (c) in
theorem asks_handleErrorResponse (surface : ApiSurface) (path : String) (status : Nat)
    (text : String) :
    (handleErrorResponse c surface path status text).Asks ClientOp.IsVersion :=
  AsksVersion.handleErrorResponse ⟨⟨rfl, rfl, rfl⟩, trivial, fun _ => trivial⟩ surface path _ _

/-- A request to any surface asks for itself and for the version. -/
theorem asks_request {method : Method} {surface : ApiSurface} {template : String}
    {params query : List (String × String)} {body : Option Json}
    (hsend : ∀ path, P (.send (requestOf c method template params query body path)))
    (hversion : ∀ op, ClientOp.IsVersion op → P op) :
    (c.request method surface template params query body).Asks P := by
  have hasks : c.AsksVersion P :=
    ⟨hversion _ ⟨rfl, rfl, rfl⟩, hversion _ trivial, fun _ => hversion _ trivial⟩
  exact hasks.request fun _ path _ => hsend path

theorem asks_get {surface : ApiSurface} {template : String}
    {params query : List (String × String)} :
    (c.get surface template params query).Asks fun op : ClientOp => op.Quiet ∧ op.KeepsUuid :=
  asks_request (fun _ => ⟨rfl, trivial⟩) fun _ hop => ⟨hop.quiet, hop.keepsUuid⟩

/-- Finding the site asks for the sites list, at most. -/
theorem asks_defaultSiteFor_of {surface : ApiSurface} (hcached : P .cachedSiteUuid)
    (hcache : ∀ uuid, P (.cacheSiteUuid uuid))
    (hsites : (c.get .supported sitesPath [] []).Asks P) : (c.defaultSiteFor surface).Asks P := by
  cases surface with
  | privateV1 | privateV2 | cloud => exact Fallible.asks_pure _
  | supported =>
      refine (asks_clientAsk hcached).bind fun cached => ?_
      refine (asks_unpoisoned _ cached).bind fun cached => ?_
      cases cached with
      | some uuid => exact Fallible.asks_pure _
      | none =>
          refine hsites.bind fun sites => ?_
          refine (Fallible.asks_ofExcept _).bind fun items => ?_
          cases findSiteUuid items c.controller.site with
          | none => exact Fallible.asks_throw _
          | some uuid =>
              refine (asks_clientAsk (hcache uuid)).bind fun ans => ?_
              exact (asks_unpoisoned _ ans).bind fun _ => Fallible.asks_pure _

theorem asks_parseKind (kind : String) : (parseKind kind).Asks P :=
  Fallible.asks_ofExcept _

variable (c) in
/-- The reads of resources, of whatever kind, are among these questions. -/
structure AsksReads (P : ClientOp → Prop) : Prop where
  site : ∀ surface, (c.defaultSiteFor surface).Asks P
  collection : ∀ (k : ResourceKind) (params query : List (String × String)),
    (c.get k.surface k.pathTemplate params query).Asks P
  single : ∀ (k : ResourceKind) (params : List (String × String)),
    (c.get k.surface k.singleResourceTemplate params []).Asks P

theorem AsksReads.mono {Q : ClientOp → Prop} (h : c.AsksReads P) (hPQ : ∀ op, P op → Q op) :
    c.AsksReads Q :=
  ⟨fun surface => (h.site surface).mono hPQ,
    fun k params query => (h.collection k params query).mono hPQ,
    fun k params => (h.single k params).mono hPQ⟩

theorem AsksReads.fetchResource (h : c.AsksReads P) (kind id : String) :
    (c.fetchResource kind id).Asks P := by
  refine (asks_parseKind kind).bind fun k => ?_
  refine (h.site _).bind fun site => ?_
  refine ((h.single k _).attempt).bind fun response => ?_
  split
  · exact (Fallible.asks_ofExcept _).bind fun _ => Fallible.asks_pure _
  · exact Fallible.asks_pure _
  · exact Fallible.asks_pure _
  · exact Fallible.asks_throw _

theorem AsksReads.mergedBody (h : c.AsksReads P) (surface : ApiSurface) (kind id : String)
    (body : Json) : (c.mergedBody surface kind id body).Asks P := by
  unfold UnifiClient.mergedBody
  split_ifs
  · refine (h.fetchResource kind id).bind fun current => ?_
    cases current with
    | some current => exact Fallible.asks_pure _
    | none => exact Fallible.asks_throw _
  · exact Fallible.asks_pure _

/-- Finding the site writes nothing. -/
theorem asks_defaultSiteFor (surface : ApiSurface) :
    (c.defaultSiteFor surface).Asks ClientOp.Quiet :=
  asks_defaultSiteFor_of trivial (fun _ => trivial) (asks_get.mono fun _ hop => hop.1)

/-- Reading a resource writes nothing. -/
theorem asksReads_quiet : c.AsksReads ClientOp.Quiet :=
  ⟨asks_defaultSiteFor, fun _ _ _ => asks_get.mono fun _ hop => hop.1,
    fun _ _ => asks_get.mono fun _ hop => hop.1⟩

theorem asks_fetchResource (kind id : String) :
    (c.fetchResource kind id).Asks ClientOp.Quiet :=
  asksReads_quiet.fetchResource kind id

theorem asks_mergedBody (surface : ApiSurface) (kind id : String) (body : Json) :
    (c.mergedBody surface kind id body).Asks ClientOp.Quiet :=
  asksReads_quiet.mergedBody surface kind id body

/-! ## The site stays the same -/

/-- The program leaves a cached site UUID as it is. -/
def KeepsUuid {α : Type} (x : ClientM α) : Prop :=
  ∀ uuid, x.Preserves NetworkStep fun s => s.siteUuid = some uuid

theorem keepsUuid_of_asks {α : Type} {x : ClientM α} (h : x.Asks ClientOp.KeepsUuid) :
    KeepsUuid x := by
  intro uuid
  refine Fallible.preserves_of_asks h fun s e s' he hstep hs => ?_
  rw [siteUuid_of_step he hstep, hs]

theorem KeepsUuid.bind {α β : Type} {x : ClientM α} {f : α → ClientM β} (hx : KeepsUuid x)
    (hf : ∀ a, KeepsUuid (f a)) : KeepsUuid (x >>= f) :=
  fun uuid => (hx uuid).bind fun a => hf a uuid

theorem keepsUuid_request {method : Method} {surface : ApiSurface} {template : String}
    {params query : List (String × String)} {body : Option Json} :
    KeepsUuid (c.request method surface template params query body) :=
  keepsUuid_of_asks (asks_request (fun _ => trivial) fun _ hop => hop.keepsUuid)

/-- The UUID is cached only when none was. -/
theorem keepsUuid_defaultSiteFor (surface : ApiSurface) : KeepsUuid (c.defaultSiteFor surface) := by
  intro uuid s t r s' hs hrun hpath
  cases surface with
  | privateV1 | privateV2 | cloud =>
      obtain ⟨rfl, -⟩ := hrun
      exact path_nil.1 hpath ▸ hs
  | supported =>
      obtain ⟨cached, rest, rfl, hrest⟩ := Fallible.gives_ask_bind.1 hrun
      obtain ⟨s₁, ⟨hsame, hcached⟩, hpath₁⟩ := path_cons.1 hpath
      subst hsame
      cases cached with
      | error e =>
          obtain ⟨rfl, -⟩ := hrest
          exact path_nil.1 hpath₁ ▸ hs
      | ok cached =>
          obtain rfl : cached = some uuid := (hcached cached rfl).trans hs
          obtain ⟨rfl, -⟩ := hrest
          exact path_nil.1 hpath₁ ▸ hs

variable (c) in
/-- The site the client takes for a surface, as far as it is settled. -/
def siteAt (s : Network) (surface : ApiSurface) : Option String :=
  if surface = .supported then s.siteUuid else some c.controller.site

/-- The site found is settled from then on. -/
theorem siteAt_of_gives {surface : ApiSurface} {site : String} {s s' : Network}
    {t : List (Event ClientSig)} (h : (c.defaultSiteFor surface).Gives t (.ok site))
    (hpath : Path NetworkStep s t s') : siteAt c s' surface = some site := by
  by_cases hs : surface = .supported
  · subst hs
    rw [siteAt, if_pos rfl]
    cases uuidRun_of_gives h with
    | cached =>
        obtain ⟨s₁, ⟨hsame, hcached⟩, hnil⟩ := path_cons.1 hpath
        rw [← path_nil.1 hnil, hsame]
        exact (hcached _ rfl).symm
    | listed =>
        -- The UUID was just cached.
        obtain ⟨s₁, -, hpath₁⟩ := path_cons.1 hpath
        obtain ⟨s₂, -, hlast⟩ := path_append.1 hpath₁
        obtain ⟨s₃, hcache, hnil⟩ := path_cons.1 hlast
        rw [← path_nil.1 hnil, show s₃ = _ from hcache]
  · rw [defaultSiteFor_of_ne hs] at h
    rw [siteAt, if_neg hs, Except.ok.inj (Fallible.gives_pure.1 h).2]

theorem KeepsUuid.siteAt {α : Type} {x : ClientM α} (h : KeepsUuid x) {t : List (Event ClientSig)}
    {r : Except UnifiError α} {s s' : Network} (hrun : x.Gives t r)
    (hpath : Path NetworkStep s t s') {surface : ApiSurface} {site : String}
    (hsite : c.siteAt s surface = some site) : c.siteAt s' surface = some site := by
  unfold UnifiClient.siteAt at hsite ⊢
  split_ifs at hsite ⊢ with hs
  · exact h site s t r s' hsite hrun hpath
  · exact hsite

theorem keepsUuid_fetchResource (kind id : String) : KeepsUuid (c.fetchResource kind id) := by
  refine (keepsUuid_of_asks (asks_parseKind kind)).bind fun k => ?_
  refine (keepsUuid_defaultSiteFor _).bind fun site => ?_
  refine KeepsUuid.bind (fun uuid => (keepsUuid_request uuid).attempt) fun response => ?_
  refine keepsUuid_of_asks ?_
  split
  · exact (Fallible.asks_ofExcept _).bind fun _ => Fallible.asks_pure _
  · exact Fallible.asks_pure _
  · exact Fallible.asks_pure _
  · exact Fallible.asks_throw _

theorem keepsUuid_mergedBody (surface : ApiSurface) (kind id : String) (body : Json) :
    KeepsUuid (c.mergedBody surface kind id body) := by
  unfold mergedBody
  split_ifs
  · refine (keepsUuid_fetchResource kind id).bind fun current => keepsUuid_of_asks ?_
    cases current with
    | some current => exact Fallible.asks_pure _
    | none => exact Fallible.asks_throw _
  · exact keepsUuid_of_asks (Fallible.asks_pure _)

end UnifiClient

end UnifiMcp
