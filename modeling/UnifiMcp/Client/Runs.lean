import UnifiMcp.Client.ControllerOps

/-!
# Runs of the client's methods

What the trace of a request can look like, and what it returns on it.  A request sends
at most one request of its own; when that is rejected with a 404 on a private surface,
events that look up the controller version may follow.  `RequestRun` lists the cases,
and `requestRun_of_gives` is the one lemma through which every later argument about a
client method looks at `request`.
-/

namespace UnifiMcp

open Interaction

/-- The event of sending a request. -/
def sendEvent (request : Request) (answer : Except HttpError Response) : Event ClientSig :=
  ⟨.send request, answer⟩

/-- The questions asked to look up the controller version. -/
def ClientOp.IsVersion : ClientOp → Prop
  | .send request =>
      request.method = .get ∧ request.template = UnifiClient.infoPath ∧ request.params = []
  | .cachedVersion | .cacheVersion _ => True
  | .cachedSiteUuid | .cacheSiteUuid _ => False

theorem gives_clientAsk {op : ClientOp} {t : List (Event ClientSig)}
    {r : Except UnifiError op.Answer} :
    (ClientM.ask op).Gives t r ↔ ∃ ans, t = [⟨op, ans⟩] ∧ r = .ok ans :=
  Fallible.gives_ask

theorem asks_clientAsk {P : ClientOp → Prop} {op : ClientOp} (h : P op) :
    (ClientM.ask op).Asks P :=
  Fallible.asks_ask h

/-- Turn a transport failure into the error it is reported as. -/
def transportResult : Except HttpError Response → Except UnifiError Response :=
  Except.mapError .http

namespace UnifiClient

theorem gives_send {request : Request} {t : List (Event ClientSig)}
    {r : Except UnifiError Response} :
    (send request).Gives t r ↔
      ∃ ans, t = [sendEvent request ans] ∧ r = transportResult ans := by
  unfold send
  rw [Fallible.gives_bind]
  constructor
  · rintro (⟨e, rfl, h⟩ | ⟨t₁, t₂, ans, rfl, h₁, h₂⟩)
    · obtain ⟨ans, -, h⟩ := gives_clientAsk.1 h
      cases h
    · obtain ⟨ans', rfl, h⟩ := gives_clientAsk.1 h₁
      cases h
      cases ans with
      | ok response =>
          obtain ⟨rfl, rfl⟩ := Fallible.gives_pure.1 h₂
          exact ⟨.ok response, rfl, rfl⟩
      | error e =>
          obtain ⟨rfl, rfl⟩ := Fallible.gives_throw.1 h₂
          exact ⟨.error e, rfl, rfl⟩
  · rintro ⟨ans, rfl, rfl⟩
    refine .inr ⟨_, [], ans, rfl, gives_clientAsk.2 ⟨ans, rfl, rfl⟩, ?_⟩
    cases ans with
    | ok response => exact Fallible.gives_pure.2 ⟨rfl, rfl⟩
    | error e => exact Fallible.gives_throw.2 ⟨rfl, rfl⟩

theorem gives_unpoisoned {α : Type} {message : String} {a : Except PoisonError α}
    {t : List (Event ClientSig)} {r : Except UnifiError α} :
    (unpoisoned message a).Gives t r ↔ t = [] ∧ r = a.mapError fun _ => .malformed message := by
  cases a with
  | ok a => exact Fallible.gives_pure
  | error e => exact Fallible.gives_throw

theorem asks_send {P : ClientOp → Prop} {request : Request} (h : P (.send request)) :
    (send request).Asks P := by
  refine (asks_clientAsk h).bind fun ans => ?_
  cases ans <;> simp

theorem asks_unpoisoned {P : ClientOp → Prop} {α : Type} (message : String)
    (a : Except PoisonError α) : (unpoisoned message a).Asks P := by
  cases a <;> exact trivial

variable (c : UnifiClient)

/-- How the UUID of the configured site is found: in the cache, or in the list of sites, from
where it is put into the cache. -/
inductive UuidRun : List (Event ClientSig) → String → Prop where
  | cached (uuid : String) : UuidRun [⟨.cachedSiteUuid, .ok (some uuid)⟩] uuid
  | listed {t : List (Event ClientSig)} {sites : Json} {items : List Json} {uuid : String}
      (read : (c.get .supported sitesPath [] []).Gives t (.ok sites))
      (unwrapped : unwrapEnvelopedData sites = .ok items)
      (found : findSiteUuid items c.controller.site = some uuid) :
      UuidRun (⟨.cachedSiteUuid, .ok none⟩ :: (t ++ [⟨.cacheSiteUuid uuid, .ok ()⟩])) uuid

variable {c} in
theorem uuidRun_of_gives {t : List (Event ClientSig)} {uuid : String}
    (h : (c.defaultSiteFor .supported).Gives t (.ok uuid)) : UuidRun c t uuid := by
  obtain ⟨answer, rest, rfl, hrest⟩ := Fallible.gives_ask_bind.1 h
  obtain ⟨t₀, t₁, known, rfl, hunpoisoned, hfound⟩ := Fallible.gives_bind_ok.1 hrest
  obtain ⟨rfl, hknown⟩ := gives_unpoisoned.1 hunpoisoned
  cases answer with
  | error e => cases hknown
  | ok cached =>
      cases hknown
      cases known with
      | some uuid =>
          obtain ⟨rfl, hsite⟩ := Fallible.gives_pure.1 hfound
          cases hsite
          exact .cached uuid
      | none =>
          obtain ⟨t₂, t₃, sites, rfl, hread, hitems⟩ := Fallible.gives_bind_ok.1 hfound
          obtain ⟨t₄, t₅, items, rfl, hunwrap, huuid⟩ := Fallible.gives_bind_ok.1 hitems
          obtain ⟨rfl, hunwrapped⟩ := Fallible.gives_ofExcept.1 hunwrap
          cases hfind : findSiteUuid items c.controller.site with
          | none =>
              rw [hfind] at huuid
              cases huuid.2
          | some uuid =>
              rw [hfind] at huuid
              obtain ⟨answer, tail, rfl, hcaching⟩ := Fallible.gives_ask_bind.1 huuid
              cases answer with
              | error e => cases hcaching.2
              | ok _ =>
                  obtain ⟨rfl, hsite⟩ := hcaching
                  cases hsite
                  exact .listed hread hunwrapped hfind

/-- The request for the version. -/
def infoRequest : Request where
  method := .get
  base := c.baseUrl
  template := infoPath
  params := []
  path := infoPath
  query := []
  body := none

/-- The questions asked to look up the version are among these. -/
structure AsksVersion (P : ClientOp → Prop) : Prop where
  info : P (.send c.infoRequest)
  cachedVersion : P .cachedVersion
  cacheVersion : ∀ version, P (.cacheVersion version)

variable {c} in
/-- Looking up the version asks for nothing else. -/
theorem AsksVersion.fetch {P : ClientOp → Prop} (h : c.AsksVersion P) :
    (fetchVersionIfAbsent c).Asks P := by
  refine (asks_clientAsk h.cachedVersion).bind fun cached => ?_
  refine (asks_unpoisoned _ cached).bind fun cached => ?_
  cases cached with
  | some version => exact Fallible.asks_pure version
  | none =>
      refine (asks_send h.info).bind fun response => ?_
      dsimp only
      split_ifs
      · exact Fallible.asks_throw _
      · cases response.json with
        | error message => exact Fallible.asks_throw _
        | ok info =>
            dsimp only
            cases info.getStr? "applicationVersion" with
            | none => exact Fallible.asks_throw _
            | some version =>
                refine (asks_clientAsk (h.cacheVersion version)).bind fun ans => ?_
                exact (asks_unpoisoned _ ans).bind fun _ => Fallible.asks_pure version

theorem asks_fetchVersionIfAbsent : (fetchVersionIfAbsent c).Asks ClientOp.IsVersion :=
  AsksVersion.fetch ⟨⟨rfl, rfl, rfl⟩, trivial, fun _ => trivial⟩

variable {c}

/-- Reporting an error response asks at most for the version, and always fails: with the
drift error for a 404 on a private surface, with the status otherwise. -/
theorem gives_handleErrorResponse {surface : ApiSurface} {path text : String} {status : Nat}
    {t : List (Event ClientSig)} {r : Except UnifiError Json}
    (h : (handleErrorResponse c surface path status text).Gives t r) :
    (∀ e ∈ t, ClientOp.IsVersion e.op) ∧
      if status = 404 ∧ surface.requiresPrivateScope then
        ∃ version, r = .error (.privateEndpointAbsent surface path version)
      else r = .error (.upstream status (sanitizeDetail text)) := by
  unfold handleErrorResponse at h
  split_ifs at h ⊢ with hs
  · simp only [Fallible.throw_bind] at h
    rw [Fallible.gives_bind] at h
    rcases h with ⟨e, rfl, h⟩ | ⟨t₁, t₂, version, rfl, h₁, h₂⟩
    · obtain ⟨r', -, h⟩ := Fallible.gives_attempt.1 h
      cases h
    · obtain ⟨r', hversion, h⟩ := Fallible.gives_attempt.1 h₁
      cases h
      have hquiet := (asks_fetchVersionIfAbsent c).of_mem hversion
      cases version with
      | ok version =>
          obtain ⟨rfl, rfl⟩ := h₂
          exact ⟨by simpa using hquiet, version, rfl⟩
      | error e =>
          -- The version is read back from the cache, or is "unknown".
          obtain ⟨ans, rest, rfl, h₃⟩ := Fallible.gives_ask_bind.1 h₂
          have hrest : rest = [] ∧ ∃ version,
              r = .error (.privateEndpointAbsent surface path version) := by
            match ans, h₃ with
            | .ok (some version), h₃ => exact ⟨h₃.1, version, h₃.2.symm⟩
            | .ok none, h₃ => exact ⟨h₃.1, "unknown", h₃.2.symm⟩
            | .error _, h₃ => exact ⟨h₃.1, "unknown", h₃.2.symm⟩
          obtain ⟨rfl, version, rfl⟩ := hrest
          refine ⟨?_, version, rfl⟩
          intro e' he'
          rcases List.mem_append.1 he' with he' | he'
          · exact hquiet e' he'
          · obtain rfl := List.mem_singleton.1 he'
            trivial
  · obtain ⟨rfl, rfl⟩ := Fallible.gives_throw.1 h
    simp

variable (c)

/-- The request `request` sends, once its path is expanded. -/
def requestOf (method : Method) (template : String) (params query : List (String × String))
    (body : Option Json) (path : String) : Request :=
  { method, base := c.baseUrl, template, params, path, query, body }

/-- The ways a request goes. -/
inductive RequestRun (method : Method) (surface : ApiSurface) (template : String)
    (params query : List (String × String)) (body : Option Json) :
    List (Event ClientSig) → Except UnifiError Json → Prop where
  /-- The surface is not permitted. -/
  | notPermitted (e : UnifiError) (h : ensureSurfacePermitted c.controller surface = .error e) :
      RequestRun method surface template params query body [] (.error e)
  /-- The parameters are refused. -/
  | notExpanded (message : String) (h : c.expandPath template params = .error message) :
      RequestRun method surface template params query body [] (.error (.malformed message))
  /-- The request could not be sent, or was not answered. -/
  | transport (path : String) (e : HttpError) :
      RequestRun method surface template params query body
        [sendEvent (requestOf c method template params query body path) (.error e)]
        (.error (.http e))
  /-- The controller answered with an error status. -/
  | rejected (path : String) (response : Response) (status : 300 ≤ response.status)
      (rest : List (Event ClientSig)) (e : UnifiError)
      (report : (handleErrorResponse c surface path response.status response.text).Gives rest
        (.error e)) :
      RequestRun method surface template params query body
        (sendEvent (requestOf c method template params query body path) (.ok response) :: rest)
        (.error e)
  /-- The controller answered with success; the body may still not be JSON. -/
  | landed (path : String) (response : Response)
      (permitted : ensureSurfacePermitted c.controller surface = .ok ())
      (expanded : c.expandPath template params = .ok path) (status : response.status < 300) :
      RequestRun method surface template params query body
        [sendEvent (requestOf c method template params query body path) (.ok response)]
        (response.json.mapError .malformed)

variable {c} {method : Method} {surface : ApiSurface} {template : String}
  {params query : List (String × String)} {body : Option Json} {t : List (Event ClientSig)}

/-- **Every run of a request goes one of five ways.** -/
theorem requestRun_of_gives {r : Except UnifiError Json}
    (h : (c.request method surface template params query body).Gives t r) :
    RequestRun c method surface template params query body t r := by
  unfold request at h
  cases hp : ensureSurfacePermitted c.controller surface with
  | error e =>
      rw [hp, Fallible.ofExcept_error_bind] at h
      obtain ⟨rfl, rfl⟩ := Fallible.gives_throw.1 h
      exact .notPermitted e hp
  | ok u =>
      rw [hp, Fallible.ofExcept_ok_bind] at h
      cases hx : c.expandPath template params with
      | error message =>
          rw [hx] at h
          obtain ⟨rfl, rfl⟩ := Fallible.gives_throw.1 h
          exact .notExpanded message hx
      | ok path =>
          rw [hx, Except.mapError, Fallible.ofExcept_ok_bind, Fallible.gives_bind] at h
          rcases h with ⟨e, rfl, h⟩ | ⟨t₁, t₂, response, rfl, h₁, h₂⟩
          · obtain ⟨ans, rfl, hans⟩ := gives_send.1 h
            cases ans with
            | ok response => cases hans
            | error e =>
                cases hans
                exact .transport path e
          · obtain ⟨ans, rfl, hans⟩ := gives_send.1 h₁
            cases ans with
            | error e => cases hans
            | ok response' =>
                cases hans
                split_ifs at h₂ with hs
                · have hreport := (gives_handleErrorResponse h₂).2
                  have herror : ∃ e, r = .error e := by
                    split_ifs at hreport with h404
                    · obtain ⟨version, hr⟩ := hreport
                      exact ⟨_, hr⟩
                    · exact ⟨_, hreport⟩
                  obtain ⟨e, rfl⟩ := herror
                  exact .rejected path response hs t₂ e h₂
                · obtain ⟨rfl, rfl⟩ := h₂
                  exact .landed path response hp hx (Nat.lt_of_not_le hs)

/-- A permitted request with an expandable path can be answered in any way below 300. -/
theorem gives_request_landed {path : String} {response : Response}
    (permitted : ensureSurfacePermitted c.controller surface = .ok ())
    (expanded : c.expandPath template params = .ok path) (status : response.status < 300) :
    (c.request method surface template params query body).Gives
      [sendEvent (requestOf c method template params query body path) (.ok response)]
      (response.json.mapError .malformed) := by
  unfold request
  rw [permitted, Fallible.ofExcept_ok_bind, expanded, Except.mapError,
    Fallible.ofExcept_ok_bind]
  refine Fallible.gives_bind.2 (.inr ⟨_, [], response, rfl, gives_send.2 ⟨_, rfl, rfl⟩, ?_⟩)
  rw [if_neg (Nat.not_le.2 status)]
  exact ⟨rfl, rfl⟩

/-- A successful request is one that was answered below 300 with JSON. -/
theorem gives_request_ok {v : Json}
    (h : (c.request method surface template params query body).Gives t (.ok v)) :
    ∃ path response, ensureSurfacePermitted c.controller surface = .ok () ∧
      c.expandPath template params = .ok path ∧ response.status < 300 ∧
      response.json = .ok v ∧
      t = [sendEvent (requestOf c method template params query body path) (.ok response)] := by
  generalize hr : Except.ok v = r at h
  cases requestRun_of_gives h with
  | landed path response permitted expanded status =>
      refine ⟨path, response, permitted, expanded, status, ?_, rfl⟩
      cases hj : response.json with
      | ok v' =>
          rw [hj] at hr
          cases hr
          rfl
      | error e =>
          rw [hj] at hr
          cases hr
  | _ => cases hr

/-! ## The default site -/

variable (c) in
/-- The sites `default_site_for` can give for a surface: any for the Integration API,
which is told the UUID by the controller, and the configured name elsewhere. -/
def SiteFor (surface : ApiSurface) (site : String) : Prop :=
  surface = .supported ∨ site = c.controller.site

theorem defaultSiteFor_of_ne (h : surface ≠ .supported) :
    c.defaultSiteFor surface = pure c.controller.site := by
  cases surface with
  | supported => exact absurd rfl h
  | privateV1 | privateV2 | cloud => rfl

theorem siteFor_of_gives {site : String}
    (h : (c.defaultSiteFor surface).Gives t (.ok site)) : SiteFor c surface site := by
  by_cases hs : surface = .supported
  · exact .inl hs
  · rw [defaultSiteFor_of_ne hs] at h
    exact .inr (Except.ok.inj (Fallible.gives_pure.1 h).2)

/-- Every such site is given by some run. -/
theorem exists_gives_defaultSiteFor {site : String} (h : SiteFor c surface site) :
    ∃ t, (c.defaultSiteFor surface).Gives t (.ok site) := by
  by_cases hs : surface = .supported
  · subst hs
    exact ⟨[⟨.cachedSiteUuid, .ok (some site)⟩], .ok (some site), [], rfl, rfl, rfl⟩
  · rw [defaultSiteFor_of_ne hs]
    exact ⟨[], Fallible.gives_pure.2 ⟨rfl, congrArg Except.ok (h.resolve_left hs)⟩⟩

/-! ## Reading one resource -/

/-- The errors that `fetch_resource` takes for a missing resource. -/
def IsAbsent : UnifiError → Prop
  | .upstream status _ => status = 404
  | .privateEndpointAbsent _ _ _ => True
  | _ => False

theorem gives_parseKind {kind : String} {r : Except UnifiError ResourceKind} :
    (parseKind kind).Gives t r ↔ t = [] ∧
      (ResourceKind.parse kind).mapError
        (fun e => .malformed s!"unknown resource kind '{kind}': {e}") = r :=
  Iff.rfl

theorem parseKind_name (k : ResourceKind) : parseKind k.name = pure k := by
  unfold parseKind
  rw [ResourceKind.parse_eq_ok.2 rfl]
  rfl

/-- The kind that was read has the name it was read from. -/
theorem name_of_parse {kind : String} {k : ResourceKind} {report : String → UnifiError}
    (h : (ResourceKind.parse kind).mapError report = .ok k) : k.name = kind := by
  cases hparse : ResourceKind.parse kind with
  | error e =>
      rw [hparse] at h
      cases h
  | ok k' =>
      rw [hparse] at h
      cases h
      exact ResourceKind.parse_eq_ok.1 hparse

/-- A successful step after reading the kind of a mutation. -/
theorem gives_parseKind_bind_ok {β : Type} {kind : String} {f : ResourceKind → ClientM β}
    {b : β} (h : (parseKind kind >>= f).Gives t (.ok b)) :
    ∃ k : ResourceKind, k.name = kind ∧ (f k).Gives t (.ok b) := by
  obtain ⟨t₁, t₂, k, rfl, hk, hf⟩ := Fallible.gives_bind_ok.1 h
  obtain ⟨rfl, hparse⟩ := gives_parseKind.1 hk
  exact ⟨k, name_of_parse hparse, hf⟩

variable (c) in
/-- The request for one resource. -/
def getOne (k : ResourceKind) (site id : String) : ClientM Json :=
  c.get k.surface k.singleResourceTemplate [("site", site), ("id", id)] []

/-- **Reading a resource.**  It is found when the answer parses to a list of items that
has a first one, and missing when that list is empty or the controller says so. -/
theorem gives_fetchResource_ok {kind id : String} {r : Option Json}
    (h : (c.fetchResource kind id).Gives t (.ok r)) :
    ∃ (k : ResourceKind) (t₁ t₂ : List (Event ClientSig)) (site : String),
      k.name = kind ∧ t = t₁ ++ t₂ ∧ (c.defaultSiteFor k.surface).Gives t₁ (.ok site) ∧
      ((∃ raw items, (getOne c k site id).Gives t₂ (.ok raw) ∧
          fetchedItems k.surface raw = .ok items ∧ r = items.head?) ∨
        (∃ e, (getOne c k site id).Gives t₂ (.error e) ∧ IsAbsent e ∧ r = none)) := by
  obtain ⟨k, hk, h⟩ := gives_parseKind_bind_ok h
  obtain ⟨t₁, t', site, rfl, hsite, h⟩ := Fallible.gives_bind_ok.1 h
  obtain ⟨t₃, t₄, response, rfl, hattempt, hrest⟩ := Fallible.gives_bind_ok.1 h
  refine ⟨k, t₁, t₃ ++ t₄, site, hk, rfl, hsite, ?_⟩
  obtain ⟨response', hget, hr⟩ := Fallible.gives_attempt.1 hattempt
  cases hr
  have hget : (getOne c k site id).Gives t₃ response := hget
  cases response with
  | ok raw =>
      obtain ⟨t₅, t₆, items, rfl, hitems, hpure⟩ := Fallible.gives_bind_ok.1 hrest
      obtain ⟨rfl, hread⟩ := Fallible.gives_ofExcept.1 hitems
      obtain ⟨rfl, hr⟩ := Fallible.gives_pure.1 hpure
      cases hr
      exact .inl ⟨raw, items, by simpa using hget, hread, rfl⟩
  | error e =>
      have habsent : t₄ = [] ∧ IsAbsent e ∧ r = none := by
        match e, hrest with
        | .upstream status detail, h =>
            split at h
            · next heq => cases heq
            · next heq =>
                cases heq
                obtain ⟨rfl, hr⟩ := Fallible.gives_pure.1 h
                cases hr
                exact ⟨rfl, rfl, rfl⟩
            · next heq => cases heq
            · cases (Fallible.gives_throw.1 h).2
        | .privateEndpointAbsent _ _ _, h =>
            obtain ⟨rfl, hr⟩ := Fallible.gives_pure.1 h
            cases hr
            exact ⟨rfl, trivial, rfl⟩
        | .surfaceRequiresConfig _, h | .surfaceRequiresScope _, h | .malformed _, h
        | .referenceNotFound _, h | .writeRefused _, h | .http _, h | .secret _, h
        | .siteNotInScope _ _, h =>
            cases (Fallible.gives_throw.1 h).2
      obtain ⟨rfl, he, rfl⟩ := habsent
      exact .inr ⟨e, by simpa using hget, he, rfl⟩

/-- The answer that reads as `items` on a surface. -/
def answerOf (surface : ApiSurface) (items : List Json) : Json :=
  match surface with
  | .privateV2 => .arr items
  | .supported | .privateV1 | .cloud => .obj [("data", .arr items)]

theorem fetchedItems_answerOf (k : ResourceKind) (items : List Json) :
    fetchedItems k.surface (answerOf k.surface items) = .ok items := by
  cases hs : k.surface with
  | supported | privateV1 | privateV2 => rfl
  | cloud => exact absurd hs k.surface_ne_cloud

variable (c) in
/-- The client may address a resource of this kind with these parameters. -/
def CanAddress (k : ResourceKind) (template : String) (params : List (String × String)) :
    Prop :=
  ensureSurfacePermitted c.controller k.surface = .ok () ∧
    ∃ path, c.expandPath template params = .ok path

theorem exists_gives_request {k : ResourceKind} (h : CanAddress c k template params)
    (answer : Json) :
    ∃ t, (c.request method k.surface template params query body).Gives t (.ok answer) := by
  obtain ⟨permitted, path, expanded⟩ := h
  have status : (⟨200, "", .ok answer⟩ : Response).status < 300 := by
    show 200 < 300
    omega
  exact ⟨_, gives_request_landed permitted expanded status⟩

/-- A request that succeeded was for something the client may address. -/
theorem canAddress_of_gives {k : ResourceKind} {v : Json}
    (h : (c.request method k.surface template params query body).Gives t (.ok v)) :
    CanAddress c k template params := by
  obtain ⟨path, response, permitted, expanded, -⟩ := gives_request_ok h
  exact ⟨permitted, path, expanded⟩

variable (c) in
/-- The client may address the resource of this kind with this id, at some site it
could take for the default one. -/
def Addressable (kind id : String) : Prop :=
  ∃ (k : ResourceKind) (site : String), k.name = kind ∧ SiteFor c k.surface site ∧
    CanAddress c k k.singleResourceTemplate [("site", site), ("id", id)]

/-- Whatever a resource that can be addressed holds, some run reads just that. -/
theorem exists_gives_fetchResource {kind id : String} (h : Addressable c kind id)
    (r : Option Json) : ∃ t, (c.fetchResource kind id).Gives t (.ok r) := by
  obtain ⟨k, site, rfl, hsite, h⟩ := h
  obtain ⟨t₁, ht₁⟩ := exists_gives_defaultSiteFor hsite
  obtain ⟨t₂, ht₂⟩ : ∃ t, (getOne c k site id).Gives t
      (.ok (answerOf k.surface r.toList)) :=
    exists_gives_request h _
  refine ⟨t₁ ++ t₂, ?_⟩
  rw [fetchResource, parseKind_name, pure_bind]
  refine Fallible.gives_bind_ok.2 ⟨t₁, t₂, site, rfl, ht₁, ?_⟩
  refine Fallible.gives_bind_ok.2 ⟨t₂, [], .ok _, by simp,
    Fallible.gives_attempt.2 ⟨_, ht₂, rfl⟩, ?_⟩
  dsimp only
  rw [fetchedItems_answerOf, Fallible.ofExcept_ok_bind]
  refine Fallible.gives_pure.2 ⟨rfl, ?_⟩
  cases r <;> rfl

/-- A resource that was found was addressed. -/
theorem addressable_of_gives {kind id : String} {v : Json}
    (h : (c.fetchResource kind id).Gives t (.ok (some v))) : Addressable c kind id := by
  obtain ⟨k, t₁, t₂, site, hk, rfl, hsite, ⟨raw, items, hget, -⟩ | ⟨e, -, -, hnone⟩⟩ :=
    gives_fetchResource_ok h
  · exact ⟨k, site, hk, siteFor_of_gives hsite, canAddress_of_gives hget⟩
  · cases hnone

/-! ## Applying one mutation -/

/-- A create that succeeded was answered with an id. -/
theorem gives_applyMutation_create {kind : String} {body : Json} {r : Option String}
    (h : (c.applyMutation (.create kind body)).Gives t (.ok r)) :
    ∃ (k : ResourceKind) (t₁ t₂ : List (Event ClientSig)) (site : String) (response : Json)
      (id : String), k.name = kind ∧ t = t₁ ++ t₂ ∧
      (c.defaultSiteFor k.surface).Gives t₁ (.ok site) ∧
      (c.post k.surface k.pathTemplate [("site", site)] [] body).Gives t₂ (.ok response) ∧
      createdIdOf k.surface kind response = .ok id ∧ r = some id := by
  obtain ⟨k, hk, h⟩ := gives_parseKind_bind_ok h
  obtain ⟨t₁, t', site, rfl, hsite, h⟩ := Fallible.gives_bind_ok.1 h
  obtain ⟨t₂, t'', response, rfl, hpost, h⟩ := Fallible.gives_bind_ok.1 h
  obtain ⟨t₃, t₄, id, rfl, hid, hpure⟩ := Fallible.gives_bind_ok.1 h
  obtain ⟨rfl, hread⟩ := Fallible.gives_ofExcept.1 hid
  obtain ⟨rfl, hr⟩ := Fallible.gives_pure.1 hpure
  cases hr
  exact ⟨k, t₁, t₂, site, response, id, hk, by simp, hsite, hpost, hread, rfl⟩

/-- An update that succeeded sent its body to the resource. -/
theorem gives_applyMutation_update {kind id : String} {body : Json} {r : Option String}
    (h : (c.applyMutation (.update kind id body)).Gives t (.ok r)) :
    ∃ (k : ResourceKind) (t₁ t₂ t₃ : List (Event ClientSig)) (site : String)
      (merged response : Json), k.name = kind ∧ kind ≠ "device" ∧ t = t₁ ++ (t₂ ++ t₃) ∧
      (c.defaultSiteFor k.surface).Gives t₁ (.ok site) ∧
      (c.mergedBody k.surface kind id body).Gives t₂ (.ok merged) ∧
      (c.put k.surface k.singleResourceTemplate [("site", site), ("id", id)] [] merged).Gives t₃
        (.ok response) ∧ r = none := by
  obtain ⟨k, hk, h⟩ := gives_parseKind_bind_ok h
  split_ifs at h with hdevice
  · cases (Fallible.gives_throw.1 h).2
  · obtain ⟨t₁, t', site, rfl, hsite, h⟩ := Fallible.gives_bind_ok.1 h
    obtain ⟨t₂, t'', merged, rfl, hmerged, h⟩ := Fallible.gives_bind_ok.1 h
    obtain ⟨t₃, t₄, response, rfl, hput, hpure⟩ := Fallible.gives_bind_ok.1 h
    obtain ⟨rfl, hr⟩ := Fallible.gives_pure.1 hpure
    cases hr
    exact ⟨k, t₁, t₂, t₃, site, merged, response, hk, hdevice, by simp, hsite, hmerged, hput,
      rfl⟩

/-- A delete that succeeded was sent to the resource. -/
theorem gives_applyMutation_delete {kind id : String} {r : Option String}
    (h : (c.applyMutation (.delete kind id)).Gives t (.ok r)) :
    ∃ (k : ResourceKind) (t₁ t₂ : List (Event ClientSig)) (site : String) (response : Json),
      k.name = kind ∧ t = t₁ ++ t₂ ∧ (c.defaultSiteFor k.surface).Gives t₁ (.ok site) ∧
      (c.delete k.surface k.singleResourceTemplate [("site", site), ("id", id)] []).Gives t₂
        (.ok response) ∧ r = none := by
  obtain ⟨k, hk, h⟩ := gives_parseKind_bind_ok h
  obtain ⟨t₁, t', site, rfl, hsite, h⟩ := Fallible.gives_bind_ok.1 h
  obtain ⟨t₂, t₃, response, rfl, hdelete, hpure⟩ := Fallible.gives_bind_ok.1 h
  obtain ⟨rfl, hr⟩ := Fallible.gives_pure.1 hpure
  cases hr
  exact ⟨k, t₁, t₂, site, response, hk, by simp, hsite, hdelete, rfl⟩

theorem createdIdOf_answerOf (k : ResourceKind) (kind id : String) :
    createdIdOf k.surface kind (answerOf k.surface [.obj [("_id", .str id)]]) = .ok id := by
  cases hs : k.surface with
  | supported | privateV1 | privateV2 => rfl
  | cloud => exact absurd hs k.surface_ne_cloud

/-- A create whose collection can be addressed is answered with any id in some run. -/
theorem exists_gives_applyMutation_create {k : ResourceKind} {site : String}
    (hsite : SiteFor c k.surface site) (h : CanAddress c k k.pathTemplate [("site", site)])
    (body : Json) (id : String) :
    ∃ t, (c.applyMutation (.create k.name body)).Gives t (.ok (some id)) := by
  obtain ⟨t₁, ht₁⟩ := exists_gives_defaultSiteFor hsite
  obtain ⟨t₂, ht₂⟩ : ∃ t, (c.post k.surface k.pathTemplate [("site", site)] [] body).Gives t
      (.ok (answerOf k.surface [.obj [("_id", .str id)]])) :=
    exists_gives_request h _
  refine ⟨t₁ ++ t₂, ?_⟩
  rw [applyMutation, parseKind_name, pure_bind]
  refine Fallible.gives_bind_ok.2 ⟨t₁, t₂, site, rfl, ht₁, ?_⟩
  refine Fallible.gives_bind_ok.2 ⟨t₂, [], _, by simp, ht₂, ?_⟩
  rw [createdIdOf_answerOf, Fallible.ofExcept_ok_bind]
  exact Fallible.gives_pure.2 ⟨rfl, rfl⟩

/-- The body of an update can be computed when the resource can be addressed. -/
theorem exists_gives_mergedBody {kind id : String} (h : Addressable c kind id)
    (surface : ApiSurface) (body : Json) :
    ∃ t merged, (c.mergedBody surface kind id body).Gives t (.ok merged) := by
  unfold mergedBody
  split_ifs with hs
  · obtain ⟨t, ht⟩ := exists_gives_fetchResource h (some .null)
    exact ⟨t, _, Fallible.gives_bind_ok.2
      ⟨t, [], some .null, by simp, ht, Fallible.gives_pure.2 ⟨rfl, rfl⟩⟩⟩
  · exact ⟨[], body, Fallible.gives_pure.2 ⟨rfl, rfl⟩⟩

theorem exists_gives_applyMutation_update {kind id : String} (h : Addressable c kind id)
    (hdevice : kind ≠ "device") (body : Json) :
    ∃ t, (c.applyMutation (.update kind id body)).Gives t (.ok none) := by
  obtain ⟨k, site, rfl, hsite, haddress⟩ := h
  obtain ⟨t₁, ht₁⟩ := exists_gives_defaultSiteFor hsite
  obtain ⟨t₂, merged, ht₂⟩ :=
    exists_gives_mergedBody ⟨k, site, rfl, hsite, haddress⟩ k.surface body
  obtain ⟨t₃, ht₃⟩ : ∃ t, (c.put k.surface k.singleResourceTemplate
      [("site", site), ("id", id)] [] merged).Gives t (.ok .null) :=
    exists_gives_request haddress _
  refine ⟨t₁ ++ (t₂ ++ t₃), ?_⟩
  rw [applyMutation, parseKind_name, pure_bind, if_neg hdevice]
  refine Fallible.gives_bind_ok.2 ⟨t₁, t₂ ++ t₃, site, rfl, ht₁, ?_⟩
  refine Fallible.gives_bind_ok.2 ⟨t₂, t₃, merged, rfl, ht₂, ?_⟩
  exact Fallible.gives_bind_ok.2
    ⟨t₃, [], .null, by simp, ht₃, Fallible.gives_pure.2 ⟨rfl, rfl⟩⟩

theorem exists_gives_applyMutation_delete {kind id : String} (h : Addressable c kind id) :
    ∃ t, (c.applyMutation (.delete kind id)).Gives t (.ok none) := by
  obtain ⟨k, site, rfl, hsite, haddress⟩ := h
  obtain ⟨t₁, ht₁⟩ := exists_gives_defaultSiteFor hsite
  obtain ⟨t₂, ht₂⟩ : ∃ t, (c.delete k.surface k.singleResourceTemplate
      [("site", site), ("id", id)] []).Gives t (.ok .null) :=
    exists_gives_request haddress _
  refine ⟨t₁ ++ t₂, ?_⟩
  rw [applyMutation, parseKind_name, pure_bind]
  refine Fallible.gives_bind_ok.2 ⟨t₁, t₂, site, rfl, ht₁, ?_⟩
  exact Fallible.gives_bind_ok.2
    ⟨t₂, [], .null, by simp, ht₂, Fallible.gives_pure.2 ⟨rfl, rfl⟩⟩

end UnifiClient

/-! ## A client of one network

The examples of later files are about this client, which can address one network. -/

/-- The network. -/
def lan : Json := .obj [("_id", .str "n1"), ("name", .str "lan")]

/-- A plan that moves `lan` to VLAN 20. -/
def vlanPlan : List StagedMutation :=
  [.update "network" "n1" (.obj [("vlan", .num (.posInt 20))])]

/-- A client of the default site that may use the private surfaces. -/
def lanClient : UnifiClient where
  controller :=
    ⟨"https://unifi.example.org", "default", some "UNIFI_API_KEY", none, none, true, false⟩
  expandPath _ params :=
    if params = [("site", "default"), ("id", "n1")] then
      .ok "/proxy/network/api/s/default/rest/networkconf/n1"
    else .error "unknown parameters"

end UnifiMcp
