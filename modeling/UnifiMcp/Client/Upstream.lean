import UnifiMcp.Client.Store

/-!
# A controller that answers

An `Upstream` is a controller as the client sees it: one answer for each request.  With
the client's two caches it is an environment that is a function, in which every client
method has one result and one trace.

`listedUuid` reads the UUID of a site off the sites list.  `uuid_of_defaultSiteFor` says
that the UUID the client takes for the Integration API is the one its configured site is
listed under.
-/

namespace UnifiMcp

open Interaction

/-- What a controller answers each request with. -/
abbrev Upstream := Request → Except HttpError Response

/-- The client's caches; a poisoned lock stays poisoned. -/
structure Caches where
  siteUuid : Except PoisonError (Option String)
  version : Except PoisonError (Option String)

/-- Store a value in a cache. -/
def store (value : String) (cache : Except PoisonError (Option String)) :
    Except PoisonError (Option String) := cache.map fun _ => some value

/-- The answer to each of the client's questions. -/
def clientAnswer (upstream : Upstream) : (op : ClientOp) → Caches → op.Answer × Caches
  | .send request, s => (upstream request, s)
  | .cachedSiteUuid, s => (s.siteUuid, s)
  | .cacheSiteUuid uuid, s =>
      (s.siteUuid.map fun _ => (), { s with siteUuid := store uuid s.siteUuid })
  | .cachedVersion, s => (s.version, s)
  | .cacheVersion version, s =>
      (s.version.map fun _ => (), { s with version := store version s.version })

/-- What a client method comes to when the controller answers: its result, its trace and the
caches it leaves. -/
def ClientM.eval {α : Type} (x : ClientM α) (upstream : Upstream) (caches : Caches) :
    Except UnifiError α × List (Event ClientSig) × Caches :=
  Fallible.eval (clientAnswer upstream) x caches

namespace UnifiClient

variable (c : UnifiClient)

/-- The sites list, as the controller answers it. -/
def sitesList (upstream : Upstream) : Option (List Json) := do
  let path ← (c.expandPath sitesPath []).toOption
  let response ← (upstream (requestOf c .get sitesPath [] [] none path)).toOption
  if response.status < 300 then do
    let json ← response.json.toOption
    (unwrapEnvelopedData json).toOption
  else none

/-- The UUID the controller lists a site under. -/
def listedUuid (upstream : Upstream) (name : String) : Option String :=
  (c.sitesList upstream).bind fun sites => findSiteUuid sites name

/-- A cached UUID is the one the configured site is listed under. -/
def CacheIsListed (upstream : Upstream) (caches : Caches) : Prop :=
  ∀ uuid, caches.siteUuid = .ok (some uuid) →
    c.listedUuid upstream c.controller.site = some uuid

variable {c} {upstream : Upstream}

theorem sitesList_of_gives {t : List (Event ClientSig)} {sites : Json} {items : List Json}
    {s s' : Caches} (h : (c.get .supported sitesPath [] []).Gives t (.ok sites))
    (hpath : Path (Answers (clientAnswer upstream)) s t s')
    (hitems : unwrapEnvelopedData sites = .ok items) : c.sitesList upstream = some items := by
  obtain ⟨path, response, -, hexpand, hstatus, hjson, rfl⟩ := gives_request_ok h
  obtain ⟨s₁, hsend, -⟩ := path_cons.1 hpath
  have hanswer : upstream (requestOf c .get sitesPath [] [] none path) = .ok response :=
    congrArg Prod.fst hsend
  simp [sitesList, hexpand, hanswer, hstatus, hjson, hitems, Except.toOption]

section Environment

variable {σ : Type} {answer : (op : ClientOp) → σ → op.Answer × σ}

/-- Whatever answers, sending a request asks one question. -/
theorem evalIn_send (request : Request) (s : σ) :
    Fallible.eval answer (send request) s =
      (transportResult (answer (.send request) s).1,
        [sendEvent request (answer (.send request) s).1], (answer (.send request) s).2) := by
  have hask : Fallible.eval answer (ClientM.ask (.send request)) s =
      (.ok (answer (.send request) s).1, [sendEvent request (answer (.send request) s).1],
        (answer (.send request) s).2) := rfl
  unfold send
  refine (Fallible.eval_bind_ok hask _).trans ?_
  cases (answer (.send request) s).1 with
  | ok response => rfl
  | error e => rfl

/-- What becomes of a request that is sent and answered. -/
theorem evalIn_request {method : Method} {surface : ApiSurface} {template path : String}
    {params query : List (String × String)} {body : Option Json} {response : Response} {s : σ}
    (hpermitted : ensureSurfacePermitted c.controller surface = .ok ())
    (hexpand : c.expandPath template params = .ok path)
    (hanswer : (answer (.send (requestOf c method template params query body path)) s).1 =
      .ok response) :
    Fallible.eval answer (c.request method surface template params query body) s =
      let rest := Fallible.eval answer
        (if response.status ≥ 300 then
          handleErrorResponse c surface path response.status response.text
        else Fallible.ofExcept (response.json.mapError .malformed))
        (answer (.send (requestOf c method template params query body path)) s).2
      (rest.1, sendEvent (requestOf c method template params query body path) (.ok response) ::
        rest.2.1, rest.2.2) := by
  have hsend : Fallible.eval answer
      (send (requestOf c method template params query body path)) s = _ := evalIn_send _ s
  rw [hanswer] at hsend
  unfold request
  rw [hpermitted, hexpand]
  exact Fallible.eval_bind_ok hsend _

end Environment

/-- A GET that is answered with JSON returns it, and asks for nothing else. -/
theorem eval_get {surface : ApiSurface} {template path : String}
    {params : List (String × String)} (query : List (String × String)) {response : Response}
    {v : Json} (upstream : Upstream) (caches : Caches)
    (hpermitted : ensureSurfacePermitted c.controller surface = .ok ())
    (hexpand : c.expandPath template params = .ok path)
    (hanswer : upstream (requestOf c .get template params query none path) = .ok response)
    (hstatus : response.status < 300) (hjson : response.json = .ok v) :
    (c.get surface template params query).eval upstream caches =
      (.ok v, [sendEvent (requestOf c .get template params query none path) (.ok response)],
        caches) := by
  unfold get ClientM.eval
  rw [evalIn_request hpermitted hexpand hanswer, if_neg (Nat.not_le.2 hstatus), hjson]
  rfl

/-- **The UUID a client takes is the one its configured site is listed under.** -/
theorem uuid_of_defaultSiteFor {caches : Caches} {site : String}
    (hcaches : c.CacheIsListed upstream caches)
    (h : ((c.defaultSiteFor .supported).eval upstream caches).1 = .ok site) :
    c.listedUuid upstream c.controller.site = some site := by
  obtain ⟨t, caches', heval⟩ : ∃ t caches',
      (c.defaultSiteFor .supported).eval upstream caches = (.ok site, t, caches') :=
    ⟨_, _, Prod.ext h rfl⟩
  obtain ⟨hruns, hpath⟩ := Fallible.gives_of_eval heval
  cases uuidRun_of_gives hruns with
  | cached =>
      obtain ⟨s₁, hcached, -⟩ := path_cons.1 hpath
      exact hcaches _ (congrArg Prod.fst hcached)
  | listed read unwrapped found =>
      obtain ⟨s₁, -, hpath₁⟩ := path_cons.1 hpath
      obtain ⟨s₂, hread, -⟩ := path_append.1 hpath₁
      rw [listedUuid, sitesList_of_gives read hread unwrapped, Option.bind_some, found]

/-- A UUID that was resolved is in the cache. -/
theorem cached_of_defaultSiteFor {caches caches' : Caches} {site : String}
    {t : List (Event ClientSig)}
    (h : (c.defaultSiteFor .supported).eval upstream caches = (.ok site, t, caches')) :
    caches'.siteUuid = .ok (some site) := by
  obtain ⟨hruns, hpath⟩ := Fallible.gives_of_eval h
  cases uuidRun_of_gives hruns with
  | cached =>
      obtain ⟨s₁, hcached, hnil⟩ := path_cons.1 hpath
      obtain ⟨hread, hsame⟩ := Prod.mk.inj hcached
      rw [← path_nil.1 hnil, ← hsame]
      exact hread
  | listed =>
      -- the UUID that is found is put into the cache before it is returned
      obtain ⟨s₁, -, hpath₁⟩ := path_cons.1 hpath
      obtain ⟨s₂, -, hlast⟩ := path_append.1 hpath₁
      obtain ⟨s₃, hcache, hnil⟩ := path_cons.1 hlast
      obtain ⟨hstored, rfl⟩ := Prod.mk.inj hcache
      rw [← path_nil.1 hnil]
      cases hold : s₂.siteUuid with
      | error e =>
          rw [hold] at hstored
          cases hstored
      | ok old =>
          rfl

/-- A UUID that is in the cache is resolved. -/
theorem defaultSiteFor_of_cached {caches : Caches} {site : String}
    (h : caches.siteUuid = .ok (some site)) :
    ∃ t, (c.defaultSiteFor .supported).eval upstream caches = (.ok site, t, caches) := by
  refine Fallible.exists_eval_bind ⟨_, rfl⟩ ?_
  change ∃ t, Fallible.eval (clientAnswer upstream)
    (unpoisoned "site UUID cache lock poisoned" caches.siteUuid >>= _) caches = _
  rw [h]
  exact Fallible.exists_eval_bind ⟨_, rfl⟩ ⟨_, rfl⟩

/-- A site that was resolved is resolved to the same again. -/
theorem defaultSiteFor_again {surface : ApiSurface} {caches caches' : Caches} {site : String}
    {t : List (Event ClientSig)}
    (h : (c.defaultSiteFor surface).eval upstream caches = (.ok site, t, caches')) :
    ∃ t', (c.defaultSiteFor surface).eval upstream caches' = (.ok site, t', caches') := by
  cases surface with
  | privateV1 | privateV2 | cloud =>
      cases h
      exact ⟨[], rfl⟩
  | supported => exact defaultSiteFor_of_cached (cached_of_defaultSiteFor h)

end UnifiClient

end UnifiMcp
