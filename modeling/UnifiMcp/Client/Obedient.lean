import UnifiMcp.Client.Upstream

/-!
# A controller that does what it is sent

An `ObedientController` is any machine with states `σ` that carries out every write it is
sent for the two kinds of the zone-based firewall, answers in the shapes the client reads,
changes nothing else, and answers reads with its current state.  `held` is what of its state
the client can see: the resources of the client's site, by kind and id.

It is an environment that is a function, so that each client method has one result in it:
`fetchResource_obedient` for reads, `applyMutation_obedient` for the writes of a plan.
-/

namespace UnifiMcp

open Interaction

/-- The two kinds of the zone-based firewall. -/
def ResourceKind.IsZoneBased (k : ResourceKind) : Prop := k = .firewallZone ∨ k = .firewallPolicy

theorem ResourceKind.IsZoneBased.surface_eq {k : ResourceKind} (h : k.IsZoneBased) :
    k.surface = .privateV2 := by
  rcases h with rfl | rfl <;> rfl

/-- Their site is the configured one. -/
theorem UnifiClient.defaultSiteFor_zoneBased {c : UnifiClient} {k : ResourceKind}
    (h : k.IsZoneBased) : c.defaultSiteFor k.surface = pure c.controller.site :=
  defaultSiteFor_of_ne (by rw [h.surface_eq]; decide)

/-- An answer to a read of one resource that shows what is held: the resource itself or a list
it heads, and for a missing one an empty list or a 404. -/
def ShowsHeld (v : Option Json) (answer : Except HttpError Response) : Prop :=
  ∃ response, answer = .ok response ∧
    ((∃ raw items, response.status < 300 ∧ response.json = .ok raw ∧
        fetchedItems .privateV2 raw = .ok items ∧ items.head? = v) ∨
      response.status = 404 ∧ v = none)

/-- An answer to a write that was carried out. -/
def Reports (raw : Json) (answer : Except HttpError Response) : Prop :=
  ∃ response, answer = .ok response ∧ response.status < 300 ∧ response.json = .ok raw

/-- What is held at one site, by kind and id. -/
abbrev Resources := String × String → Option Json

/-- The resource that a create of `body` under the id `id` makes. -/
def MadeFrom (body : Json) (id : String) (v : Json) : Prop :=
  v.getStr? "_id" = some id ∧ ∀ key, key ≠ "_id" → v.get? key = body.get? key

namespace UnifiClient

variable (c : UnifiClient)

/-- The parameters of the path of one resource at the client's site. -/
def oneParams (id : String) : List (String × String) :=
  [("site", c.controller.site), ("id", id)]

/-- A request to the path of one resource. -/
def oneRequest (method : Method) (k : ResourceKind) (id : String) (body : Option Json)
    (path : String) : Request :=
  requestOf c method k.singleResourceTemplate (c.oneParams id) [] body path

/-- The request that creates a resource. -/
def createRequest (k : ResourceKind) (body : Json) (path : String) : Request :=
  requestOf c .post k.pathTemplate [("site", c.controller.site)] [] (some body) path

end UnifiClient

/-- A controller that does what this client sends it.  The id a create is given is not in use,
and one the client can ask for; a DELETE of what is not there is carried out like any other. -/
structure ObedientController (c : UnifiClient) (σ : Type) where
  answer : (op : ClientOp) → σ → op.Answer × σ
  /-- The resources of the client's site, by kind and id. -/
  held : σ → Resources
  /-- Nothing but a write changes what is held. -/
  quiet : ∀ op s, ClientOp.Quiet op → held (answer op s).2 = held s
  get : ∀ (k : ResourceKind) (id path : String) (s : σ), k.IsZoneBased →
    c.expandPath k.singleResourceTemplate (c.oneParams id) = .ok path →
    ShowsHeld (held s (k.name, id)) (answer (.send (c.oneRequest .get k id none path)) s).1
  put : ∀ (k : ResourceKind) (id path : String) (body : Json) (s : σ), k.IsZoneBased →
    c.expandPath k.singleResourceTemplate (c.oneParams id) = .ok path →
    (held s (k.name, id)).isSome →
    (∃ raw, Reports raw (answer (.send (c.oneRequest .put k id (some body) path)) s).1) ∧
      held (answer (.send (c.oneRequest .put k id (some body) path)) s).2 =
        Function.update (held s) (k.name, id) (some body)
  delete : ∀ (k : ResourceKind) (id path : String) (s : σ), k.IsZoneBased →
    c.expandPath k.singleResourceTemplate (c.oneParams id) = .ok path →
    (∃ raw, Reports raw (answer (.send (c.oneRequest .delete k id none path)) s).1) ∧
      held (answer (.send (c.oneRequest .delete k id none path)) s).2 =
        Function.update (held s) (k.name, id) none
  post : ∀ (k : ResourceKind) (path : String) (body : Json) (s : σ), k.IsZoneBased →
    c.expandPath k.pathTemplate [("site", c.controller.site)] = .ok path →
    ∃ raw id v, Reports raw (answer (.send (c.createRequest k body path)) s).1 ∧
      createdIdOf .privateV2 k.name raw = .ok id ∧
      (∃ idPath, c.expandPath k.singleResourceTemplate (c.oneParams id) = .ok idPath) ∧
      MadeFrom body id v ∧ held s (k.name, id) = none ∧
      held (answer (.send (c.createRequest k body path)) s).2 =
        Function.update (held s) (k.name, id) (some v)

namespace ObedientController

open UnifiClient

variable {c : UnifiClient} {σ : Type} (C : ObedientController c σ)

/-! ## Reads -/

/-- What asks for no write leaves what is held. -/
theorem held_of_quiet {α : Type} {x : ClientM α} (hx : x.Asks ClientOp.Quiet) (s : σ) :
    C.held (Fallible.eval C.answer x s).2.2 = C.held s := by
  have hkeeps : ∀ op s', ClientOp.Quiet op → C.held s' = C.held s →
      C.held (C.answer op s').2 = C.held s :=
    fun op s' hop hs' => (C.quiet op s' hop).trans hs'
  exact Fallible.eval_of_asks hx hkeeps rfl

/-- The client may ask for the resource of this kind with this id. -/
def Reachable (c : UnifiClient) (kind id : String) : Prop :=
  ∃ k : ResourceKind, k.IsZoneBased ∧ k.name = kind ∧
    CanAddress c k k.singleResourceTemplate (c.oneParams id)

/-- A read of one resource comes to what is held, or to an error that stands for nothing. -/
theorem get_obedient {k : ResourceKind} {id : String} (hk : k.IsZoneBased)
    (haddress : CanAddress c k k.singleResourceTemplate (c.oneParams id)) (s : σ) :
    ∃ r t s', Fallible.eval C.answer (getOne c k c.controller.site id) s = (r, t, s') ∧
      ((∃ raw items, r = .ok raw ∧ fetchedItems k.surface raw = .ok items ∧
          items.head? = C.held s (k.name, id)) ∨
        ∃ version path, r = .error (.privateEndpointAbsent k.surface path version) ∧
          C.held s (k.name, id) = none) := by
  obtain ⟨hpermitted, path, hexpand⟩ := haddress
  obtain ⟨response, hanswer, hshown⟩ := C.get k id path s hk hexpand
  have heval : Fallible.eval C.answer (getOne c k c.controller.site id) s = _ :=
    evalIn_request hpermitted hexpand hanswer
  refine ⟨_, _, _, heval, ?_⟩
  rcases hshown with ⟨raw, items, hstatus, hjson, hitems, hhead⟩ | ⟨hstatus, hnone⟩
  · left
    refine ⟨raw, items, ?_, ?_, hhead⟩
    · rw [if_neg (Nat.not_le.2 hstatus), hjson]
      rfl
    · rw [hk.surface_eq]
      exact hitems
  · right
    have hreport : 300 ≤ response.status := by omega
    have hprivate : response.status = 404 ∧ k.surface.requiresPrivateScope := by
      rw [hk.surface_eq]
      exact ⟨hstatus, rfl⟩
    rw [if_pos hreport]
    have hgives := Program.eval_runs
      (handleErrorResponse c k.surface path response.status response.text).run C.answer
      (C.answer (.send (c.oneRequest .get k id none path)) s).2
    obtain ⟨-, hend⟩ := gives_handleErrorResponse hgives
    rw [if_pos hprivate] at hend
    obtain ⟨version, hend⟩ := hend
    exact ⟨version, path, hend, hnone⟩

/-- **Reading a resource gives what is held.** -/
theorem fetchResource_obedient {kind id : String} (h : Reachable c kind id) (s : σ) :
    ∃ t s', Fallible.eval C.answer (c.fetchResource kind id) s =
        (.ok (C.held s (kind, id)), t, s') ∧ C.held s' = C.held s := by
  have hquiet := C.held_of_quiet (c.asks_fetchResource kind id) s
  suffices hresult : ∃ s' t, Fallible.eval C.answer (c.fetchResource kind id) s =
      (.ok (C.held s (kind, id)), t, s') by
    obtain ⟨s', t, heval⟩ := hresult
    rw [heval] at hquiet
    exact ⟨t, s', heval, hquiet⟩
  obtain ⟨k, hk, rfl, haddress⟩ := h
  obtain ⟨r, t, s', hget, hread⟩ := C.get_obedient hk haddress s
  rw [fetchResource, parseKind_name, pure_bind]
  dsimp only
  rw [defaultSiteFor_zoneBased hk, pure_bind]
  refine ⟨s', Fallible.exists_eval_bind ⟨t, Fallible.eval_attempt hget⟩ ?_⟩
  rcases hread with ⟨raw, items, rfl, hitems, hhead⟩ | ⟨version, path, rfl, hnone⟩
  · dsimp only
    rw [hitems, ← hhead]
    exact ⟨_, rfl⟩
  · rw [hnone]
    exact ⟨_, rfl⟩

/-! ## Writes -/

/-- A request that is answered with `raw` comes to it. -/
theorem eval_of_reports {method : Method} {surface : ApiSurface} {template path : String}
    {params : List (String × String)} {body : Option Json} {raw : Json} {s : σ}
    (hpermitted : ensureSurfacePermitted c.controller surface = .ok ())
    (hexpand : c.expandPath template params = .ok path)
    (hreports :
      Reports raw (C.answer (.send (requestOf c method template params [] body path)) s).1) :
    ∃ t, Fallible.eval C.answer (c.request method surface template params [] body) s =
      (.ok raw, t, (C.answer (.send (requestOf c method template params [] body path)) s).2) := by
  obtain ⟨response, hanswer, hstatus, hjson⟩ := hreports
  rw [evalIn_request hpermitted hexpand hanswer, if_neg (Nat.not_le.2 hstatus), hjson]
  exact ⟨_, rfl⟩

/-- A create gets a new id, under which the resource is there from then on. -/
theorem create_obedient {k : ResourceKind} (hk : k.IsZoneBased)
    (haddress : CanAddress c k k.pathTemplate [("site", c.controller.site)]) (body : Json) (s : σ) :
    ∃ id v t s', Fallible.eval C.answer (c.applyMutation (.create k.name body)) s =
        (.ok (some id), t, s') ∧ Reachable c k.name id ∧ MadeFrom body id v ∧
      C.held s (k.name, id) = none ∧
      C.held s' = Function.update (C.held s) (k.name, id) (some v) := by
  obtain ⟨hpermitted, path, hexpand⟩ := haddress
  obtain ⟨raw, id, v, hreports, hid, hreach, hmade, hfresh, hheld⟩ :=
    C.post k path body s hk hexpand
  refine ⟨id, v, ?_⟩
  have hpost := C.eval_of_reports hpermitted hexpand hreports
  suffices hresult : ∃ t, Fallible.eval C.answer (c.applyMutation (.create k.name body)) s =
      (.ok (some id), t, (C.answer (.send (c.createRequest k body path)) s).2) by
    obtain ⟨t, heval⟩ := hresult
    exact ⟨t, _, heval, ⟨k, hk, rfl, hpermitted, hreach⟩, hmade, hfresh, hheld⟩
  rw [applyMutation, parseKind_name, pure_bind]
  dsimp only
  rw [defaultSiteFor_zoneBased hk, pure_bind]
  refine Fallible.exists_eval_bind hpost ?_
  rw [hk.surface_eq, hid]
  exact ⟨_, rfl⟩

/-- A DELETE leaves nothing. -/
theorem delete_obedient {kind id : String} (h : Reachable c kind id) (s : σ) :
    ∃ t s', Fallible.eval C.answer (c.applyMutation (.delete kind id)) s = (.ok none, t, s') ∧
      C.held s' = Function.update (C.held s) (kind, id) none := by
  obtain ⟨k, hk, rfl, hpermitted, path, hexpand⟩ := h
  obtain ⟨⟨raw, hreports⟩, hheld⟩ := C.delete k id path s hk hexpand
  have hdelete := C.eval_of_reports hpermitted hexpand hreports
  suffices hresult : ∃ t, Fallible.eval C.answer (c.applyMutation (.delete k.name id)) s =
      (.ok none, t, (C.answer (.send (c.oneRequest .delete k id none path)) s).2) by
    obtain ⟨t, heval⟩ := hresult
    exact ⟨t, _, heval, hheld⟩
  rw [applyMutation, parseKind_name, pure_bind]
  dsimp only
  rw [defaultSiteFor_zoneBased hk, pure_bind]
  exact Fallible.exists_eval_bind hdelete ⟨_, rfl⟩

/-- An update puts the staged fields over what is there. -/
theorem update_obedient {kind id : String} (h : Reachable c kind id) {current : Json} {s : σ}
    (hcurrent : C.held s (kind, id) = some current) (body : Json) :
    ∃ t s', Fallible.eval C.answer (c.applyMutation (.update kind id body)) s =
        (.ok none, t, s') ∧
      C.held s' = Function.update (C.held s) (kind, id) (some (mergeStaged current body)) := by
  obtain ⟨t₁, s₁, hfetch, hheld₁⟩ := C.fetchResource_obedient h s
  obtain ⟨k, hk, rfl, hpermitted, path, hexpand⟩ := h
  have hthere : (C.held s₁ (k.name, id)).isSome := by
    rw [hheld₁, hcurrent]
    rfl
  obtain ⟨⟨raw, hreports⟩, hheld⟩ :=
    C.put k id path (mergeStaged current body) s₁ hk hexpand hthere
  have hput := C.eval_of_reports hpermitted hexpand hreports
  suffices hresult : ∃ t, Fallible.eval C.answer (c.applyMutation (.update k.name id body)) s =
      (.ok none, t,
        (C.answer (.send (c.oneRequest .put k id (some (mergeStaged current body)) path)) s₁).2) by
    obtain ⟨t, heval⟩ := hresult
    refine ⟨t, _, heval, ?_⟩
    rw [hheld, hheld₁]
  have hdevice : k.name ≠ "device" := by
    rcases hk with rfl | rfl <;> decide
  have hmerged : ∃ t, Fallible.eval C.answer (c.mergedBody k.surface k.name id body) s =
      (.ok (mergeStaged current body), t, s₁) := by
    rw [mergedBody, if_pos hk.surface_eq]
    rw [hcurrent] at hfetch
    exact Fallible.exists_eval_bind ⟨t₁, hfetch⟩ ⟨_, rfl⟩
  rw [applyMutation, parseKind_name, pure_bind, if_neg hdevice]
  dsimp only
  rw [defaultSiteFor_zoneBased hk, pure_bind]
  exact Fallible.exists_eval_bind hmerged (Fallible.exists_eval_bind hput ⟨_, rfl⟩)

/-- An update of what is not there is refused before it is sent. -/
theorem update_missing {kind id : String} (h : Reachable c kind id) {s : σ}
    (hmissing : C.held s (kind, id) = none) (body : Json) :
    ∃ e t s', Fallible.eval C.answer (c.applyMutation (.update kind id body)) s =
      (.error e, t, s') := by
  obtain ⟨t₁, s₁, hfetch, -⟩ := C.fetchResource_obedient h s
  obtain ⟨k, hk, rfl, -⟩ := h
  rw [hmissing] at hfetch
  have hdevice : k.name ≠ "device" := by
    rcases hk with rfl | rfl <;> decide
  refine ⟨.malformed s!"update {k.name} {id}: resource not found before apply", ?_⟩
  have hmerged : ∃ t, Fallible.eval C.answer (c.mergedBody k.surface k.name id body) s =
      (.error (.malformed s!"update {k.name} {id}: resource not found before apply"), t, s₁) := by
    rw [mergedBody, if_pos hk.surface_eq]
    exact Fallible.exists_eval_bind ⟨t₁, hfetch⟩ ⟨_, rfl⟩
  rw [applyMutation, parseKind_name, pure_bind, if_neg hdevice]
  dsimp only
  rw [defaultSiteFor_zoneBased hk, pure_bind]
  obtain ⟨t, heval⟩ := Fallible.exists_eval_bind_error hmerged
  exact ⟨t, s₁, heval⟩

end ObedientController

/-! ## A shelf of resources

An obedient controller for every client whose paths all expand.  It answers reads with a list,
and its new ids are longer than all it has seen. -/

/-- Resources with ids of a bounded length. -/
structure Shelf where
  held : Resources
  longest : Nat
  bounded : ∀ kind id, longest < id.length → held (kind, id) = none

namespace Shelf

/-- Put something, or nothing, in a place of the shelf. -/
def set (s : Shelf) (target : String × String) (v : Option Json) : Shelf where
  held := Function.update s.held target v
  longest := max s.longest target.2.length
  bounded kind id hlong := by
    have hne : (kind, id) ≠ target := by
      rintro rfl
      exact absurd hlong (by simp)
    rw [Function.update_of_ne hne]
    exact s.bounded kind id (lt_of_le_of_lt (le_max_left _ _) hlong)

/-- An id that is not in use. -/
def newId (s : Shelf) : String := String.ofList (List.replicate (s.longest + 1) 'a')

theorem held_newId (s : Shelf) (kind : String) : s.held (kind, s.newId) = none :=
  s.bounded kind _ (by simp [newId])

/-- The resource that is made of a body. -/
def made (body : Json) (id : String) : Json :=
  .obj (Collections.insertEntry "_id" (.str id) (body.asObject?.getD []))

theorem madeFrom_made (body : Json) (id : String) : MadeFrom body id (made body id) := by
  constructor
  · show (Collections.findEntry "_id" (Collections.insertEntry _ _ _)).bind _ = _
    rw [Collections.findEntry_insertEntry_self]
    rfl
  · intro key hkey
    show Collections.findEntry key (Collections.insertEntry _ _ _) = _
    rw [Collections.findEntry_insertEntry_of_ne hkey]
    cases body with
    | obj fields => rfl
    | null | bool _ | num _ | str _ | arr _ => rfl

/-- The kinds the shelf keeps. -/
def kinds : List ResourceKind := [.firewallZone, .firewallPolicy]

/-- The place a request addresses. -/
def addressOf (request : Request) : Option (String × String) :=
  (kinds.find? fun k => k.singleResourceTemplate = request.template).bind fun k =>
    (request.params.lookup "id").map fun id => (k.name, id)

/-- What the shelf answers a request with. -/
def respond (request : Request) (s : Shelf) : Response × Shelf :=
  match request.method with
  | .get => (⟨200, "", .ok (.arr ((addressOf request).bind s.held).toList)⟩, s)
  | .put | .delete =>
      match addressOf request with
      | some target => (⟨200, "", .ok .null⟩, s.set target request.body)
      | none => (⟨404, "", .ok .null⟩, s)
  | .post =>
      match kinds.find? fun k => k.pathTemplate = request.template with
      | some k =>
          let v := made (request.body.getD .null) s.newId
          (⟨201, "", .ok (.arr [v])⟩, s.set (k.name, s.newId) (some v))
      | none => (⟨404, "", .ok .null⟩, s)

/-- The answers of a shelf to the questions of a client that caches nothing. -/
def answer : (op : ClientOp) → Shelf → op.Answer × Shelf
  | .send request, s => (.ok (respond request s).1, (respond request s).2)
  | .cachedSiteUuid, s | .cachedVersion, s => (.ok none, s)
  | .cacheSiteUuid _, s | .cacheVersion _, s => (.ok (), s)

theorem addressOf_oneRequest {c : UnifiClient} {k : ResourceKind} (hk : k.IsZoneBased)
    (method : Method) (id : String) (body : Option Json) (path : String) :
    addressOf (c.oneRequest method k id body path) = some (k.name, id) := by
  rcases hk with rfl | rfl <;> rfl

theorem find?_pathTemplate {k : ResourceKind} (hk : k.IsZoneBased) :
    (kinds.find? fun k' => k'.pathTemplate = k.pathTemplate) = some k := by
  rcases hk with rfl | rfl <;> rfl

theorem createdIdOf_made (kind : String) (body : Json) (id : String) :
    createdIdOf .privateV2 kind (.arr [made body id]) = .ok id := by
  have hid : (made body id).getStr? "_id" = some id := (madeFrom_made body id).1
  simp only [createdIdOf, Json.asArray?, bind, Except.bind, hid]

/-- A PUT or a DELETE leaves its body in the place it addresses. -/
theorem respond_one {c : UnifiClient} {k : ResourceKind} (hk : k.IsZoneBased) {method : Method}
    (hmethod : method = .put ∨ method = .delete) (id : String) (body : Option Json) (path : String)
    (s : Shelf) : respond (c.oneRequest method k id body path) s =
      (⟨200, "", .ok .null⟩, s.set (k.name, id) body) := by
  have haddress := addressOf_oneRequest hk (c := c) method id body path
  rcases hmethod with rfl | rfl
  · show (match addressOf (c.oneRequest .put k id body path) with
      | some target => _
      | none => _) = _
    rw [haddress]
    rfl
  · show (match addressOf (c.oneRequest .delete k id body path) with
      | some target => _
      | none => _) = _
    rw [haddress]
    rfl

theorem respond_create {c : UnifiClient} {k : ResourceKind} (hk : k.IsZoneBased) (body : Json)
    (path : String) (s : Shelf) : respond (c.createRequest k body path) s =
      (⟨201, "", .ok (.arr [made body s.newId])⟩,
        s.set (k.name, s.newId) (some (made body s.newId))) := by
  show (match kinds.find? fun k' => k'.pathTemplate = k.pathTemplate with
    | some k => _
    | none => _) = _
  rw [find?_pathTemplate hk]
  rfl

theorem reports_of_respond {request : Request} {s s' : Shelf} {status : Nat} {raw : Json}
    (h : respond request s = (⟨status, "", .ok raw⟩, s')) (hstatus : status < 300) :
    Reports raw (answer (.send request) s).1 ∧ (answer (.send request) s).2 = s' := by
  have hanswer : answer (.send request) s = (.ok ⟨status, "", .ok raw⟩, s') := by
    show (Except.ok (respond request s).1, (respond request s).2) = _
    rw [h]
  rw [hanswer]
  exact ⟨⟨_, rfl, hstatus, rfl⟩, rfl⟩

/-- The shelf does what it is sent. -/
def controller (c : UnifiClient)
    (hpaths : ∀ template params, ∃ path, c.expandPath template params = .ok path) :
    ObedientController c Shelf where
  answer := answer
  held := held
  quiet op s hop := by
    match op, hop with
    | .send request, hop =>
        have hread : request.method.isWrite = false := hop
        show (respond request s).2.held = s.held
        unfold respond
        cases hmethod : request.method with
        | get => rfl
        | put | post | delete =>
            rw [hmethod] at hread
            cases hread
    | .cachedSiteUuid, _ | .cacheSiteUuid _, _ | .cachedVersion, _ | .cacheVersion _, _ => rfl
  get k id path s hk _ := by
    have hrespond : respond (c.oneRequest .get k id none path) s =
        (⟨200, "", .ok (.arr (s.held (k.name, id)).toList)⟩, s) := by
      show ((⟨200, "", .ok (.arr ((addressOf _).bind s.held).toList)⟩ : Response), s) = _
      rw [addressOf_oneRequest hk, Option.bind_some]
    obtain ⟨⟨response, hanswer, hstatus, hjson⟩, -⟩ := reports_of_respond hrespond (by decide)
    refine ⟨response, hanswer, .inl ⟨_, _, hstatus, hjson, rfl, ?_⟩⟩
    cases s.held (k.name, id) <;> rfl
  put k id path body s hk _ _ := by
    obtain ⟨hreports, hshelf⟩ :=
      reports_of_respond (respond_one hk (.inl rfl) id (some body) path s) (by decide)
    exact ⟨⟨_, hreports⟩, by rw [hshelf]; rfl⟩
  delete k id path s hk _ := by
    obtain ⟨hreports, hshelf⟩ :=
      reports_of_respond (respond_one hk (.inr rfl) id none path s) (by decide)
    exact ⟨⟨_, hreports⟩, by rw [hshelf]; rfl⟩
  post k path body s hk _ := by
    obtain ⟨hreports, hshelf⟩ := reports_of_respond (respond_create hk body path s) (by decide)
    exact ⟨_, s.newId, made body s.newId, hreports, createdIdOf_made _ _ _, hpaths _ _,
      madeFrom_made _ _, s.held_newId _, by rw [hshelf]; rfl⟩

end Shelf

end UnifiMcp
