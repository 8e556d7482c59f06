import UnifiMcp.Client.Upstream
import UnifiMcp.Interaction.Coupling
import UnifiMcp.Tools.Allowlisted

/-!
# Listing shows allowlisted fields only

Take two controllers that answer the request for a collection with items that agree on the
fields the kind allows, and everything else alike.  Listing the collection comes to the same
result or the same failure on both (`listResources_hides`), so that nothing outside the
allowlist reaches the caller or has any influence on what does.  The projection at the end is
not needed for this: already what the parsers give is the same.
-/

namespace UnifiMcp

open Interaction Collections

/-! ## Collections that look the same -/

/-- The fields a kind allows; none for the kind that has no allowlist. -/
def allowedFields (k : ResourceKind) : List String := (allowlistFor k).getD []

/-- The items of the answer to a request for a collection. -/
def collectionItems (surface : ApiSurface) (raw : Json) : Except UnifiError (List Json) :=
  match surface with
  | .privateV2 => unwrapPrivateV2Data raw
  | .supported | .privateV1 | .cloud => unwrapEnvelopedData raw

/-- Two collections of one kind, item by item the same but for fields that are not allowed. -/
def CollectionsAlike (k : ResourceKind) (raw raw' : Json) : Prop :=
  ∃ items items', collectionItems k.surface raw = .ok items ∧
    collectionItems k.surface raw' = .ok items' ∧
    List.Forall₂ (AgreeOn (allowedFields k)) items items'

section Parsers

variable {α : Type} {allow : List String} {what : String} {ofJson : Json → Except DecodeError α}
  {raw raw' : Json} {items items' : List Json}

theorem mapM_ofJson_eq {report : DecodeError → UnifiError} (h : ReadsOnly allow ofJson)
    (hitems : List.Forall₂ (AgreeOn allow) items items') :
    (items.mapM fun item => (ofJson item).mapError report) =
      items'.mapM fun item => (ofJson item).mapError report := by
  refine mapM_eq_of_forall₂ (hitems.imp fun item item' hitem => ?_)
  rw [h.eq hitem]

theorem parseItems_eq (h : ReadsOnly allow ofJson) (hraw : unwrapEnvelopedData raw = .ok items)
    (hraw' : unwrapEnvelopedData raw' = .ok items')
    (hitems : List.Forall₂ (AgreeOn allow) items items') :
    parseItems what ofJson raw = parseItems what ofJson raw' := by
  rw [parseItems, parseItems, hraw, hraw']
  exact mapM_ofJson_eq h hitems

theorem parseBareItems_eq (h : ReadsOnly allow ofJson)
    (hraw : unwrapPrivateV2Data raw = .ok items) (hraw' : unwrapPrivateV2Data raw' = .ok items')
    (hitems : List.Forall₂ (AgreeOn allow) items items') :
    parseBareItems what ofJson raw = parseBareItems what ofJson raw' := by
  rw [parseBareItems, parseBareItems, hraw, hraw']
  exact mapM_ofJson_eq h hitems

end Parsers

theorem parseDhcpReservations_eq {raw raw' : Json} {items items' : List Json}
    (hraw : unwrapEnvelopedData raw = .ok items) (hraw' : unwrapEnvelopedData raw' = .ok items')
    (hitems : List.Forall₂ (AgreeOn dhcpReservationFields) items items') :
    parseDhcpReservations raw = parseDhcpReservations raw' := by
  unfold parseDhcpReservations
  rw [hraw, hraw']
  exact mapM_ofJson_eq readsOnly_dhcpReservation
    (forall₂_filter (fun _ _ hitem => readsOnly_usesFixedIp.eq hitem) hitems)

/-- **Every parser but the one of policies sees allowed fields only.** -/
theorem parseResourceList_eq (number : Number → String) {k : ResourceKind}
    (hkind : k ≠ .firewallPolicy) {raw raw' : Json} (h : CollectionsAlike k raw raw') :
    parseResourceList number k raw = parseResourceList number k raw' := by
  obtain ⟨items, items', hraw, hraw', hitems⟩ := h
  cases k with
  | firewallPolicy => exact absurd rfl hkind
  | station =>
      exact congrArg (rendered Station.toJson) (parseItems_eq readsOnly_station hraw hraw' hitems)
  | device =>
      exact congrArg (rendered Device.toJson) (parseItems_eq readsOnly_device hraw hraw' hitems)
  | network =>
      exact congrArg (rendered NetworkConf.toJson)
        (parseItems_eq readsOnly_network hraw hraw' hitems)
  | wlan => exact congrArg (rendered Wlan.toJson) (parseItems_eq readsOnly_wlan hraw hraw' hitems)
  | portProfile =>
      exact congrArg (rendered PortProfile.toJson)
        (parseItems_eq readsOnly_portProfile hraw hraw' hitems)
  | dhcpReservation =>
      exact congrArg (rendered DhcpReservation.toJson)
        (parseDhcpReservations_eq hraw hraw' hitems)
  | firewallZone =>
      exact congrArg (rendered FirewallZone.toJson)
        (parseBareItems_eq readsOnly_firewallZone hraw hraw' hitems)
  | firewallGroup =>
      exact congrArg (rendered FirewallGroup.toJson)
        (parseItems_eq readsOnly_firewallGroup hraw hraw' hitems)
  | trafficRoute =>
      exact congrArg (rendered TrafficRoute.toJson)
        (parseBareItems_eq readsOnly_trafficRoute hraw hraw' hitems)
  | radiusProfile =>
      exact congrArg (rendered RadiusProfile.toJson)
        (parseItems_eq readsOnly_radiusProfile hraw hraw' hitems)
  | firewallRule =>
      exact congrArg (rendered FirewallRule.toJson)
        (parseItems_eq (readsOnly_firewallRule number) hraw hraw' hitems)
  | portForward =>
      exact congrArg (rendered PortForward.toJson)
        (parseItems_eq readsOnly_portForward hraw hraw' hitems)
  | staticRoute =>
      exact congrArg (rendered Route.toJson) (parseItems_eq readsOnly_route hraw hraw' hitems)

/-! ## Two controllers -/

/-- The request for the collection of a kind. -/
def ReadsCollection (k : ResourceKind) (request : Request) : Prop :=
  request.method = .get ∧ request.template = k.pathTemplate

/-- Two answers to the request for a collection that look the same. -/
def AnswersAlike (k : ResourceKind) (answer answer' : Except HttpError Response) : Prop :=
  answer = answer' ∨ ∃ response response' raw raw', answer = .ok response ∧
    answer' = .ok response' ∧ response.status < 300 ∧ response'.status < 300 ∧
    response.json = .ok raw ∧ response'.json = .ok raw' ∧ CollectionsAlike k raw raw'

/-- Two controllers that differ in what their collections of one kind hold besides the fields
that are allowed. -/
def ControllersAlike (k : ResourceKind) (upstream upstream' : Upstream) : Prop :=
  ∀ request, (ReadsCollection k request → AnswersAlike k (upstream request) (upstream' request)) ∧
    (¬ ReadsCollection k request → upstream request = upstream' request)

/-- Which answers to a question of the client two such controllers may give. -/
def alikeAnswers (k : ResourceKind) : Likeness ClientSig
  | .send request, answer, answer' =>
      (ReadsCollection k request → AnswersAlike k answer answer') ∧
        (¬ ReadsCollection k request → answer = answer')
  | .cachedSiteUuid, answer, answer' => answer = answer'
  | .cacheSiteUuid _, answer, answer' => answer = answer'
  | .cachedVersion, answer, answer' => answer = answer'
  | .cacheVersion _, answer, answer' => answer = answer'

theorem ControllersAlike.answers {k : ResourceKind} {upstream upstream' : Upstream}
    (h : ControllersAlike k upstream upstream') (op : ClientOp) (s : Caches) :
    alikeAnswers k op (clientAnswer upstream op s).1 (clientAnswer upstream' op s).1 ∧
      (clientAnswer upstream op s).2 = (clientAnswer upstream' op s).2 := by
  cases op with
  | send request => exact ⟨h request, rfl⟩
  | cachedSiteUuid | cacheSiteUuid uuid | cachedVersion | cacheVersion version => exact ⟨rfl, rfl⟩

/-- A question that is not for the collection. -/
def ClientOp.NotCollection (k : ResourceKind) : ClientOp → Prop
  | .send request => ¬ ReadsCollection k request
  | _ => True

theorem ClientOp.NotCollection.eq {k : ResourceKind} {op : ClientOp} (h : op.NotCollection k)
    {answer answer' : op.Answer} (halike : alikeAnswers k op answer answer') :
    answer = answer' := by
  cases op with
  | send request => exact halike.2 h
  | cachedSiteUuid | cacheSiteUuid uuid | cachedVersion | cacheVersion version => exact halike

theorem pathTemplate_ne_infoPath (k : ResourceKind) :
    UnifiClient.infoPath ≠ k.pathTemplate := by
  cases k <;> decide

theorem pathTemplate_ne_sitesPath (k : ResourceKind) :
    UnifiClient.sitesPath ≠ k.pathTemplate := by
  cases k <;> decide

theorem ClientOp.IsVersion.notCollection {op : ClientOp} (h : op.IsVersion) (k : ResourceKind) :
    op.NotCollection k := by
  match op, h with
  | .send request, h =>
      exact fun hreads => pathTemplate_ne_infoPath k (h.2.1.symm.trans hreads.2)
  | .cachedVersion, _ | .cacheVersion _, _ => trivial

namespace UnifiClient

variable (c : UnifiClient) (k : ResourceKind)

/-- Finding the site does not read the collection. -/
theorem notCollection_siteOr (site : Option String) (surface : ApiSurface) :
    (c.siteOr site surface).Asks (ClientOp.NotCollection k) := by
  cases site with
  | some site => exact Fallible.asks_pure _
  | none =>
      refine asks_defaultSiteFor_of trivial (fun _ => trivial) ?_
      refine asks_request (fun path hreads => ?_) fun _ hop => hop.notCollection k
      exact pathTemplate_ne_sitesPath k hreads.2

/-- Two answers to a request that are the same, or both JSON below 300 that is related. -/
def ResponsesAlike (Q : Json → Json → Prop) (response response' : Response) : Prop :=
  response = response' ∨ response.status < 300 ∧ response'.status < 300 ∧
    ∃ raw raw', response.json = .ok raw ∧ response'.json = .ok raw' ∧ Q raw raw'

section Get

variable {R : Likeness ClientSig} {Q : Json → Json → Prop} {template : String}
  (hanswers : ∀ request answer answer', request.method = .get → request.template = template →
    R (.send request) answer answer' → answer = answer' ∨ ∃ response response',
      answer = .ok response ∧ answer' = .ok response' ∧ ResponsesAlike Q response response')
  (hversion : ∀ op : ClientOp, op.IsVersion → ∀ answer answer', R op answer answer' →
    answer = answer')

include hanswers in
theorem coupled_send {request : Request} (hmethod : request.method = .get)
    (htemplate : request.template = template) :
    Fallible.Coupled R (ResponsesAlike Q) (send request) (send request) := by
  refine (Fallible.coupled_ask (S := ClientSig) (.send request)).bind
    fun answer answer' halike => ?_
  rcases hanswers request answer answer' hmethod htemplate halike with
    rfl | ⟨response, response', rfl, rfl, hresponses⟩
  · cases answer with
    | ok response => exact Fallible.coupled_pure (.inl rfl)
    | error e => exact .done (Eq.refl (UnifiError.http e))
  · exact Fallible.coupled_pure hresponses

include hanswers hversion in
/-- Where the answers to a GET are related, what it returns is the same or related. -/
theorem coupled_get {surface : ApiSurface} (params query : List (String × String)) :
    Fallible.Coupled R (fun raw raw' => raw = raw' ∨ Q raw raw')
      (c.get surface template params query) (c.get surface template params query) := by
  refine (Fallible.coupled_same _).bind ?_
  rintro _ _ rfl
  refine (Fallible.coupled_same _).bind ?_
  rintro path _ rfl
  refine (coupled_send hanswers rfl rfl).bind ?_
  rintro response response' (rfl | ⟨hstatus, hstatus', raw, raw', hjson, hjson', halike⟩)
  · split_ifs
    · -- An error is looked into by reading the version, which both report alike.
      have hreport := asks_handleErrorResponse c surface path response.status response.text
      exact (Fallible.coupled_of_asks hreport hversion).mono fun _ _ => .inl
    · exact (Fallible.coupled_same _).mono fun _ _ => .inl
  · rw [if_neg (Nat.not_le.2 hstatus), if_neg (Nat.not_le.2 hstatus'), hjson, hjson']
    exact Fallible.coupled_ofExcept (.inr halike)

end Get

variable {k}

/-- What is read of the collection of two such controllers is the same failure, or collections
that look the same. -/
theorem coupled_getCollection {surface : ApiSurface} (params query : List (String × String)) :
    Fallible.Coupled (alikeAnswers k) (fun raw raw' => raw = raw' ∨ CollectionsAlike k raw raw')
      (c.get surface k.pathTemplate params query) (c.get surface k.pathTemplate params query) := by
  refine coupled_get c ?_ (fun op hop _ _ => (hop.notCollection k).eq) params query
  intro request answer answer' hmethod htemplate halike
  rcases halike.1 ⟨hmethod, htemplate⟩ with
    rfl | ⟨response, response', raw, raw', rfl, rfl, hstatus, hstatus', hjson, hjson', hitems⟩
  · exact .inl rfl
  · exact .inr ⟨_, _, rfl, rfl, .inr ⟨hstatus, hstatus', raw, raw', hjson, hjson', hitems⟩⟩

/-- Listing is coupled with itself, up to equal results. -/
theorem coupled_listResources (tools : Toolkit) {args : ListResourcesArgs}
    (hkind : args.kind ≠ .firewallPolicy) :
    Fallible.Coupled (alikeAnswers args.kind) Eq (c.listResources tools args)
      (c.listResources tools args) := by
  refine (Fallible.coupled_same _).bind ?_
  rintro page _ rfl
  have hsite := c.notCollection_siteOr args.kind args.site args.kind.surface
  refine (Fallible.coupled_of_asks hsite fun op hop _ _ => hop.eq).bind ?_
  rintro site _ rfl
  refine (c.coupled_getCollection _ _).bind fun raw raw' halike => ?_
  have hparsed : parseResourceList tools.number args.kind raw =
      parseResourceList tools.number args.kind raw' := by
    rcases halike with rfl | halike
    · rfl
    · exact parseResourceList_eq tools.number hkind halike
  rw [hparsed]
  refine (Fallible.coupled_same _).bind ?_
  rintro parsed _ rfl
  exact Fallible.coupled_pure rfl

end UnifiClient

/-- **Listing hides what is not allowed.**  For every kind but the policies, two controllers
whose collections of that kind hold, item by item, objects that agree on the kind's allowlist
are listed to the same result, or to the same failure. -/
theorem listResources_hides (c : UnifiClient) (tools : Toolkit) (args : ListResourcesArgs)
    (hkind : args.kind ≠ .firewallPolicy) {upstream upstream' : Upstream}
    (halike : ControllersAlike args.kind upstream upstream') (caches : Caches) :
    ((c.listResources tools args).eval upstream caches).1 =
      ((c.listResources tools args).eval upstream' caches).1 :=
  (c.coupled_listResources tools hkind).eval_eq (fun op s => halike.answers op s) caches

/-! ## A passphrase that is not shown -/

/-- A wireless network with its passphrase. -/
def guestWlan (passphrase : String) : Json :=
  .obj [("_id", .str "w1"), ("enabled", .bool true), ("name", .str "guests"),
    ("security", .str "wpapsk"), ("x_passphrase", .str passphrase)]

/-- A controller that has one wireless network, and answers nothing else. -/
def guestUpstream (passphrase : String) : Upstream := fun request =>
  if request.method = .get ∧ request.template = ResourceKind.wlan.pathTemplate then
    .ok ⟨200, "", .ok (.obj [("data", .arr [guestWlan passphrase])])⟩
  else .error .connect

/-- A client that may use the private surfaces. -/
def guestClient : UnifiClient where
  controller :=
    ⟨"https://unifi.example.org", "default", some "UNIFI_API_KEY", none, none, true, false⟩
  expandPath _ _ := .ok "/proxy/network/api/s/default/rest/wlanconf"

theorem agreeOn_guestWlan (passphrase passphrase' : String) :
    AgreeOn (allowedFields .wlan) (guestWlan passphrase) (guestWlan passphrase') := by
  have hascending : ∀ v : Json, Ascending
      [("_id", .str "w1"), ("enabled", .bool true), ("name", .str "guests"),
        ("security", .str "wpapsk"), ("x_passphrase", v)] := by
    intro v
    have hkeys : ["_id", "enabled", "name", "security", "x_passphrase"].Pairwise (· < ·) := by
      decide
    exact List.pairwise_map.1 hkeys
  refine .inr ⟨_, _, rfl, rfl, hascending _, hascending _, ?_⟩
  intro key hkey
  have hhidden : key ≠ "x_passphrase" := fun heq => absurd (heq ▸ hkey) (by decide)
  simp [findEntry_cons, Ne.symm hhidden]

theorem controllersAlike_guest (passphrase passphrase' : String) :
    ControllersAlike .wlan (guestUpstream passphrase) (guestUpstream passphrase') := by
  intro request
  have hok : 200 < 300 := by decide
  constructor
  · intro hreads
    refine .inr ⟨_, _, _, _, if_pos hreads, if_pos hreads, hok, hok, rfl, rfl, ?_⟩
    exact ⟨_, _, rfl, rfl, .cons (agreeOn_guestWlan passphrase passphrase') .nil⟩
  · intro hreads
    exact (if_neg hreads).trans (if_neg hreads).symm

/-- Two passphrases, one listing. -/
theorem listResources_hides_guest :
    ((guestClient.listResources .plain ⟨"main", .wlan, none, none, none⟩).eval
        (guestUpstream "one") ⟨.ok none, .ok none⟩).1 =
      ((guestClient.listResources .plain ⟨"main", .wlan, none, none, none⟩).eval
        (guestUpstream "two") ⟨.ok none, .ok none⟩).1 :=
  listResources_hides guestClient .plain _ (by decide) (controllersAlike_guest "one" "two") _

example : ((guestClient.listResources .plain ⟨"main", .wlan, none, none, none⟩).eval
    (guestUpstream "one") ⟨.ok none, .ok none⟩).1 = .ok (.arr [.obj [("_id", .str "w1"),
      ("enabled", .bool true), ("is_guest", .bool false), ("name", .str "guests"),
      ("security", .str "wpapsk")]]) := rfl

end UnifiMcp
