import UnifiMcp.Server.Lookups
import UnifiMcp.Server.PlanExecution

/-!
# A controller that has not opted into the private surfaces

The gate in front of a request looks at the surface that the call site names and not at the
path that is sent.  `requests_on_integration` is what comes of it over whole runs: through the
client of a controller with `allow_private_api` off, no call of any tool sends a request whose
path is not below the root of the Integration API.
-/

namespace UnifiMcp

open Interaction Collections Paths

variable {server : UnifiServer} {kit : ReadKit}

/-- **Without the private surfaces every request goes to the Integration API**, in every run of
any calls and whatever is answered: the request of a call to a controller was sent through the
client that the call had looked up, and if the configuration of this client leaves
`allow_private_api` off, then its path is below the root. -/
theorem requests_on_integration {σ : Type} {step : σ → Event ServerSig → σ → Prop} {init : σ}
    {p : Pool ServerSig σ ServerCall} (h : p.Reachable (server.handleCall kit) step init)
    {i : Nat} {controller : String} {request : Request} {answer : Except HttpError Response}
    (hmem : (i, clientEvent controller (sendEvent request answer)) ∈ p.log) :
    (∃ client, LooksUp (ownEvents p.log i) controller client) ∧
      ∀ client, LooksUp (ownEvents p.log i) controller client →
        client.controller.allowPrivateApi = false → KeepsSegments client.expandPath →
        request.base = client.baseUrl ∧
          Under "/proxy/network/integration/v1" request.path := by
  obtain ⟨k, hk⟩ := h.started hmem
  have hlookups : OneLookup ClientOp.SentBy (ownEvents p.log i) :=
    lookupsOnce_handleCall k _ (h.begins hk)
  obtain ⟨client, hfound, hunique, hsent⟩ := hlookups.asked (mem_ownEvents.2 hmem)
  refine ⟨⟨client, hfound⟩, ?_⟩
  intro client' hfound' hoff hexpand
  obtain rfl := hunique client' hfound'
  have hsends : client'.Sends request := hsent
  exact ⟨hsends.base, hsends.under_integration hoff hexpand⟩

/-! ## A run -/

/-- The client of a controller with the private surfaces off. -/
def supportedClient : UnifiClient where
  controller :=
    ⟨"https://unifi.example.org", "default", some "UNIFI_API_KEY", none, none, false, false⟩
  expandPath := fillTemplate

/-- A controller without sites. -/
def noSites : Response := ⟨200, "[]", .ok (.arr [])⟩

/-- It answers every request alike. -/
def noSitesReply : (op : ClientOp) → op.Answer
  | .send _ => .ok noSites
  | .cachedSiteUuid | .cachedVersion => .ok none
  | .cacheSiteUuid _ | .cacheVersion _ => .ok ()

/-- The pool after a call that lists the sites. -/
def listSitesPool : Pool ServerSig (ServerWorld MemoryStore.coordinator) ServerCall :=
  runCall (plainServer.handleCall .plain) (oneController supportedClient noSitesReply)
    ⟨emptyWorld, [], []⟩ (.read (humanWith "alice" "unifi_list_sites" none) (.listSites ⟨"main"⟩))

/-- The request it sent. -/
def listSitesRequest : Request :=
  UnifiClient.requestOf supportedClient .get UnifiClient.sitesPath [] [] none
    "/proxy/network/integration/v1/sites"

theorem requests_on_integration_listSites :
    Under "/proxy/network/integration/v1" listSitesRequest.path := by
  have hreachable : listSitesPool.Reachable (plainServer.handleCall .plain)
      (ServerStep MemoryStore.coordinator) emptyWorld := reachable_runCall .init _ rfl
  have hlookup : LooksUp (ownEvents listSitesPool.log 0) "main" supportedClient :=
    ⟨clientForEvent "main" supportedClient, List.mem_of_getElem? (i := 0) rfl, rfl⟩
  have hsent : (0, clientEvent "main" (sendEvent listSitesRequest (.ok noSites))) ∈
      listSitesPool.log := List.mem_of_getElem? (i := 1) rfl
  exact ((requests_on_integration hreachable hsent).2 _ hlookup rfl keepsSegments_fillTemplate).2

end UnifiMcp
