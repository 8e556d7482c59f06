import UnifiMcp.Client.Request
import UnifiMcp.Collections.Mapped
import UnifiMcp.Collections.SortedMap

/-!
# Reloading the inventory

On SIGHUP the server reads `controllers.json` again and rebuilds the client of every
controller in it.  The inventory registry and the map of clients are two stores: the
first is what the inventory tool lists, the second is what every other tool calls.  A
pass replaces the registry first and the clients second, and the second half gives up at
the first controller whose client cannot be built, keeping the previous clients.

`performSighupReload_holds_iff` says exactly when a pass leaves the two stores with one
configuration: the file did not load, or it says what it said before, or the client of
every controller in it can be built.  In the remaining passes the registry has the new
controllers and the clients are those of the old ones.  Such a pass warns
(`warned_of_disagreement`), and a later one that builds every client repairs it
(`holds_of_allBuild`).
-/

namespace UnifiMcp

open Collections

/-! ## Building the client of one controller -/

/-- What building the client of one controller meets outside: the loaders of the shared
crates, their failures as `UnifiError` has them, the file system and the HTTP client. -/
structure ClientSurroundings where
  redactEndpoint : String → String
  loadFromEnv : String → Except UnifiError String
  loadFromFile : String → Except UnifiError String
  readToString : String → Except String String
  newHttpClient : List String → Except HttpError Unit
  expandPath : String → List (String × String) → Except String String

/-- Check the invariants `serde` cannot express. -/
def Controller.validate (redactEndpoint : String → String) (c : Controller) :
    Except UnifiError Unit :=
  if c.endpoint.startsWith "https://" = false then
    .error (.malformed s!"controller endpoint must be https://, got {redactEndpoint c.endpoint}")
  else
    match c.apiKeyEnv, c.apiKeyFile with
    | some _, some _ =>
        .error (.malformed
          "controller names both api_key_env and api_key_file; name exactly one")
    | none, none =>
        .error (.malformed "controller names neither api_key_env nor api_key_file")
    | _, _ => .ok ()

/-- Load the API key of a controller. -/
def Controller.loadApiKey (o : ClientSurroundings) (c : Controller) :
    Except UnifiError String := do
  c.validate o.redactEndpoint
  match c.apiKeyEnv with
  | some var => o.loadFromEnv var
  | none =>
      match c.apiKeyFile with
      | some path => o.loadFromFile path
      | none => .error (.malformed "no api key source")

/-- Read the trust anchor a controller names. -/
def Controller.rootCertificates (o : ClientSurroundings) (c : Controller) :
    Except UnifiError (List String) :=
  match c.caPemPath with
  | none => .ok []
  | some path =>
      match o.readToString path with
      | .ok pem => .ok [pem]
      | .error error => .error (.malformed s!"ca_pem_path {path}: {error}")

/-- Build a client for one controller, loading its credential. -/
def UnifiClient.new (o : ClientSurroundings) (c : Controller) :
    Except UnifiError UnifiClient := do
  c.validate o.redactEndpoint
  let _apiKey ← c.loadApiKey o
  let extraRootCertificates ← c.rootCertificates o
  match o.newHttpClient extraRootCertificates with
  | .ok () => .ok ⟨c, o.expandPath⟩
  | .error error => .error (.http error)

/-- The client of a controller can be built: it is reached over HTTPS, names one source
of its key, and the key, the trust anchor and the HTTP client are to be had. -/
structure Controller.Buildable (o : ClientSurroundings) (c : Controller) : Prop where
  https : c.endpoint.startsWith "https://" = true
  oneKeySource : c.apiKeyEnv.isSome ≠ c.apiKeyFile.isSome
  keyFromEnv : ∀ var, c.apiKeyEnv = some var → ∃ key, o.loadFromEnv var = .ok key
  keyFromFile : ∀ path, c.apiKeyFile = some path → ∃ key, o.loadFromFile path = .ok key
  roots : ∃ pems, c.rootCertificates o = .ok pems ∧ o.newHttpClient pems = .ok ()

theorem Controller.validate_eq_ok {redactEndpoint : String → String} {c : Controller} :
    c.validate redactEndpoint = .ok () ↔
      c.endpoint.startsWith "https://" = true ∧ c.apiKeyEnv.isSome ≠ c.apiKeyFile.isSome := by
  unfold validate
  cases c.endpoint.startsWith "https://" with
  | false => simp
  | true => cases c.apiKeyEnv <;> cases c.apiKeyFile <;> simp

/-- The key is loaded from the source a valid controller names. -/
theorem Controller.exists_loadApiKey_eq_ok {o : ClientSurroundings} {c : Controller}
    (hvalid : c.validate o.redactEndpoint = .ok ()) :
    (∃ key, c.loadApiKey o = .ok key) ↔
      (∀ var, c.apiKeyEnv = some var → ∃ key, o.loadFromEnv var = .ok key) ∧
        ∀ path, c.apiKeyFile = some path → ∃ key, o.loadFromFile path = .ok key := by
  have hone := (Controller.validate_eq_ok.1 hvalid).2
  simp only [loadApiKey, bind_eq_ok, hvalid]
  cases henv : c.apiKeyEnv with
  | some var =>
      have hfile : c.apiKeyFile = none := by simpa [henv] using hone
      simp [hfile]
  | none =>
      obtain ⟨path, hfile⟩ : ∃ path, c.apiKeyFile = some path := by
        simpa [henv, Option.ne_none_iff_exists'] using hone
      simp [hfile]

/-- The client of a controller is built exactly when it can be. -/
theorem UnifiClient.new_eq_ok {o : ClientSurroundings} {c : Controller}
    {client : UnifiClient} :
    UnifiClient.new o c = .ok client ↔ c.Buildable o ∧ client = ⟨c, o.expandPath⟩ := by
  have hhttp : ∀ pems, (match o.newHttpClient pems with
      | .ok () => (.ok ⟨c, o.expandPath⟩ : Except UnifiError UnifiClient)
      | .error error => .error (.http error)) = .ok client ↔
        o.newHttpClient pems = .ok () ∧ client = ⟨c, o.expandPath⟩ := by
    intro pems
    cases o.newHttpClient pems with
    | ok _ => simp [eq_comm]
    | error error => simp
  simp only [UnifiClient.new, bind_eq_ok, hhttp]
  constructor
  · rintro ⟨_, hvalid, key, hkey, pems, hpems, hnew, rfl⟩
    obtain ⟨hhttps, hone⟩ := Controller.validate_eq_ok.1 hvalid
    obtain ⟨henv, hfile⟩ := (Controller.exists_loadApiKey_eq_ok hvalid).1 ⟨key, hkey⟩
    exact ⟨⟨hhttps, hone, henv, hfile, pems, hpems, hnew⟩, rfl⟩
  · rintro ⟨h, rfl⟩
    have hvalid : c.validate o.redactEndpoint = .ok () :=
      Controller.validate_eq_ok.2 ⟨h.https, h.oneKeySource⟩
    obtain ⟨key, hkey⟩ :=
      (Controller.exists_loadApiKey_eq_ok hvalid).2 ⟨h.keyFromEnv, h.keyFromFile⟩
    obtain ⟨pems, hpems, hnew⟩ := h.roots
    exact ⟨(), hvalid, key, hkey, pems, hpems, hnew, rfl⟩

/-! ## The registry and the clients -/

/-- The clients of the server, behind a lock that a panic would have poisoned. -/
structure ServerClients where
  clients : SortedMap String UnifiClient
  poisoned : Bool

/-- The two stores a process keeps of its configuration. -/
structure Running where
  registry : SortedMap String Controller
  server : Option ServerClients

/-- The controllers the clients were built for. -/
def settings (clients : SortedMap String UnifiClient) : List (String × Controller) :=
  clients.entries.map fun e => (e.1, e.2.controller)

/-- Both stores hold one configuration. -/
def Running.Holds (s : Running) (configuration : List (String × Controller)) : Prop :=
  s.registry.entries = configuration ∧
    ∀ server, s.server = some server → settings server.clients = configuration

/-- The registry and the clients name the same controllers with the same settings. -/
def Running.Agrees (s : Running) : Prop := s.Holds s.registry.entries

theorem Running.Holds.agrees {s : Running} {configuration : List (String × Controller)}
    (h : s.Holds configuration) : s.Agrees :=
  ⟨rfl, fun server hserver => (h.2 server hserver).trans h.1.symm⟩

/-- Build the clients of the controllers with these names. -/
def buildClientsOf (surroundings : String → ClientSurroundings)
    (registry : SortedMap String Controller) :
    List String → SortedMap String UnifiClient →
      Except UnifiError (SortedMap String UnifiClient)
  | [], clients => .ok clients
  | name :: names, clients =>
      match registry.get? name with
      | none => .error (.malformed s!"unknown controller: {name}")
      | some controller => do
          let client ← UnifiClient.new (surroundings name) controller
          buildClientsOf surroundings registry names (clients.insert name client)

/-- Build HTTP clients for all controllers in the registry. -/
def buildClients (surroundings : String → ClientSurroundings)
    (registry : SortedMap String Controller) : Except UnifiError (SortedMap String UnifiClient) :=
  buildClientsOf surroundings registry (registry.entries.map Prod.fst) .empty

/-- Rebuild all clients from the current registry; on error the previous ones stay. -/
def ServerClients.rebuildClients (surroundings : String → ClientSurroundings)
    (registry : SortedMap String Controller) (server : ServerClients) :
    Except UnifiError (Nat × ServerClients) := do
  let newClients ← buildClients surroundings registry
  if server.poisoned then .error (.malformed "clients lock poisoned")
  else .ok (newClients.entries.length, { server with clients := newClients })

section Building

variable {surroundings : String → ClientSurroundings} {registry : SortedMap String Controller}
  {clients built : SortedMap String UnifiClient} {names : List String}

/-- All clients are built when each of them can be. -/
theorem exists_buildClientsOf_eq_ok :
    (∃ built, buildClientsOf surroundings registry names clients = .ok built) ↔
      ∀ name ∈ names, ∃ c, registry.get? name = some c ∧ c.Buildable (surroundings name) := by
  induction names generalizing clients with
  | nil => simp [buildClientsOf]
  | cons name names ih =>
      rw [List.forall_mem_cons, buildClientsOf]
      cases hget : registry.get? name with
      | none => simp
      | some c =>
          simp only [bind_eq_ok, UnifiClient.new_eq_ok]
          constructor
          · rintro ⟨built, client, ⟨hc, -⟩, hbuilt⟩
            exact ⟨⟨c, rfl, hc⟩, ih.1 ⟨built, hbuilt⟩⟩
          · rintro ⟨⟨_, ⟨⟩, hc⟩, hrest⟩
            obtain ⟨built, hbuilt⟩ := ih.2 hrest
            exact ⟨built, _, ⟨hc, rfl⟩, hbuilt⟩

/-- A client that was built is that of the controller with its name. -/
theorem controller_of_buildClientsOf
    (h : buildClientsOf surroundings registry names clients = .ok built) (key : String) :
    (built.get? key).map (·.controller) =
      if key ∈ names then registry.get? key else (clients.get? key).map (·.controller) := by
  induction names generalizing clients with
  | nil => cases h; simp
  | cons name names ih =>
      rw [buildClientsOf] at h
      cases hget : registry.get? name with
      | none => simp [hget] at h
      | some c =>
          simp only [hget, bind_eq_ok, UnifiClient.new_eq_ok] at h
          obtain ⟨_, ⟨-, rfl⟩, hrest⟩ := h
          rw [ih hrest]
          by_cases hkey : key = name
          · subst hkey
            simp [hget]
          · simp [hkey, SortedMap.get?_insert_of_ne _ hkey]

theorem ascending_settings (clients : SortedMap String UnifiClient) :
    Ascending (settings clients) := by
  unfold settings Ascending
  rw [List.pairwise_map]
  exact clients.ascending

theorem findEntry_settings (key : String) (clients : SortedMap String UnifiClient) :
    findEntry key (settings clients) = (clients.get? key).map (·.controller) := by
  obtain ⟨entries, hasc⟩ := clients
  unfold settings SortedMap.get?
  induction entries with
  | nil => rfl
  | cons e rest ih =>
      obtain ⟨k, client⟩ := e
      simp only [List.map_cons, findEntry_cons, ih (List.Pairwise.of_cons hasc)]
      split_ifs <;> rfl

/-- The clients that are built are those of the controllers in the registry. -/
theorem settings_of_buildClients (h : buildClients surroundings registry = .ok built) :
    settings built = registry.entries := by
  refine Ascending.ext (ascending_settings built) registry.ascending fun key => ?_
  rw [findEntry_settings, controller_of_buildClientsOf h]
  split_ifs with hmem
  · rfl
  · rw [SortedMap.get?_empty, Option.map_none, eq_comm, Option.eq_none_iff_forall_not_mem]
    intro c hc
    exact hmem (List.mem_map_of_mem (SortedMap.get?_eq_some.1 hc))

/-- The clients of a registry are built when each of them can be. -/
theorem exists_buildClients_eq_ok :
    (∃ built, buildClients surroundings registry = .ok built) ↔
      ∀ e ∈ registry.entries, e.2.Buildable (surroundings e.1) := by
  unfold buildClients
  rw [exists_buildClientsOf_eq_ok, List.forall_mem_map]
  refine forall₂_congr fun e he => ?_
  have hget : registry.get? e.1 = some e.2 := SortedMap.get?_eq_some.2 he
  simp [hget]

end Building

/-! ## A reload pass -/

/-- What a pass reports. -/
inductive ReloadLine where
  | inventoryReloaded (controllers : Nat)
  | inventoryRetained (error : String)
  | clientsRebuilt (clients : Nat)
  | clientsRetained (error : String)
  | tokensReloaded (tokens : Nat)
  | tokensRetained (error : String)
  | auditReopened (path : String)
  | auditReopenFailed (error path : String)
  deriving DecidableEq, Repr

/-- The text of a line. -/
def ReloadLine.message : ReloadLine → String
  | .inventoryReloaded _ => "controller inventory reloaded"
  | .inventoryRetained _ => "controller inventory reload failed; retaining previous snapshot"
  | .clientsRebuilt _ => "HTTP clients rebuilt from reloaded inventory"
  | .clientsRetained _ => "client rebuild failed; retaining previous clients"
  | .tokensReloaded _ => "token store reloaded"
  | .tokensRetained _ => "token store reload failed; retaining previous snapshot"
  | .auditReopened _ => "audit file reopened"
  | .auditReopenFailed _ _ => "audit file reopen failed"

/-- What a pass meets: the controllers in the file or why it does not load, what building
the client of each controller meets, and how the token store and the audit file reload
where the process has them. -/
structure ReloadPass where
  inventory : Except String (SortedMap String Controller)
  surroundings : String → ClientSurroundings
  tokenStore : Option (Except String Nat)
  audit : Option (String × Except String Unit)

namespace ReloadPass

variable (pass : ReloadPass)

/-- Read the file again; the previous contents stay when it does not load. -/
def reloadRegistry (registry : SortedMap String Controller) :
    Except String Nat × SortedMap String Controller :=
  match pass.inventory with
  | .ok controllers => (.ok controllers.entries.length, controllers)
  | .error error => (.error error, registry)

/-- Reload the token store, where there is one. -/
def reloadTokens : List ReloadLine :=
  match pass.tokenStore with
  | none => []
  | some (.ok count) => [.tokensReloaded count]
  | some (.error error) => [.tokensRetained error]

/-- Reopen the audit file, where there is one. -/
def reopenAudit : List ReloadLine :=
  match pass.audit with
  | none => []
  | some (path, .ok ()) => [.auditReopened path]
  | some (path, .error error) => [.auditReopenFailed error path]

/-- Rebuild the clients of the server, where there is one. -/
def rebuild (s : Running) : Running × List ReloadLine :=
  match s.server with
  | none => (s, [])
  | some server =>
      match server.rebuildClients pass.surroundings s.registry with
      | .ok (count, server') => ({ s with server := some server' }, [.clientsRebuilt count])
      | .error error => (s, [.clientsRetained error.toString])

/-- One pass: reload the inventory, rebuild the clients on success, reload the token
store and reopen the audit file. -/
def performSighupReload (s : Running) : Running × List ReloadLine :=
  let (reloaded, registry) := pass.reloadRegistry s.registry
  let s := { s with registry := registry }
  let (s, lines) :=
    match reloaded with
    | .ok count =>
        let (s, lines) := pass.rebuild s
        (s, .inventoryReloaded count :: lines)
    | .error error => (s, [.inventoryRetained error])
  (s, lines ++ pass.reloadTokens ++ pass.reopenAudit)

/-- Every client the pass has to build can be built, and its place can be written. -/
def AllBuild (controllers : SortedMap String Controller) (server : ServerClients) : Prop :=
  server.poisoned = false ∧ ∀ e ∈ controllers.entries, e.2.Buildable (pass.surroundings e.1)

/-- The pass does no harm: whenever the file loads and says something new, every client
can be built. -/
def Harmless (s : Running) : Prop :=
  ∀ controllers, pass.inventory = .ok controllers → controllers.entries ≠ s.registry.entries →
    ∀ server, s.server = some server → pass.AllBuild controllers server

variable {pass} {s : Running} {controllers : SortedMap String Controller}
  {server : ServerClients}

theorem rebuildClients_eq_ok {registry : SortedMap String Controller}
    {out : Nat × ServerClients} :
    server.rebuildClients pass.surroundings registry = .ok out ↔
      server.poisoned = false ∧ ∃ built, buildClients pass.surroundings registry = .ok built ∧
        out = (built.entries.length, { server with clients := built }) := by
  simp only [ServerClients.rebuildClients, bind_eq_ok]
  cases server.poisoned with
  | true => simp
  | false => simp [eq_comm]

/-- A file that does not load leaves both stores as they were. -/
theorem performSighupReload_of_error {error : String} (h : pass.inventory = .error error) :
    (pass.performSighupReload s).1 = s := by
  simp [performSighupReload, reloadRegistry, h]

/-- Without a server only the registry follows the file. -/
theorem performSighupReload_of_none (h : pass.inventory = .ok controllers)
    (hserver : s.server = none) :
    (pass.performSighupReload s).1 = { s with registry := controllers } := by
  simp [performSighupReload, reloadRegistry, rebuild, h, hserver]

/-- A file that loads goes to the registry; the clients follow it when they all can be
built, and stay otherwise. -/
theorem performSighupReload_of_some (h : pass.inventory = .ok controllers)
    (hserver : s.server = some server) :
    (∃ built, settings built = controllers.entries ∧ pass.AllBuild controllers server ∧
        (pass.performSighupReload s).1 =
          ⟨controllers, some { server with clients := built }⟩) ∨
      ¬ pass.AllBuild controllers server ∧
        (pass.performSighupReload s).1 = ⟨controllers, some server⟩ ∧
        ∃ error, .clientsRetained error ∈ (pass.performSighupReload s).2 := by
  cases hrebuild : server.rebuildClients pass.surroundings controllers with
  | ok out =>
      obtain ⟨hfree, built, hbuilt, rfl⟩ := rebuildClients_eq_ok.1 hrebuild
      refine .inl ⟨built, settings_of_buildClients hbuilt, ⟨hfree, ?_⟩, ?_⟩
      · exact exists_buildClients_eq_ok.1 ⟨built, hbuilt⟩
      · simp [performSighupReload, reloadRegistry, rebuild, h, hserver, hrebuild]
  | error error =>
      refine .inr ⟨?_, ?_, error.toString, ?_⟩
      · rintro ⟨hfree, hall⟩
        obtain ⟨built, hbuilt⟩ := exists_buildClients_eq_ok.2 hall
        have hok : server.rebuildClients pass.surroundings controllers = _ :=
          rebuildClients_eq_ok.2 ⟨hfree, built, hbuilt, rfl⟩
        rw [hrebuild] at hok
        exact nomatch hok
      · simp [performSighupReload, reloadRegistry, rebuild, h, hserver, hrebuild]
      · simp [performSighupReload, reloadRegistry, rebuild, h, hserver, hrebuild]

/-- Both stores hold what the file says when every client is built, or is already that of
the controller in the file. -/
theorem holds_of_loaded (h : pass.inventory = .ok controllers)
    (hclients : ∀ server, s.server = some server →
      pass.AllBuild controllers server ∨ settings server.clients = controllers.entries) :
    (pass.performSighupReload s).1.Holds controllers.entries := by
  cases hserver : s.server with
  | none =>
      rw [performSighupReload_of_none h hserver]
      exact ⟨rfl, fun server hsome => by simp [hserver] at hsome⟩
  | some server =>
      rcases performSighupReload_of_some h hserver with ⟨built, hbuilt, -, hs⟩ | ⟨hnot, hs, -⟩
      · rw [hs]
        exact ⟨rfl, fun _ hsome => by cases hsome; exact hbuilt⟩
      · have hsame := (hclients server hserver).resolve_left hnot
        rw [hs]
        exact ⟨rfl, fun _ hsome => by cases hsome; exact hsame⟩

/-- A pass that builds every client leaves both stores with what the file says, whatever
they held before. -/
theorem holds_of_allBuild (h : pass.inventory = .ok controllers)
    (hall : ∀ server, s.server = some server → pass.AllBuild controllers server) :
    (pass.performSighupReload s).1.Holds controllers.entries :=
  holds_of_loaded h fun server hserver => .inl (hall server hserver)

/-- A harmless pass leaves both stores with one configuration, the previous or that of
the file. -/
theorem holds_of_harmless (h : s.Agrees) (hharmless : pass.Harmless s) :
    (pass.performSighupReload s).1.Holds s.registry.entries ∨
      ∃ controllers, pass.inventory = .ok controllers ∧
        (pass.performSighupReload s).1.Holds controllers.entries := by
  cases hfile : pass.inventory with
  | error error =>
      rw [performSighupReload_of_error hfile]
      exact .inl h
  | ok controllers =>
      refine .inr ⟨controllers, rfl, holds_of_loaded hfile fun server hserver => ?_⟩
      by_cases hnew : controllers.entries = s.registry.entries
      · exact .inr ((h.2 server hserver).trans hnew.symm)
      · exact .inl (hharmless controllers hfile hnew server hserver)

theorem agrees_of_harmless (h : s.Agrees) (hharmless : pass.Harmless s) :
    (pass.performSighupReload s).1.Agrees := by
  rcases holds_of_harmless h hharmless with hholds | ⟨controllers, -, hholds⟩
  · exact hholds.agrees
  · exact hholds.agrees

/-- A pass that starts from one configuration in both stores ends with one, the previous
or that of the file, exactly when it is harmless. -/
theorem performSighupReload_holds_iff (h : s.Agrees) :
    ((pass.performSighupReload s).1.Holds s.registry.entries ∨
        ∃ controllers, pass.inventory = .ok controllers ∧
          (pass.performSighupReload s).1.Holds controllers.entries) ↔
      pass.Harmless s := by
  refine ⟨?_, holds_of_harmless h⟩
  intro hholds controllers hfile hnew server hserver
  rcases performSighupReload_of_some hfile hserver with ⟨_, -, hall, -⟩ | ⟨-, hs, -⟩
  · exact hall
  · -- the registry has the new controllers, the clients are those of the old ones
    have hold := h.2 server hserver
    rw [hs] at hholds
    rcases hholds with hholds | ⟨controllers', hload, hholds⟩
    · exact absurd hholds.1 hnew
    · obtain rfl : controllers = controllers' := Except.ok.inj (hfile.symm.trans hload)
      exact absurd ((hholds.2 server rfl).symm.trans hold) hnew

/-- A pass after which the stores disagree has said so. -/
theorem warned_of_disagreement (h : s.Agrees)
    (hnot : ¬ (pass.performSighupReload s).1.Agrees) :
    ∃ error, .clientsRetained error ∈ (pass.performSighupReload s).2 := by
  have hharm : ¬ pass.Harmless s := fun hharmless => hnot (agrees_of_harmless h hharmless)
  simp only [Harmless, not_forall] at hharm
  obtain ⟨controllers, hfile, -, server, hserver, hnotall⟩ := hharm
  rcases performSighupReload_of_some hfile hserver with ⟨_, -, hall, -⟩ | ⟨-, -, hwarned⟩
  · exact absurd hall hnotall
  · exact hwarned

end ReloadPass

/-! ## A second controller -/

/-- A controller whose key is in an environment variable. -/
def mainController : Controller :=
  ⟨"https://unifi.example.org", "default", some "UNIFI_API_KEY", none, none, false, false⟩

/-- A controller whose key is in a file. -/
def branchController : Controller :=
  ⟨"https://branch.example.org", "default", none, some "/etc/unifimcp/branch.key", none,
    false, false⟩

/-- The file that names them both. -/
def twoControllers : SortedMap String Controller :=
  (SortedMap.empty.insert "main" mainController).insert "branch" branchController

theorem entries_twoControllers :
    twoControllers.entries = [("branch", branchController), ("main", mainController)] := by
  decide +kernel

/-- The variable is set; of the key files there is what is given. -/
def keysWith (loadFromFile : String → Except UnifiError String) : ClientSurroundings where
  redactEndpoint endpoint := endpoint
  loadFromEnv _ := .ok "key"
  loadFromFile := loadFromFile
  readToString _ := .error "No such file or directory"
  newHttpClient _ := .ok ()
  expandPath _ _ := .error "unknown parameters"

/-- A process with one controller. -/
def oneRunning : Running :=
  ⟨SortedMap.empty.insert "main" mainController,
    some ⟨SortedMap.empty.insert "main" ⟨mainController, fun _ _ => .error "unknown parameters"⟩,
      false⟩⟩

/-- A pass after a second controller was put into the file. -/
def secondController (loadFromFile : String → Except UnifiError String) : ReloadPass where
  inventory := .ok twoControllers
  surroundings _ := keysWith loadFromFile
  tokenStore := none
  audit := none

theorem oneRunning_agrees : oneRunning.Agrees := ⟨rfl, fun _ hsome => by cases hsome; rfl⟩

theorem mainController_buildable (loadFromFile : String → Except UnifiError String) :
    mainController.Buildable (keysWith loadFromFile) :=
  ⟨by decide +kernel, by decide, fun _ _ => ⟨_, rfl⟩, nofun, [], rfl, rfl⟩

/-- With the key of the second controller in place both stores come to hold the two. -/
theorem performSighupReload_holds_secondController :
    ((secondController fun _ => .ok "key").performSighupReload oneRunning).1.Holds
        oneRunning.registry.entries ∨
      ∃ controllers, (secondController fun _ => .ok "key").inventory = .ok controllers ∧
        ((secondController fun _ => .ok "key").performSighupReload oneRunning).1.Holds
          controllers.entries := by
  refine (ReloadPass.performSighupReload_holds_iff oneRunning_agrees).2 ?_
  intro controllers hfile _ server hserver
  cases hfile
  cases hserver
  refine ⟨rfl, fun e he => ?_⟩
  have hmem : e = ("branch", branchController) ∨ e = ("main", mainController) := by
    simpa [entries_twoControllers] using he
  rcases hmem with rfl | rfl
  · exact ⟨by decide +kernel, by decide, nofun, fun _ _ => ⟨_, rfl⟩, [], rfl, rfl⟩
  · exact mainController_buildable _

/-- Without it the registry lists both controllers and there is a client for one. -/
theorem performSighupReload_half :
    oneRunning.Agrees ∧
      ¬ (((secondController fun _ => .error (.secret "no such file")).performSighupReload
            oneRunning).1.Holds oneRunning.registry.entries ∨
        ∃ controllers,
          (secondController fun _ => .error (.secret "no such file")).inventory =
              .ok controllers ∧
            ((secondController fun _ => .error (.secret "no such file")).performSighupReload
              oneRunning).1.Holds controllers.entries) := by
  refine ⟨oneRunning_agrees, ?_⟩
  have hone : oneRunning.registry.entries = [("main", mainController)] := by decide +kernel
  have hserver : oneRunning.server = _ := rfl
  have hinventory :
      (secondController fun _ => .error (.secret "no such file")).inventory = .ok _ := rfl
  rcases ReloadPass.performSighupReload_of_some hinventory hserver with
    ⟨_, -, hall, -⟩ | ⟨-, hs, -⟩
  · have hbranch := hall.2 ("branch", branchController) (by simp [entries_twoControllers])
    obtain ⟨key, hkey⟩ := hbranch.keyFromFile _ rfl
    exact nomatch hkey
  · rw [hs]
    rintro (h | ⟨controllers, hfile, h⟩)
    · have hsame : twoControllers.entries = oneRunning.registry.entries := h.1
      simp [entries_twoControllers, hone] at hsame
    · cases hfile
      have hsame : [("main", mainController)] = twoControllers.entries := h.2 _ rfl
      simp [entries_twoControllers] at hsame

/-! ## The life of a process -/

/-- The stores of a process that starts: the server builds the clients of its registry. -/
def Running.start (surroundings : String → ClientSurroundings)
    (registry : SortedMap String Controller) : Except UnifiError Running := do
  let clients ← buildClients surroundings registry
  .ok ⟨registry, some ⟨clients, false⟩⟩

/-- The stores after some passes. -/
def Running.after (s : Running) : List ReloadPass → Running
  | [] => s
  | pass :: passes => (pass.performSighupReload s).1.after passes

/-- Every pass of a run is harmless where it starts. -/
def HarmlessRun : Running → List ReloadPass → Prop
  | _, [] => True
  | s, pass :: passes => pass.Harmless s ∧ HarmlessRun (pass.performSighupReload s).1 passes

theorem agrees_start {surroundings : String → ClientSurroundings}
    {registry : SortedMap String Controller} {s : Running}
    (h : Running.start surroundings registry = .ok s) : s.Agrees := by
  obtain ⟨clients, hbuilt, h⟩ := bind_eq_ok.1 h
  cases h
  exact ⟨rfl, fun _ hsome => by cases hsome; exact settings_of_buildClients hbuilt⟩

/-- Over the life of a process whose passes are harmless the two stores agree. -/
theorem agrees_after {s : Running} {passes : List ReloadPass} (h : s.Agrees)
    (hrun : HarmlessRun s passes) : (s.after passes).Agrees := by
  induction passes generalizing s with
  | nil => exact h
  | cons pass passes ih => exact ih (ReloadPass.agrees_of_harmless h hrun.1) hrun.2

end UnifiMcp
