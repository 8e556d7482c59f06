import UnifiMcp.Changeset.Diff
import UnifiMcp.Changeset.Validate
import UnifiMcp.Server.Actions
import UnifiMcp.Tools.Read
import UnifiMcp.Tools.Resources

/-!
# The other tools

The handlers of the tools that change nothing: those that read resources, statistics and
reports, the administration tools, and `unifi_diff_change_set`, `unifi_validate_change_set` and
`unifi_get_change_set`.  `ServerCall` puts them beside the change-set tools and the action
tools; these are all the tools there are.
-/

namespace UnifiMcp

open Interaction Collections

/-- What the tools that read take from outside the repository. -/
structure ReadKit extends Toolkit where
  /-- `serde_json::from_str`; none for a text that is not JSON. -/
  fromStr : String → Option Json

/-- A kit for concrete runs, which reads no text as JSON. -/
def ReadKit.plain : ReadKit where
  toToolkit := .plain
  fromStr _ := none

/-- Arguments of `unifi_diff_change_set`. -/
structure DiffChangeSetArgs where
  controller : String
  changeSetId : String

/-- Arguments of `unifi_validate_change_set`. -/
structure ValidateChangeSetArgs where
  controller : String
  changeSetId : String

/-- Arguments of `unifi_get_change_set`. -/
structure GetChangeSetArgs where
  controller : String
  changeSetId : String

/-! ## Administration -/

/-- Every tool this server registers. -/
def toolNames : List String :=
  ["unifi_list_resources", "unifi_get_resource", "unifi_query_stats", "unifi_search",
    "unifi_list_sites", "unifi_list_controllers", "unifi_add_controller", "unifimcp_status",
    "unifi_device_action", "unifi_client_action", "unifi_backup_action",
    "unifi_site_health_report", "unifi_topology_report", "unifi_traffic_flow_report",
    "unifi_client_troubleshoot", "unifi_create_change_set", "unifi_stage_change",
    "unifi_diff_change_set", "unifi_validate_change_set", "unifi_approve_change_set",
    "unifi_apply_change_set", "unifi_get_change_set"]

/-- The mutating tools, as `authorize_call` is told. -/
def writeTools : List String :=
  ["unifi_add_controller", "unifi_device_action", "unifi_client_action", "unifi_backup_action",
    "unifi_create_change_set", "unifi_stage_change", "unifi_diff_change_set",
    "unifi_validate_change_set", "unifi_approve_change_set", "unifi_apply_change_set",
    "unifi_get_change_set"]

/-- The version of this server. -/
def serverVersion : String := "0.4.0"

/-- The pinned version of the shared crates. -/
def mecmcpVersion : String := "0.26.0"

/-- A view of one controller that does not disclose where the credential lives. -/
def redactedControllerView (name : String) (controller : Controller) : Json :=
  .obj
    [("allow_cloud", .bool controller.allowCloud),
      ("allow_private_api", .bool controller.allowPrivateApi),
      ("endpoint", .str controller.endpoint), ("name", .str name),
      ("reachable", .str "unknown"), ("site", .str controller.site)]

/-- What the status tool says of one controller. -/
def statusOf (name : String) : Except UnifiError String → Json
  | .ok version =>
      .obj [("controller_version", .str version), ("name", .str name), ("reachable", .bool true)]
  | .error e =>
      .obj [("error", .str e.toString), ("name", .str name), ("reachable", .bool false)]

/-- Fetch the controller version. -/
def UnifiClient.controllerVersion (c : UnifiClient) : ClientM String := c.fetchVersionIfAbsent

/-- Why a controller cannot be added. -/
def addControllerRefused : String :=
  "add_controller is not supported; the service runs with a read-only /etc/unifimcp. " ++
    "Edit /etc/unifimcp/controllers.json as root, then " ++
    "systemctl kill -s HUP rustunifimcp.service"

namespace UnifiServer

variable (server : UnifiServer)

/-- Refuse a call of a tool that names no controller. -/
def authorizeTool (caller : Option CallerCtx) (tool : String) : ServerM Unit :=
  Fallible.ofExcept (server.mecmcp.authorizeCall caller tool none)

/-- The views of the controllers in the inventory. -/
def controllerViews : List String → ServerM (List Json)
  | [] => pure []
  | name :: rest => do
      match ← ServerM.ask (.controllerNamed name) with
      | none => throw (UnifiError.malformed s!"unknown controller: {name}").toString
      | some controller =>
          let views ← controllerViews rest
          pure (redactedControllerView name controller :: views)

/-- `unifi_list_controllers`. -/
def unifiListControllers (caller : Option CallerCtx) : ServerM Json := do
  server.authorizeTool caller "unifi_list_controllers"
  let names ← ServerM.ask .controllerNames
  let controllers ← controllerViews names
  pure (.obj [("controllers", .arr controllers), ("count", .ofNat controllers.length)])

/-- Ask every controller for its version; one that fails is reported as it fails. -/
def controllerStatuses : List (String × UnifiClient) → ServerM (List Json)
  | [] => pure []
  | (name, client) :: rest => do
      let version ← (ExceptT.lift (onController name client.controllerVersion.run) :
        ServerM (Except UnifiError String))
      let statuses ← controllerStatuses rest
      pure (statusOf name version :: statuses)

/-- `unifimcp_status`. -/
def unifimcpStatus (caller : Option CallerCtx) : ServerM Json := do
  server.authorizeTool caller "unifimcp_status"
  match ← ServerM.ask .clients with
  | .error _ => throw "clients lock poisoned"
  | .ok clients =>
      let statuses ← controllerStatuses clients.entries
      pure (.obj
        [("controller_count", .ofNat clients.entries.length), ("controllers", .arr statuses),
          ("lab_mode", .bool server.labMode), ("mecmcp_version", .str mecmcpVersion),
          ("server_version", .str serverVersion), ("tool_count", .ofNat toolNames.length),
          ("write_tool_count", .ofNat writeTools.length)])

/-- `unifi_add_controller`. -/
def unifiAddController (caller : Option CallerCtx) : ServerM Json := do
  server.authorizeTool caller "unifi_add_controller"
  throw (UnifiError.malformed addControllerRefused).toString

/-! ## Tools that read one controller -/

/-- A tool that is authorized, looks its client up and answers with what the client reads. -/
def readTool (caller : Option CallerCtx) (tool controller : String)
    (read : UnifiClient → ClientM Json) : ServerM Json := do
  server.authorize caller tool controller
  let client ← clientFor controller
  onClient controller (read client)

variable (kit : ReadKit)

/-- `unifi_list_resources`. -/
def unifiListResources (caller : Option CallerCtx) (args : ListResourcesArgs) : ServerM Json :=
  server.readTool caller "unifi_list_resources" args.controller fun client =>
    client.listResources kit.toToolkit args

/-- `unifi_get_resource`. -/
def unifiGetResource (caller : Option CallerCtx) (args : GetResourceArgs) : ServerM Json :=
  server.readTool caller "unifi_get_resource" args.controller fun client =>
    client.getResource kit.toToolkit args

/-- `unifi_query_stats`. -/
def unifiQueryStats (caller : Option CallerCtx) (args : QueryStatsArgs) : ServerM Json :=
  server.readTool caller "unifi_query_stats" args.controller fun client =>
    client.queryStats kit.toToolkit args

/-- `unifi_search`. -/
def unifiSearch (caller : Option CallerCtx) (args : SearchArgs) : ServerM Json :=
  server.readTool caller "unifi_search" args.controller fun client =>
    client.search kit.toToolkit args

/-- `unifi_list_sites`. -/
def unifiListSites (caller : Option CallerCtx) (args : ListSitesArgs) : ServerM Json :=
  server.readTool caller "unifi_list_sites" args.controller fun client => client.listSites args

/-- `unifi_site_health_report`. -/
def unifiSiteHealthReport (caller : Option CallerCtx) (args : SiteHealthReportArgs) :
    ServerM Json :=
  server.readTool caller "unifi_site_health_report" args.controller fun client =>
    SiteHealthReport.toJson <$> client.siteHealthReport kit.toToolkit args

/-- `unifi_topology_report`. -/
def unifiTopologyReport (caller : Option CallerCtx) (args : TopologyReportArgs) : ServerM Json :=
  server.readTool caller "unifi_topology_report" args.controller fun client =>
    TopologyReport.toJson <$> client.topologyReport kit.toToolkit args

/-- `unifi_traffic_flow_report`. -/
def unifiTrafficFlowReport (caller : Option CallerCtx) (args : TrafficFlowReportArgs) :
    ServerM Json :=
  server.readTool caller "unifi_traffic_flow_report" args.controller fun client =>
    TrafficFlowReport.toJson <$> client.trafficFlowReport kit.toToolkit args

/-- `unifi_client_troubleshoot`. -/
def unifiClientTroubleshoot (caller : Option CallerCtx) (args : ClientTroubleshootArgs) :
    ServerM Json :=
  server.readTool caller "unifi_client_troubleshoot" args.controller fun client =>
    ClientTroubleshootReport.toJson <$> client.clientTroubleshoot kit.toToolkit args

/-! ## Tools that look at a change set -/

/-- `unifi_diff_change_set`. -/
def unifiDiffChangeSet (caller : Option CallerCtx) (args : DiffChangeSetArgs) :
    ServerM Json := do
  server.authorize caller "unifi_diff_change_set" args.controller
  let record ← recordFor args.changeSetId args.controller
  let (mutations, preimage) ← Fallible.ofExcept (planOf record)
  let diff ← orFail (fun e => s!"failed to compute diff: {e.toString}")
    (diffAgainstPreimage kit.toRedactor preimage mutations)
  pure (.obj
    [("change_set_id", .str record.id), ("changes", .arr (diff.changes.map Change.toJson)),
      ("computed", .bool diff.computed)])

/-- The refusal of a plan whose zone references cannot be checked. -/
def zoneListUnreadable (controller : String) (e : UnifiError) : String :=
  s!"could not read the firewall zone list from controller '{controller}', so zone" ++
    s!"                          references cannot be checked: {e.toString}"

/-- The refusal of a plan that names what is not there. -/
def referenceCheckFailed (e : UnifiError) : String := s!"reference check failed: {e.toString}"

/-- Check the zones a plan names against the zones its controller lists. -/
def checkLiveZones (controller : String) (mutations : List StagedMutation) : ServerM Unit := do
  let client ← clientFor controller
  let listed ← (ExceptT.lift (onController controller
    (client.listResources kit.toToolkit ⟨controller, .firewallZone, none, none, none⟩).run) :
      ServerM (Except UnifiError Json))
  let raw ← orFail (zoneListUnreadable controller) listed
  let zones ← orFail (zoneListUnreadable controller) (ZoneIndex.fromZoneList raw)
  orFail referenceCheckFailed (checkZoneReferences zones mutations)

/-- `unifi_validate_change_set`. -/
def unifiValidateChangeSet (caller : Option CallerCtx) (args : ValidateChangeSetArgs) :
    ServerM Json := do
  server.authorize caller "unifi_validate_change_set" args.controller
  let record ← recordFor args.changeSetId args.controller
  let (mutations, preimage) ← Fallible.ofExcept (planOf record)
  orFail (fun e => s!"local validation failed: {e.toString}") (validateLocally preimage mutations)
  orFail (fun e => s!"schema constraints failed: {e.toString}")
    (checkWritableFields server.mecmcp.number mutations)
  orFail referenceCheckFailed (checkZoneDeletions preimage mutations)
  -- The zone list is read only when a staged body names a zone.
  if !(referencedZoneIds mutations).isEmpty then
    checkLiveZones kit args.controller mutations
  pure (.obj
    [("change_set_id", .str record.id),
      ("note",
        .str "UniFi has no server-side dry-run validation; this is client-side only"),
      ("valid", .bool true)])

/-- The description carried in a record's preview; empty if it cannot be read. -/
def descriptionOf (record : ChangeSetRecord) : String :=
  match record.preview.bind fun preview => kit.fromStr preview.artifact with
  | some parsed => (parsed.getStr? "description").getD ""
  | none => ""

/-- An optional text as JSON. -/
def ofText (text : Option String) : Json := text.elim .null .str

/-- `unifi_get_change_set`. -/
def unifiGetChangeSet (caller : Option CallerCtx) (args : GetChangeSetArgs) : ServerM Json := do
  server.authorize caller "unifi_get_change_set" args.controller
  match ← server.draft args.changeSetId args.controller with
  | some draft =>
      pure (.obj
        [("change_set_id", .str args.changeSetId), ("controller", .str draft.controller),
          ("creator", .str draft.owner), ("description", .str draft.description),
          ("mutation_count", .ofNat 0),
          ("note", .str ("nothing is staged yet; this draft is held in memory and is " ++
            "lost on restart")),
          ("state", .str "draft")])
  | none =>
      let status ← ServerM.coordinator (.changeSetStatus args.changeSetId args.controller)
      orFail (CoordinatorError.report s!"change set {args.changeSetId} on {args.controller}")
        status
      let record ← recordFor args.changeSetId args.controller
      pure (.obj
        [("approval_waiver", ofText record.approvalWaiver), ("approver", ofText record.approver),
          ("change_set_id", .str record.id), ("controller", .str record.device),
          ("creator", .str record.owner), ("description", .str (descriptionOf kit record)),
          ("expected_preimage_fingerprint", .str record.expectedCandidateFingerprint),
          ("expires_at_unix", .ofNat record.expiresAtUnix),
          ("mutation_count", .ofNat record.actions.length), ("plan_digest", .str record.digest),
          ("preview", ofText (record.preview.map PreviewRecord.artifact)),
          ("state", .str record.state.asStr)])

end UnifiServer

/-! ## Calls -/

/-- A call of a tool that changes nothing. -/
inductive ReadCall where
  | listResources (args : ListResourcesArgs)
  | getResource (args : GetResourceArgs)
  | queryStats (args : QueryStatsArgs)
  | search (args : SearchArgs)
  | listSites (args : ListSitesArgs)
  | listControllers
  | addController
  | status
  | siteHealthReport (args : SiteHealthReportArgs)
  | topologyReport (args : TopologyReportArgs)
  | trafficFlowReport (args : TrafficFlowReportArgs)
  | clientTroubleshoot (args : ClientTroubleshootArgs)
  | diffChangeSet (args : DiffChangeSetArgs)
  | validateChangeSet (args : ValidateChangeSetArgs)
  | getChangeSet (args : GetChangeSetArgs)

/-- A call of any tool. -/
inductive ServerCall where
  | read (caller : Option CallerCtx) (call : ReadCall)
  | changeSet (call : ChangeSetCall)
  | deviceAction (caller : Option CallerCtx) (args : DeviceActionArgs)
  | clientAction (caller : Option CallerCtx) (args : ClientActionArgs)
  | backupAction (caller : Option CallerCtx) (args : BackupActionArgs)

namespace UnifiServer

variable (server : UnifiServer) (kit : ReadKit)

/-- The handler of a call that changes nothing. -/
def handleRead (caller : Option CallerCtx) : ReadCall → ServerM Json
  | .listResources args => server.unifiListResources kit caller args
  | .getResource args => server.unifiGetResource kit caller args
  | .queryStats args => server.unifiQueryStats kit caller args
  | .search args => server.unifiSearch kit caller args
  | .listSites args => server.unifiListSites caller args
  | .listControllers => server.unifiListControllers caller
  | .addController => server.unifiAddController caller
  | .status => server.unifimcpStatus caller
  | .siteHealthReport args => server.unifiSiteHealthReport kit caller args
  | .topologyReport args => server.unifiTopologyReport kit caller args
  | .trafficFlowReport args => server.unifiTrafficFlowReport kit caller args
  | .clientTroubleshoot args => server.unifiClientTroubleshoot kit caller args
  | .diffChangeSet args => server.unifiDiffChangeSet kit caller args
  | .validateChangeSet args => server.unifiValidateChangeSet kit caller args
  | .getChangeSet args => server.unifiGetChangeSet kit caller args

/-- The handler of a call. -/
def handleCall : ServerCall → Program ServerSig (Except String Json)
  | .read caller call => (server.handleRead kit caller call).run
  | .changeSet call => server.handle call
  | .deviceAction caller args => (server.unifiDeviceAction caller args).run
  | .clientAction caller args => (server.unifiClientAction caller args).run
  | .backupAction caller args => (server.unifiBackupAction caller args).run

end UnifiServer

end UnifiMcp
