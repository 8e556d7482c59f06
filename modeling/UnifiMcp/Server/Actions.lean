import UnifiMcp.Server.ChangeSets
import UnifiMcp.Client.Store
import UnifiMcp.Tools.Ops

/-!
# The action tools

The handlers of `unifi_device_action`, `unifi_client_action` and `unifi_backup_action`, which
resolve the site of a call and check it against the caller's grant before anything is sent.
`ToolCall` puts them beside the change-set tools; of the other tools only that they send no
write request is kept.
-/

namespace UnifiMcp

open Interaction

/-- Require the caller's grant, if any, to permit writing to a site. -/
def authorizeSite (caller : Option CallerCtx) (site : String) : Except UnifiError Unit :=
  match caller with
  | none => .ok ()
  | some caller =>
      match caller.grant with
      | none => .ok ()
      | some grant =>
          if grant.allowsSubject site then .ok ()
          else .error (.siteNotInScope caller.tokenName site)

/-- Run a client's method on its controller, and report its error. -/
def onClient {α : Type} (controller : String) (x : ClientM α) : ServerM α := do
  let r ← (ExceptT.lift (onController controller x.run) : ServerM (Except UnifiError α))
  orFail UnifiError.toString r

namespace UnifiServer

variable (server : UnifiServer)

/-- Resolve the effective site of a write call and enforce the caller's grant against it. -/
def authorizeWriteSite (caller : Option CallerCtx) (client : UnifiClient)
    (requestedSite : Option String) : ServerM String := do
  let site := requestedSite.getD client.controller.site
  orFail UnifiError.toString (authorizeSite caller site)
  pure site

/-- Require direct-commit permission for an action that needs it. -/
def gateDirectCommit (caller : Option CallerCtx) (tool action target : String)
    (required : Bool) : ServerM Unit :=
  if required then Fallible.ofExcept (server.directCommit caller tool action target)
  else pure ()

/-- `unifi_device_action`. -/
def unifiDeviceAction (caller : Option CallerCtx) (args : DeviceActionArgs) : ServerM Json := do
  server.authorize caller "unifi_device_action" args.controller
  let client ← clientFor args.controller
  let _ ← authorizeWriteSite caller client args.site
  orFail UnifiError.toString args.validate
  server.gateDirectCommit caller "unifi_device_action" args.action.name args.device
    args.action.requiresDirectCommit
  onClient args.controller (client.deviceAction args)

/-- `unifi_client_action`. -/
def unifiClientAction (caller : Option CallerCtx) (args : ClientActionArgs) : ServerM Json := do
  server.authorize caller "unifi_client_action" args.controller
  let client ← clientFor args.controller
  let _ ← authorizeWriteSite caller client args.site
  orFail UnifiError.toString args.validate
  server.gateDirectCommit caller "unifi_client_action" args.action.name args.client
    args.action.requiresDirectCommit
  onClient args.controller (client.clientAction args)

/-- `unifi_backup_action`. -/
def unifiBackupAction (caller : Option CallerCtx) (args : BackupActionArgs) : ServerM Json := do
  server.authorize caller "unifi_backup_action" args.controller
  let client ← clientFor args.controller
  let _ ← authorizeWriteSite caller client args.site
  onClient args.controller (client.backupAction args)

end UnifiServer

/-! ## Calls -/

/-- A question that is not a write request to a controller. -/
def ServerOp.SendsNoWrite : ServerOp → Prop
  | .client _ op => op.Quiet
  | _ => True

/-- A call of a tool. -/
inductive ToolCall where
  | changeSet (call : ChangeSetCall)
  | deviceAction (caller : Option CallerCtx) (args : DeviceActionArgs)
  | clientAction (caller : Option CallerCtx) (args : ClientActionArgs)
  | backupAction (caller : Option CallerCtx) (args : BackupActionArgs)
  /-- Any other tool: none of them sends a write request. -/
  | other (caller : Option CallerCtx) (body : ServerM Json)
      (reads : body.Asks ServerOp.SendsNoWrite)

/-- Who makes a call of a change-set tool. -/
def ChangeSetCall.caller : ChangeSetCall → Option CallerCtx
  | .create caller _ | .stage caller _ | .approve caller _ | .apply caller _ => caller

/-- Who makes a call. -/
def ToolCall.caller : ToolCall → Option CallerCtx
  | .changeSet call => call.caller
  | .deviceAction caller _ | .clientAction caller _ | .backupAction caller _
  | .other caller _ _ => caller

/-- The handler of a call. -/
def UnifiServer.handleTool (server : UnifiServer) :
    ToolCall → Program ServerSig (Except String Json)
  | .changeSet call => server.handle call
  | .deviceAction caller args => (server.unifiDeviceAction caller args).run
  | .clientAction caller args => (server.unifiClientAction caller args).run
  | .backupAction caller args => (server.unifiBackupAction caller args).run
  | .other _ body _ => body.run

end UnifiMcp
