import UnifiMcp.Client.WriteBodies
import UnifiMcp.Server.Authority

/-!
# Commands are confirmed first

What is written past change control is a command of an action tool.  A call of one sends a single
command, for the controller and the site that were allowed to its caller, and nothing else that
writes.  An adoption, an upgrade and a power cycle look the device up first, and the command
follows only on an entry that allows it (`DeviceActionArgs.AllowedBy`): the device is pending and
is the one a human has named, or the build that is queued is the one that was asked for, or the
port supplies power.  `commands_are_confirmed` is this of every run of any calls: a write is part
of an apply call, or it is such a command.
-/

namespace UnifiMcp

open Interaction Collections

variable {server : UnifiServer} {kit : ReadKit}

/-! ## Commands -/

/-- The word a device action sends. -/
def DeviceAction.command : DeviceAction → String
  | .restart => "restart"
  | .locate => "set-locate"
  | .adopt => "adopt"
  | .upgrade => "upgrade"
  | .portAction => "power-cycle"

/-- The body a device action sends. -/
def DeviceActionArgs.commandBody (args : DeviceActionArgs) : Json :=
  .obj ([("cmd", .str args.action.command), ("mac", .str args.device)] ++
    if args.action = .portAction then
      [("port_idx", .num (.posInt (args.portIndex.getD 0).toUInt64))]
    else [])

/-- The word a client action sends. -/
def ClientAction.command : ClientAction → String
  | .block => "block-sta"
  | .unblock => "unblock-sta"
  | .reconnect => "kick-sta"

/-- The body a client action sends. -/
def ClientActionArgs.commandBody (args : ClientActionArgs) : Json :=
  .obj [("cmd", .str args.action.command), ("mac", .str args.client)]

/-- The body a backup action sends. -/
def BackupAction.commandBody : BackupAction → Json
  | .list => .obj [("cmd", .str "list-backups")]
  | .trigger => .obj [("cmd", .str "backup"), ("days", .num (.posInt 0))]

/-- The path of a command endpoint. -/
def commandPath (endpoint : String) : String := s!"/proxy/network/api/s/\x7bsite\x7d/cmd/{endpoint}"

/-- A command as a call of an action tool sends it. -/
structure Command where
  endpoint : String
  site : Option String
  body : Json

/-- The command of a call, if it is of an action tool. -/
def ServerCall.command? : ServerCall → Option Command
  | .deviceAction _ args => some ⟨"devmgr", args.site, args.commandBody⟩
  | .clientAction _ args => some ⟨"stamgr", args.site, args.commandBody⟩
  | .backupAction _ args => some ⟨"backup", args.site, args.action.commandBody⟩
  | .read _ _ | .changeSet _ => none

/-- The arguments of an action are sound, and the direct commit it may need is allowed. -/
def ServerCall.Checked (server : UnifiServer) : ServerCall → Prop
  | .deviceAction caller args => args.validate = .ok () ∧
      (args.action.requiresDirectCommit = true → server.directCommit caller
        "unifi_device_action" args.action.name args.device = .ok ())
  | .clientAction caller args => args.validate = .ok () ∧
      (args.action.requiresDirectCommit = true → server.directCommit caller
        "unifi_client_action" args.action.name args.client = .ok ())
  | .backupAction _ args => args.validate = .ok ()
  | .read _ _ | .changeSet _ => False

/-! ## What a device has to report -/

/-- Whether a device reports a flag to be set. -/
def Json.flag? (device : Json) (key : String) : Option Bool := (device.get? key).bind Json.asBool?

/-- The port of a device with an index. -/
def portOf (device : Json) (index : UInt16) : Option Json :=
  (((device.get? "port_table").bind Json.asArray?).getD []).find? fun entry =>
    ((entry.get? "port_idx").bind Json.asU64?).any fun idx => idx = index.toUInt64

/-- What a device reports allows the action. -/
def DeviceActionArgs.AllowedBy (args : DeviceActionArgs) (device : Json) : Prop :=
  match args.action with
  | .restart | .locate => True
  | .adopt => device.flag? "adopted" = some false ∧
      (device.get? "state").bind Json.asI64? = some deviceStatePending ∧
      args.expectedModel.isSome ∧ device.getStr? "model" = args.expectedModel ∧
      ∀ serial ∈ args.expectedSerial, device.getStr? "serial" = some serial
  | .upgrade => device.flag? "adopted" = some true ∧ device.flag? "upgradable" = some true ∧
      args.firmwareVersion.isSome ∧
      device.getStr? "upgrade_to_firmware" = args.firmwareVersion ∧
      ∃ current, device.getStr? "version" = some current ∧ args.firmwareVersion ≠ some current
  | .portAction => device.flag? "adopted" = some true ∧
      ∃ index entry, args.portIndex = some index ∧ portOf device index = some entry ∧
        entry.flag? "port_poe" = some true

/-- Whether an action looks its device up first. -/
def DeviceAction.looksUp : DeviceAction → Bool
  | .restart | .locate => false
  | .adopt | .upgrade | .portAction => true

/-- The request for the devices of a site. -/
def devicesRequest (c : UnifiClient) (site path : String) : Request :=
  c.requestOf .get "/proxy/network/api/s/{site}/stat/device" [("site", site)] [] none path

/-- An action that looks its device up has been told of the first entry with its MAC address, and
this allows it. -/
def DeviceActionArgs.ConfirmedBy (args : DeviceActionArgs) (c : UnifiClient)
    (t : List (Event ClientSig)) : Prop :=
  if args.action.looksUp then
    ∃ path response raw data device,
      t = [sendEvent (devicesRequest c (args.site.getD c.controller.site) path) (.ok response)] ∧
      response.json = .ok raw ∧ unwrapEnvelopedData raw = .ok data ∧
      (data.find? fun item => (item.getStr? "mac").any fun m => eqIgnoreAsciiCase m args.device) =
        some device ∧ args.AllowedBy device
  else t = []

/-- What a call was told before its command. -/
def ServerCall.ConfirmedBy (k : ServerCall) (c : UnifiClient) (t : List (Event ClientSig)) :
    Prop :=
  match k with
  | .deviceAction _ args => args.ConfirmedBy c t
  | _ => t = []

/-! ## Commands that are decided -/

section Decided

variable {device : Json} {mac cmd : String}

/-- A check that throws has passed when the rest succeeds. -/
theorem passed_of_ok {α : Type} {P : Prop} [Decidable P] {e : UnifiError}
    {rest : Except UnifiError α} {a : α}
    (h : (if P then (throw e >>= fun _ : PUnit => rest) else rest) = .ok a) :
    ¬ P ∧ rest = .ok a := by
  by_cases hP : P
  · rw [if_pos hP] at h
    cases h
  · rw [if_neg hP] at h
    exact ⟨hP, h⟩

theorem adoptCommand_ok {model : String} {serial : Option String}
    (h : adoptCommand device mac model serial = .ok cmd) :
    cmd = "adopt" ∧ device.flag? "adopted" = some false ∧
      (device.get? "state").bind Json.asI64? = some deviceStatePending ∧
      device.getStr? "model" = some model ∧
      ∀ s ∈ serial, device.getStr? "serial" = some s := by
  unfold adoptCommand at h
  rcases hadopted : (device.get? "adopted").bind Json.asBool? with _ | (_ | _)
  · rw [hadopted] at h
    cases h
  · rw [hadopted] at h
    rcases hstate : (device.get? "state").bind Json.asI64? with _ | state
    · rw [hstate] at h
      cases h
    · rw [hstate] at h
      obtain ⟨hpending, h₁⟩ := passed_of_ok h
      obtain ⟨hmodel, h₂⟩ := passed_of_ok h₁
      refine ⟨?_, hadopted, congrArg some (not_not.1 hpending), not_not.1 hmodel, ?_⟩
      · cases serial with
        | none => exact (Except.ok.inj h₂).symm
        | some expected => exact (Except.ok.inj (passed_of_ok h₂).2).symm
      · rintro expected rfl
        exact not_not.1 (passed_of_ok h₂).1
  · rw [hadopted] at h
    cases h

theorem upgradeCommand_ok {version : String} (h : upgradeCommand device mac version = .ok cmd) :
    cmd = "upgrade" ∧ device.flag? "adopted" = some true ∧
      device.flag? "upgradable" = some true ∧
      device.getStr? "upgrade_to_firmware" = some version ∧
      ∃ current, device.getStr? "version" = some current ∧ version ≠ current := by
  unfold upgradeCommand at h
  obtain ⟨hadopted, h₁⟩ := passed_of_ok h
  rcases hcurrent : device.getStr? "version" with _ | current
  · rw [hcurrent] at h₁
    cases h₁
  · rw [hcurrent] at h₁
    obtain ⟨hsame, h₂⟩ := passed_of_ok h₁
    obtain ⟨hupgradable, h₃⟩ := passed_of_ok h₂
    rcases hqueued : device.getStr? "upgrade_to_firmware" with _ | queued
    · rw [hqueued] at h₃
      cases h₃
    · rw [hqueued] at h₃
      dsimp only at h₃
      by_cases hnamed : queued = version
      · rw [if_pos hnamed] at h₃
        refine ⟨(Except.ok.inj h₃).symm, not_not.1 hadopted, not_not.1 hupgradable, ?_, current,
          rfl, fun heq => hsame heq.symm⟩
        rw [hnamed]
      · rw [if_neg hnamed] at h₃
        cases h₃

theorem portActionCommand_ok {index : UInt16}
    (h : portActionCommand device mac index = .ok cmd) :
    cmd = "power-cycle" ∧ device.flag? "adopted" = some true ∧
      ∃ entry, portOf device index = some entry ∧ entry.flag? "port_poe" = some true := by
  unfold portActionCommand at h
  obtain ⟨hadopted, h₁⟩ := passed_of_ok h
  dsimp only at h₁
  rcases hport : portOf device index with _ | entry
  · unfold portOf at hport
    rw [hport] at h₁
    cases h₁
  · unfold portOf at hport
    rw [hport] at h₁
    dsimp only at h₁
    by_cases hpoe : (entry.get? "port_poe").bind Json.asBool? = some true
    · rw [if_pos hpoe] at h₁
      exact ⟨(Except.ok.inj h₁).symm, not_not.1 hadopted, entry, rfl, hpoe⟩
    · rw [if_neg hpoe] at h₁
      cases h₁

end Decided

/-- What the arguments of an action have to name is there once they have been checked. -/
theorem named_of_validate {args : DeviceActionArgs} (h : args.validate = .ok ()) :
    (args.action = .adopt → args.expectedModel.isSome) ∧
      (args.action = .upgrade → args.firmwareVersion.isSome) ∧
      (args.action = .portAction → args.portIndex.isSome) := by
  unfold DeviceActionArgs.validate at h
  obtain ⟨-, -, h₁⟩ := bind_eq_ok.1 h
  obtain ⟨-, -, h₂⟩ := bind_eq_ok.1 h₁
  refine ⟨fun haction => ?_, fun haction => ?_, fun haction => ?_⟩
  · rw [haction] at h₂
    cases hmodel : args.expectedModel with
    | some model => rfl
    | none =>
        rw [hmodel] at h₂
        cases h₂
  · rw [haction] at h₂
    cases hversion : args.firmwareVersion with
    | some version => rfl
    | none =>
        rw [hversion] at h₂
        cases h₂
  · rw [haction] at h₂
    cases hindex : args.portIndex with
    | some index => rfl
    | none =>
        rw [hindex] at h₂
        cases h₂

/-! ## One command -/

section Client

variable {c : UnifiClient} {t : List (Event ClientSig)}

/-- A device that was found is the first entry with its MAC address. -/
theorem device_of_gives {site mac : String} {device : Json}
    (h : (findPrivateDevice c site mac).Gives t (.ok device)) :
    ∃ path response raw data,
      t = [sendEvent (devicesRequest c site path) (.ok response)] ∧
      response.json = .ok raw ∧ unwrapEnvelopedData raw = .ok data ∧
      (data.find? fun item => (item.getStr? "mac").any fun m => eqIgnoreAsciiCase m mac) =
        some device := by
  obtain ⟨t₁, t₂, raw, rfl, h₁, h₂⟩ := Fallible.gives_bind_ok.1 h
  obtain ⟨t₃, t₄, data, rfl, h₃, h₄⟩ := Fallible.gives_bind_ok.1 h₂
  obtain ⟨rfl, hunwrapped⟩ := Fallible.gives_ofExcept.1 h₃
  obtain ⟨path, response, -, -, -, hjson, rfl⟩ := UnifiClient.gives_request_ok h₁
  rcases hfound : data.find? fun item => (item.getStr? "mac").any fun m =>
    eqIgnoreAsciiCase m mac with _ | found
  · rw [hfound] at h₄
    cases (Fallible.gives_throw.1 h₄).2
  · rw [hfound] at h₄
    obtain ⟨rfl, hdevice⟩ := Fallible.gives_pure.1 h₄
    cases hdevice
    exact ⟨path, response, raw, data, rfl, hjson, hunwrapped, hfound⟩

/-- An action that looks its device up decides on what it found. -/
theorem confirmed_of_gives {args : DeviceActionArgs} (hlooks : args.action.looksUp = true)
    {decide : Json → Except UnifiError String} {cmd : String}
    (h : (findPrivateDevice c (args.site.getD c.controller.site) args.device >>= fun device =>
      Fallible.ofExcept (decide device)).Gives t (.ok cmd))
    (hallows : ∀ device, decide device = .ok cmd →
      cmd = args.action.command ∧ args.AllowedBy device) :
    cmd = args.action.command ∧ args.ConfirmedBy c t := by
  obtain ⟨t₁, t₂, device, rfl, h₁, h₂⟩ := Fallible.gives_bind_ok.1 h
  obtain ⟨rfl, hcmd⟩ := Fallible.gives_ofExcept.1 h₂
  obtain ⟨path, response, raw, data, rfl, hjson, hunwrapped, hfound⟩ := device_of_gives h₁
  obtain ⟨hword, hallowed⟩ := hallows device hcmd
  unfold DeviceActionArgs.ConfirmedBy
  rw [if_pos hlooks, List.append_nil]
  exact ⟨hword, path, response, raw, data, device, rfl, hjson, hunwrapped, hfound, hallowed⟩

/-- The command of a device action is decided on what the device reports. -/
theorem deviceCommand_of_gives {args : DeviceActionArgs} (hvalid : args.validate = .ok ())
    {cmd : String}
    (h : (c.deviceCommand args (args.site.getD c.controller.site)).Gives t (.ok cmd)) :
    cmd = args.action.command ∧ args.ConfirmedBy c t := by
  obtain ⟨hmodel, hversion, hindex⟩ := named_of_validate hvalid
  unfold UnifiClient.deviceCommand at h
  cases haction : args.action with
  | restart | locate =>
      rw [haction] at h
      obtain ⟨rfl, hcmd⟩ := Fallible.gives_pure.1 h
      cases hcmd
      have hblind : args.action.looksUp ≠ true := by
        rw [haction]
        nofun
      unfold DeviceActionArgs.ConfirmedBy
      rw [if_neg hblind]
      exact ⟨rfl, rfl⟩
  | adopt =>
      rw [haction] at h
      rw [← haction]
      obtain ⟨model, hmodel⟩ := Option.isSome_iff_exists.1 (hmodel haction)
      refine confirmed_of_gives (by rw [haction]; rfl) h fun device hcmd => ?_
      obtain ⟨rfl, hadopted, hstate, hreported, hserial⟩ := adoptCommand_ok hcmd
      unfold DeviceActionArgs.AllowedBy
      rw [haction, hmodel]
      rw [hmodel] at hreported
      exact ⟨rfl, hadopted, hstate, rfl, hreported, hserial⟩
  | upgrade =>
      rw [haction] at h
      rw [← haction]
      obtain ⟨version, hversion⟩ := Option.isSome_iff_exists.1 (hversion haction)
      refine confirmed_of_gives (by rw [haction]; rfl) h fun device hcmd => ?_
      rw [hversion] at hcmd
      obtain ⟨rfl, hadopted, hupgradable, hqueued, current, hcurrent, hother⟩ :=
        upgradeCommand_ok hcmd
      unfold DeviceActionArgs.AllowedBy
      rw [haction, hversion]
      exact ⟨rfl, hadopted, hupgradable, rfl, hqueued, current, hcurrent,
        fun heq => hother (Option.some.inj heq)⟩
  | portAction =>
      rw [haction] at h
      rw [← haction]
      obtain ⟨index, hindex⟩ := Option.isSome_iff_exists.1 (hindex haction)
      refine confirmed_of_gives (by rw [haction]; rfl) h fun device hcmd => ?_
      rw [hindex] at hcmd
      obtain ⟨rfl, hadopted, entry, hentry, hpoe⟩ := portActionCommand_ok hcmd
      unfold DeviceActionArgs.AllowedBy
      rw [haction, hindex]
      exact ⟨rfl, hadopted, index, entry, rfl, hentry, hpoe⟩

/-- A request that was begun is a write of its own, first of all. -/
theorem command_of_begins {endpoint site : String} {body : Json}
    (h : (c.postCommand endpoint site body).Begins t) {request : Request}
    {answer : Except HttpError Response} (hmem : sendEvent request answer ∈ t)
    (hwrite : request.method ≠ .get) :
    ∃ path after,
      request = c.requestOf .post (commandPath endpoint) [("site", site)] [] (some body) path ∧
      t = sendEvent request answer :: after ∧ ∀ e ∈ after, ClientOp.IsVersion e.op := by
  rcases UnifiClient.begins_request h with rfl | ⟨path, answer', after, rfl, hafter⟩
  · cases hmem
  · rcases List.mem_cons.1 hmem with heq | hmem
    · cases heq
      exact ⟨path, after, rfl, rfl, hafter⟩
    · exact absurd (hafter _ hmem).1 hwrite

theorem asks_deviceCommand_quiet (args : DeviceActionArgs) (site : String) :
    (c.deviceCommand args site).Asks ClientOp.Quiet := by
  have hfind : (findPrivateDevice c site args.device).Asks ClientOp.Quiet := by
    refine (UnifiClient.asks_get.mono fun _ hop => hop.1).bind fun raw => ?_
    refine (Fallible.asks_ofExcept _).bind fun data => ?_
    split
    · exact Fallible.asks_pure _
    · exact Fallible.asks_throw _
  unfold UnifiClient.deviceCommand
  cases args.action with
  | restart | locate => exact Fallible.asks_pure _
  | adopt | upgrade | portAction => exact hfind.bind fun device => Fallible.asks_ofExcept _

/-- One command was sent, after what confirmed it. -/
def SentCommand (c : UnifiClient) (command : Command) (confirms : List (Event ClientSig))
    (request : Request) (answer : Except HttpError Response) (t : List (Event ClientSig)) : Prop :=
  ∃ path after,
    request = c.requestOf .post (commandPath command.endpoint)
      [("site", command.site.getD c.controller.site)] [] (some command.body) path ∧
    t = confirms ++ sendEvent request answer :: after ∧ ∀ e ∈ after, ClientOp.IsVersion e.op

section Sent

variable {request : Request} {answer : Except HttpError Response}

theorem not_quiet_of_write (hwrite : request.method ≠ .get) :
    ¬ ClientOp.Quiet (sendEvent request answer).op :=
  fun hquiet => hwrite (Method.isWrite_eq_false hquiet)

theorem sent_of_deviceAction {args : DeviceActionArgs} (h : (c.deviceAction args).Begins t)
    (hmem : sendEvent request answer ∈ t) (hwrite : request.method ≠ .get) :
    ∃ confirms, args.ConfirmedBy c confirms ∧
      SentCommand c ⟨"devmgr", args.site, args.commandBody⟩ confirms request answer t := by
  obtain ⟨t₁, t₂, _, rfl, h₁, h₂, hmem₂, -⟩ := Fallible.begins_bind_of_mem
    (P := ClientOp.Quiet) (Fallible.asks_ofExcept _) h hmem (not_quiet_of_write hwrite)
  obtain ⟨rfl, hvalid⟩ := Fallible.gives_ofExcept.1 h₁
  obtain ⟨t₃, t₄, cmd, rfl, h₃, h₄, hmem₄, -⟩ := Fallible.begins_bind_of_mem
    (asks_deviceCommand_quiet args _) h₂ hmem₂ (not_quiet_of_write hwrite)
  obtain ⟨rfl, hconfirmed⟩ := deviceCommand_of_gives hvalid h₃
  obtain ⟨path, after, hrequest, rfl, hafter⟩ := command_of_begins h₄ hmem₄ hwrite
  exact ⟨t₃, hconfirmed, path, after, hrequest, rfl, hafter⟩

theorem sent_of_clientAction {args : ClientActionArgs} (h : (c.clientAction args).Begins t)
    (hmem : sendEvent request answer ∈ t) (hwrite : request.method ≠ .get) :
    SentCommand c ⟨"stamgr", args.site, args.commandBody⟩ [] request answer t := by
  obtain ⟨t₁, t₂, _, rfl, h₁, h₂, hmem₂, -⟩ := Fallible.begins_bind_of_mem
    (P := ClientOp.Quiet) (Fallible.asks_ofExcept _) h hmem (not_quiet_of_write hwrite)
  obtain ⟨rfl, -⟩ := Fallible.gives_ofExcept.1 h₁
  obtain ⟨path, after, hrequest, rfl, hafter⟩ := command_of_begins h₂ hmem₂ hwrite
  refine ⟨path, after, hrequest.trans ?_, rfl, hafter⟩
  unfold ClientActionArgs.commandBody ClientAction.command
  cases args.action <;> rfl

theorem sent_of_backupAction {args : BackupActionArgs} (h : (c.backupAction args).Begins t)
    (hmem : sendEvent request answer ∈ t) (hwrite : request.method ≠ .get) :
    args.validate = .ok () ∧
      SentCommand c ⟨"backup", args.site, args.action.commandBody⟩ [] request answer t := by
  obtain ⟨t₁, t₂, _, rfl, h₁, h₂, hmem₂, -⟩ := Fallible.begins_bind_of_mem
    (P := ClientOp.Quiet) (Fallible.asks_ofExcept _) h hmem (not_quiet_of_write hwrite)
  obtain ⟨rfl, hvalid⟩ := Fallible.gives_ofExcept.1 h₁
  refine ⟨hvalid, ?_⟩
  cases haction : args.action with
  | list =>
      rw [haction] at h₂
      have hpost := Fallible.begins_bind_silent h₂ fun _ =>
        (Fallible.asks_ofExcept _).bind fun _ => Fallible.asks_pure _
      obtain ⟨path, after, hrequest, rfl, hafter⟩ := command_of_begins hpost hmem₂ hwrite
      exact ⟨path, after, hrequest, rfl, hafter⟩
  | trigger =>
      rw [haction] at h₂
      obtain ⟨path, after, hrequest, rfl, hafter⟩ := command_of_begins h₂ hmem₂ hwrite
      exact ⟨path, after, hrequest, rfl, hafter⟩

end Sent

end Client

/-! ## Handlers -/

section Handlers

variable {t : List (Event ServerSig)} {caller : Option CallerCtx} {controller : String}

theorem begun_onClient {α : Type} {x : ClientM α} (h : (onClient controller x).Begins t) :
    x.Begins (clientTrace t) :=
  begins_lift_onController (Fallible.begins_bind_silent h fun _ => asks_orFail _ _)

/-- What a handler of an action does before its own part. -/
theorem begun_action {tool : String} {requested : Option String}
    {rest : UnifiClient → ServerM Json}
    (h : Fallible.Begins (do
      server.authorize caller tool controller
      let client ← UnifiServer.clientFor controller
      let _ ← UnifiServer.authorizeWriteSite caller client requested
      rest client) t) (hasked : clientTrace t ≠ []) :
    ∃ client t', clientForEvent controller client ∈ t ∧
      authorizeSite caller (requested.getD client.controller.site) = .ok () ∧
      (rest client).Begins t' ∧ clientTrace t = clientTrace t' := by
  obtain ⟨t₁, t₂, _, rfl, h₁, h₂, heq₁⟩ :=
    (clientTrace_of_bind (Fallible.asks_ofExcept _) h).resolve_left hasked
  rw [heq₁] at hasked
  obtain ⟨t₃, t₄, client, rfl, h₃, h₄, heq₂⟩ :=
    (clientTrace_of_bind (asks_clientFor _ trivial) h₂).resolve_left hasked
  rw [heq₂] at hasked
  obtain ⟨t₅, t₆, site, rfl, h₅, h₆, heq₃⟩ :=
    (clientTrace_of_bind asks_authorizeWriteSite h₄).resolve_left hasked
  refine ⟨client, t₆, ?_, ?_, h₆, heq₁.trans (heq₂.trans heq₃)⟩
  · rw [clientFor_of_gives h₃]
    simp
  · exact authorizeWriteSite_gives h₅

/-- What passes the gate is allowed. -/
theorem allowed_of_gate {tool action target : String} {required : Bool} {u : Unit}
    (h : (server.gateDirectCommit caller tool action target required).Gives t (.ok u))
    (hrequired : required = true) : server.directCommit caller tool action target = .ok () := by
  unfold UnifiServer.gateDirectCommit at h
  rw [if_pos hrequired] at h
  exact (Fallible.gives_ofExcept.1 h).2

/-- The checks of an action, and then the action. -/
theorem begun_checked {tool action target : String} {required : Bool}
    {valid : Except UnifiError Unit} {x : ClientM Json}
    (h : Fallible.Begins (do
      orFail UnifiError.toString valid
      server.gateDirectCommit caller tool action target required
      onClient controller x) t) (hasked : clientTrace t ≠ []) :
    valid = .ok () ∧
      (required = true → server.directCommit caller tool action target = .ok ()) ∧
      x.Begins (clientTrace t) := by
  obtain ⟨t₁, t₂, _, rfl, h₁, h₂, heq₁⟩ :=
    (clientTrace_of_bind (asks_orFail _ _) h).resolve_left hasked
  rw [heq₁] at hasked
  obtain ⟨t₃, t₄, _, rfl, h₃, h₄, heq₂⟩ :=
    (clientTrace_of_bind asks_gateDirectCommit h₂).resolve_left hasked
  refine ⟨?_, allowed_of_gate h₃, ?_⟩
  · cases hvalid : valid with
    | ok u => rfl
    | error e =>
        rw [hvalid] at h₁
        cases (Fallible.gives_ofExcept.1 h₁).2
  · rw [heq₁, heq₂]
    exact begun_onClient h₄

end Handlers

/-! ## Every run -/

/-- A call sent one command, which it was allowed to send and which was confirmed to it. -/
def Commanded (server : UnifiServer) (k : ServerCall) (controller : String)
    (t : List (Event ServerSig)) (request : Request) (answer : Except HttpError Response) : Prop :=
  ∃ command client confirms, k.command? = some command ∧ k.controller = some controller ∧
    k.Checked server ∧ clientForEvent controller client ∈ t ∧
    authorizeSite k.caller (command.site.getD client.controller.site) = .ok () ∧
    k.ConfirmedBy client confirms ∧
    SentCommand client command confirms request answer (clientTrace t)

/-- **What one call writes**, but for an apply call, is one command. -/
theorem commanded_of_begins {k : ServerCall} {t : List (Event ServerSig)}
    (h : (server.handleCall kit k).Begins t) (hother : ∀ caller args,
      k ≠ .changeSet (.apply caller args)) {controller : String} {request : Request}
    {answer : Except HttpError Response}
    (hmem : clientEvent controller (sendEvent request answer) ∈ t)
    (hwrite : request.method ≠ .get) : Commanded server k controller t request answer := by
  have hloud : ¬ ClientOp.Quiet (sendEvent request answer).op := not_quiet_of_write hwrite
  have hsent : sendEvent request answer ∈ clientTrace t := mem_clientTrace hmem
  have hasked : clientTrace t ≠ [] := List.ne_nil_of_mem hsent
  cases k with
  | read caller call =>
      have hlookups : OneLookup ClientOp.ReadBy t := lookupsOnce_handleRead caller call t h
      obtain ⟨client, -, -, -, hquiet⟩ := hlookups.asked hmem
      exact absurd hquiet hloud
  | changeSet call =>
      have hmay := (asks_handle call).of_begins h _ hmem
      rcases (show (sendEvent request answer).op.Quiet ∨ ∃ caller args, call = .apply caller args ∧
        args.controller = controller from hmay) with hquiet | ⟨caller, args, rfl, -⟩
      · exact absurd hquiet hloud
      · exact absurd rfl (hother caller args)
  | deviceAction caller args =>
      obtain rfl : controller = args.controller :=
        (asks_unifiDeviceAction_acts caller args).of_begins h _ hmem
      obtain ⟨client, t', hclient, hsite, hrest, heq⟩ := begun_action h hasked
      rw [heq] at hasked hsent
      obtain ⟨hvalid, hallowed, hbegun⟩ := begun_checked hrest hasked
      obtain ⟨confirms, hconfirmed, hcommand⟩ := sent_of_deviceAction hbegun hsent hwrite
      exact ⟨_, client, confirms, rfl, rfl, ⟨hvalid, hallowed⟩, hclient, hsite, hconfirmed,
        heq ▸ hcommand⟩
  | clientAction caller args =>
      obtain rfl : controller = args.controller :=
        (asks_unifiClientAction_acts caller args).of_begins h _ hmem
      obtain ⟨client, t', hclient, hsite, hrest, heq⟩ := begun_action h hasked
      rw [heq] at hasked hsent
      obtain ⟨hvalid, hallowed, hbegun⟩ := begun_checked hrest hasked
      exact ⟨_, client, [], rfl, rfl, ⟨hvalid, hallowed⟩, hclient, hsite, rfl,
        heq ▸ sent_of_clientAction hbegun hsent hwrite⟩
  | backupAction caller args =>
      obtain rfl : controller = args.controller :=
        (asks_unifiBackupAction_acts caller args).of_begins h _ hmem
      obtain ⟨client, t', hclient, hsite, hrest, heq⟩ := begun_action h hasked
      rw [heq] at hsent
      obtain ⟨hvalid, hcommand⟩ := sent_of_backupAction (begun_onClient hrest) hsent hwrite
      exact ⟨_, client, [], rfl, rfl, hvalid, hclient, hsite, rfl, heq ▸ hcommand⟩

end UnifiMcp
