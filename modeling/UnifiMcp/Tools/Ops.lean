import UnifiMcp.Client.Request
import UnifiMcp.Changeset.Record

/-!
# Operational actions

The device, client and backup actions of the core crate: the checks of their arguments, what
they read of a device before they act on it, and the one `POST` each of them sends.

Text that the source writes with `{:?}` is written with `String.quote` here.  Both escape quotes,
backslashes, line feeds and tabs, in the same way, and both leave the other printable characters
of ASCII as they are.  They differ on the other control characters, which `String.quote` gives by
two hexadecimal digits and `{:?}` as `\r`, `\0` or by the code point, and on what `{:?}` takes to
be unprintable beyond ASCII, which `String.quote` leaves.  Such characters occur in the texts of
errors only, where an argument was refused or a device reports something else than expected.
-/

namespace UnifiMcp

open Interaction

/-! ## Arguments -/

/-- What to do to an adopted device. -/
inductive DeviceAction where
  | restart
  | locate
  | adopt
  | upgrade
  | portAction
  deriving DecidableEq, Repr

/-- Whether the action needs direct-commit permission; a locate reverts by itself. -/
def DeviceAction.requiresDirectCommit : DeviceAction → Bool
  | .restart | .adopt | .upgrade | .portAction => true
  | .locate => false

/-- The name of an action. -/
def DeviceAction.name : DeviceAction → String
  | .restart => "restart"
  | .adopt => "adopt"
  | .upgrade => "upgrade"
  | .portAction => "port_action"
  | .locate => "locate"

/-- Arguments of `unifi_device_action`. -/
structure DeviceActionArgs where
  controller : String
  device : String
  action : DeviceAction
  portIndex : Option UInt16
  firmwareVersion : Option String
  expectedModel : Option String
  expectedSerial : Option String
  site : Option String

/-- What to do to a connected client. -/
inductive ClientAction where
  | block
  | unblock
  | reconnect
  deriving DecidableEq, Repr

/-- Whether the action needs direct-commit permission. -/
def ClientAction.requiresDirectCommit : ClientAction → Bool
  | .block | .unblock | .reconnect => true

/-- The name of an action. -/
def ClientAction.name : ClientAction → String
  | .block => "block"
  | .unblock => "unblock"
  | .reconnect => "reconnect"

/-- Arguments of `unifi_client_action`. -/
structure ClientActionArgs where
  controller : String
  client : String
  action : ClientAction
  site : Option String

/-- What to do with controller backups. -/
inductive BackupAction where
  | trigger
  | list
  deriving DecidableEq, Repr

/-- Arguments of `unifi_backup_action`. -/
structure BackupActionArgs where
  controller : String
  action : BackupAction
  site : Option String

/-! ## Checks -/

/-- Whether a text is not empty, has at most 64 bytes and only characters that pass. -/
def isShortToken (allowed : Char → Bool) (s : String) : Bool :=
  !s.isEmpty && s.utf8ByteSize ≤ 64 && s.toList.all allowed

/-- The characters of a site identifier. -/
def isSiteChar (c : Char) : Bool := c.isAlphanum || c = '-' || c = '_'

/-- The characters of a firmware version, a model and a serial. -/
def isVersionChar (c : Char) : Bool := c.isAlphanum || c = '.' || c = '-' || c = '_'

/-- An ASCII hexadecimal digit. -/
def isHexDigit (c : Char) : Bool :=
  c.isDigit || ('a' ≤ c && c ≤ 'f') || ('A' ≤ c && c ≤ 'F')

/-- Refuse a site identifier with other characters. -/
def validateSite (site : Option String) : Except UnifiError Unit :=
  match site with
  | none => .ok ()
  | some site =>
      if isShortToken isSiteChar site then .ok ()
      else .error (.malformed s!"site {site.quote} is not a valid site identifier")

/-- Refuse what is not six colon-separated octets. -/
def validateMac (mac : String) : Except UnifiError Unit :=
  let octets := mac.toList.splitOn ':'
  if octets.length = 6 ∧ octets.all fun octet => octet.length = 2 && octet.all isHexDigit then
    .ok ()
  else
    .error (.malformed (s!"{mac.quote} is not a valid MAC address (expected six " ++
      "colon-separated hex octets, e.g. aa:bb:cc:dd:ee:ff)"))

/-- Refuse a firmware version with other characters. -/
def validateFirmwareVersion (version : String) : Except UnifiError Unit :=
  if isShortToken isVersionChar version then .ok ()
  else
    .error (.malformed (s!"{version.quote} is not a valid firmware version (expected dotted " ++
      "alphanumerics, e.g. 7.1.66.15380)"))

/-- Refuse a model or serial with other characters. -/
def validateIdentityToken (label value : String) : Except UnifiError Unit :=
  if isShortToken isVersionChar value then .ok ()
  else
    .error (.malformed (s!"{label} {value.quote} is not valid (expected alphanumerics, '.', " ++
      "'-', or '_', max 64 bytes)"))

/-- Check what the arguments of a device action need together. -/
def DeviceActionArgs.validate (args : DeviceActionArgs) : Except UnifiError Unit := do
  validateSite args.site
  validateMac args.device
  match args.action with
  | .restart | .locate => pure ()
  | .portAction =>
      if args.portIndex.isNone then
        throw (.malformed "action `port_action` requires `port_index`")
  | .upgrade =>
      match args.firmwareVersion with
      | some version => validateFirmwareVersion version
      | none =>
          throw (.malformed ("action `upgrade` requires `firmware_version`, naming the version " ++
            "the caller expects to land on, so a blind upgrade cannot proceed"))
  | .adopt =>
      match args.expectedModel with
      | some model => validateIdentityToken "expected_model" model
      | none =>
          throw (.malformed ("action `adopt` requires `expected_model`, naming the model a human " ++
            "has confirmed the pending device should report, so adoption cannot proceed " ++
            "against an unexpected device"))
      match args.expectedSerial with
      | some serial => validateIdentityToken "expected_serial" serial
      | none => pure ()

/-- Check the arguments of a client action. -/
def ClientActionArgs.validate (args : ClientActionArgs) : Except UnifiError Unit := do
  validateSite args.site
  validateMac args.client

/-- Check the arguments of a backup action. -/
def BackupActionArgs.validate (args : BackupActionArgs) : Except UnifiError Unit :=
  validateSite args.site

/-! ## What a device reports -/

/-- A text that may be absent, as `{:?}` writes it. -/
def debugOption : Option String → String
  | some s => s!"Some({s.quote})"
  | none => "None"

/-- Whether two texts agree up to the case of ASCII letters. -/
def eqIgnoreAsciiCase (a b : String) : Bool :=
  a.toList.map Char.toLower = b.toList.map Char.toLower

/-- The device entry with a MAC address on a site. -/
def findPrivateDevice (c : UnifiClient) (site mac : String) : ClientM Json := do
  let raw ← c.get .privateV1 "/proxy/network/api/s/{site}/stat/device" [("site", site)] []
  let data ← Fallible.ofExcept (unwrapEnvelopedData raw)
  match data.find? fun item => (item.getStr? "mac").any fun m => eqIgnoreAsciiCase m mac with
  | some device => pure device
  | none =>
      throw (.referenceNotFound (s!"no device with MAC {mac} is known to controller site " ++
        s!"{site.quote}; refusing to act on a device the controller has not reported"))

/-- The state of a device that awaits adoption. -/
def deviceStatePending : Int := 2

/-- The command of an adoption, for a device that is pending and reports what is expected. -/
def adoptCommand (device : Json) (mac expectedModel : String) (expectedSerial : Option String) :
    Except UnifiError String := do
  match (device.get? "adopted").bind Json.asBool? with
  | some false => pure ()
  | some true =>
      throw (.writeRefused (s!"device {mac} is already adopted; `adopt` is only valid for a " ++
        "device pending adoption"))
  | none =>
      throw (.malformed (s!"controller did not report an adoption state for device {mac}; " ++
        "refusing to adopt without confirming it is pending"))
  match (device.get? "state").bind Json.asI64? with
  | some state =>
      if state ≠ deviceStatePending then
        throw (.writeRefused (s!"device {mac} is reported in state {state}, not the " ++
          s!"pending-adoption state ({deviceStatePending}); refusing to adopt"))
  | none =>
      throw (.malformed (s!"controller did not report a state for device {mac}; refusing to " ++
        "adopt without confirming it is pending"))
  let reportedModel := device.getStr? "model"
  if reportedModel ≠ some expectedModel then
    throw (.writeRefused (s!"device {mac} reports model {debugOption reportedModel}, not the " ++
      s!"expected {expectedModel.quote}; refusing to adopt a device that does not match the " ++
      "caller's expectation"))
  match expectedSerial with
  | none => pure ()
  | some expectedSerial =>
      let reportedSerial := device.getStr? "serial"
      if reportedSerial ≠ some expectedSerial then
        throw (.writeRefused (s!"device {mac} reports serial {debugOption reportedSerial}, not " ++
          s!"the expected {expectedSerial.quote}; refusing to adopt a device that does not " ++
          "match the caller's expectation"))
  pure "adopt"

/-- The command of an upgrade, for a device that has the named version queued. -/
def upgradeCommand (device : Json) (mac firmwareVersion : String) :
    Except UnifiError String := do
  if (device.get? "adopted").bind Json.asBool? ≠ some true then
    throw (.writeRefused (s!"device {mac} is not adopted; cannot upgrade firmware on a device " ++
      "not under management"))
  match device.getStr? "version" with
  | some current =>
      if current = firmwareVersion then
        throw (.writeRefused (s!"device {mac} already runs firmware {firmwareVersion}; refusing " ++
          "a no-op upgrade"))
  | none =>
      throw (.malformed (s!"controller did not report a current firmware version for device " ++
        s!"{mac}; refusing a blind upgrade"))
  if (device.get? "upgradable").bind Json.asBool? ≠ some true then
    throw (.writeRefused (s!"controller does not report device {mac} as upgradable to a new " ++
      "firmware version"))
  match device.getStr? "upgrade_to_firmware" with
  | some queued =>
      if queued = firmwareVersion then pure "upgrade"
      else
        throw (.writeRefused (s!"controller would install firmware {queued} on device {mac}, " ++
          s!"not the requested {firmwareVersion}; the `upgrade` command carries no version of " ++
          "its own and installs whatever the controller has queued, so refusing rather than " ++
          "upgrading to the wrong build"))
  | none =>
      throw (.malformed (s!"controller did not report a queued firmware version " ++
        s!"(upgrade_to_firmware) for device {mac}; refusing a blind upgrade"))

/-- The command of a port action, for a port that supplies power. -/
def portActionCommand (device : Json) (mac : String) (portIndex : UInt16) :
    Except UnifiError String := do
  if (device.get? "adopted").bind Json.asBool? ≠ some true then
    throw (.writeRefused (s!"device {mac} is not adopted; cannot act on a port of a device not " ++
      "under management"))
  let ports := ((device.get? "port_table").bind Json.asArray?).getD []
  match ports.find? fun entry =>
      ((entry.get? "port_idx").bind Json.asU64?).any fun idx => idx = portIndex.toUInt64 with
  | some entry =>
      if (entry.get? "port_poe").bind Json.asBool? = some true then pure "power-cycle"
      else
        throw (.writeRefused (s!"device {mac} port {portIndex} is not reported as PoE-capable; " ++
          "refusing a power-cycle the controller would silently no-op"))
  | none =>
      throw (.writeRefused (s!"device {mac} does not report a port at index {portIndex}; " ++
        "refusing a power-cycle the controller would silently no-op"))

/-! ## Backups -/

/-- One entry of a controller's backup list. -/
structure Backup where
  filename : String
  size : Option UInt64
  time : Option Int

namespace Backup

/-- A number that has to fit 64 unsigned bits, if it is there. -/
def decodeU64 : Option Json → Except DecodeError (Option UInt64)
  | none | some .null => .ok none
  | some v => match v.asU64? with
    | some n => .ok (some n)
    | none => .error (.invalidType v "u64")

/-- A number that has to fit 64 signed bits, if it is there. -/
def decodeI64 : Option Json → Except DecodeError (Option Int)
  | none | some .null => .ok none
  | some v => match v.asI64? with
    | some n => .ok (some n)
    | none => .error (.invalidType v "i64")

/-- Read an entry; the fields are read in the order of their names. -/
def ofJson (v : Json) : Except DecodeError Backup :=
  match v with
  | .obj fields => do
      let filename ← match Collections.findEntry "filename" fields with
        | some v => do pure (some (← decodeString v))
        | none => pure none
      let size ← decodeU64 (Collections.findEntry "size" fields)
      let time ← decodeI64 (Collections.findEntry "time" fields)
      match filename with
      | some filename => pure ⟨filename, size, time⟩
      | none => throw (.missingField "filename")
  | .arr [] => .error (.invalidLength 0 "struct Backup with 3 elements")
  | .arr [_] => .error (.invalidLength 1 "struct Backup with 3 elements")
  | .arr [_, _] => .error (.invalidLength 2 "struct Backup with 3 elements")
  | .arr (filename :: size :: time :: rest) => do
      let filename ← decodeString filename
      let size ← decodeU64 (some size)
      let time ← decodeI64 (some time)
      if rest.isEmpty then pure ⟨filename, size, time⟩
      else throw (.invalidLength (rest.length + 3) "fewer elements in array")
  | v => .error (.invalidType v "struct Backup")

/-- A signed number as JSON. -/
def ofInt (n : Int) : Json :=
  if n < 0 then .num (.negInt (Int64.ofInt n)) else .num (.posInt (UInt64.ofNat n.toNat))

/-- An entry as it is answered; what is absent is left out. -/
def toJson (backup : Backup) : Json :=
  .obj (("filename", .str backup.filename) ::
    ((backup.size.map fun n => ("size", .num (.posInt n))).toList ++
      (backup.time.map fun n => ("time", ofInt n)).toList))

end Backup

/-- Read a backup list. -/
def parseBackups (raw : Json) : Except UnifiError (List Backup) := do
  let data ← unwrapEnvelopedData raw
  data.mapM fun item =>
    (Backup.ofJson item).mapError fun e =>
      .malformed s!"backup entry parse failed: {e.toString}"

/-- The most backups that are answered. -/
def maxBackupItems : Nat := 100

/-- The answer to a backup list, cut to the most that are shown. -/
def backupListJson (backups : List Backup) : Json :=
  let shown := backups.take maxBackupItems
  let truncated := decide (maxBackupItems < backups.length)
  let count (n : Nat) : Json := .num (.posInt (UInt64.ofNat n))
  .obj
    [("backups", .arr (shown.map Backup.toJson)),
      ("marker",
        if truncated then .str s!"truncated: {shown.length} of {backups.length} shown" else .null),
      ("shown", count shown.length),
      ("total", count backups.length),
      ("truncated", .bool truncated)]

/-! ## The actions -/

namespace UnifiClient

variable (c : UnifiClient)

/-- Send one command to a command endpoint of a site. -/
def postCommand (endpoint site : String) (body : Json) : ClientM Json :=
  c.post .privateV1 s!"/proxy/network/api/s/\x7bsite\x7d/cmd/{endpoint}" [("site", site)] [] body

/-- The command a device action sends.  The arguments have been checked, so that what an
action requires is there. -/
def deviceCommand (args : DeviceActionArgs) (site : String) : ClientM String :=
  match args.action with
  | .restart => pure "restart"
  | .locate => pure "set-locate"
  | .adopt => do
      let device ← findPrivateDevice c site args.device
      Fallible.ofExcept
        (adoptCommand device args.device (args.expectedModel.getD "") args.expectedSerial)
  | .upgrade => do
      let device ← findPrivateDevice c site args.device
      Fallible.ofExcept (upgradeCommand device args.device (args.firmwareVersion.getD ""))
  | .portAction => do
      let device ← findPrivateDevice c site args.device
      Fallible.ofExcept (portActionCommand device args.device (args.portIndex.getD 0))

/-- Execute an operational action on a device. -/
def deviceAction (args : DeviceActionArgs) : ClientM Json := do
  Fallible.ofExcept args.validate
  let site := args.site.getD c.controller.site
  let cmd ← c.deviceCommand args site
  let body := [("cmd", Json.str cmd), ("mac", .str args.device)]
  let port :=
    if args.action = .portAction then
      [("port_idx", Json.num (.posInt (args.portIndex.getD 0).toUInt64))]
    else []
  c.postCommand "devmgr" site (.obj (body ++ port))

/-- Execute an operational action on a client. -/
def clientAction (args : ClientActionArgs) : ClientM Json := do
  Fallible.ofExcept args.validate
  let site := args.site.getD c.controller.site
  let cmd := match args.action with
    | .block => "block-sta"
    | .unblock => "unblock-sta"
    | .reconnect => "kick-sta"
  c.postCommand "stamgr" site (.obj [("cmd", .str cmd), ("mac", .str args.client)])

/-- Execute a backup action on the controller. -/
def backupAction (args : BackupActionArgs) : ClientM Json := do
  Fallible.ofExcept args.validate
  let site := args.site.getD c.controller.site
  match args.action with
  | .list => do
      let raw ← c.postCommand "backup" site (.obj [("cmd", .str "list-backups")])
      let backups ← Fallible.ofExcept (parseBackups raw)
      pure (backupListJson backups)
  | .trigger =>
      c.postCommand "backup" site
        (.obj [("cmd", .str "backup"), ("days", .num (.posInt 0))])

end UnifiClient

end UnifiMcp
