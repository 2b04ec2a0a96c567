/-
The changing actions of the network helper (`network-tool.py`): the commands they
run, how each may end, and what is undone when one fails.
-/
import CybexOS.Network.Dns
import CybexOS.Programs
import CybexOS.Utf8

namespace CybexOS

namespace Network

open Program (effect look fail catching)

/-! ### Commands -/

/-- The commands of an action, each of which runs at most once in it. -/
inductive Command where
  | list (again : Bool)
  | show (uuid : Text)
  | link (interface : Text)
  | modifyDns (uuid : Text) (rollback : Bool)
  | reapply (device : Text)
  | add
  | configure (uuid : Text)
  | delete (uuid : Text)
  | up (uuid : Text) (rollback : Bool)
  | modifyBand (uuid : Text) (rollback : Bool)
  | disconnect (interface : Text)
deriving DecidableEq

/-- How a command ends; one that timed out may have taken effect. -/
inductive Reply where
  | ok
  | failed
  | timedOut (tookEffect : Bool)
  | missing
deriving DecidableEq

/-- What the commands of one action meet. -/
structure Nmcli where
  reply : Command → Reply
  /-- The first line of a command's diagnostics. -/
  detail : Command → Text
  newUuid : Text
  /-- What `connection add` prints. -/
  addOutput : Text
  /-- The frequency that `iw` reports. -/
  frequency : Option ℤ

/-- The saved profiles, and the device each active one is on. -/
structure World where
  profiles : List Profile
  devices : List (Text × Text)

abbrev Action := Program World ToolError

def Command.program : Command → Text
  | .link _ => ascii "iw"
  | _ => ascii "nmcli"

def commandFailed : Text := ascii "command_failed"

/-- `run`; the result tells whether the return code is zero. -/
def run (nmcli : Nmcli) (command : Command) (label code : Text) (secret check : Bool)
    (change : World → World) : Action Bool :=
  match nmcli.reply command with
  | .ok => do
      effect change
      pure true
  | .failed =>
      if check then
        let fallback := label ++ ascii " failed"
        fail ⟨code, if secret ∨ nmcli.detail command = [] then fallback else nmcli.detail command⟩
      else pure false
  | .timedOut tookEffect => do
      if tookEffect then effect change
      fail ⟨ascii "timeout", label ++ ascii " timed out"⟩
  | .missing => fail ⟨ascii "missing_dependency", command.program ++ ascii " is not installed"⟩

/-! ### Requests -/

structure DnsRequest where
  provider : Text
  servers : RawServers

structure WifiRequest where
  action : Text
  interface : Text
  uuid : Text
  ssid : Text
  security : Text
  password : Option Text
  identity : Option Text
  saved : Bool
  hidden : Bool

/-- `frequency` is `none` when it is no number. -/
structure BandRequest where
  uuid : Text
  band : Text
  interface : Text
  frequency : Option ℤ

def invalidRequest (message : String) : ToolError := ⟨ascii "invalid_request", ascii message⟩

def isUuid (text : Text) : Bool :=
  (text.splitOn 45).map List.length = [8, 4, 4, 4, 12] ∧ (text.splitOn 45).all (·.all isHex)

def requireUuid (value : Text) : Except ToolError Text :=
  if isUuid value then .ok value
  else .error (invalidRequest "A valid connection UUID is required")

/-- `IFACE_RE.fullmatch` -/
def isInterface (text : Text) : Bool :=
  1 ≤ text.length && text.length ≤ 64 && text.all fun c =>
    isAlnum c || [95, 46, 58, 64, 43, 45].contains c

def requireInterface (value : Text) : Except ToolError Text :=
  if isInterface value then .ok value
  else .error (invalidRequest "A valid network interface is required")

/-- A character that would break a line of nmcli's input. -/
def breaksLine (text : Text) : Bool := text.any fun c => c == 0 || c == 10 || c == 13

def requireSsid (value : Text) : Except ToolError Text :=
  if value = [] ∨ breaksLine value then
    .error (invalidRequest "A Wi-Fi network name is required")
  else if 32 < (value.flatMap Utf8.encodeChar).length then
    .error (invalidRequest "The Wi-Fi network name is longer than 32 bytes")
  else .ok value

def credential (value : Option Text) (label : String) : Except ToolError Text :=
  let candidate := value.getD []
  if breaksLine candidate ∨ 4096 < candidate.length then
    .error ⟨ascii "invalid_credentials",
      ascii "The " ++ ascii label ++ ascii " contains unsupported characters"⟩
  else if candidate = [] then
    .error ⟨ascii "invalid_credentials", ascii "Enter the " ++ ascii label⟩
  else .ok candidate

inductive SecurityKind where
  | opened
  | owe
  | wep
  | enterprise
  | wpa3
  | wpa
  | unsupported
deriving DecidableEq

/-- `str.upper` of ASCII letters. -/
def upper (text : Text) : Text := text.map fun c => if isLower c then c - 32 else c

def securityKind (value : Text) : SecurityKind :=
  let raw := upper value
  let named := fun token => decide (ascii token <:+: raw)
  if raw ∈ [[], ascii "--", ascii "NONE", ascii "OPEN"] then .opened
  else if named "OWE" then .owe
  else if named "WEP" then .wep
  else if ["EAP", "802.1X", "ENTERPRISE", "LEAP"].any named then .enterprise
  else if named "SAE" ∨ named "WPA3" then .wpa3
  else if named "WPA" ∨ named "PSK" then .wpa
  else .unsupported

def unsupportedSecurity : ToolError :=
  ⟨ascii "unsupported_security", ascii "Use Network Settings for this network's security method"⟩

def passwdFile (kind : SecurityKind) (request : WifiRequest) : Except ToolError Text :=
  match kind with
  | .opened | .owe => .ok []
  | .wep => do
      let password ← credential request.password "WEP key"
      .ok (ascii "802-11-wireless-security.wep-key0:" ++ password ++ [10])
  | .wpa | .wpa3 => do
      let password ← credential request.password "password"
      .ok (ascii "802-11-wireless-security.psk:" ++ password ++ [10])
  | .enterprise => do
      let identity ← credential request.identity "identity"
      let password ← credential request.password "password"
      .ok (ascii "802-1x.identity:" ++ identity ++ [10] ++ ascii "802-1x.password:" ++ password ++
        [10])
  | .unsupported => .error unsupportedSecurity

/-! ### Reading profiles -/

structure Summary where
  name : Text
  uuid : Text
  connectionType : Text
  /-- Empty unless the profile is active. -/
  device : Text

/-- What `get_profile_detail` returns. -/
structure Detail where
  profile : Profile
  device : Text

def Summary.active (summary : Summary) : Bool := summary.device ≠ []

def World.deviceOf (w : World) (uuid : Text) : Text := (w.devices.lookup uuid).getD []

def World.summary (w : World) (profile : Profile) : Summary :=
  ⟨profile.name, profile.uuid, profile.connectionType, w.deviceOf profile.uuid⟩

def World.profile? (w : World) (uuid : Text) : Option Profile :=
  w.profiles.find? fun profile => profile.uuid = uuid

section

variable (nmcli : Nmcli)

def profileSummaries (again : Bool) : Action (List Summary) := do
  let _ ← run nmcli (.list again) (ascii "NetworkManager profile status") commandFailed false true id
  look fun w => w.profiles.map w.summary

def getProfileDetail (summary : Summary) : Action Detail := do
  let uuid ← Program.ofExcept (requireUuid summary.uuid)
  let label := ascii "profile " ++ if summary.name = [] then uuid else summary.name
  let _ ← run nmcli (.show uuid) label commandFailed false true id
  match ← look fun w => w.profile? uuid with
  | some profile => pure ⟨profile, summary.device⟩
  | none => fail ⟨commandFailed, label ++ ascii " failed"⟩

def isPhysicalType (connectionType : Text) : Bool := (PHYSICAL_TYPES.lookup connectionType).isSome

def physicalProfiles : Action (List Detail) := do
  let summaries ← profileSummaries nmcli false
  let summaries := summaries.filter fun summary => isPhysicalType summary.connectionType
  if 128 < summaries.length then
    fail ⟨ascii "too_many_profiles", ascii "Too many physical network profiles to update safely"⟩
  else summaries.mapM (getProfileDetail nmcli)

/-! ### DNS -/

def World.setDns (uuid : Text) (settings : DnsSettings) (w : World) : World :=
  { w with profiles := w.profiles.map fun profile =>
      if profile.uuid = uuid then { profile with dns := settings } else profile }

def modifyDns (uuid : Text) (settings : DnsSettings) (rollback : Bool) : Action Unit := do
  let uuid ← Program.ofExcept (requireUuid uuid)
  let _ ← run nmcli (.modifyDns uuid rollback)
    (ascii (if rollback then "DNS rollback" else "DNS profile update"))
    (ascii (if rollback then "dns_rollback_failed" else "dns_modify_failed")) false true
    (World.setDns uuid settings)

inductive Payload where
  | dnsStatus (state : DnsState) (mixed : Bool) (profiles : List Detail)
  | dns (configuration : Configuration) (profiles : Nat) (reapplied reconnectDevices : List Text)
  | wifi (action uuid interface : Text) (created : Bool)
  | bandStatus (selected : Text) (profile : Detail)
  | band (selected uuid : Text)

/-- The profiles that cannot be rolled back, of those attempted last first. -/
def rollbackDns (failures : List Text) : List Detail → Action (List Text)
  | [] => pure failures
  | detail :: attempted => do
      let failed ← catching
        (do modifyDns nmcli detail.profile.uuid detail.profile.dns true; pure false)
        fun _ => pure true
      rollbackDns (if failed then failures ++ [detail.profile.name] else failures) attempted

/-- The `except` of `dns_action`. -/
def undoDns (attempted : List Detail) (original : ToolError) : Action Unit := do
  let failures ← rollbackDns nmcli [] attempted
  if failures = [] then fail original
  else fail ⟨ascii "dns_rollback_failed",
    ascii "DNS update failed and rollback also failed for " ++
      List.intercalate (ascii ", ") failures⟩

/-- The `try` of `dns_action`; `attempted` has the last one first. -/
def modifyTargets (settings : DnsSettings) (attempted : List Detail) : List Detail → Action Unit
  | [] => pure ()
  | detail :: targets => do
      catching (modifyDns nmcli detail.profile.uuid settings false)
        (undoDns nmcli (detail :: attempted))
      modifyTargets settings (detail :: attempted) targets

/-- The devices reapplied, and those to be reconnected. -/
def reapplyDevices (reapplied reconnect : List Text) : List Text → Action (List Text × List Text)
  | [] => pure (reapplied, reconnect)
  | device :: devices => do
      let ok ← run nmcli (.reapply device) (ascii "DNS reapply") commandFailed false false id
      if ok then reapplyDevices (reapplied ++ [device]) reconnect devices
      else reapplyDevices reapplied (reconnect ++ [device]) devices

/-- The devices of active targets that can be named to nmcli. -/
def activeDevices (targets : List Detail) : List Text :=
  (targets.map Detail.device).eraseDups.filter isInterface

/-- What `dns_action` has found out when it starts to modify profiles. -/
structure DnsPlan where
  configuration : Configuration
  targets : List Detail

def dnsPlan (request : DnsRequest) : Action (Payload ⊕ DnsPlan) := do
  let profiles ← physicalProfiles nmcli
  if lower request.provider ∈ [[], ascii "status", ascii "get"] then
    let state := aggregateDnsState (profiles.map Detail.profile)
    pure (.inl (.dnsStatus state.1 state.2 profiles))
  else do
    let configuration ← Program.ofExcept (providerConfiguration request.provider request.servers)
    pure (.inr ⟨configuration, profiles.filter fun detail => targetProfile detail.profile⟩)

def dnsAction (request : DnsRequest) : Action Payload := do
  match ← dnsPlan nmcli request with
  | .inl status => pure status
  | .inr plan => do
      modifyTargets nmcli plan.configuration.settings [] plan.targets
      let (reapplied, reconnect) ← reapplyDevices nmcli [] [] (activeDevices plan.targets)
      pure (.dns plan.configuration plan.targets.length reapplied reconnect)

/-! ### Wi-Fi -/

/-- `parse_added_uuid`: scanning goes on after a match. -/
def lastUuid (found : Text) : Nat → Text → Text
  | _, [] => found
  | skip + 1, _ :: rest => lastUuid found skip rest
  | 0, c :: rest =>
      if isUuid ((c :: rest).take 36) then lastUuid ((c :: rest).take 36) 35 rest
      else lastUuid found 0 rest

def parseAddedUuid (output : Text) : Text := lastUuid [] 0 output

def inheritDns (uuid : Text) (previous : List Detail) : Action Unit :=
  let state := aggregateDnsState (previous.map Detail.profile)
  if state.2 then pure ()
  else do
    let configuration ← Program.ofExcept
      (providerConfiguration state.1.provider (.list (state.1.servers.map some)))
    modifyDns nmcli uuid configuration.settings false

def World.attach (uuid interface : Text) (w : World) : World :=
  { w with devices := Dict.set (w.devices.filter fun item => item.2 ≠ interface) uuid interface }

def activate (uuid interface : Text) : Action Unit := do
  let uuid ← Program.ofExcept (requireUuid uuid)
  let interface ← Program.ofExcept (requireInterface interface)
  let _ ← run nmcli (.up uuid false) (ascii "Wi-Fi activation") (ascii "activation_failed") true true
    (World.attach uuid interface)

def wireless : Text := ascii "802-11-wireless"

/-- A profile as `connection add` makes it. -/
def newProfile (uuid ssid interface : Text) : Profile where
  name := ssid
  uuid := uuid
  connectionType := wireless
  interface := interface
  master := []
  slaveType := []
  controller := []
  portType := []
  dns := ⟨[], [], false, false⟩
  band := []
  channel := 0
  properties := [(ascii "802-11-wireless.ssid", ssid)]

def World.add (profile : Profile) (w : World) : World :=
  { w with profiles := w.profiles ++ [profile] }

def World.delete (uuid : Text) (w : World) : World :=
  { profiles := w.profiles.filter fun profile => profile.uuid ≠ uuid
    devices := Dict.pop w.devices uuid }

def World.configure (uuid : Text) (settings : List (Text × Text)) (w : World) : World :=
  { w with profiles := w.profiles.map fun profile =>
      if profile.uuid = uuid then
        { profile with properties := Dict.merge profile.properties settings }
      else profile }

def keyMgmt (value : String) : Text × Text :=
  (ascii "802-11-wireless-security.key-mgmt", ascii value)

/-- The settings of a new profile, by the network's kind of security. -/
def securitySettings : SecurityKind → Except ToolError (List (Text × Text))
  | .opened => .ok []
  | .owe => .ok [keyMgmt "owe"]
  | .wep => .ok [keyMgmt "none", (ascii "802-11-wireless-security.wep-key-type", ascii "key")]
  | .wpa => .ok [keyMgmt "wpa-psk"]
  | .wpa3 => .ok [keyMgmt "sae"]
  | .enterprise => .ok [keyMgmt "wpa-eap", (ascii "802-1x.eap", ascii "peap"),
      (ascii "802-1x.phase2-auth", ascii "mschapv2")]
  | .unsupported => .error unsupportedSecurity

/-- Delete the profile that was created, and go on with the failure. -/
def removeCreated (uuid : Text) (label : String) (error : ToolError) : Action Unit := do
  let _ ← run nmcli (.delete uuid) (ascii label) commandFailed false false (World.delete uuid)
  fail error

/-- The new profile's uuid: from what `add` printed, or the one profile that was
not there before. -/
def identifyCreated (previous : List Detail) : Action Text := do
  let printed := parseAddedUuid nmcli.addOutput
  let uuid ← (if printed ≠ [] then pure printed
    else do
      let summaries ← profileSummaries nmcli true
      match summaries.filter fun summary => summary.connectionType = wireless ∧
          summary.uuid ∉ previous.map fun detail => detail.profile.uuid with
      | [fresh] => pure fresh.uuid
      | _ => pure printed : Action Text)
  if isUuid uuid then pure uuid
  else fail ⟨ascii "profile_create_failed",
    ascii "NetworkManager did not identify the new profile"⟩

def prepareCreated (request : WifiRequest) (previous : List Detail) (uuid : Text) :
    Action Unit := do
  let security ← Program.ofExcept (securitySettings (securityKind request.security))
  let settings :=
    (if request.hidden then [(ascii "802-11-wireless.hidden", ascii "yes")] else []) ++ security
  let _ ← (if settings ≠ [] then
      run nmcli (.configure uuid) (ascii "Configure Wi-Fi profile") commandFailed false true
        (World.configure uuid settings)
    else pure true : Action Bool)
  inheritDns nmcli uuid previous

/-- A new profile, up to the point where it can be activated. -/
def createProfile (request : WifiRequest) (interface ssid : Text) (previous : List Detail) :
    Action Text := do
  let _ ← run nmcli .add (ascii "Create Wi-Fi profile") commandFailed false true
    (World.add (newProfile nmcli.newUuid ssid interface))
  let uuid ← identifyCreated nmcli previous
  catching (prepareCreated nmcli request previous uuid)
    (removeCreated nmcli uuid "Remove incomplete Wi-Fi profile")
  pure uuid

/-- What a connect request has found out when it starts to change profiles. -/
structure ConnectPlan where
  interface : Text
  /-- The profile to use, or the name of the network and the profiles there are. -/
  profile : Text ⊕ Text × List Detail

/-- The secrets of a connect request; a saved profile has its own. -/
def connectSecrets (request : WifiRequest) : Except ToolError Text :=
  if request.uuid ≠ [] ∧ request.saved ∧ request.password.getD [] = [] ∧
      request.identity.getD [] = [] then .ok []
  else passwdFile (securityKind request.security) request

def connectPlan (request : WifiRequest) : Action ConnectPlan := do
  let interface ← Program.ofExcept (requireInterface request.interface)
  let _ ← Program.ofExcept (connectSecrets request)
  if request.uuid ≠ [] then do
    let uuid ← Program.ofExcept (requireUuid request.uuid)
    pure ⟨interface, .inl uuid⟩
  else do
    let ssid ← Program.ofExcept (requireSsid request.ssid)
    let previous ← physicalProfiles nmcli
    pure ⟨interface, .inr (ssid, previous)⟩

def connect (request : WifiRequest) : Action Payload := do
  let plan ← connectPlan nmcli request
  match plan.profile with
  | .inl uuid => do
      activate nmcli uuid plan.interface
      pure (.wifi request.action uuid plan.interface false)
  | .inr (ssid, previous) => do
      let uuid ← createProfile nmcli request plan.interface ssid previous
      catching (activate nmcli uuid plan.interface)
        (removeCreated nmcli uuid "Remove failed Wi-Fi profile")
      pure (.wifi request.action uuid plan.interface true)

def wifiAction (request : WifiRequest) : Action Payload :=
  if request.action = ascii "disconnect" then do
    let interface ← Program.ofExcept (requireInterface request.interface)
    let _ ← run nmcli (.disconnect interface) (ascii "Wi-Fi disconnect") commandFailed false true
      fun w => { w with devices := w.devices.filter fun item => item.2 ≠ interface }
    pure (.wifi request.action [] interface false)
  else if request.action = ascii "forget" then do
    let uuid ← Program.ofExcept (requireUuid request.uuid)
    let _ ← run nmcli (.delete uuid) (ascii "Forget Wi-Fi network") commandFailed false true
      (World.delete uuid)
    pure (.wifi request.action uuid [] false)
  else if request.action ≠ ascii "connect" then fail (invalidRequest "Unknown Wi-Fi action")
  else connect nmcli request

/-! ### Bands -/

def invalidBand (message : String) : ToolError := ⟨ascii "invalid_band", ascii message⟩

def frequencyTo6ghzChannel (frequency : Option ℤ) : Except ToolError Nat :=
  match frequency with
  | none => .error (invalidBand "A scanned 6 GHz frequency is required")
  | some value =>
      let channel := (2 * (value - 5950) + 5) / 10
      if value = 5935 then .ok 2
      else if value < 5955 ∨ 7115 < value ∨ channel < 1 ∨ 233 < channel then
        .error (invalidBand "The selected access point is not in the 6 GHz band")
      else .ok channel.toNat

def selectedBand (profile : Profile) : Text :=
  if lower profile.band = ascii "bg" then ascii "2.4"
  else if lower profile.band = ascii "a" then
    if 180 < profile.channel then ascii "6" else ascii "5"
  else ascii "auto"

def World.setBand (uuid band : Text) (channel : Nat) (w : World) : World :=
  { w with profiles := w.profiles.map fun profile =>
      if profile.uuid = uuid then { profile with band := band, channel := channel } else profile }

def modifyBand (uuid band : Text) (channel : Nat) (rollback : Bool) : Action Unit := do
  let uuid ← Program.ofExcept (requireUuid uuid)
  let _ ← run nmcli (.modifyBand uuid rollback)
    (ascii (if rollback then "Band rollback" else "Band profile update"))
    (ascii (if rollback then "band_rollback_failed" else "band_modify_failed")) false true
    (World.setBand uuid band channel)

/-- `connection up` after a change of the band. -/
def reconnectBand (uuid interface : Text) (rollback : Bool) : Action Unit := do
  let _ ← run nmcli (.up uuid rollback)
    (ascii (if rollback then "Band rollback reconnect" else "Band reconnect"))
    (ascii (if rollback then "band_rollback_failed" else "band_activation_failed")) false true
    (World.attach uuid interface)

/-- What `band_action` has found out when it starts to modify the profile. -/
structure BandPlan where
  uuid : Text
  interface : Text
  selected : Text
  old : Profile
  band : Text
  channel : Nat

/-- The band that is shown as selected, by the link where the profile allows two. -/
def shownBand (detail : Detail) : Action Text :=
  let interface := if detail.device = [] then detail.profile.interface else detail.device
  if detail.profile.band = ascii "a" ∧ detail.profile.channel ≠ 0 ∧ interface ≠ [] then do
    let ok ← run nmcli (.link interface) (ascii "Wi-Fi link lookup") commandFailed false false id
    if ok ∧ nmcli.frequency.any (5925 ≤ ·) then pure (ascii "6")
    else pure (selectedBand detail.profile)
  else pure (selectedBand detail.profile)

/-- What the request asks of the profile, `shown` being its band. -/
def bandChoice (request : BandRequest) (uuid : Text) (detail : Detail) (shown : Text) :
    Except ToolError (Payload ⊕ BandPlan) :=
  if request.band ∈ [[], ascii "status", ascii "get"] then .ok (.inl (.bandStatus shown detail))
  else if request.band ∉ [ascii "auto", ascii "2.4", ascii "5", ascii "6"] then
    .error (invalidBand "Choose Automatic, 2.4, 5, or 6 GHz")
  else do
    let interface ← requireInterface
      (if request.interface ≠ [] then request.interface
        else if detail.device ≠ [] then detail.device else detail.profile.interface)
    let band := if request.band = ascii "auto" then []
      else if request.band = ascii "2.4" then ascii "bg" else ascii "a"
    let channel ← (if request.band = ascii "6" then frequencyTo6ghzChannel request.frequency
      else .ok 0 : Except ToolError Nat)
    .ok (.inr ⟨uuid, interface, request.band, detail.profile, band, channel⟩)

def bandPlan (request : BandRequest) : Action (Payload ⊕ BandPlan) := do
  let uuid ← Program.ofExcept (requireUuid request.uuid)
  let summaries ← profileSummaries nmcli false
  match summaries.find? fun summary => summary.uuid = uuid with
  | none => fail (invalidBand "The active Wi-Fi profile no longer exists")
  | some summary =>
      if summary.connectionType ≠ wireless then
        fail (invalidBand "The active Wi-Fi profile no longer exists")
      else do
        let detail ← getProfileDetail nmcli summary
        let shown ← shownBand nmcli detail
        Program.ofExcept (bandChoice request uuid detail shown)

/-- The `except` of `band_action`. -/
def undoBand (plan : BandPlan) (original : ToolError) : Action Unit := do
  catching
    (do
      modifyBand nmcli plan.uuid plan.old.band plan.old.channel true
      reconnectBand nmcli plan.uuid plan.interface true)
    fun _ => fail ⟨ascii "band_rollback_failed",
      ascii "Band reconnect failed and the previous profile could not be restored"⟩
  fail original

def bandAction (request : BandRequest) : Action Payload := do
  match ← bandPlan nmcli request with
  | .inl status => pure status
  | .inr plan => do
      modifyBand nmcli plan.uuid plan.band plan.channel false
      catching (reconnectBand nmcli plan.uuid plan.interface false) (undoBand nmcli plan)
      pure (.band plan.selected plan.uuid)

/-! ### Actions -/

inductive Request where
  | dns (request : DnsRequest)
  | wifi (request : WifiRequest)
  | band (request : BandRequest)

def action : Request → Action Payload
  | .dns request => dnsAction nmcli request
  | .wifi request => wifiAction nmcli request
  | .band request => bandAction nmcli request

end

end Network

end CybexOS
