/-
DNS settings of saved profiles in the network helper (`network-tool.py`): the
servers of a request, the configuration of a provider and the state of profiles.
-/
import CybexOS.Dict
import CybexOS.Displays.PyValidate
import CybexOS.Network.Address

namespace CybexOS

namespace Network

open Displays.Py (isSpace strip)

structure ToolError where
  code : Text
  message : Text
deriving DecidableEq

structure DnsSettings where
  ipv4Dns : List Text
  ipv6Dns : List Text
  ipv4IgnoreAutoDns : Bool
  ipv6IgnoreAutoDns : Bool
deriving DecidableEq

/-- A profile as NetworkManager saves it; `properties` are its other settings. -/
structure Profile where
  name : Text
  uuid : Text
  connectionType : Text
  interface : Text
  master : Text
  slaveType : Text
  controller : Text
  portType : Text
  dns : DnsSettings
  band : Text
  channel : Nat
  properties : List (Text × Text)
deriving DecidableEq

/-- The keys of `PHYSICAL_TYPES` with their types. -/
def PHYSICAL_TYPES : List (Text × Text) :=
  [(ascii "802-3-ethernet", ascii "ethernet"), (ascii "802-11-wireless", ascii "wifi")]

def DNS_PROVIDERS : List (Text × List Text) :=
  [(ascii "Cloudflare", [ascii "1.1.1.1", ascii "1.0.0.1", ascii "2606:4700:4700::1111",
      ascii "2606:4700:4700::1001"]),
    (ascii "Google", [ascii "8.8.8.8", ascii "8.8.4.4", ascii "2001:4860:4860::8888",
      ascii "2001:4860:4860::8844"])]

def Profile.physical (profile : Profile) : Bool :=
  (PHYSICAL_TYPES.lookup profile.connectionType).isSome

def Profile.standalone (profile : Profile) : Bool :=
  [profile.master, profile.slaveType, profile.controller, profile.portType].all (· = [])

def targetProfile (profile : Profile) : Bool := profile.physical && profile.standalone

/-! ### Requested servers -/

/-- `str.lower` of ASCII letters. -/
def lower (text : Text) : Text := text.map fun c => if isUpper c then c + 32 else c

/-- A separator between servers, `[\s,;]`. -/
def isSeparator (space : Nat → Bool) (c : Nat) : Bool := space c || c == 44 || c == 59

/-- The items between runs of separators. -/
def splitServers (space : Nat → Bool) (text : Text) : List Text :=
  (text.splitOnP (isSeparator space)).filter (· ≠ [])

/-- The `servers` of a request; an item of a list is `none` when it is no string. -/
inductive RawServers where
  | text (value : Text)
  | list (items : List (Option Text))
  | other

def invalidDns (message : Text) : ToolError := ⟨ascii "invalid_dns", message⟩

def notLiteral (item : Text) : Text := item ++ ascii " is not a literal IP address"

/-- The loop of `validate_dns_servers`. -/
def addServers (servers : List Text) : List (Option Text) → Except ToolError (List Text)
  | [] => .ok servers
  | none :: _ => .error (invalidDns (ascii "Every DNS server must be a literal IP address"))
  | some item :: items =>
      match ipAddress (strip item) with
      | none => .error (invalidDns (notLiteral (strip item)))
      | some address =>
          let servers := if address.text ∈ servers then servers else servers ++ [address.text]
          if 4 < servers.length then .error (invalidDns (ascii "Enter at most four DNS servers"))
          else addServers servers items

def validateDnsServers (value : RawServers) : Except ToolError (List Text) := do
  let raw ← match value with
    | .text value => .ok ((splitServers isSpace value).map some)
    | .list items => .ok items
    | .other => .error (invalidDns (ascii "Custom DNS servers must be a string or list"))
  let servers ← addServers [] raw
  if servers = [] then .error (invalidDns (ascii "Enter at least one DNS server"))
  else .ok servers

structure Configuration where
  provider : Text
  servers : List Text
  settings : DnsSettings
deriving DecidableEq

def isV4 (text : Text) : Bool :=
  match ipAddress text with
  | some (.v4 _) => true
  | _ => false

def isV6 (text : Text) : Bool :=
  match ipAddress text with
  | some (.v6 ..) => true
  | _ => false

def providerConfiguration (provider : Text) (custom : RawServers) :
    Except ToolError Configuration :=
  match [ascii "Automatic", ascii "Cloudflare", ascii "Google", ascii "Custom"].find?
      (fun name => lower name = lower provider) with
  | none => .error (invalidDns (ascii "Unknown DNS provider"))
  | some normalized => do
      let servers ← if normalized = ascii "Custom" then validateDnsServers custom
        else .ok ((DNS_PROVIDERS.lookup normalized).getD [])
      let automatic := normalized = ascii "Automatic"
      .ok ⟨normalized, servers, servers.filter isV4, servers.filter isV6, !automatic, !automatic⟩

/-! ### The state of profiles -/

/-- A server as `normalized_servers` writes it. -/
def canonical (value : Text) : Text := ((ipAddress value).map Address.text).getD (lower value)

def normalizedServers (values : List Text) : List Text :=
  values.foldl (fun output value =>
    if canonical value ∈ output then output else output ++ [canonical value]) []

structure DnsState where
  provider : Text
  servers : List Text
deriving DecidableEq

/-- `set(left) == set(right)` -/
def sameMembers (left right : List Text) : Bool :=
  left.all (· ∈ right) && right.all (· ∈ left)

def profileDnsState (dns : DnsSettings) : DnsState :=
  let servers := normalizedServers (dns.ipv4Dns ++ dns.ipv6Dns)
  if servers = [] ∧ dns.ipv4IgnoreAutoDns = false ∧ dns.ipv6IgnoreAutoDns = false then
    ⟨ascii "Automatic", []⟩
  else
    match DNS_PROVIDERS.find? fun provider => dns.ipv4IgnoreAutoDns && dns.ipv6IgnoreAutoDns &&
        sameMembers servers provider.2 with
    | some (name, providerServers) => ⟨name, providerServers⟩
    | none => ⟨ascii "Custom", servers⟩

/-- Equal providers and equal sorted servers. -/
def DnsState.sameSignature (first second : DnsState) : Bool :=
  first.provider = second.provider ∧ first.servers.isPerm second.servers

/-- `aggregate_dns_state`, with the flag `mixed`. -/
def aggregateDnsState (profiles : List Profile) : DnsState × Bool :=
  match (profiles.filter targetProfile).map fun profile => profileDnsState profile.dns with
  | [] => (⟨ascii "Automatic", []⟩, false)
  | first :: states =>
      if states.all first.sameSignature then (first, false) else (⟨ascii "Mixed", []⟩, true)

end Network

end CybexOS
