/-
DNS in the network panel (`NetworkHelpers.js`): the servers a user may enter and
the state it shows for the profiles that the helper reports.
-/
import CybexOS.JsString
import CybexOS.Network.Dns
import Mathlib.Data.List.Sort

namespace CybexOS

namespace Network

namespace Panel

/-! ### Addresses -/

/-- `/^(0|[1-9]\d{0,2})$/`, up to 255. -/
def isOctet (part : Text) : Bool :=
  (part = [48] || match part with
    | [] => false
    | c :: rest => isDigit c && c ≠ 48 && rest.length ≤ 2 && rest.all isDigit) &&
    decimal part ≤ 255

def isIpv4 (value : Text) : Bool :=
  (value.splitOn 46).length = 4 && (value.splitOn 46).all isOctet

/-- `split("::")` -/
def splitDouble : Text → List Text
  | [] => [[]]
  | [c] => [[c]]
  | c :: d :: rest =>
      if c = 58 ∧ d = 58 then [] :: splitDouble rest
      else (splitDouble (d :: rest)).modifyHead (c :: ·)

/-- `/^[0-9a-f]{1,4}$/` -/
def isWord (text : Text) : Bool :=
  1 ≤ text.length && text.length ≤ 4 && text.all fun c => isDigit c || (97 ≤ c && c ≤ 102)

/-- The loop of `words`: a dotted word may only be the last, and counts for two. -/
def wordsFrom : List Text → Option (List Text)
  | [] => some []
  | word :: rest =>
      if 46 ∈ word then
        if rest = [] ∧ isIpv4 word then some [ascii "0", ascii "0"] else none
      else if isWord word then (wordsFrom rest).map (word :: ·)
      else none

def words (part : Text) : Option (List Text) :=
  if part = [] then some [] else wordsFrom (part.splitOn 58)

def isIpv6 (value : Text) : Bool :=
  let address := lower value
  if address = [] ∨ 37 ∈ address then false
  else
    match splitDouble address with
    | [whole] => (words whole).any fun left => left.length = 8
    | [left, right] =>
        match words left, words right with
        | some left, some right => left.length + right.length < 8
        | _, _ => false
    -- more than one `::`
    | _ => false

/-! ### Requested servers -/

/-- The loop of `validateDnsServers`. -/
def addServers (servers : List Text) : List Text → Except Text (List Text)
  | [] => .ok servers
  | value :: values =>
      let server := lower (jsTrim value)
      if server = [] then addServers servers values
      else if !isIpv4 server && !isIpv6 server then .error (notLiteral server)
      else
        let servers := if server ∈ servers then servers else servers ++ [server]
        if 4 < servers.length then .error (ascii "Enter at most four DNS servers")
        else addServers servers values

/-- The servers, or the error shown. -/
def validateDnsServers (value : Text ⊕ List Text) : Except Text (List Text) := do
  let values := match value with
    | .inl text => text.splitOnP (isSeparator isJsSpace)
    | .inr values => values
  let servers ← addServers [] values
  if servers = [] then .error (ascii "Enter at least one DNS server") else .ok servers

/-! ### The state of profiles -/

/-- The types of `PHYSICAL_TYPES`. -/
def PHYSICAL_TYPES : List (Text × Text) :=
  [(ascii "ethernet", ascii "ethernet"), (ascii "802-3-ethernet", ascii "ethernet"),
    (ascii "wired", ascii "ethernet"), (ascii "wifi", ascii "wifi"),
    (ascii "wireless", ascii "wifi"), (ascii "802-11-wireless", ascii "wifi")]

/-- The `type` that the helper reports. -/
def reportedType (profile : Profile) : Text :=
  (Network.PHYSICAL_TYPES.lookup profile.connectionType).getD profile.connectionType

def physicalType (profile : Profile) : Text :=
  let type := if reportedType profile ≠ [] then reportedType profile else profile.connectionType
  (PHYSICAL_TYPES.lookup (lower type)).getD []

def standalonePhysicalProfile (profile : Profile) : Bool :=
  let first := fun one other : Text => if one ≠ [] then one else other
  physicalType profile ≠ [] ∧ first profile.master profile.controller = [] ∧
    first profile.slaveType profile.portType = [] ∧ profile.standalone

def dnsValues (values : List Text) : List Text := (values.map lower).filter (· ≠ [])

/-- `sort` by code units. -/
def sorted (values : List Text) : List Text := values.mergeSort fun a b => decide (a ≤ b)

def sameSet (a b : List Text) : Bool := sorted a = sorted b

def profileDnsState (dns : DnsSettings) : DnsState :=
  let servers := dnsValues dns.ipv4Dns ++ dnsValues dns.ipv6Dns
  let ignores := dns.ipv4IgnoreAutoDns && dns.ipv6IgnoreAutoDns
  if servers = [] ∧ dns.ipv4IgnoreAutoDns = false ∧ dns.ipv6IgnoreAutoDns = false then
    ⟨ascii "Automatic", []⟩
  else
    match DNS_PROVIDERS.find? fun provider => ignores && sameSet servers provider.2 with
    | some (name, servers) => ⟨name, servers⟩
    | none => ⟨ascii "Custom", servers⟩

def signature (state : DnsState) : Text :=
  state.provider ++ 58 :: List.intercalate [44] (sorted state.servers)

/-- `dnsState`, with the flag `mixed`; its label is its provider. -/
def dnsState (profiles : List Profile) : DnsState × Bool :=
  match (profiles.filter standalonePhysicalProfile).map fun profile =>
      profileDnsState profile.dns with
  | [] => (⟨ascii "Automatic", []⟩, false)
  | first :: states =>
      if states.any fun state => signature state ≠ signature first then (⟨ascii "Mixed", []⟩, true)
      else (first, false)

end Panel

end Network

end CybexOS
