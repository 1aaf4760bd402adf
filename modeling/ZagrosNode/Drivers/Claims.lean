import Mathlib.Data.Finset.Basic
import ZagrosNode.Drivers.Construct

/-!
# ZagrosNode — what drivers claim to listen on

`listener_claims` of each driver, and `managed_ports`, which collects the ports
of the claims of all enabled cores. A driver that raises is passed over.

The fields of a claim that the collection does not read are left out.

A claim is a port with its protocol, its transport and an address. The drivers differ in
where they take them from: OpenVPN and WireGuard from the rows of their settings, SSH
from those it was built with, PPTP from its one row, SoftEther from the features that
are on, Xray from the rows of its configuration, sing-box from what it renders.

* **Raising.** A row that cannot be read makes the whole `listener_claims` raise, and
  the collection then has no port of the core. PPTP normalises its rows on the way, so
  everything `_normalize_inbound` refuses counts.
* **Public.** A claim stands for no port if its address is a loopback one, or if it is
  that of PPTP's command line. SoftEther's clone of OpenVPN stands for the port in both
  transports.
* **Order.** The collection visits core after core, and a core may be changed in
  between; `visitCore` is one turn, over the core as it then is.

Main results:

* `mem_managedPorts` — the collection is the claimed public ports of the cores whose
  drivers do not raise.
-/

namespace ZagrosNode.Drivers

open ZagrosNode.Lib ZagrosNode.Cores

/-- `ListenerClaim` -/
structure Claim where
  protocol  : String
  transport : String
  address   : String
  port      : Int
  deriving DecidableEq

/-- `ListenerClaim(...)`: the port has to be one. -/
def Claim.make (protocol transport address : String) (port : Int) : Build Claim :=
  if 1 ≤ port ∧ port ≤ 65535 then .ok ⟨protocol, transport, address, port⟩
  else .error (.py ⟨.value, "validation error for ListenerClaim"⟩)

/-- What `listener_claims` reads: the dictionary, and the rows that a driver has
elsewhere. These are `_listeners` of SSH, what sing-box renders, and what is in
the configuration of Xray. Looking at them can fail. -/
structure DriverState where
  settings : Settings
  rows     : Build (List Json)

/-- `d[key]` -/
def item (d : Settings) (key : String) : Except PyErr Json :=
  match Json.get? d key with
  | some v => .ok v
  | none   => .error ⟨.key, key⟩

/-- `v.get`, which only a dictionary has. -/
def entriesOf : Json → Except PyErr Settings
  | .dict entries => .ok entries
  | _             => .error ⟨.attribute, "object has no attribute 'get'"⟩

-- ---------------------------------------------------------------------------
-- Drivers with listener rows
-- ---------------------------------------------------------------------------

def OpenVpn.claim (lang : Lang) (listener : Settings) : Build Claim := do
  let port ← py (item listener "port")
  let port ← py port.int
  let _ ← py (item listener "tag")
  Claim.make "openvpn" (lang.textOr listener "proto" "udp")
    (lang.textOr listener "listen" "0.0.0.0") port

def WireGuard.claim (lang : Lang) (listener : Settings) : Build Claim := do
  let port ← py (item listener "port")
  let port ← py port.int
  Claim.make "wireguard" "udp" (lang.textOr listener "listen" "0.0.0.0") port

def Ssh.claim (lang : Lang) (listener : Settings) : Build Claim := do
  let port ← py (item listener "port")
  let port ← py port.int
  let _ ← py (item listener "tag")
  Claim.make "ssh" "tcp" (lang.textOr listener "listen" "0.0.0.0") port

-- ---------------------------------------------------------------------------
-- PPTP
-- ---------------------------------------------------------------------------

namespace Pptp

/-- `_ALLOWED_INBOUND_KEYS` -/
def allowedKeys : List String :=
  ["tag", "protocol", "listen", "port", "subnet", "dns", "legacy_risk_ack",
    "internet_exposure_ack", "authentication", "encryption", "network", "ipv6", "security_class",
    "transport", "security"]

/-- `[A-Za-z0-9][A-Za-z0-9_.-]{0,63}` -/
def safeTag (tag : String) : Bool :=
  match tag.toList with
  | []      => false
  | c :: cs => c.isAlphanum &&
    (cs.all fun c => c.isAlphanum || decide (c ∈ ['_', '.', '-'])) && decide (cs.length ≤ 63)

/-- The value is the string. -/
def isText (text : String) : Json → Bool
  | .str s => s == text
  | _      => false

/-- The value is missing or the string. -/
def noneOrText (text : String) : Json → Bool
  | .null => true
  | v     => isText text v

/-- `v is flag` -/
def isFlag (flag : Bool) : Json → Bool
  | .bool b => b == flag
  | _       => false

def refuse {α : Type} (text : String) : Build α := .error (.core text)

/-- One address of `_parse_dns`; blank ones are passed over. -/
def dnsServer (lang : Lang) (v : Json) : Build (Option String) :=
  let text := String.ofList (strip (lang.str v).toList)
  if text = "" then .ok none
  else
    match lang.addressVersion text with
    | .error _      => refuse s!"invalid PPTP DNS address '{text}'"
    | .ok version   =>
      if version = 4 then .ok (some text) else refuse "PPTP DNS servers must be IPv4"

/-- `_parse_dns` -/
def parseDns (lang : Lang) (value : Json) : Build (List Json) := do
  let raw := match value with
    | .list xs => xs
    | v        => ((lang.str (v.or (.str ""))).splitOn ",").map Json.str
  let servers ← raw.mapM (dnsServer lang)
  .ok ((servers.reduceOption.take 2).map Json.str)

/-- What `_normalize_inbound` refuses before it looks at the network. -/
def checkInbound (lang : Lang) (raw : Settings) : Build String := do
  let unknown := ((raw.map Prod.fst).filter fun key => !allowedKeys.contains key).mergeSort
    fun a b => decide (a ≤ b)
  if unknown ≠ [] then
    refuse s!"unsupported PPTP inbound fields: {lang.repr (.list (unknown.map .str))}"
  else
  let tag := lang.label (Json.getD raw "tag")
  if !safeTag tag then refuse "PPTP inbound tag must be 1-64 safe characters"
  else if !isText "pptp" (Json.getD raw "protocol") then
    refuse "independent PPTP provider only accepts protocol='pptp'"
  else if !(noneOrText "tcp" (Json.getD raw "transport") &&
      noneOrText "none" (Json.getD raw "security")) then
    refuse "PPTP transport is fixed to TCP control + GRE with no TLS layer"
  else if !noneOrText "0.0.0.0" (Json.getD raw "listen") then
    refuse "ACCEL-PPP PPTP 1.14.0 listener is fixed to 0.0.0.0"
  else
  let port ← py (intOr raw "port" 0)
  if port ≠ 1723 then refuse "PPTP control port is fixed to TCP/1723"
  else if !isFlag true (Json.getD raw "legacy_risk_ack") then
    refuse "explicit Legacy/Insecure risk confirmation is required"
  else if !isFlag true (Json.getD raw "internet_exposure_ack") then
    refuse "explicit Internet exposure confirmation is required"
  else if !isText "MS-CHAPv2" (Json.getD raw "authentication") then
    refuse "PPTP authentication is fixed to MS-CHAPv2 only"
  else if !isText "MPPE128" (Json.getD raw "encryption") then
    refuse "PPTP encryption is fixed to mandatory MPPE128"
  else if !(isText "IPv4" (Json.getD raw "network") && isFlag false (Json.getD raw "ipv6")) then
    refuse "PPTP provider is IPv4-only; IPv6 is unsupported"
  else if !noneOrText "legacy_insecure" (Json.getD raw "security_class") then
    refuse "PPTP security_class must be legacy_insecure"
  else .ok tag

/-- `_normalize_inbound` -/
def normalizeInbound (lang : Lang) : Json → Build Settings
  | .dict raw => do
    let tag ← checkInbound lang raw
    match lang.strictNetwork (lang.textOr raw "subnet" "") with
    | .error e    => refuse s!"invalid PPTP IPv4 subnet: {e.text}"
    | .ok network =>
      if network.version ≠ 4 ∨ network.isPrivate = false then
        refuse "PPTP subnet must be a private IPv4 network"
      else if network.prefixlen < 24 ∨ 29 < network.prefixlen then
        refuse "PPTP subnet prefix must be between /24 and /29"
      else if network.numAddresses < 8 then refuse "PPTP subnet has insufficient addresses"
      else do
        let dns ← parseDns lang ((Json.getD raw "dns").or (.str "1.1.1.1, 8.8.8.8"))
        .ok
          (texts [("tag", tag), ("protocol", "pptp"), ("listen", "0.0.0.0")] ++
            [("port", .num 1723)] ++ texts [("transport", "tcp"), ("security", "none"),
              ("subnet", network.text)] ++
            [("dns", .list dns), ("legacy_risk_ack", .bool true),
              ("internet_exposure_ack", .bool true)] ++
            texts [("authentication", "MS-CHAPv2"), ("encryption", "MPPE128"),
              ("network", "IPv4")] ++
            [("ipv6", .bool false), ("security_class", .str "legacy_insecure")])
  | _ => refuse "PPTP inbound must be an object"

/-- `rows[0]` of a value that is not false. -/
def firstOf : Json → Build Json
  | .list (row :: _) => .ok row
  | .str s           =>
    match s.toList with
    | c :: _ => .ok (.str c.toString)
    | []     => .error (.py ⟨.value, "string index out of range"⟩)
  | .dict _ => .error (.py ⟨.key, "0"⟩)
  | _       => .error (.py ⟨.type, "object is not subscriptable"⟩)

/-- `_listener(required=False)` -/
def listener (lang : Lang) (s : Settings) : Build (Option Settings) :=
  if (Json.getD s "inbounds").truthy then do
    let row ← firstOf (Json.getD s "inbounds")
    let inbound ← normalizeInbound lang row
    .ok (some inbound)
  else .ok none

def claims (lang : Lang) (s : Settings) : Build (List Claim) := do
  match ← listener lang s with
  | none   => .ok []
  | some _ => do
    let control ← Claim.make "pptp" "tcp" "0.0.0.0" 1723
    let management ← py (item s "management_port")
    let management ← py management.int
    let cli ← Claim.make "accel-ppp-cli" "tcp" "127.0.0.1" management
    .ok [control, cli]

end Pptp

-- ---------------------------------------------------------------------------
-- SoftEther
-- ---------------------------------------------------------------------------

namespace SoftEther

/-- `settings.get(key)` is true. -/
def has (s : Settings) (key : String) : Bool := (Json.getD s key).truthy

/-- The claims of a feature that is on. -/
def feature (on : Bool) (claims : Build (List Claim)) : Build (List Claim) :=
  if on then claims else .ok []

/-- The ports of `ovpn_ports` that are some. -/
def ovpnPorts (lang : Lang) (s : Settings) : List Int :=
  ((lang.textOr s "ovpn_ports" "1194").splitOn ",").filterMap fun raw =>
    match intOfStr raw with
    | .ok port => if 1 ≤ port ∧ port ≤ 65535 then some port else none
    | .error _ => none

def claims (lang : Lang) (s : Settings) : Build (List Claim) := do
  let sstp ← feature (has s "feature_sstp") do
    let port ← py (intOr s "sstp_port" 443)
    let claim ← Claim.make "sstp" "tcp" "0.0.0.0" port
    .ok [claim]
  let plain ← feature (has s "feature_softether") do
    let port ← py (intOr s "native_port" 5555)
    let claim ← Claim.make "softether" "tcp" "0.0.0.0" port
    .ok [claim]
  let ipsec ← feature (has s "feature_l2tp" || has s "feature_etherip")
    ([500, 4500].mapM fun port => Claim.make "ipsec" "udp" "0.0.0.0" port)
  let raw ← feature (has s "feature_l2tp_raw")
    ([1701].mapM fun port => Claim.make "l2tp" "udp" "0.0.0.0" port)
  let clone ← feature (has s "feature_ovpn")
    ((ovpnPorts lang s).mapM fun port => Claim.make "openvpn-clone" "tcp" "0.0.0.0" port)
  .ok (sstp ++ plain ++ ipsec ++ raw ++ clone)

end SoftEther

-- ---------------------------------------------------------------------------
-- Xray and sing-box
-- ---------------------------------------------------------------------------

/-- The claims of one port, one for each transport. -/
def claimsOf (protocol address : String) (port : Int) (transports : List String) :
    Build (List Claim) :=
  transports.mapM fun transport => Claim.make protocol transport address port

namespace Xray

/-- One row of `inbounds()`: what the backend tells of a row of its
configuration, under the row's tag. -/
def inbound (lang : Lang) (row : Json) : Except PyErr (String × Settings) := do
  let row ← entriesOf row
  let stream ← entriesOf ((Json.getD row "streamSettings").or (.dict []))
  let tag ← item row "tag"
  .ok (lang.str tag,
    [("tag", tag), ("protocol", Json.getD row "protocol"), ("port", Json.getD row "port"),
      ("network", (Json.get? stream "network").getD (.str "tcp")),
      ("tls", (Json.get? stream "security").getD (.str "none")), ("host", .list []),
      ("sni", .list []), ("path", .str ""), ("header_type", .str "")])

/-- `inbounds()`: of rows with one tag the last one stands. -/
def inbounds (lang : Lang) (rows : List Json) : Except PyErr (Dict String Settings) :=
  (rows.mapM (inbound lang)).map Dict.ofPairs

/-- The value is one of the strings; what has no hash cannot be looked for. -/
def isOneOf (names : List String) (v : Json) : Except PyErr Bool :=
  match v with
  | .str s => .ok (decide (s ∈ names))
  | v      => if v.hashable then .ok false else .error ⟨.type, "unhashable type"⟩

/-- The claims of one inbound. The backend tells no address, so they are public. -/
def claim (lang : Lang) (inbound : Settings) : Build (List Claim) := do
  let port ← py (intOr inbound "port" 0)
  if port = 0 then .ok []
  else do
    let network := lang.lower (lang.textOr inbound "network" "tcp")
    let both ← py (isOneOf ["shadowsocks", "socks"] (Json.getD inbound "protocol"))
    claimsOf (lang.textOr inbound "protocol" "xray") (lang.textOr inbound "listen" "0.0.0.0") port
      (if both then ["tcp", "udp"]
        else if decide (network ∈ ["quic", "kcp", "mkcp"]) then ["udp"] else ["tcp"])

def claims (lang : Lang) (rows : List Json) : Build (List Claim) := do
  let inbounds ← py (inbounds lang rows)
  let claims ← (inbounds.entries.map Prod.snd).mapM (claim lang)
  .ok claims.flatten

end Xray

namespace SingBox

/-- The claims of one rendered inbound. -/
def claim (lang : Lang) (inbound : Json) : Build (List Claim) := do
  let inbound ← py (entriesOf inbound)
  let port ← py (intOr inbound "listen_port" 0)
  if port = 0 then .ok []
  else
    let protocol := lang.textOr inbound "type" "sing-box"
    claimsOf protocol (lang.textOr inbound "listen" "0.0.0.0") port
      (if protocol ∈ ["hysteria2", "tuic"] then ["udp"]
        else if protocol ∈ ["shadowsocks", "socks", "mixed"] then ["tcp", "udp"] else ["tcp"])

end SingBox

-- ---------------------------------------------------------------------------
-- All drivers
-- ---------------------------------------------------------------------------

/-- `listener_claims` -/
def listenerClaims (lang : Lang) (core : CoreId) (d : DriverState) : Build (List Claim) := do
  match core with
  | .openvpn   => do
    let rows ← py (OpenVpn.listeners lang d.settings)
    rows.mapM (OpenVpn.claim lang)
  | .pptp      => Pptp.claims lang d.settings
  | .singBox   => do
    let rows ← d.rows
    let claims ← rows.mapM (SingBox.claim lang)
    .ok claims.flatten
  | .softether => SoftEther.claims lang d.settings
  | .ssh       => do
    let rows ← d.rows
    rows.mapM fun row => do
      let row ← py (dictOf row)
      Ssh.claim lang row
  | .wireguard => do
    let rows ← py (WireGuard.listeners d.settings)
    rows.mapM (WireGuard.claim lang)
  | .xray      => do
    let rows ← d.rows
    Xray.claims lang rows

-- ---------------------------------------------------------------------------
-- `managed_ports`
-- ---------------------------------------------------------------------------

/-- The address is a loopback one; what is no address is none. -/
def isLoopback (lang : Lang) (address : String) : Bool :=
  match lang.loopback address with
  | .ok answer => answer
  | .error _   => false

/-- The ports a claim stands for, with their transport (`true` for UDP): none if
it is not public. -/
def Claim.ports (lang : Lang) (c : Claim) : List (Bool × Int) :=
  if isLoopback lang c.address then []
  else if c.protocol = "accel-ppp-cli" then []
  else (decide (lang.lower c.transport = "udp"), c.port) ::
    if c.protocol = "openvpn-clone" then [(true, c.port)] else []

/-- A core as the manager has it. -/
structure Managed where
  enabled : Bool
  driver  : DriverState

/-- The ports a core claims: none if it is not enabled, or its driver raises. -/
def Managed.ports (lang : Lang) (core : CoreId) (m : Managed) : List (Bool × Int) :=
  if m.enabled then
    match listenerClaims lang core m.driver with
    | .ok claims => claims.flatMap (Claim.ports lang)
    | .error _   => []
  else []

/-- The two sets of `managed_ports`. -/
structure Ports where
  tcp : Finset Int
  udp : Finset Int

namespace Ports

def of (p : Ports) (udp : Bool) : Finset Int := if udp then p.udp else p.tcp

/-- `target.add(port)` -/
def add (p : Ports) (port : Bool × Int) : Ports :=
  if port.1 then { p with udp := insert port.2 p.udp } else { p with tcp := insert port.2 p.tcp }

theorem mem_add (p : Ports) (port other : Bool × Int) :
    other.2 ∈ (p.add port).of other.1 ↔ other = port ∨ other.2 ∈ p.of other.1 := by
  obtain ⟨udp, n⟩ := port
  obtain ⟨udp', n'⟩ := other
  cases udp <;> cases udp' <;> simp [add, of]

theorem mem_foldl_add (ports : List (Bool × Int)) (p : Ports) (other : Bool × Int) :
    other.2 ∈ (ports.foldl add p).of other.1 ↔ other ∈ ports ∨ other.2 ∈ p.of other.1 := by
  induction ports generalizing p with
  | nil => simp
  | cons port rest ih =>
    rw [List.foldl_cons, ih, mem_add, List.mem_cons]
    exact ⟨fun h => by tauto, fun h => by tauto⟩

end Ports

/-- One turn of the loop of `managed_ports`, over a core that may be gone by now. -/
def visitCore (lang : Lang) (core : CoreId) (m : Option Managed) (p : Ports) : Ports :=
  (m.elim [] fun m => m.ports lang core).foldl Ports.add p

/-- `managed_ports` of cores that stay as they are. -/
def managedPorts (lang : Lang) (cores : CoreId → Option Managed) (listed : List CoreId) : Ports :=
  listed.foldl (fun p core => visitCore lang core (cores core) p) ⟨∅, ∅⟩

theorem mem_visitCore {lang : Lang} {core : CoreId} {m : Option Managed} {p : Ports}
    {port : Bool × Int} :
    port.2 ∈ (visitCore lang core m p).of port.1 ↔
      (∃ now, m = some now ∧ port ∈ now.ports lang core) ∨ port.2 ∈ p.of port.1 := by
  unfold visitCore
  rw [Ports.mem_foldl_add]
  cases m with
  | none   => simp
  | some m => simp

/--
**The collection** holds exactly the ports claimed by the listed cores, each
under its transport. The order in which the cores are visited, and ports
claimed twice, make no difference.
-/
theorem mem_managedPorts {lang : Lang} {cores : CoreId → Option Managed} {listed : List CoreId}
    {port : Bool × Int} :
    port.2 ∈ (managedPorts lang cores listed).of port.1 ↔
      ∃ core ∈ listed, ∃ m, cores core = some m ∧ port ∈ m.ports lang core := by
  have hFold : ∀ (l : List CoreId) (p : Ports),
      port.2 ∈ (l.foldl (fun p core => visitCore lang core (cores core) p) p).of port.1 ↔
        (∃ core ∈ l, ∃ m, cores core = some m ∧ port ∈ m.ports lang core) ∨
          port.2 ∈ p.of port.1 := by
    intro l
    induction l with
    | nil => simp
    | cons core rest ih =>
      intro p
      rw [List.foldl_cons, ih, mem_visitCore]
      constructor
      · rintro (⟨other, hOther, h⟩ | h | h)
        · exact Or.inl ⟨other, List.mem_cons_of_mem _ hOther, h⟩
        · exact Or.inl ⟨core, List.mem_cons_self, h⟩
        · exact Or.inr h
      · rintro (⟨other, hOther, h⟩ | h)
        · rcases List.mem_cons.mp hOther with rfl | hRest
          · exact Or.inr (Or.inl h)
          · exact Or.inl ⟨other, hRest, h⟩
        · exact Or.inr (Or.inr h)
  have hEmpty : port.2 ∉ (Ports.mk ∅ ∅).of port.1 := by
    unfold Ports.of
    split <;> exact Finset.notMem_empty _
  unfold managedPorts
  rw [hFold, or_iff_left hEmpty]

end ZagrosNode.Drivers
