import ZagrosNode.Lib.Object
import ZagrosNode.Cores.Manager

/-!
# ZagrosNode — building a driver from its settings

Every driver merges the settings into its defaults, puts one value in place that
is of its own making (rows, ports), and hands the dictionary to a new backend.
`remake` is that value, `taken` what the backend and the driver keep from the
dictionary at that time, and `seen` what the driver finds later on where
the constructor put its value.

Left out are the settings the agent's schema admits for no core, such as the
timeouts of SoftEther's administration, and the packages and files a
constructor looks for.

Seven constructors are one scheme. `settle` merges the settings over the defaults and
puts one value in place; for SSH, OpenVPN and WireGuard it is the rows, for PPTP its
inbounds, for sing-box its ports, and SoftEther and Xray have none. What differs between
the drivers is `defaults`, `remake` and `taken`, and every one of these is written out
from its `__init__`.

Python values are read through conversions that may raise (`str`, `int`, `dict`,
`list`), and a constructor that raises leaves no driver. All are functions of `Lang`,
which stands for the interpreter's own texts and for the libraries of addresses.

The congruence lemmas are the way to compare two builds: if two dictionaries agree on
what each of the read keys is read as, the constructor makes the same of them. Reads of
a missing key and of a false value agree, since most of them are `x or default`.

Main results:

* `construct_ok_iff` — what a driver is once it is built.
* `remake_congr`, `taken_congr`, `seen_congr` — a constructor sees no more of its
  settings than what they read under each key.
-/

namespace ZagrosNode.Drivers

open ZagrosNode.Lib ZagrosNode.Cores

-- ---------------------------------------------------------------------------
-- The host language
-- ---------------------------------------------------------------------------

/-- An `ip_network`, as far as the code reads it. -/
structure Network where
  text         : String
  version      : Nat
  isPrivate    : Bool
  prefixlen    : Nat
  numAddresses : Nat

/-- What the drivers take from the interpreter and its libraries. -/
structure Lang where
  /-- `str(v)` of a value that is not a string -/
  repr : Json → String
  /-- `str(ip_network(subnet, strict=False))` of a subnet with a usable host -/
  network : String → Except PyErr String
  /-- `network.overlaps(other)` -/
  overlaps : String → String → Bool
  /-- the first ten digits of `sha256(tag)` -/
  digest : String → String
  /-- where a bare name is found, given a working directory -/
  resolve : String → String → String
  /-- `str.lower` -/
  lower : String → String
  /-- `ip_network(subnet, strict=True)` -/
  strictNetwork : String → Except PyErr Network
  /-- the version of `ip_address(text)` -/
  addressVersion : String → Except PyErr Nat
  /-- `ip_address(text).is_loopback` -/
  loopback : String → Except PyErr Bool

/-- What a constructor raises. -/
inductive Refused
  | py (e : PyErr)
  /-- `CoreError` -/
  | core (text : String)
  deriving DecidableEq

abbrev Build := Except Refused

def py {α : Type} : Except PyErr α → Build α
  | .ok a    => .ok a
  | .error e => .error (.py e)

namespace Lang

variable (lang : Lang)

/-- `str(v)` -/
def str : Json → String
  | .str s => s
  | v      => lang.repr v

/-- `str(settings.get(key) or default)` -/
def textOr (settings : Settings) (key default : String) : String :=
  lang.str ((Json.getD settings key).or (.str default))

/-- `str(v or "").strip()` -/
def label (v : Json) : String := String.ofList (strip (lang.str (v.or (.str ""))).toList)

end Lang

/-- A host language for plain values. -/
def plainLang : Lang :=
  { repr := fun _ => "", network := .ok, overlaps := fun _ _ => false, digest := id,
    resolve := fun _ name => name, lower := id,
    strictNetwork := fun _ => .error ⟨.value, "does not appear to be a network"⟩,
    addressVersion := fun _ => .ok 4, loopback := fun _ => .ok false }

/-- `int(settings.get(key) or default)` -/
def intOr (settings : Settings) (key : String) (default : Int) : Except PyErr Int :=
  ((Json.getD settings key).or (.num default)).int

/-- `bool(settings.get(key, True))` -/
def flagOn (settings : Settings) (key : String) : Bool :=
  ((Json.get? settings key).getD (.bool true)).truthy

/-- `list(v)` -/
def listOf : Json → Except PyErr (List Json)
  | .list xs      => .ok xs
  | .str s        => .ok (s.toList.map fun c => .str c.toString)
  | .dict entries => .ok (entries.map fun e => .str e.1)
  | _             => .error ⟨.type, "object is not iterable"⟩

/-- `list(settings.get(key) or default)` -/
def listOr (settings : Settings) (key : String) (default : List Json) :
    Except PyErr (List Json) :=
  listOf ((Json.getD settings key).or (.list default))

/-- One element of a list that is turned into a dictionary. -/
def pairOf : Json → Except PyErr (String × Json)
  | .list [.str key, v] => .ok (key, v)
  | .str s =>
    match s.toList with
    | [a, b] => .ok (a.toString, .str b.toString)
    | _      => .error ⟨.value, "dictionary update sequence element has the wrong length"⟩
  | _ => .error ⟨.type, "cannot convert dictionary update sequence element to a sequence"⟩

/-- `dict(v)` -/
def dictOf : Json → Except PyErr Settings
  | .dict entries => .ok entries
  | v             =>
    match listOf v with
    | .error e => .error e
    | .ok xs   => (xs.mapM pairOf).map fun pairs => (Dict.ofPairs pairs).entries

/-- `{**v, …}`: only mappings can be merged in. -/
def mappingOf : Json → Except PyErr Settings
  | .dict entries => .ok entries
  | _             => .error ⟨.type, "object is not a mapping"⟩

/-- `for key in keys: if row.get(key) is not None: out[key] = row[key]` -/
def copyKeys (keys : List String) (row out : Settings) : Settings :=
  keys.foldl
    (fun acc key =>
      match Json.getD row key with
      | .null => acc
      | v     => assocSet key v acc)
    out

/-- `os.path.join` -/
def joinPath (base part : String) : String :=
  if "/".isPrefixOf part then part
  else if base = "" || base.toList.getLast? = some '/' then base ++ part
  else base ++ "/" ++ part

/-- A value that has to be a path. -/
def pathOf : Json → Build String
  | .str s => .ok s
  | _      => .error (.py ⟨.type, "expected str, bytes or os.PathLike object"⟩)

/-- What a backend or a driver keeps for itself, under names. -/
abbrev Kept := List (String × Json)

/-- A driver once it is built: its dictionary, and what was taken from it. -/
structure Built where
  settings : Settings
  kept     : Kept

/-- Rows as a value of the dictionary. -/
def rowsOf (rows : List Settings) : Json := .list (rows.map .dict)

-- ---------------------------------------------------------------------------
-- Defaults
-- ---------------------------------------------------------------------------

def texts (entries : List (String × String)) : Settings := entries.map fun e => (e.1, .str e.2)

/-- sing-box's default ports. -/
def portDefaults : Settings :=
  [("vless", .num 10001), ("vmess", .num 10002), ("trojan", .num 10003),
    ("shadowsocks", .num 10004), ("hysteria2", .num 4430), ("tuic", .num 5443)]

def resolvers : List Json := [.str "1.1.1.1", .str "8.8.8.8"]

def everywhere : List Json := [.str "0.0.0.0/0", .str "::/0"]

/-- `metadata.default_settings` -/
def defaults : CoreId → Settings
  | .openvpn =>
    texts [("executable_path", "openvpn"), ("work_dir", "/var/lib/zagros/cores/openvpn"),
      ("listen", "0.0.0.0")] ++ [("port", .num 1194)] ++
    texts [("proto", "udp"), ("subnet", "10.8.0.0"), ("netmask", "255.255.255.0")] ++
    [("management_port", .num 17505), ("redirect_gateway", .bool true),
      ("dns_servers", .list resolvers)] ++
    texts [("advertise_host", "127.0.0.1"), ("topology", "subnet"), ("cipher", "AES-256-GCM"),
      ("cipher_fallback", "AES-128-GCM"), ("auth_digest", ""), ("compression", ""),
      ("auth_mode", "management"), ("static_user", ""), ("static_pass", ""),
      ("extra_directives", "")] ++
    [("listeners", .list [])]
  | .pptp =>
    [("legacy_risk_ack", .bool true), ("internet_exposure_ack", .bool true)] ++
    texts [("work_dir", "/var/lib/zagros/cores/pptp"),
      ("executable_path", "/opt/zagros/accel-ppp/1.14.0/sbin/accel-pppd"),
      ("module_dir", "/opt/zagros/accel-ppp/1.14.0/lib/accel-ppp")] ++
    [("management_port", .num 22001), ("advertise_host", .str ""), ("inbounds", .list [])]
  | .singBox =>
    texts [("executable_path", "sing-box"), ("work_dir", "/var/lib/zagros/cores/sing-box"),
      ("listen", "::")] ++
    [("ports", .dict portDefaults), ("advertise_host", .str ""),
      ("allow_loopback_advertise", .bool false)] ++
    texts [("ss_method", "aes-128-gcm"), ("final_outbound", "direct"), ("geoip_db", ""),
      ("geosite_db", "")] ++
    [("stats_enabled", .bool true)] ++
    texts [("stats_api", "127.0.0.1:19091"), ("clash_api", "127.0.0.1:19092")] ++
    [("log_buffer", .num 5000)]
  | .softether =>
    texts [("executable_path", "vpncmd"),
      ("install_root", "/var/lib/zagros/cores/softether/runtime"), ("server", "localhost"),
      ("hub", "DEFAULT"), ("admin_password", ""), ("ipsec_psk", "")] ++
    [("native_port", .num 5555), ("sstp_port", .num 443), ("ovpn_ports", .str "1194"),
      ("secure_nat", .bool true)] ++
    texts [("policy_tap_device", "zgsoft"), ("policy_subnet", "192.168.30.0/24"),
      ("policy_gateway", "192.168.30.254"), ("policy_routing_scope", "shared_hub")] ++
    [("policy_hubs", .list []), ("feature_tags", .dict []), ("feature_softether", .bool false),
      ("feature_l2tp", .bool false), ("feature_l2tp_raw", .bool false),
      ("feature_etherip", .bool false), ("feature_sstp", .bool false),
      ("feature_ovpn", .bool false), ("advertise_host", .str "127.0.0.1")]
  | .ssh =>
    texts [("shell", "/bin/bash"), ("work_dir", "/var/lib/zagros/cores/ssh")] ++
    [("create_home", .bool false), ("port", .num 2022), ("listeners", .list []),
      ("advertise_host", .str "127.0.0.1"), ("password_auth", .bool true),
      ("pubkey_auth", .bool true), ("max_sessions", .num 10), ("sftp", .bool true)] ++
    texts [("default_password", ""), ("default_authorized_key", "")]
  | .wireguard =>
    texts [("interface", "mzwg0"), ("work_dir", "/var/lib/zagros/cores/wireguard"),
      ("listen", "0.0.0.0")] ++
    [("port", .num 51820), ("subnet", .str "10.66.66.0/24"),
      ("dns_servers", .list [.str "1.1.1.1"]), ("advertise_host", .str ""),
      ("allow_loopback_advertise", .bool false), ("mtu", .null),
      ("use_preshared_keys", .bool true), ("online_threshold_seconds", .num 180),
      ("peer_allowed_ips", .list everywhere), ("peer_keepalive", .num 25),
      ("enable_nat", .bool true), ("listeners", .list [])]
  | .xray =>
    texts [("executable_path", "/var/lib/zagros/cores/xray/bin/xray"),
      ("assets_path", "/var/lib/zagros/cores/xray/assets"),
      ("config_path", "/var/lib/zagros/cores/xray/xray_config.json"),
      ("cert_dir", "/var/lib/zagros/cores/xray/certs")]

-- ---------------------------------------------------------------------------
-- OpenVPN
-- ---------------------------------------------------------------------------

namespace OpenVpn

/-- `_LISTENER_KEYS` -/
def listenerKeys : List String :=
  ["port", "proto", "listen", "subnet", "netmask", "topology", "cipher", "cipher_fallback",
    "auth_digest", "compression", "redirect_gateway", "dns_servers", "extra_directives"]

/-- `_listener_from_flat` -/
def listenerFromFlat (lang : Lang) (s : Settings) : Except PyErr Settings := do
  let port ← intOr s "port" 1194
  let dns ← listOr s "dns_servers" resolvers
  .ok
    [("tag", .str "openvpn"),
      ("port", .num port),
      ("proto", .str (lang.textOr s "proto" "udp")),
      ("listen", .str (lang.textOr s "listen" "0.0.0.0")),
      ("subnet", .str (lang.textOr s "subnet" "10.8.0.0")),
      ("netmask", .str (lang.textOr s "netmask" "255.255.255.0")),
      ("topology", .str (lang.textOr s "topology" "subnet")),
      ("cipher", .str (lang.textOr s "cipher" "AES-256-GCM")),
      ("cipher_fallback", .str (lang.textOr s "cipher_fallback" "AES-128-GCM")),
      ("auth_digest", .str (lang.textOr s "auth_digest" "")),
      ("compression", .str (lang.textOr s "compression" "")),
      ("redirect_gateway", .bool (flagOn s "redirect_gateway")),
      ("dns_servers", .list dns),
      ("extra_directives", .str (lang.textOr s "extra_directives" ""))]

/-- `_normalize_listener` -/
def normalizeListener (lang : Lang) (s : Settings) (row : Json) : Except PyErr Settings := do
  let template ← listenerFromFlat lang s
  match row with
  | .dict row => do
    let out := copyKeys listenerKeys row template
    let port ← (Json.getD out "port").int
    let out := assocSet "port" (.num port) out
    let dns ← listOr out "dns_servers" []
    let out := assocSet "dns_servers" (.list dns) out
    let tag := lang.label (Json.getD row "tag")
    let proto := lang.str (Json.getD out "proto")
    let tag := if tag = "" then s!"ovpn-{port}-{proto}" else tag
    .ok (assocSet "tag" (.str tag) out)
  | _ => .ok template

/-- The rows the constructor stores. -/
def storedListeners (lang : Lang) (s : Settings) : Except PyErr (List Settings) :=
  if (Json.getD s "listeners").truthy then do
    let rows ← listOf (Json.getD s "listeners")
    rows.mapM (normalizeListener lang s)
  else (listenerFromFlat lang s).map fun row => [row]

/-- `_listeners` -/
def listeners (lang : Lang) (s : Settings) : Except PyErr (List Settings) :=
  if (Json.getD s "listeners").truthy then do
    let rows ← listOf (Json.getD s "listeners")
    rows.mapM dictOf
  else (listenerFromFlat lang s).map fun row => [row]

def taken (s : Settings) : Build Kept := do
  let executable ← pathOf (Json.getD s "executable_path")
  let workDir ← pathOf (Json.getD s "work_dir")
  let management ← py (Json.getD s "management_port").int
  .ok
    [("executable", .str executable), ("work_dir", .str workDir),
      ("_base_mgmt_port", .num management)]

end OpenVpn

-- ---------------------------------------------------------------------------
-- WireGuard
-- ---------------------------------------------------------------------------

namespace WireGuard

/-- `_LISTENER_KEYS` -/
def listenerKeys : List String :=
  ["interface", "listen", "port", "subnet", "dns_servers", "advertise_host", "mtu",
    "use_preshared_keys", "peer_allowed_ips", "peer_keepalive", "enable_nat"]

/-- `_DEFAULT_SUBNET` -/
def defaultSubnet : String := "10.66.66.0/24"

def defaultWorkDir : String := "/var/lib/zagros/cores/wireguard"

/-- `_interface_for_tag` -/
def interfaceForTag (lang : Lang) (tag : String) : String := "mzwg" ++ lang.digest tag

/-- `_listener_from_flat` -/
def listenerFromFlat (lang : Lang) (s : Settings) : Except PyErr Settings := do
  let port ← intOr s "port" 51820
  let dns ← listOr s "dns_servers" [.str "1.1.1.1"]
  let allowed ← listOr s "peer_allowed_ips" everywhere
  let keepalive ← intOr s "peer_keepalive" 25
  .ok
    [("tag", .str "wireguard"),
      ("interface", .str (lang.textOr s "interface" "mzwg0")),
      ("listen", .str (lang.textOr s "listen" "0.0.0.0")),
      ("port", .num port),
      ("subnet", .str (lang.textOr s "subnet" defaultSubnet)),
      ("dns_servers", .list dns),
      ("advertise_host", .str (lang.textOr s "advertise_host" "")),
      ("mtu", (Json.getD s "mtu").or .null),
      ("use_preshared_keys", .bool (flagOn s "use_preshared_keys")),
      ("peer_allowed_ips", .list allowed),
      ("peer_keepalive", .num keepalive),
      ("enable_nat", .bool (flagOn s "enable_nat")),
      ("_work_dir", .str (lang.textOr s "work_dir" defaultWorkDir))]

/-- `int(out["mtu"]) if out.get("mtu") not in (None, "") else None` -/
def mtuOf : Json → Except PyErr Json
  | .null   => .ok .null
  | .str "" => .ok .null
  | v       => v.int.map .num

/-- The interface a row without one is given. -/
def interfaceOf (lang : Lang) (s row out : Settings) (index : Nat) (tag : String) : Json :=
  if (Json.getD row "interface").truthy then Json.getD out "interface"
  else if index = 0 then .str (lang.textOr s "interface" "mzwg0")
  else .str (interfaceForTag lang tag)

/-- Where a row keeps its files. -/
def workDirOf (lang : Lang) (s row : Settings) (index : Nat) (interface : String) : String :=
  if (Json.getD row "_work_dir").truthy then lang.str (Json.getD row "_work_dir")
  else
    let base := lang.textOr s "work_dir" defaultWorkDir
    if index = 0 && interface = lang.textOr s "interface" "mzwg0" then base
    else joinPath (joinPath base "listeners") interface

/-- `_normalize_listener` -/
def normalizeListener (lang : Lang) (s : Settings) (row : Json) (index : Nat) :
    Except PyErr Settings := do
  let template ← listenerFromFlat lang s
  let row := match row with | .dict row => row | _ => []
  let port ← ((Json.getD row "port").or (Json.getD template "port")).int
  let tag := lang.label (Json.getD row "tag")
  let tag := if tag = "" then s!"wireguard-{port}" else tag
  let out := copyKeys listenerKeys row (assocSet "tag" (.str tag) template)
  let interface := lang.str (interfaceOf lang s row out index tag)
  let port ← (Json.getD out "port").int
  let dns ← listOr out "dns_servers" []
  let mtu ← mtuOf (Json.getD out "mtu")
  let allowed ← listOr out "peer_allowed_ips" everywhere
  let keepalive ← intOr out "peer_keepalive" 25
  .ok (Json.merge out
    [("interface", .str interface),
      ("listen", .str (lang.textOr out "listen" "0.0.0.0")),
      ("port", .num port),
      ("subnet", .str (lang.textOr out "subnet" defaultSubnet)),
      ("dns_servers", .list dns),
      ("advertise_host", .str (lang.textOr out "advertise_host" "")),
      ("mtu", mtu),
      ("use_preshared_keys", .bool (flagOn out "use_preshared_keys")),
      ("peer_allowed_ips", .list allowed),
      ("peer_keepalive", .num keepalive),
      ("enable_nat", .bool (flagOn out "enable_nat")),
      ("_work_dir", .str (workDirOf lang s row index interface))])

/-- `_INTERFACE_RE.fullmatch` -/
def safeInterface (name : String) : Bool :=
  (name.toList.all fun c => c.isAlphanum || decide (c ∈ ['_', '=', '+', '.', '-'])) &&
    decide (1 ≤ name.length ∧ name.length ≤ 15)

/-- What `_validate_listener_set` remembers of a row. -/
structure Seen where
  tag       : String
  interface : String
  port      : Int
  network   : String

/-- One turn of `_validate_listener_set`; the row is given its network. -/
def validateListener (lang : Lang) (seen : List Seen) (row : Settings) :
    Build (Seen × Settings) := do
  let tag := lang.label (Json.getD row "tag")
  let interface := lang.textOr row "interface" ""
  let port ← py (intOr row "port" 0)
  let subnet := lang.str (Json.getD row "subnet")
  if tag = "" then .error (.core "wireguard inbound tag cannot be empty.")
  else if seen.any fun other => decide (other.tag = tag) then
    .error (.core s!"duplicate wireguard inbound name '{tag}'.")
  else if !safeInterface interface then
    .error (.core (s!"wireguard inbound '{tag}': interface '{interface}' must be " ++
      "1-15 Linux interface-name characters."))
  else
    match seen.find? fun other => decide (other.interface = interface) with
    | some other =>
      .error (.core (s!"wireguard inbounds '{other.tag}' and '{tag}' share kernel interface " ++
        s!"'{interface}'."))
    | none =>
      if !decide (1 ≤ port ∧ port ≤ 65535) then
        .error (.core s!"wireguard inbound '{tag}': port out of range ({port}).")
      else
        match seen.find? fun other => decide (other.port = port) with
        | some other =>
          .error (.core (s!"wireguard inbounds '{other.tag}' and '{tag}' share UDP port {port}; " ++
            "each kernel interface needs its own ListenPort."))
        | none =>
          match lang.network (lang.textOr row "subnet" "") with
          | .error e =>
            .error (.core (s!"wireguard inbound '{tag}': invalid tunnel subnet " ++
              s!"'{subnet}': {e.text}"))
          | .ok network =>
            match seen.find? fun other => lang.overlaps network other.network with
            | some other =>
              .error (.core (s!"wireguard inbounds '{other.tag}' and '{tag}' have overlapping " ++
                s!"tunnel subnets {other.network} and {network}."))
            | none =>
              .ok (⟨tag, interface, port, network⟩, assocSet "subnet" (.str network) row)

def validateRows (lang : Lang) : List Seen → List Settings → Build (List Settings)
  | _, []            => .ok []
  | seen, row :: rest => do
    let checked ← validateListener lang seen row
    let others ← validateRows lang (seen ++ [checked.1]) rest
    .ok (checked.2 :: others)

/-- The rows the constructor stores. -/
def storedListeners (lang : Lang) (s : Settings) : Build (List Settings) := do
  if (Json.getD s "listeners").truthy then do
    let rows ← py (listOf (Json.getD s "listeners"))
    let rows ← py (rows.zipIdx.mapM fun row => normalizeListener lang s row.1 row.2)
    validateRows lang [] rows
  else do
    let row ← py (listenerFromFlat lang s)
    validateRows lang [] [row]

/-- `_listeners`: the flat settings stand over the only row. -/
def listeners (s : Settings) : Except PyErr (List Settings) := do
  let rows ← listOr s "listeners" []
  let rows ← rows.mapM dictOf
  match rows with
  | [row] =>
    .ok [listenerKeys.foldl
      (fun acc key =>
        match Json.get? s key with
        | some v => assocSet key v acc
        | none   => acc)
      row]
  | rows => .ok rows

/-- `_configure_backend_set`: one backend for each row. -/
def backends (rows : List Settings) : Kept :=
  rows.flatMap fun row =>
    [("tag", Json.getD row "tag"), ("interface", Json.getD row "interface"),
      ("work_dir", Json.getD row "_work_dir")]

def taken (lang : Lang) (s : Settings) : Build Kept := (storedListeners lang s).map backends

end WireGuard

-- ---------------------------------------------------------------------------
-- SSH
-- ---------------------------------------------------------------------------

namespace Ssh

/-- One row of `_derive_listeners`; rows without a usable port are passed over. -/
def deriveListener (lang : Lang) : Json → Except PyErr (Option Settings)
  | .dict row =>
    match (Json.getD row "port").int with
    | .error e => if e.isValueError || e.kind == .type then .ok none else .error e
    | .ok port =>
      let tag := lang.label (Json.getD row "tag")
      let tag := if tag = "" then s!"ssh-{port}" else tag
      let listen := Json.getD row "listen"
      .ok (some ([("tag", .str tag), ("port", .num port)] ++
        if listen.truthy then [("listen", .str (lang.str listen))] else []))
  | _ => .ok none

/-- `_derive_listeners` -/
def deriveListeners (lang : Lang) (s : Settings) : Except PyErr (List Settings) := do
  let rows ← listOr s "listeners" []
  let rows ← rows.mapM (deriveListener lang)
  match rows.reduceOption with
  | [] => do
    let port ← intOr s "port" 2022
    .ok [[("tag", .str "ssh"), ("port", .num port)]]
  | rows => .ok rows

/-- The `Port` lines of `render_dropin`, with the address of each. -/
def dropinPorts (lang : Lang) (rows : List Settings) : List (Int × String) :=
  rows.foldl
    (fun acc row =>
      match (Json.getD row "port").int with
      | .error _ => acc
      | .ok port =>
        if decide (1 ≤ port ∧ port ≤ 65535 ∧ port ≠ 22) && acc.all fun e => decide (e.1 ≠ port) then
          acc ++ [(port, lang.textOr row "listen" "0.0.0.0")]
        else acc)
    []

/-- The ports of the drop-in: the flat one where no row has a usable one. -/
def portsOr (lang : Lang) (s : Settings) (rows : List Settings) :
    Except PyErr (List (Int × String)) :=
  match dropinPorts lang rows with
  | [] => (intOr s "port" 22).map fun port => if port = 22 then [] else [(port, "0.0.0.0")]
  | ports => .ok ports

/-- An address that gets no `ListenAddress`. -/
def everyAddress (listen : String) : Bool := decide (listen ∈ ["", "0.0.0.0", "::"])

/-- What `render_dropin` writes for the daemon, line by line. -/
def renderDropin (lang : Lang) (s : Settings) (rows : List Settings) :
    Except PyErr (List (String × Json)) := do
  let ports ← portsOr lang s rows
  let sessions ← if (Json.getD s "max_sessions").truthy then
    (Json.getD s "max_sessions").int.map fun n => [("MaxSessions", .num n)] else .ok []
  let banner := Json.getD s "banner"
  .ok ((ports.flatMap fun e => ("Port", .num e.1) ::
      if everyAddress e.2 then [] else [("ListenAddress", .str e.2)]) ++
    [("PasswordAuthentication", .bool (flagOn s "password_auth")),
      ("PubkeyAuthentication", .bool (flagOn s "pubkey_auth"))] ++ sessions ++
    (if banner.truthy then [("Banner", .str (lang.str banner))] else []) ++
    [("ForceCommand", .bool (flagOn s "sftp"))])

/-- The drop-in of every start; where rendering it raises, every start does. -/
def dropin (lang : Lang) (s : Settings) (rows : List Settings) : Json :=
  match renderDropin lang s rows with
  | .ok lines => .dict lines
  | .error _  => .null

/-- The backend holds the constructor's dictionary and renders the daemon's
drop-in from it at every start; the driver keeps the rows besides. -/
def taken (lang : Lang) (s : Settings) : Build Kept := do
  let rows ← py (deriveListeners lang s)
  .ok
    [("work_dir", .str (lang.textOr s "work_dir" "/var/lib/zagros/cores/ssh")),
      ("_listeners", rowsOf rows), ("zagros.conf", dropin lang s rows)]

end Ssh

-- ---------------------------------------------------------------------------
-- The other drivers
-- ---------------------------------------------------------------------------

/-- The executable the backend starts: bare names are looked up. -/
def SingBox.executable (lang : Lang) (workDir configured : String) : String :=
  if configured.toList.contains '/' then configured else lang.resolve workDir configured

/-- The backend reads the values it does not keep from the constructor's
dictionary. -/
def SingBox.taken (lang : Lang) (s : Settings) : Build Kept := do
  let workDir ← pathOf (Json.getD s "work_dir")
  let buffer ← py (Json.getD s "log_buffer").int
  .ok
    [("work_dir", .str workDir),
      ("executable",
        .str (SingBox.executable lang workDir (lang.textOr s "executable_path" "sing-box"))),
      ("_log_buffer", .num buffer),
      ("release_version", (Json.get? s "release_version").getD (.str "1.12.4")),
      ("stats_enabled", .bool (Json.getD s "stats_enabled").truthy),
      ("clash_api", .str (lang.textOr s "clash_api" "127.0.0.1:19092")),
      ("stats_api", Json.getD s "stats_api")]

/-- The ports are put in place once the backend is built. -/
def SingBox.ports (lang : Lang) (s : Settings) : Build Json := do
  let _ ← SingBox.taken lang s
  let ports ← py (mappingOf ((Json.getD s "ports").or (.dict [])))
  .ok (.dict (Json.merge portDefaults ports))

/-- A blank administrator password is replaced by a fresh one. -/
def SoftEther.prepare (lang : Lang) (secret : String) (given : Settings) : Settings :=
  if lang.label (Json.getD given "admin_password") = "" then
    assocSet "admin_password" (.str secret) given else given

/-- The driver remembers the SSTP port it was given. -/
def SoftEther.taken (lang : Lang) (s : Settings) : Build Kept := do
  let legacy ← py (intOr s "sstp_port" 443)
  .ok
    [("vpncmd", Json.getD s "executable_path"), ("server", Json.getD s "server"),
      ("hub", Json.getD s "hub"), ("password", Json.getD s "admin_password"),
      ("_INSTALL_ROOT",
        .str (lang.textOr s "install_root" "/var/lib/zagros/cores/softether/runtime")),
      ("_legacy_sstp_port", .num legacy)]

/-- `DEFAULT_PPTP_INBOUND` -/
def Pptp.defaultInbound : Settings :=
  texts [("tag", "pptp-default"), ("protocol", "pptp"), ("listen", "0.0.0.0")] ++
  [("port", .num 1723), ("subnet", .str "10.77.0.0/24"), ("dns", .list resolvers),
    ("legacy_risk_ack", .bool true), ("internet_exposure_ack", .bool true)] ++
  texts [("authentication", "MS-CHAPv2"), ("encryption", "MPPE128"), ("network", "IPv4")] ++
  [("ipv6", .bool false), ("security_class", .str "legacy_insecure")]

/-- No inbounds are replaced by the default one. -/
def Pptp.inbounds (s : Settings) : Json :=
  (Json.getD s "inbounds").or (.list [.dict Pptp.defaultInbound])

def Pptp.taken (lang : Lang) (s : Settings) : Build Kept := do
  let management ← py (intOr s "management_port" 22001)
  .ok
    [("executable",
        .str (lang.textOr s "executable_path" "/opt/zagros/accel-ppp/1.14.0/sbin/accel-pppd")),
      ("module_dir",
        .str (lang.textOr s "module_dir" "/opt/zagros/accel-ppp/1.14.0/lib/accel-ppp")),
      ("work_dir", .str (lang.textOr s "work_dir" "/var/lib/zagros/cores/pptp")),
      ("management_port", .num management)]

def Xray.taken (lang : Lang) (s : Settings) : Kept :=
  [("_executable", .str (lang.str (Json.getD s "executable_path"))),
    ("_assets", .str (lang.str (Json.getD s "assets_path"))),
    ("_config", .str (lang.str (Json.getD s "config_path")))]

-- ---------------------------------------------------------------------------
-- The constructors
-- ---------------------------------------------------------------------------

/-- The key under which a constructor puts a value of its own. -/
def ownKey : CoreId → Option String
  | .openvpn | .ssh | .wireguard => some "listeners"
  | .singBox                     => some "ports"
  | .softether                   => some "sstp_port"
  | .pptp                        => some "inbounds"
  | .xray                        => none

/-- That value; `null` where there is none. -/
def remake (lang : Lang) (core : CoreId) (s : Settings) : Build Json :=
  match core with
  | .openvpn   => (py (OpenVpn.storedListeners lang s)).map rowsOf
  | .pptp      => .ok (Pptp.inbounds s)
  | .singBox   => SingBox.ports lang s
  | .softether => .ok (.num 443)
  | .ssh       => (py (Ssh.deriveListeners lang s)).map rowsOf
  | .wireguard => (WireGuard.storedListeners lang s).map rowsOf
  | .xray      => .ok .null

/-- What the backend and the driver keep for themselves. -/
def taken (lang : Lang) (core : CoreId) (s : Settings) : Build Kept :=
  match core with
  | .openvpn   => OpenVpn.taken s
  | .pptp      => Pptp.taken lang s
  | .singBox   => SingBox.taken lang s
  | .softether => SoftEther.taken lang s
  | .ssh       => Ssh.taken lang s
  | .wireguard => WireGuard.taken lang s
  | .xray      => .ok (Xray.taken lang s)

/-- What a driver finds later on where its constructor put a value: SSH does not
look again, WireGuard reads its flat settings into an only row. -/
def seen (lang : Lang) (core : CoreId) (s : Settings) : Except PyErr Json :=
  match core with
  | .openvpn   => (OpenVpn.listeners lang s).map rowsOf
  | .pptp      => .ok (Json.getD s "inbounds")
  | .singBox   => .ok (Json.getD s "ports")
  | .softether => (intOr s "sstp_port" 443).map .num
  | .ssh       => .ok .null
  | .wireguard => (WireGuard.listeners s).map rowsOf
  | .xray      => .ok .null

/-- What SoftEther does before its settings are merged into the defaults. -/
def prepare (lang : Lang) (secret : String) (core : CoreId) (given : Settings) : Settings :=
  match core with
  | .softether => SoftEther.prepare lang secret given
  | _          => given

/-- The dictionary with the constructor's value in place. -/
def settle (core : CoreId) (value : Json) (s : Settings) : Settings :=
  match ownKey core with
  | some key => assocSet key value s
  | none     => s

/-- `cls(settings=given)`; `secret` is what `secrets.token_urlsafe` returns, should
it be asked. -/
def construct (lang : Lang) (secret : String) (core : CoreId) (given : Settings) :
    Build Built := do
  let s := Json.merge (defaults core) (prepare lang secret core given)
  let value ← remake lang core s
  let kept ← taken lang core s
  .ok { settings := settle core value s, kept := kept }

theorem construct_ok_iff {lang : Lang} {secret : String} {core : CoreId} {given : Settings}
    {b : Built} :
    construct lang secret core given = .ok b ↔
      ∃ value kept,
        remake lang core (Json.merge (defaults core) (prepare lang secret core given)) =
          .ok value ∧
        taken lang core (Json.merge (defaults core) (prepare lang secret core given)) = .ok kept ∧
        b = ⟨settle core value
          (Json.merge (defaults core) (prepare lang secret core given)), kept⟩ := by
  simp only [construct]
  generalize Json.merge (defaults core) (prepare lang secret core given) = s
  cases hRemake : remake lang core s with
  | error e => exact iff_of_false (fun h => by cases h) fun ⟨_, _, h, _⟩ => by cases h
  | ok value =>
    cases hTaken : taken lang core s with
    | error e => exact iff_of_false (fun h => by cases h) fun ⟨_, _, _, h, _⟩ => by cases h
    | ok kept =>
      constructor
      · intro h
        exact ⟨value, kept, rfl, rfl, (Except.ok.inj h).symm⟩
      · rintro ⟨value', kept', hValue, hKept, rfl⟩
        rw [← Except.ok.inj hValue, ← Except.ok.inj hKept]
        rfl

-- ---------------------------------------------------------------------------
-- What a constructor sees
-- ---------------------------------------------------------------------------

section Reads

variable {lang : Lang} {s t : Settings} (hReads : Json.get? s = Json.get? t)
include hReads

theorem getD_reads : Json.getD s = Json.getD t :=
  funext fun key => Json.getD_congr (congrFun hReads key)

theorem textOr_reads : lang.textOr s = lang.textOr t := by
  funext key default
  rw [Lang.textOr, Lang.textOr, getD_reads hReads]

theorem intOr_reads : intOr s = intOr t := by
  funext key default
  rw [intOr, intOr, getD_reads hReads]

theorem flagOn_reads : flagOn s = flagOn t := by
  funext key
  rw [flagOn, flagOn, hReads]

theorem listOr_reads : listOr s = listOr t := by
  funext key default
  rw [listOr, listOr, getD_reads hReads]

theorem OpenVpn.fromFlat_reads :
    OpenVpn.listenerFromFlat lang s = OpenVpn.listenerFromFlat lang t := by
  unfold OpenVpn.listenerFromFlat
  rw [intOr_reads hReads, listOr_reads hReads, textOr_reads hReads, flagOn_reads hReads]

theorem OpenVpn.stored_reads :
    OpenVpn.storedListeners lang s = OpenVpn.storedListeners lang t := by
  have hRow : OpenVpn.normalizeListener lang s = OpenVpn.normalizeListener lang t := by
    funext row
    unfold OpenVpn.normalizeListener
    rw [OpenVpn.fromFlat_reads hReads]
  unfold OpenVpn.storedListeners
  rw [getD_reads hReads, hRow, OpenVpn.fromFlat_reads hReads]

theorem WireGuard.fromFlat_reads :
    WireGuard.listenerFromFlat lang s = WireGuard.listenerFromFlat lang t := by
  unfold WireGuard.listenerFromFlat
  rw [intOr_reads hReads, listOr_reads hReads, textOr_reads hReads, flagOn_reads hReads,
    getD_reads hReads]

theorem WireGuard.stored_reads :
    WireGuard.storedListeners lang s = WireGuard.storedListeners lang t := by
  have hInterface : WireGuard.interfaceOf lang s = WireGuard.interfaceOf lang t := by
    funext row out index tag
    rw [WireGuard.interfaceOf, WireGuard.interfaceOf, textOr_reads hReads]
  have hWorkDir : WireGuard.workDirOf lang s = WireGuard.workDirOf lang t := by
    funext row index interface
    rw [WireGuard.workDirOf, WireGuard.workDirOf, textOr_reads hReads]
  have hRow : WireGuard.normalizeListener lang s = WireGuard.normalizeListener lang t := by
    funext row index
    unfold WireGuard.normalizeListener
    rw [WireGuard.fromFlat_reads hReads, hInterface, hWorkDir]
  unfold WireGuard.storedListeners
  rw [getD_reads hReads, hRow, WireGuard.fromFlat_reads hReads]

theorem Ssh.derive_reads : Ssh.deriveListeners lang s = Ssh.deriveListeners lang t := by
  unfold Ssh.deriveListeners
  rw [listOr_reads hReads, intOr_reads hReads]

theorem Ssh.dropin_reads : Ssh.dropin lang s = Ssh.dropin lang t := by
  funext rows
  unfold Ssh.dropin Ssh.renderDropin Ssh.portsOr
  rw [intOr_reads hReads, flagOn_reads hReads, getD_reads hReads]

/--
**A constructor takes** the same from dictionaries that read the same, in
whatever order their keys stand. `cores.json` is written with sorted keys, so
this is what a rebuild needs.
-/
theorem taken_congr (core : CoreId) : taken lang core s = taken lang core t := by
  cases core with
  | openvpn   => simp only [taken, OpenVpn.taken, getD_reads hReads]
  | pptp      => simp only [taken, Pptp.taken, intOr_reads hReads, textOr_reads hReads]
  | singBox   =>
    simp only [taken, SingBox.taken, getD_reads hReads, textOr_reads hReads, hReads]
  | softether =>
    simp only [taken, SoftEther.taken, getD_reads hReads, textOr_reads hReads, intOr_reads hReads]
  | ssh       =>
    simp only [taken, Ssh.taken, Ssh.derive_reads hReads, Ssh.dropin_reads hReads,
      textOr_reads hReads]
  | wireguard => simp only [taken, WireGuard.taken, WireGuard.stored_reads hReads]
  | xray      => simp only [taken, Xray.taken, getD_reads hReads]

theorem remake_congr (core : CoreId) : remake lang core s = remake lang core t := by
  have hTaken : SingBox.taken lang s = SingBox.taken lang t := taken_congr hReads .singBox
  cases core with
  | openvpn   => simp only [remake, OpenVpn.stored_reads hReads]
  | pptp      => simp only [remake, Pptp.inbounds, getD_reads hReads]
  | singBox   => simp only [remake, SingBox.ports, hTaken, getD_reads hReads]
  | softether => rfl
  | ssh       => simp only [remake, Ssh.derive_reads hReads]
  | wireguard => simp only [remake, WireGuard.stored_reads hReads]
  | xray      => rfl

theorem seen_congr (core : CoreId) : seen lang core s = seen lang core t := by
  cases core with
  | openvpn   =>
    simp only [seen, OpenVpn.listeners, getD_reads hReads, OpenVpn.fromFlat_reads hReads]
  | pptp      => simp only [seen, getD_reads hReads]
  | singBox   => simp only [seen, getD_reads hReads]
  | softether => simp only [seen, intOr_reads hReads]
  | ssh       => rfl
  | wireguard => simp only [seen, WireGuard.listeners, listOr_reads hReads, hReads]
  | xray      => rfl

end Reads

end ZagrosNode.Drivers
