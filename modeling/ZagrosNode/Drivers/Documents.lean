import ZagrosNode.Accounts.UserAccount
import ZagrosNode.Drivers.Claims
import ZagrosNode.WireGuard.Studio

/-!
# ZagrosNode — inbound documents and where drivers keep them

`apply_studio_document` of the seven drivers. OpenVPN, SSH and WireGuard make
rows of a document and store them in their settings, PPTP stores its one row,
SoftEther turns features on and off, Xray writes a file, and sing-box keeps the
document in memory and renders it.

Here is what an apply makes of a document and where it puts it, with every
refusal on the way. Calls to a backend come in as their outcome. What becomes of
the other fields of a wizard's entry is a parameter for Xray and sing-box.

Every driver has its own way from an entry of a document to a row. The fields of an
entry are checked in the order of the source, and the messages carry the tag the entry
has, so which of two faults is reported is part of the model.

* **Sets of rows.** OpenVPN and SSH take a document as a whole: fields that all entries
  share are lifted into the flat settings, conflicting ones are refused, and then the
  rows are compared pairwise. WireGuard's is in `WireGuard/Studio.lean`.
* **Features.** SoftEther has no rows. An entry turns the feature of its protocol on,
  and what is not mentioned is turned off.
* **Configurations.** Xray validates the document it is to run and writes it; sing-box
  checks the entries, keeps the document and renders it whenever it is asked, with the
  users there are at that time.

`Inbound` has the tag, the protocol and the port of a row. Documents are compared by
these: the other fields of a row are converted on the way and are not the same values
again when they come back.
-/

namespace ZagrosNode.Drivers

open ZagrosNode.Lib ZagrosNode.Cores
open ZagrosNode.Accounts (UserAccount)
open ZagrosNode.WireGuard (putTruthy putGiven itemsOf textOf flagOf fieldsOf)

-- ---------------------------------------------------------------------------
-- The driver and its surroundings
-- ---------------------------------------------------------------------------

/-- What the drivers run on. -/
structure Host where
  lang : Lang
  /-- a network prints as itself, and not as nothing -/
  network_again : ∀ subnet net, lang.network subnet = .ok net → net ≠ "" ∧ lang.network net = .ok net
  /-- the file a path leads to -/
  place : String → String
  /-- an entry of Xray's wizard as an inbound of its own -/
  xrayNative : Settings → Build Settings
  /-- what the other fields of an entry of sing-box's wizard become -/
  singBoxFields : (settings entry : Settings) → Build Settings
  /-- they do not name the binary -/
  fields_path : ∀ path settings entry,
    singBoxFields (assocSet "executable_path" path settings) entry = singBoxFields settings entry

/-- A driver with what it has besides its settings. -/
structure Driver where
  settings : Settings
  kept     : Kept
  /-- `_studio_doc` -/
  document : Option Settings
  /-- `_accounts` -/
  accounts : List UserAccount
  /-- the configuration files of Xray -/
  configs  : String → Option Json

/-- How the calls of an apply end. -/
structure Answers where
  /-- those that return nothing -/
  calls      : Build Unit
  /-- the pre-shared key SoftEther's server has -/
  psk        : Option String
  /-- the binary a start of sing-box has put in place of one without statistics -/
  executable : Option String

/-- An inbound by what tells it apart: tag, protocol and port. The other fields of a row
are not compared. -/
structure Inbound where
  tag      : Json
  protocol : Json
  port     : Json

variable (lang : Lang)

-- ---------------------------------------------------------------------------
-- Equality
-- ---------------------------------------------------------------------------

/-- The value as a number; the two truth values are numbers. -/
def numberOf : Json → Option PyFloat
  | .bool b  => some (.finite (if b then 1 else 0))
  | .num n   => some (.finite n)
  | .float x => some x
  | _        => none

mutual

/-- `v == w` -/
def equal : Json → Json → Bool
  | .list xs, w      =>
    match w with
    | .list ys => equalItems xs ys
    | _        => false
  | .dict entries, w =>
    match w with
    | .dict others => decide (entries.length = others.length) && equalEntries entries others
    | _            => false
  | .null, w         =>
    match w with
    | .null => true
    | _     => false
  | .str s, w        =>
    match w with
    | .str t => decide (s = t)
    | _      => false
  | v, w             =>
    match numberOf v, numberOf w with
    | some x, some y => decide (x = y ∧ x ≠ .nan)
    | _, _           => false

def equalItems : List Json → List Json → Bool
  | [], ys           => ys.isEmpty
  | x :: rest, ys    =>
    match ys with
    | y :: others => equal x y && equalItems rest others
    | []          => false

def equalEntries : List (String × Json) → List (String × Json) → Bool
  | [], _                  => true
  | (key, v) :: rest, others =>
    match Json.get? others key with
    | some w => equal v w && equalEntries rest others
    | none   => false

end

-- ---------------------------------------------------------------------------
-- Entries
-- ---------------------------------------------------------------------------

/-- An entry of a document; anything else has no fields. -/
def entryOf (v : Json) : Build Settings := py (entriesOf v)

/-- `tag or '?'` -/
def shownTag (tag : String) : String := if tag = "" then "?" else tag

/-- `int(v)` of a port -/
def readPort (core tag : String) (v : Json) : Build Int :=
  let shown := lang.repr v
  match v.int with
  | .ok port => .ok port
  | .error e =>
    if e.isValueError || e.kind == .type then
      .error (.core s!"{core} inbound '{shownTag tag}': invalid port {shown}.")
    else .error (.py e)

/-- `_shared`: the value of a field that all entries have in common, with the tag it
was first given for. -/
def shared (norm : Json → Except PyErr Json) (conflict : String → String → String)
    (field : String) : Option (String × Json) → List (Settings × String) → Build (Option Json)
  | base, []                => .ok (base.map Prod.snd)
  | base, (entry, tag) :: rest =>
    match Json.getD entry field with
    | .null   => shared norm conflict field base rest
    | .str "" => shared norm conflict field base rest
    | v       => do
      let v ← py (norm v)
      match base with
      | none                => shared norm conflict field (some (tag, v)) rest
      | some (first, value) =>
        if equal v value then shared norm conflict field base rest
        else .error (.core (conflict first tag))

/-- `str(v or "")` -/
def textOrEmpty (v : Json) : String := lang.str (v.or (.str ""))

/-- `if str(v or ""): settings[key] = str(v)` -/
def setText (key : String) (v : Option Json) : Settings :=
  let v := v.getD .null
  if textOrEmpty lang v = "" then [] else [(key, textOf lang v)]

/-- `if v: settings[key] = str(v)` -/
def setTruthy (key : String) (v : Option Json) : Settings :=
  let v := v.getD .null
  if v.truthy then [(key, textOf lang v)] else []

/-- `(document or {}).get("inbounds") or []`, where there have to be some -/
def someInbounds (complaint : String) (document : Settings) : Build (List Json) := do
  let inbounds ← py (listOr document "inbounds" [])
  if inbounds.isEmpty then .error (.core complaint) else .ok inbounds

/-- The entries with the tags of their rows. -/
def tagged (inbounds : List Json) (tags : List String) : List (Settings × String) :=
  (inbounds.map fieldsOf).zip tags

-- ---------------------------------------------------------------------------
-- OpenVPN
-- ---------------------------------------------------------------------------

namespace OpenVpn

/-- `if given: entry[name] = text`, of allowed texts -/
def putChecked (given : Bool) (name text : String) (allowed : Bool) (complaint : String)
    (entry : Settings) : Build Settings :=
  if !given then .ok entry
  else if allowed then .ok (assocSet name (.str text) entry)
  else .error (.core complaint)

/-- `any(not p.isdigit() or not 0 <= int(p) <= 255 for p in parts)`: the first part that
is no byte settles it. `isdigit` takes more characters for digits than `int` does, and
what `int` then raises nobody catches. -/
def someNoByte : List String → Except PyErr Bool
  | []           => .ok false
  | part :: rest =>
    if !isDigits part then .ok true
    else do
      let n ← intOfStr part
      if 0 ≤ n ∧ n ≤ 255 then someNoByte rest else .ok true

/-- Four numbers of up to 255, with dots between them. -/
def isMask (netmask : String) : Except PyErr Bool :=
  let parts := netmask.splitOn "."
  if parts.length ≠ 4 then .ok false else (someNoByte parts).map not

/-- Is a mask good, if one is given? -/
def checkMask (given : Bool) (netmask : String) : Build Bool :=
  if given then py (isMask netmask) else .ok true

/-- `entry["proto"]` -/
def putTransport (tag : String) (ib entry : Settings) : Build Settings :=
  let transport := lang.lower (lang.str ((Json.getD ib "transport").or
    ((Json.getD ib "proto").or (.str ""))))
  putChecked (decide (transport ≠ "")) "proto" transport (decide (transport ∈ ["udp", "tcp"]))
    s!"openvpn inbound '{shownTag tag}' serves udp or tcp, not '{transport}'." entry

/-- `str(v).strip()` -/
def stripped (v : Json) : String := String.ofList (strip (lang.str v).toList)

/-- The fields of an entry that are checked or copied, over the template. -/
def putFields (tag : String) (ib entry : Settings) : Build Settings := do
  let entry := putTruthy ib "listen" "listen" (textOf lang) entry
  let entry ← putTransport lang tag ib entry
  let topology := lang.str (Json.getD ib "topology")
  let entry ← putChecked (Json.getD ib "topology").truthy "topology" topology
    (decide (topology ∈ ["subnet", "net30", "p2p"]))
    s!"unknown openvpn topology '{topology}' (subnet / net30 / p2p)." entry
  let entry := putTruthy ib "subnet" "subnet" (fun v => .str (stripped lang v)) entry
  let netmask := stripped lang (Json.getD ib "netmask")
  let allowed ← checkMask (Json.getD ib "netmask").truthy netmask
  let entry ← putChecked (Json.getD ib "netmask").truthy "netmask" netmask allowed
    s!"openvpn inbound '{shownTag tag}': netmask '{netmask}' is not a dotted IPv4 mask." entry
  let entry := putTruthy ib "cipher" "cipher" (textOf lang) entry
  let entry := putTruthy ib "cipher_fallback" "cipher_fallback" (textOf lang) entry
  let entry := putGiven ib "auth" "auth_digest" (textOf lang) entry
  let compression := lang.str (Json.getD ib "compression")
  let entry ← putChecked (match Json.getD ib "compression" with | .null => false | _ => true)
    "compression" compression (decide (compression ∈ ["", "lz4-v2", "lzo"]))
    s!"unknown openvpn compression '{compression}'." entry
  let entry := putGiven ib "dns" "dns_servers" (itemsOf lang) entry
  let entry := putGiven ib "redirect_gateway" "redirect_gateway" flagOf entry
  .ok (Json.merge entry (setText lang "extra_directives" (some (Json.getD ib "extra_directives"))))

/-- `if ib.get("port") is not None: entry["port"] = int(ib["port"])` -/
def putPort (tag : String) (template : Settings) : Json → Build Settings
  | .null => .ok template
  | v     => (readPort lang "openvpn" tag v).map fun port => assocSet "port" (.num port) template

/-- One turn of the loop over the entries. -/
def readEntry (template : Settings) (v : Json) : Build Settings := do
  let ib ← entryOf v
  let protocol := lang.str (Json.getD ib "protocol")
  if !decide (lang.textOr ib "protocol" "ovpn" ∈ ["ovpn", "openvpn"]) then
    .error (.core s!"an openvpn core cannot host a '{protocol}' listener.")
  else do
    let tag := lang.label (Json.getD ib "tag")
    let entry ← putPort lang tag template (Json.getD ib "port")
    let entry ← putFields lang tag ib entry
    let port ← py (Json.getD entry "port").int
    let proto := lang.str (Json.getD entry "proto")
    .ok (assocSet "tag" (.str (if tag = "" then s!"ovpn-{port}-{proto}" else tag)) entry)

/-- By what the rows of a set are told apart. -/
structure Endpoint where
  tag    : String
  port   : Int
  proto  : String
  subnet : String

def endpointOf (row : Settings) : Except PyErr Endpoint := do
  let port ← (Json.getD row "port").int
  .ok ⟨lang.str (Json.getD row "tag"), port, lang.str (Json.getD row "proto"),
    lang.textOr row "subnet" ""⟩

/-- `_validate_listener_set`, after the rows in `seen` -/
def validateListenerSet : List Endpoint → List Endpoint → Build Unit
  | _, []            => .ok ()
  | seen, row :: rest =>
    if !decide (1 ≤ row.port ∧ row.port ≤ 65535) then
      .error (.core s!"openvpn listener '{row.tag}': port out of range ({row.port}).")
    else if !decide (row.proto ∈ ["udp", "tcp"]) then
      .error (.core s!"openvpn listener '{row.tag}': serves udp or tcp, not '{row.proto}'.")
    else if seen.any fun other => decide (other.tag = row.tag) then
      .error (.core s!"duplicate openvpn inbound name '{row.tag}'.")
    else
      match seen.find? fun other => decide (other.port = row.port ∧ other.proto = row.proto) with
      | some other =>
        .error (.core (s!"openvpn inbounds '{other.tag}' and '{row.tag}' share {row.proto} " ++
          s!"port {row.port} — like xray, every inbound needs its OWN (port, protocol) pair."))
      | none =>
        match seen.find? fun other => decide (other.subnet = row.subnet ∧ row.subnet ≠ "") with
        | some other =>
          .error (.core (s!"openvpn inbounds '{other.tag}' and '{row.tag}' share tunnel subnet " ++
            s!"{row.subnet} — two daemons announcing the same network kills client routing."))
        | none => validateListenerSet (seen ++ [row]) rest

def norm (field : String) (v : Json) : Except PyErr Json :=
  if field = "auth_mode" then .ok (.str (lang.lower (stripped lang v))) else .ok v

def conflict (field first tag : String) : String :=
  s!"'{field}' is a core-wide openvpn setting but inbound '{first}' and inbound '{tag}' disagree " ++
    "— the PKI and the auth database are shared by every listener, so keep the value identical " ++
    "on all entries."

/-- `settings["auth_mode"]` -/
def authMode (mode : Option Json) : Build Settings :=
  let text := textOrEmpty lang (mode.getD .null)
  if text = "" then .ok []
  else if text ∈ ["management", "static"] then .ok [("auth_mode", .str text)]
  else .error (.core s!"unknown openvpn auth_mode '{text}'.")

/-- The settings all rows have in common. -/
def knobs (entries : List (Settings × String)) : Build Settings := do
  let common := fun field => shared (norm lang field) (conflict field) field none entries
  let mode ← common "auth_mode"
  let mode ← authMode lang mode
  let username ← common "username"
  let password ← common "password"
  .ok (mode ++ setTruthy lang "static_user" username ++ setTruthy lang "static_pass" password)

/-- What `_install_static_auth` refuses, where the mode asks for it. -/
def checkStatic (s : Settings) : Build Unit :=
  let user := textOrEmpty lang (Json.getD s "static_user")
  let password := textOrEmpty lang (Json.getD s "static_pass")
  if !Pptp.isText "static" (Json.getD s "auth_mode") then .ok ()
  else if user = "" || password = "" then
    .error (.core ("openvpn static auth_mode needs username AND password (the wizard's Static " ++
      "Authentication section)."))
  else if user.toList.contains ':' || user.toList.contains '\n' || password.toList.contains '\n' then
    .error (.core "static openvpn credentials may not contain ':' or newlines.")
  else .ok ()

/-- The flat settings mirror the first row. -/
def mirrored : List Settings → Settings
  | []         => []
  | first :: _ => listenerKeys.map fun key => (key, Json.getD first key)

/-- What `apply_studio_document` sets. -/
def updates (s document : Settings) : Build Settings := do
  let inbounds ← someInbounds
    "an openvpn core needs at least ONE inbound — the studio document carries none." document
  let template ← py (listenerFromFlat lang s)
  let rows ← inbounds.mapM (readEntry lang template)
  let endpoints ← py (rows.mapM (endpointOf lang))
  validateListenerSet [] endpoints
  let knobs ← knobs lang (tagged inbounds (endpoints.map Endpoint.tag))
  checkStatic lang (Json.merge s knobs)
  .ok (knobs ++ ("listeners", rowsOf rows) :: mirrored rows)

end OpenVpn

-- ---------------------------------------------------------------------------
-- SSH
-- ---------------------------------------------------------------------------

namespace Ssh

/-- A row of the listener set. -/
structure Row where
  tag    : String
  port   : Int
  listen : Option String

def Row.entries (row : Row) : Settings :=
  [("tag", .str row.tag), ("port", .num row.port)] ++
    (row.listen.map fun listen => ("listen", Json.str listen)).toList

/-- The port of an entry without one: that of the row of its name, or the flat one. -/
def inheritedPort (s : Settings) (listeners : List Settings) (tag : String) : Except PyErr Int :=
  let probe := if tag = "" then "ssh" else tag
  match listeners.find? fun row => Pptp.isText probe (Json.getD row "tag") with
  | some row => (Json.getD row "port").int
  | none     => intOr s "port" 2022

def entryPort (s : Settings) (listeners : List Settings) (tag : String) : Json → Build Int
  | .null => py (inheritedPort s listeners tag)
  | v     => readPort lang "ssh" tag v

/-- One turn of the loop over the entries. -/
def readEntry (s : Settings) (listeners : List Settings) (single : Bool) (v : Json) :
    Build Row := do
  let ib ← entryOf v
  let protocol := lang.str (Json.getD ib "protocol")
  if lang.textOr ib "protocol" "ssh" ≠ "ssh" then
    .error (.core s!"an ssh core cannot host a '{protocol}' listener.")
  else do
    let tag := lang.label (Json.getD ib "tag")
    let port ← entryPort lang s listeners tag (Json.getD ib "port")
    let listen := Json.getD ib "listen"
    .ok
      { tag    := if tag ≠ "" then tag else if single then "ssh" else s!"ssh-{port}"
        port   := port
        listen := if listen.truthy then some (lang.str listen) else none }

/-- `_RESERVED_PORT` -/
def reservedPort : Int := 22

/-- `_validate_listener_set`, after the rows in `seen` -/
def validateListenerSet : List Row → List Row → Build Unit
  | _, []            => .ok ()
  | seen, row :: rest =>
    if !decide (1 ≤ row.port ∧ row.port ≤ 65535) then
      .error (.core s!"ssh listener '{row.tag}': port out of range ({row.port}).")
    else if row.port = reservedPort then
      .error (.core (s!"ssh listener '{row.tag}': port 22 is reserved for operator access — the " ++
        "panel never binds its own listener there."))
    else if seen.any fun other => decide (other.tag = row.tag) then
      .error (.core s!"duplicate ssh inbound name '{row.tag}'.")
    else if seen.any fun other => decide (other.port = row.port) then
      .error (.core (s!"ssh listeners share port {row.port} — like xray, every inbound needs its " ++
        s!"OWN port (check '{row.tag}')."))
    else validateListenerSet (seen ++ [row]) rest

/-- `_norm` -/
def norm (field : String) (v : Json) : Except PyErr Json :=
  if field = "max_sessions" then
    match v.int with
    | .ok n    => .ok (.num n)
    | .error e => if e.isValueError || e.kind == .type then .ok v else .error e
  else if field = "sftp" then
    match v with
    | .str s => .ok (.bool (decide
      (lang.lower (String.ofList (strip s.toList)) ∈ ["1", "true", "yes", "on"])))
    | v      => .ok (.bool v.truthy)
  else if field = "authentication" then
    .ok (.str (lang.lower (String.ofList (strip (lang.str v).toList))))
  else .ok v

def conflict (field first tag : String) : String :=
  s!"'{field}' is a daemon-wide sshd setting but inbound '{first}' and inbound '{tag}' disagree " ++
    "— ONE sshd serves every listener, so keep the value identical on all entries."

/-- How users log in. -/
def authMethods (authentication : Option Json) : Build Settings :=
  let text := textOrEmpty lang (authentication.getD .null)
  if text = "" then .ok []
  else if text ∈ ["password", "publickey", "both"] then
    .ok [("password_auth", .bool (decide (text ∈ ["password", "both"]))),
      ("pubkey_auth", .bool (decide (text ∈ ["publickey", "both"])))]
  else .error (.core s!"unknown ssh authentication mode '{text}'.")

def maxSessions : Option Json → Build Settings
  | none   => .ok []
  | some v => (py v.int).map fun n => [("max_sessions", .num n)]

/-- The settings of the one daemon. -/
def knobs (s : Settings) (entries : List (Settings × String)) : Build Settings := do
  let common := fun field => shared (norm lang field) (conflict field) field none entries
  let authentication ← common "authentication"
  let methods ← authMethods lang authentication
  let set := Json.merge s methods
  if !(Json.getD set "password_auth").truthy && !(Json.getD set "pubkey_auth").truthy then
    .error (.core ("refusing an sshd with BOTH password AND public-key auth off — nobody " ++
      "(including you) could ever log in."))
  else do
    let shell ← common "shell"
    let sftp ← common "sftp"
    let sessions ← common "max_sessions"
    let sessions ← maxSessions sessions
    let password ← common "password"
    let banner ← common "banner"
    let publicKey ← common "public_key"
    .ok (methods ++ setTruthy lang "shell" shell ++
      (sftp.map fun v => ("sftp", flagOf v)).toList ++ sessions ++
      setText lang "default_password" password ++ setText lang "banner" banner ++
      setText lang "default_authorized_key" publicKey)

/-- The listener set of a document, and what it sets besides. -/
def rowsAndKnobs (s : Settings) (listeners : List Settings) (document : Settings) :
    Build (List Row × Settings) := do
  let inbounds ← someInbounds
    "an ssh core needs at least ONE inbound — the studio document carries none." document
  let rows ← inbounds.mapM (readEntry lang s listeners (decide (inbounds.length = 1)))
  validateListenerSet [] rows
  let knobs ← knobs lang s (tagged inbounds (rows.map Row.tag))
  .ok (rows, knobs)

/-- The flat port mirrors the first row. -/
def mirrored : List Row → Settings
  | []         => []
  | first :: _ => [("port", .num first.port)]

end Ssh

-- ---------------------------------------------------------------------------
-- SoftEther
-- ---------------------------------------------------------------------------

namespace SoftEther

/-- `_STUDIO_FEATURES` -/
def studioFeatures : List String := ["softether", "l2tp", "l2tp_raw", "etherip", "sstp", "ovpn"]

/-- The tags of features without one of their own. -/
def defaultTag (protocol : String) : String :=
  if protocol = "l2tp_raw" then "l2tp-raw"
  else if protocol = "ovpn" then "softether-openvpn"
  else protocol

/-- `_feature_tag` -/
def featureTag (s : Settings) (protocol : String) : Except PyErr String := do
  let tags ← entriesOf ((Json.getD s "feature_tags").or (.dict []))
  .ok (lang.textOr tags protocol (defaultTag protocol))

/-- `wanted`: the entry of each feature, with its tag. -/
def wanted (s : Settings) : List (String × Settings) → List Json → Build (List (String × Settings))
  | features, []        => .ok features
  | features, v :: rest => do
    let ib ← entryOf v
    let proto := textOrEmpty lang (Json.getD ib "protocol")
    if proto = "pptp" then
      .error (.core ("SoftEther does not implement PPTP. Use L2TP/IPsec, SSTP, OpenVPN " ++
        "compatibility, or the native SoftEther protocol."))
    else if !studioFeatures.contains proto then
      .error (.core (s!"SoftEther has no hub feature '{proto}' " ++
        "(['etherip', 'l2tp', 'l2tp_raw', 'ovpn', 'softether', 'sstp'])."))
    else if features.any fun e => decide (e.1 = proto) then
      .error (.core (s!"SoftEther '{proto}' is a server-wide hub feature, not a multi-listener " ++
        "protocol; keep exactly one inbound for it."))
    else do
      let tag := lang.label (Json.getD ib "tag")
      let tag ← if tag = "" then py (featureTag lang s proto) else .ok tag
      wanted s (features ++ [(proto, assocSet "tag" (.str tag) ib)]) rest

/-- The entry of a feature, empty where it is not wanted. -/
def entryFor (wanted : List (String × Settings)) (proto : String) : Settings :=
  ((wanted.find? fun e => decide (e.1 = proto)).map Prod.snd).getD []

def wants (wanted : List (String × Settings)) (proto : String) : Bool :=
  wanted.any fun e => decide (e.1 = proto)

/-- The pre-shared key: what the wizard says for L2TP, then what the server has, then
what is stored. -/
def pskUpdates (s : Settings) (live : Option String) (wanted : List (String × Settings)) :
    Build Settings :=
  let supplied := lang.label (Json.getD (entryFor wanted "l2tp") "ipsec_psk")
  let stored := lang.label (Json.getD s "ipsec_psk")
  let psk := (([supplied, live.getD "", stored].filter fun psk => decide (psk ≠ "")).head?).getD ""
  if !wants wanted "l2tp" then .ok []
  else if psk = "" then .error (.core "L2TP/IPsec needs a non-empty pre-shared key (ipsec_psk).")
  else .ok [("ipsec_psk", .str psk)]

/-- The native listener; the port of one that goes has to be readable, too. -/
def nativeUpdates (s : Settings) (wanted : List (String × Settings)) : Build Settings :=
  if wants wanted "softether" then do
    let port ← py (intOr (entryFor wanted "softether") "port" 5555)
    let _ ← py (intOr s "native_port" port)
    .ok [("native_port", .num port), ("feature_softether", .bool true)]
  else if (Json.getD s "feature_softether").truthy then do
    let _ ← py (intOr s "native_port" 5555)
    .ok [("feature_softether", .bool false)]
  else .ok [("feature_softether", .bool false)]

/-- The old SSTP listener; `s` has the native port already. -/
def checkOldSstp (s : Settings) (legacy : Json) (sstp : Bool) : Build Unit := do
  let old ← py (legacy.or ((Json.getD s "sstp_port").or (.num 443))).int
  if !sstp || decide (old ≠ 443) then do
    let _ ← py (intOr s "native_port" 5555)
    .ok ()
  else .ok ()

/-- What `apply_studio_document` sets. -/
def updates (s : Settings) (legacy : Json) (live : Option String) (document : Settings) :
    Build Settings := do
  let inbounds ← someInbounds
    "an empty SoftEther feature set disconnects every client — keep at least one feature inbound."
    document
  let wanted ← wanted lang s [] inbounds
  let has := fun proto => Json.bool (wants wanted proto)
  let psk ← pskUpdates lang s live wanted
  let listener ← nativeUpdates s wanted
  checkOldSstp (Json.merge s listener) legacy (wants wanted "sstp")
  let port ← py (intOr (entryFor wanted "ovpn") "port" 1194)
  .ok (psk ++ listener ++
    [("feature_l2tp", has "l2tp"), ("feature_l2tp_raw", has "l2tp_raw"),
      ("feature_etherip", has "etherip"), ("feature_sstp", has "sstp"), ("sstp_port", .num 443),
      ("feature_ovpn", has "ovpn"), ("ovpn_ports", .str (toString port)),
      ("feature_tags", .dict (wanted.map fun e => (e.1, Json.getD e.2 "tag")))])

/-- A feature that is on is an inbound. -/
def featureInbound (s : Settings) (proto : String) (port : Except PyErr Int) :
    Except PyErr (Option Inbound) :=
  if has s ("feature_" ++ proto) then do
    let tag ← featureTag lang s proto
    let port ← port
    .ok (some ⟨.str tag, .str proto, .num port⟩)
  else .ok none

/-- `int(str(v or "1194").split(",")[0])` -/
def firstOvpnPort (s : Settings) : Except PyErr Int :=
  intOfStr (((lang.textOr s "ovpn_ports" "1194").splitOn ",").headD "")

/-- The inbounds of `export_config_document`. -/
def exported (s : Settings) : Except PyErr (List Inbound) := do
  let features ← [("softether", intOr s "native_port" 5555), ("l2tp", .ok 1701),
    ("l2tp_raw", .ok 1701), ("etherip", .ok 0), ("sstp", intOr s "sstp_port" 443),
    ("ovpn", firstOvpnPort lang s)].mapM fun e => featureInbound lang s e.1 e.2
  .ok features.reduceOption

end SoftEther

-- ---------------------------------------------------------------------------
-- PPTP and WireGuard
-- ---------------------------------------------------------------------------

/-- `validate_studio_document` and what `apply_studio_document` puts in place. -/
def Pptp.row (document : Settings) : Build (List Settings) :=
  match (Json.getD document "inbounds").or (.list []) with
  | .list []    => .ok []
  | .list [row] => (normalizeInbound lang row).map fun row => [row]
  | .list _     => refuse "PPTP has one fixed TCP/1723 listener; multiple inbounds are unsupported"
  | _           => refuse "PPTP inbounds must be an array"

/-- A row of PPTP as an inbound. -/
def Pptp.inboundOf (row : Json) : Except PyErr Inbound := do
  let row ← entriesOf row
  .ok ⟨Json.getD row "tag", Json.getD row "protocol", Json.getD row "port"⟩

/-- `_mirror_primary_flat_settings`: of the row itself, not of what the flat settings
make of it. -/
def WireGuard.mirrored : List Settings → Settings
  | []         => []
  | first :: _ => listenerKeys.map fun key => (key, Json.getD first key)

def WireGuard.updates (s document : Settings) : Build Settings := do
  let rows ← py (listOr s "listeners" [])
  let rows ← py (rows.mapM dictOf)
  let rows ← ZagrosNode.WireGuard.parseStudioDocument lang ⟨rows, s⟩ document
  .ok (("listeners", rowsOf rows) :: mirrored rows)

/-- A row with a tag and a port as an inbound. -/
def rowInbound (protocol : String) (row : Settings) : Except PyErr Inbound := do
  let tag ← item row "tag"
  let port ← item row "port"
  let port ← port.int
  .ok ⟨tag, .str protocol, .num port⟩

-- ---------------------------------------------------------------------------
-- sing-box
-- ---------------------------------------------------------------------------

namespace SingBox

/-- `_USERPASS_PROTOCOLS` -/
def userpassProtocols : List String := ["naive", "socks", "http", "mixed"]

/-- `_DERIVED_PROTOCOLS`, sorted -/
def derivedProtocols : List String :=
  ["hysteria2", "shadowsocks", "trojan", "tuic", "vless", "vmess"]

/-- `_PROTOCOLS`, which are the protocols of the wizard as well -/
def protocols : List String := derivedProtocols ++ "anytls" :: userpassProtocols

/-- `_SS_SUPPORTED_METHODS` -/
def supportedMethods : List String :=
  ["aes-128-gcm", "aes-192-gcm", "aes-256-gcm", "chacha20-ietf-poly1305",
    "xchacha20-ietf-poly1305", "2022-blake3-aes-128-gcm", "2022-blake3-aes-256-gcm"]

/-- What a wizard's entry may have. -/
def knownFields : List String :=
  ["tag", "protocol", "listen", "port", "inbound_variant", "transport", "security", "path", "host",
    "headers", "service_name", "authority", "sni", "alpn", "method", "flow", "fingerprint",
    "public_key", "congestion_control", "zero_rtt", "up_mbps", "down_mbps", "obfs", "cipher",
    "ports", "ipsec_psk", "certificate", "certificate_key", "mode", "username", "password", "auth",
    "padding_scheme", "masquerade", "http_method", "certificate_path", "certificate_key_path",
    "header_type", "request_headers"]

/-- The setting without which `_user_entry` raises. -/
def credential (protocol : String) : String :=
  if protocol ∈ ["vless", "vmess"] then "id" else "password"

/-- `_account_selects` -/
def accountSelects (tag : String) (a : UserAccount) : Except PyErr Bool := do
  let tags ← listOr a.settings "inbound_tags" []
  if !tags.isEmpty && !tags.any fun t => decide (lang.str t = tag) then .ok false
  else do
    let excluded ← listOr a.settings "excluded_inbounds" []
    .ok !excluded.any fun t => decide (lang.str t = tag)

/-- `users`: whether there are some, once the record of each is made. -/
def served (accounts : List UserAccount) (protocol : String)
    (selects : UserAccount → Except PyErr Bool) : Except PyErr Bool := do
  let users ← (accounts.filter fun a => decide (a.protocol = protocol) && a.enabled).filterM selects
  let records ← users.mapM fun a => item a.settings (credential protocol)
  .ok !records.isEmpty

/-- An inbound of a protocol that has users, on its port. -/
def derivedInbound (s : Settings) (accounts : List UserAccount) (protocol : String) :
    Build (Option Inbound) := do
  let users ← py (served accounts protocol fun _ => .ok true)
  let method := lang.str (Json.getD s "ss_method")
  if !users then .ok none
  else if protocol = "shadowsocks" && !supportedMethods.contains method then
    .error (.core (s!"sing-box does not implement shadowsocks method '{method}' (verified against " ++
      s!"the real binary) — supported: {lang.repr (.list (supportedMethods.map .str))}."))
  else do
    let ports ← py (mappingOf (Json.getD s "ports"))
    let port ← py (item ports protocol)
    let port ← py port.int
    .ok (some ⟨.str (protocol ++ "-in"), .str protocol, .num port⟩)

/-- `_render_inbounds` without a document -/
def derived (s : Settings) (accounts : List UserAccount) : Build (List Inbound) :=
  (derivedProtocols.mapM (derivedInbound lang s accounts)).map List.reduceOption

/-- `_studio_entry_to_native` -/
def nativeEntry (host : Host) (s raw : Settings) : Build Settings :=
  let shown := host.lang.str (Json.getD raw "tag")
  let proto := textOrEmpty host.lang ((Json.getD raw "protocol").or (Json.getD raw "type"))
  let unknown := ((raw.map Prod.fst).filter fun key => !knownFields.contains key).mergeSort
    fun a b => decide (a ≤ b)
  if (Json.getD raw "type").truthy && (Json.getD raw "listen_port").truthy then .ok raw
  else if !protocols.contains proto then
    .error (.core (s!"studio inbound '{shown}': sing-box has no server inbound '{proto}' — " ++
      "WireGuard exists in sing-box only as an OUTBOUND (a WireGuard *listener* is the WireGuard " ++
      "core's job); redirect/tproxy/tun/shadowtls are transparent-proxy facilities, not per-user " ++
      "inbounds."))
  else if unknown ≠ [] then
    .error (.core (s!"studio inbound '{shown}': fields not translatable to a sing-box listener: " ++
      s!"{host.lang.repr (.list (unknown.map .str))} — edit raw JSON instead."))
  else do
    let tag ← py (item raw "tag")
    let port ← py (item raw "port")
    let port ← py port.int
    let fields ← host.singBoxFields s raw
    .ok ([("type", .str proto), ("tag", tag), ("listen", (Json.getD raw "listen").or
      (Json.getD s "listen")), ("listen_port", .num port)] ++ fields)

/-- Is a listener rendered whose protocol has users on it, or none? -/
def kept (protocol : String) (users bootstrap : Bool) : Bool :=
  users || decide (protocol ∈ ["hysteria2", "tuic", "anytls"]) ||
    (decide (protocol ∈ userpassProtocols) && (bootstrap || decide (protocol ≠ "naive")))

/-- One turn of `_merge_studio_inbounds`. -/
def mergeEntry (host : Host) (s : Settings) (accounts : List UserAccount) (raw : Json) :
    Build (Option Inbound) := do
  let raw ← entryOf raw
  let ib ← nativeEntry host s raw
  let tag := host.lang.textOr ib "tag" ""
  let inbound : Inbound := ⟨Json.getD ib "tag", Json.getD ib "type", Json.getD ib "listen_port"⟩
  if "zg-chain-".isPrefixOf tag then .ok none
  else do
    let known ← py (Xray.isOneOf protocols (Json.getD ib "type"))
    if !known then .ok (some inbound)
    else do
      let protocol := host.lang.str (Json.getD ib "type")
      let users ← py (served accounts protocol (accountSelects host.lang tag))
      let bootstrap ← py (listOr ib "users" [])
      .ok (if kept protocol users !bootstrap.isEmpty then some inbound else none)

/-- `_render_inbounds` of a document, if it has any -/
def rendered (host : Host) (s : Settings) (accounts : List UserAccount)
    (document : Option Settings) : Build (List Inbound) :=
  let inbounds := Json.getD (document.getD []) "inbounds"
  if inbounds.truthy then do
    let entries ← py (listOf inbounds)
    let inbounds ← entries.mapM (mergeEntry host s accounts)
    .ok inbounds.reduceOption
  else derived host.lang s accounts

end SingBox

-- ---------------------------------------------------------------------------
-- Xray
-- ---------------------------------------------------------------------------

namespace Xray

/-- `_studio_entry_to_native`: entries with the fields of an inbound are one. -/
def nativeEntry (host : Host) (raw : Json) : Build Settings := do
  let raw ← py (dictOf raw)
  if (Json.get? raw "streamSettings").isSome || (Json.get? raw "settings").isSome then .ok raw
  else host.xrayNative raw

/-- `row.get("tag") or ""` of the rows, all of which are to be objects -/
def tagsOf (rows : List Json) : Option (List String) :=
  rows.mapM fun row =>
    match row with
    | .dict row => some (lang.textOr row "tag" "")
    | _         => none

/-- A list of a configuration, which has to have rows. -/
def someRows (label : String) (v : Json) : Build (List Json) :=
  match v with
  | .list (row :: rest) => .ok (row :: rest)
  | _                   =>
    .error (.core s!"standalone xray config requires a non-empty {label}s list")

/-- The tags of one list of a configuration. -/
def validateTags (label : String) (rows : List Json) : Build Unit :=
  match tagsOf lang rows with
  | none      => .error (.core s!"every xray {label} needs a valid non-empty tag")
  | some tags =>
    if tags.any fun tag => decide (tag = "") || tag.toList.contains ',' then
      .error (.core s!"every xray {label} needs a valid non-empty tag")
    else if !decide tags.Nodup then .error (.core s!"xray {label} tags must be unique")
    else .ok ()

/-- `_validate` of a configuration that is to run -/
def validate (config : Settings) : Build Unit := do
  let inbounds ← someRows "inbound" (Json.getD config "inbounds")
  let outbounds ← someRows "outbound" (Json.getD config "outbounds")
  validateTags lang "inbound" inbounds
  validateTags lang "outbound" outbounds

/-- The document that is written. -/
def native (host : Host) (document : Settings) : Build Settings := do
  let inbounds ←
    match Json.getD document "inbounds" with
    | .list (raw :: rest) => .ok (raw :: rest)
    | _                   =>
      .error (.core ("the xray studio document must carry at least ONE inbound — xray cannot " ++
        "boot an empty listener set (legacy validation)."))
  let rows ← inbounds.mapM (nativeEntry host)
  let tags := rows.map fun row => host.lang.textOr row "tag" ""
  if tags.contains "" || !decide tags.Nodup then
    .error (.core "every inbound needs a unique, non-empty tag.")
  else do
    let config := assocSet "inbounds" (rowsOf rows) document
    validate host.lang config
    .ok config

/-- The rows of `_read`; a file that is not there has none. -/
def configRows (config : Option Json) : Build (List Json) :=
  match config with
  | none                => .ok []
  | some (.dict config) => py (listOf ((Json.get? config "inbounds").getD (.list [])))
  | some _              => .error (.core "standalone xray config must be a JSON object")

/-- `inbounds()` of a configuration. -/
def listed (config : Option Json) : Build (List Inbound) := do
  let rows ← configRows config
  let inbounds ← py (inbounds lang rows)
  .ok (inbounds.entries.map fun e =>
    ⟨Json.getD e.2 "tag", Json.getD e.2 "protocol", Json.getD e.2 "port"⟩)

end Xray

-- ---------------------------------------------------------------------------
-- All drivers
-- ---------------------------------------------------------------------------

/-- `for key, value in updates: settings[key] = value`, of different keys -/
def Driver.assign (updates : Settings) (d : Driver) : Driver :=
  { d with settings := Json.merge d.settings updates }

/-- Where Xray's backend keeps its configuration. -/
def Driver.config (host : Host) (d : Driver) : String :=
  host.place (host.lang.str (Json.getD d.kept "_config"))

/-- The rows of `_listeners` of SSH. -/
def Driver.sshRows (d : Driver) : List Settings :=
  match Json.getD d.kept "_listeners" with
  | .list rows => rows.map fieldsOf
  | _          => []

/-- `apply_studio_document`, up to calls that return nothing -/
def adopt (host : Host) (core : CoreId) (psk : Option String) (d : Driver) (document : Settings) :
    Build Driver :=
  match core with
  | .openvpn   => (OpenVpn.updates host.lang d.settings document).map fun updates =>
    d.assign updates
  | .pptp      => (Pptp.row host.lang document).map fun rows =>
    d.assign [("inbounds", rowsOf rows)]
  | .singBox   => (SingBox.rendered host d.settings d.accounts (some document)).map fun _ =>
    { d with document := some document }
  | .softether =>
    (SoftEther.updates host.lang d.settings (Json.getD d.kept "_legacy_sstp_port") psk
      document).map fun updates => d.assign updates
  | .ssh       => (Ssh.rowsAndKnobs host.lang d.settings d.sshRows document).map fun set =>
    let rows := rowsOf (set.1.map Ssh.Row.entries)
    { d.assign (set.2 ++ ("listeners", rows) :: Ssh.mirrored set.1) with
      kept := assocSet "_listeners" rows d.kept }
  | .wireguard => (WireGuard.updates host.lang d.settings document).map fun updates =>
    d.assign updates
  | .xray      => (Xray.native host document).map fun config =>
    { d with configs := Function.update d.configs (d.config host) (some (.dict config)) }

/-- A start of sing-box notes the binary it has put in place. -/
def Driver.noted (core : CoreId) (executable : Option String) (d : Driver) : Driver :=
  match core, executable with
  | .singBox, some path => d.assign [("executable_path", .str path)]
  | _, _                => d

/-- `CoreManager.apply_studio_document` -/
def applyStudioDocument (host : Host) (core : CoreId) (answers : Answers) (d : Driver)
    (document : Settings) : Build Driver := do
  let d ← adopt host core answers.psk d document
  answers.calls
  .ok (d.noted core answers.executable)

/-- The inbounds a driver serves: the rows it reads from its settings, what sing-box
renders, and for Xray `inbounds()` of the backend. The backend runs from the file it was
built with; `export_config_document` would read the one that the settings name by now,
which the daemon takes up only when driver and backend are built again. -/
def Driver.inbounds (host : Host) (core : CoreId) (d : Driver) : Build (List Inbound) :=
  match core with
  | .openvpn   => do
    let rows ← py (OpenVpn.listeners host.lang d.settings)
    py (rows.mapM (rowInbound "ovpn"))
  | .pptp      => do
    let rows ← py (listOr d.settings "inbounds" [])
    py (rows.mapM Pptp.inboundOf)
  | .singBox   => SingBox.rendered host d.settings d.accounts d.document
  | .softether => py (SoftEther.exported host.lang d.settings)
  | .ssh       => py (d.sshRows.mapM (rowInbound "ssh"))
  | .wireguard => do
    let rows ← py (WireGuard.listeners d.settings)
    py (rows.mapM (rowInbound "wireguard"))
  | .xray      => Xray.listed host.lang (d.configs (d.config host))

end ZagrosNode.Drivers
