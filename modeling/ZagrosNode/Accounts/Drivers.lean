import ZagrosNode.Lib.Base64
import ZagrosNode.Accounts.Holdings

/-!
# ZagrosNode — `sync_accounts` of the seven drivers

What a driver asks of the host (daemons, account tools, fresh secrets, address
pools) is the parameter `Host`: a call may raise, and what the driver changed
before the call stays changed. SSH owns one unix user per account besides its
dictionary, so an account it lists is only served while that user exists.

What a sync leaves behind is in `Accounts/Sync.lean`.

Everything here is translated from the seven `driver.py` below
`vendor/zagros/app/cores/drivers/`, one namespace for each. The parts of a driver that
have nothing to do with accounts are left out: configuration files, processes, and the
rendering of what is published, whose failure is one answer of the host.

* **Order.** A driver prepares accounts one by one and may raise in the middle; what it
  has changed by then is kept. Which part comes before which call is therefore as in
  the source.
* **Secrets.** `secret` is what `secrets.token_urlsafe` or `uuid4` returns. It is drawn
  by the host for an account and a field, so that two runs draw two secrets.
* **Credentials.** Each driver has its own rule for when it mints: always, unless a
  setting of the core stands in, or by protocol. The shared part is `mintPassword`.
* **Stale accounts.** SSH deletes what is listed and no longer desired, in the order of
  a set; the model visits them in that of the dictionary.

`sync_accounts` of sing-box ends with `_normalize_account`, which turns the passwords
of Shadowsocks accounts into keys; it is modelled with its digests and its base64.
-/

namespace ZagrosNode.Accounts

open ZagrosNode.Lib ZagrosNode.Cores Op

-- ---------------------------------------------------------------------------
-- The host
-- ---------------------------------------------------------------------------

/-- What a driver raises. -/
inductive DriverError
  | core (text : String)
  | notImplemented (text : String)
  | timeout
  | other (text : String)
  deriving DecidableEq, Repr

/-- `except CoreError` -/
def DriverError.isCore : DriverError → Bool
  | .core _ => true
  | _       => false

/-- `except Exception` inside the driver. The request's timeout reaches the
driver as a cancellation, which this clause does not catch. -/
def DriverError.isException : DriverError → Bool
  | .timeout => false
  | _        => true

/-- What a driver asks of its backend during a sync. -/
inductive HostCall
  | createUser (name : String)
  | setPassword (name : String)
  | authorizeKey (name : String)
  | unlockUser (name : String)
  | lockUser (name : String)
  | killSessions (name : String)
  | forgetTransport (name : String)
  | deleteUser (name : String)
  | statusClients
  | killClient (name : String)
  | reconcileUsers (desired stale : List String)
  | writeConfig
  | publish
  deriving DecidableEq, Repr

/-- The host side of one request. -/
structure Host where
  call : HostCall → Except DriverError Unit
  /-- common names the OpenVPN management interface reports -/
  clients : List String
  /-- `secrets.token_urlsafe`, `uuid.uuid4`: never empty -/
  secret : UserAccount → { s : String // s ≠ "" }
  /-- WireGuard's `_provision_keys`: the settings with keys and tunnel addresses -/
  provisionKeys : Roster → UserAccount → Except DriverError Settings
  /-- `_ensure_bandwidth_address(es)`: the settings with an address of the pool -/
  bandwidthAddress : Roster → UserAccount → Except DriverError Settings

/-- A driver as far as its accounts go. -/
structure Driver where
  settings  : Settings
  roster    : Roster
  /-- the unix users of the host that SSH works with -/
  unixUsers : List String
  xray      : XrayConfig

namespace Driver

def putAccount (d : Driver) (account : UserAccount) : Driver :=
  { d with roster := d.roster.put account }

def dropAccount (d : Driver) (id : String) : Driver := { d with roster := d.roster.remove id }

def addUnixUser (d : Driver) (name : String) : Driver :=
  { d with unixUsers := d.unixUsers ++ [name] }

def dropUnixUser (d : Driver) (name : String) : Driver :=
  { d with unixUsers := d.unixUsers.filter fun other => decide (other ≠ name) }

def withRoster (d : Driver) (roster : Roster) : Driver := { d with roster := roster }

def withXray (d : Driver) (xray : XrayConfig) : Driver := { d with xray := xray }

end Driver

abbrev Sync := Op Driver DriverError

/-- `if condition: body` -/
def onlyIf (condition : Bool) (body : Sync Unit) : Sync Unit := if condition then body else pure ()

def call (h : Host) (c : HostCall) : Sync Unit := lift (h.call c)

-- ---------------------------------------------------------------------------
-- Checks the drivers share
-- ---------------------------------------------------------------------------

/-- `_ensure_supported` -/
def ensureSupported (supported : String → Bool) (complaint : String) (account : UserAccount) :
    Except DriverError Unit :=
  if supported account.protocol then .ok () else .error (.core complaint)

/-- Mint a password where none is set. -/
def mintPassword (h : Host) (account : UserAccount) : UserAccount :=
  if isSet account.settings "password" then account
  else account.withSetting "password" (.str (h.secret account))

-- ---------------------------------------------------------------------------
-- SSH
-- ---------------------------------------------------------------------------

def safeChar (c : Char) : Bool :=
  decide (('a' ≤ c ∧ c ≤ 'z') ∨ ('0' ≤ c ∧ c ≤ '9') ∨ c = '_' ∨ c = '-')

/-- `_SAFE_USER.match` -/
def safeUser : List Char → Bool
  | []      => false
  | c :: cs => decide (('a' ≤ c ∧ c ≤ 'z') ∨ c = '_') && cs.all safeChar && decide (cs.length ≤ 31)

/-- Map a panel account id to a safe, panel-namespaced unix username. -/
def sanitizeUsername (p : Platform) (accountId : String) : Except String String :=
  let clean := (p.lower accountId).toList.map fun c => if safeChar c then c else '-'
  let candidate := if "zg-".toList.isPrefixOf clean then clean else "zg-".toList ++ clean
  let candidate := candidate.take 32
  if safeUser candidate then .ok (String.ofList candidate)
  else .error s!"cannot derive a safe unix username from '{accountId}'"

namespace Ssh

/-- `_unix_name` -/
def unixName (p : Platform) (account : UserAccount) : Except DriverError String :=
  (sanitizeUsername p account.accountId).mapError DriverError.core

/-- The account has a password once `_provision_credentials` ran. -/
def credentialed (settings : Settings) (account : UserAccount) : Bool :=
  isSet account.settings "password" || !isSet settings "default_password"

/-- The studio-set default password suppresses minting. -/
def provisionCredentials (h : Host) (settings : Settings) (account : UserAccount) : UserAccount :=
  if isSet settings "default_password" then account else mintPassword h account

def ensureCredentials (settings : Settings) (account : UserAccount) : Except DriverError Unit :=
  if isSet account.settings "password" || isSet settings "default_password" then .ok ()
  else .error (.core s!"SSH account '{account.accountId}' needs settings.password.")

/-- Create the unix user, or set the password of the one there is. -/
def ensureUser (h : Host) (account : UserAccount) (name : String) : Sync Unit := do
  let d ← get
  if name ∉ d.unixUsers then do
    call h (.createUser name)
    modify fun d => d.addUnixUser name
  else onlyIf account.enabled (call h (.setPassword name))

/-- Install the panel-level default public key. -/
def installKey (p : Platform) (h : Host) (name : String) : Sync Unit := do
  let d ← get
  let key := strip (p.text (Json.getD d.settings "default_authorized_key")).toList
  let pubkeyAuth := ((Json.get? d.settings "pubkey_auth").getD (.bool true)).truthy
  onlyIf (!key.isEmpty && pubkeyAuth) (call h (.authorizeKey name))

def lockAndKill (h : Host) (name : String) : Sync Unit := do
  call h (.lockUser name)
  call h (.killSessions name)

def createAccount (p : Platform) (h : Host) (account : UserAccount) : Sync Unit := do
  let d ← get
  lift (ensureSupported (· == "ssh")
    s!"SSH core only serves protocol 'ssh', got '{account.protocol}'." account)
  let account := provisionCredentials h d.settings account
  lift (ensureCredentials d.settings account)
  let name ← lift (unixName p account)
  ensureUser h account name
  installKey p h name
  modify fun d => d.putAccount account
  if account.enabled then call h (.unlockUser name) else lockAndKill h name

/-- Remove the unix user of a deleted account. -/
def removeUser (h : Host) (name : String) : Sync Unit := do
  lockAndKill h name
  call h (.forgetTransport name)
  call h (.deleteUser name)
  modify fun d => d.dropUnixUser name

def deleteAccount (p : Platform) (h : Host) (id : String) : Sync Unit := do
  let d ← get
  modify fun d => d.dropAccount id
  match d.roster.table.get? id with
  | none =>
    match sanitizeUsername p id with
    | .ok name => removeUser h name
    | .error _ => pure ()
  | some account => lift (unixName p account) >>= removeUser h

/-- `{a.account_id for a in accounts if a.settings.get("password")}` -/
def desiredIds (accounts : List UserAccount) : List String :=
  (accounts.filter fun a => isSet a.settings "password").map UserAccount.accountId

/-- Reconcile: (re)create desired accounts, then delete the others. The stale
accounts form a set; the model visits them in the order of the dictionary. -/
def syncAccounts (p : Platform) (h : Host) (accounts : List UserAccount) : Sync Unit := do
  let d ← get
  let accounts := accounts.map (provisionCredentials h d.settings)
  forEach (createAccount p h) (accounts.filter fun a => decide (a.accountId ∈ desiredIds accounts))
  let d ← get
  forEach (deleteAccount p h) (d.roster.ids.filter fun id => decide (id ∉ desiredIds accounts))

end Ssh

-- ---------------------------------------------------------------------------
-- Drivers that rebuild their dictionary
-- ---------------------------------------------------------------------------

namespace WireGuard

def prepare (h : Host) (roster : Roster) (account : UserAccount) :
    Except DriverError UserAccount := do
  ensureSupported (· == "wireguard")
    s!"WireGuard core only serves protocol 'wireguard', got '{account.protocol}'." account
  let settings ← h.provisionKeys roster account
  .ok { account with settings := settings }

def syncAccounts (h : Host) (accounts : List UserAccount) : Sync Unit := do
  let d ← get
  let accounts ← lift (accounts.mapM (prepare h d.roster))
  modify fun d => d.withRoster (Roster.ofAccounts accounts)
  call h .publish

end WireGuard

namespace OpenVpn

/-- `_canonical_protocol(protocol) == "ovpn"` -/
def serves (protocol : String) : Bool := protocol == "ovpn" || protocol == "openvpn"

/-- The shared pair of the static mode needs nothing per user. -/
def staticAuth (p : Platform) (settings : Settings) : Bool :=
  p.str ((Json.getD settings "auth_mode").or (.str "management")) == "static"

def provisionCredentials (p : Platform) (h : Host) (settings : Settings)
    (account : UserAccount) : UserAccount :=
  if staticAuth p settings then account else mintPassword h account

def ensureCredentials (p : Platform) (settings : Settings) (account : UserAccount) :
    Except DriverError Unit :=
  if staticAuth p settings || isSet account.settings "password" then .ok ()
  else .error (.core s!"OpenVPN account '{account.accountId}' needs settings.password.")

/-- Accounts of other protocols are passed over. -/
def prepare (p : Platform) (h : Host) (d : Driver) (account : UserAccount) :
    Except DriverError UserAccount :=
  if serves account.protocol then do
    let account := provisionCredentials p h d.settings account
    ensureCredentials p d.settings account
    let settings ← h.bandwidthAddress d.roster account
    .ok { account with settings := settings }
  else .ok account

/-- Kick the clients whose account is gone or disabled. -/
def killStrangers (h : Host) (live : List String) : Sync Unit := do
  call h .statusClients
  forEach (fun name => call h (.killClient name))
    (h.clients.filter fun name => decide (name ∉ live))

def syncAccounts (p : Platform) (h : Host) (accounts : List UserAccount) : Sync Unit := do
  let d ← get
  let accounts ← lift (accounts.mapM (prepare p h d))
  let served := accounts.filter fun a => serves a.protocol
  modify fun d => d.withRoster (Roster.ofAccounts served)
  let live := (served.filter UserAccount.enabled).map UserAccount.accountId
  -- a daemon that is down is reconciled at its next boot
  guarded DriverError.isCore (killStrangers h live) fun _ => pure ()

end OpenVpn

namespace SingBox

/-- `_PROTOCOLS` -/
def protocols : List String :=
  ["anytls", "http", "hysteria2", "mixed", "naive", "shadowsocks", "socks", "trojan", "tuic",
    "vless", "vmess"]

/-- The uuid of a TUIC account, which an older one has as its `id`. -/
def withUuid (h : Host) (account : UserAccount) : UserAccount :=
  if isSet account.settings "uuid" || isSet account.settings "id" then account
  else account.withSetting "uuid" (.str (h.secret account))

/-- The name an account of a proxy protocol logs in with. -/
def withUsername (account : UserAccount) : UserAccount :=
  if isSet account.settings "username" then account
  else
    let name := if account.username ≠ "" then account.username else account.accountId
    account.withSetting "username" (.str name)

/-- Mint missing credentials. -/
def provisionCredentials (h : Host) (account : UserAccount) : UserAccount :=
  if account.protocol ∈ ["vless", "vmess"] then
    if isSet account.settings "id" then account
    else account.withSetting "id" (.str (h.secret account))
  else if account.protocol = "tuic" then mintPassword h (withUuid h account)
  else if account.protocol ∈ ["trojan", "shadowsocks", "hysteria2", "anytls"] then
    mintPassword h account
  else if account.protocol ∈ ["naive", "socks", "http", "mixed"] then
    mintPassword h (withUsername account)
  else account

/-- `_SS2022_PSK_BYTES.get(method)`: the size of the key where the password is one. -/
def pskBytes (p : Platform) (settings : Settings) : Option Nat :=
  let method := p.str ((Json.getD settings "ss_method").or (.str "aes-128-gcm"))
  if method = "2022-blake3-aes-128-gcm" then some 16
  else if method = "2022-blake3-aes-256-gcm" then some 32
  else none

/-- The key made of a secret: the secret itself where it is the base64 text of a key of
that size, and the front of its digest otherwise. -/
def psk (p : Platform) (need : Nat) (secret : String) : Option String :=
  if ((Base64.decodeStrict secret.toList).getD []).length = need then none
  else some (String.ofList (Base64.encode ((p.sha256 secret.toUTF8.toList).take need)))

/-- `_normalize_account`: a Shadowsocks password becomes a key where the method asks for
one, and the `id` of an older TUIC account its `uuid`. -/
def normalized (p : Platform) (settings : Settings) (account : UserAccount) : Settings :=
  if account.protocol = "shadowsocks" then
    let secret := p.text (Json.getD account.settings "password")
    match pskBytes p settings with
    | none      => account.settings
    | some need =>
      if secret = "" then account.settings
      else
        match psk p need secret with
        | none     => account.settings
        | some key => assocSet "password" (.str key) account.settings
  else if account.protocol = "tuic" ∧ isSet account.settings "uuid" = false then
    match Json.getD account.settings "id" with
    | .null => account.settings
    | v     => assocSet "uuid" (.str (p.str v)) account.settings
  else account.settings

def normalizeAccount (p : Platform) (settings : Settings) (account : UserAccount) :
    UserAccount :=
  { account with settings := normalized p settings account }

def syncAccounts (p : Platform) (h : Host) (accounts : List UserAccount) : Sync Unit := do
  let d ← get
  let accounts := accounts.map (provisionCredentials h)
  let served := accounts.filter fun a => decide (a.protocol ∈ protocols)
  modify fun d' =>
    d'.withRoster (Roster.ofAccounts (served.map (normalizeAccount p d.settings)))
  call h .publish

end SingBox

namespace SoftEther

def protocols : List String := ["softether", "l2tp", "l2tp_raw", "etherip", "sstp", "ovpn"]

def prepare (h : Host) (account : UserAccount) : Except DriverError UserAccount := do
  ensureSupported (fun protocol => decide (protocol ∈ protocols))
    ("SoftEther core serves ['softether', 'l2tp', 'l2tp_raw', 'etherip', 'sstp', 'ovpn'], " ++
      s!"got '{account.protocol}'.") account
  .ok (mintPassword h account)

def syncAccounts (h : Host) (accounts : List UserAccount) : Sync Unit := do
  let d ← get
  let ids := accounts.map UserAccount.accountId
  let stale := d.roster.ids.filter fun id => decide (id ∉ ids)
  let accounts ← lift (accounts.mapM (prepare h))
  call h (.reconcileUsers ids stale)
  modify fun d => d.withRoster (Roster.ofAccounts accounts)

end SoftEther

namespace Pptp

def accountChar (c : Char) : Bool :=
  c.isAlphanum || decide (c ∈ ['.', '_', '@', '-'])

/-- `_ACCOUNT_RE.fullmatch` -/
def safeAccountId (id : String) : Bool :=
  id.toList.all accountChar && decide (1 ≤ id.length ∧ id.length ≤ 190)

def unsafePassword (password : String) : Bool :=
  password.isEmpty || decide (256 < password.length) ||
    password.toList.any fun c => decide (c ∈ ['\r', '\n', '\x00', '"', '\\'])

/-- `_validate_account` -/
def validateAccount (p : Platform) (account : UserAccount) : Except DriverError Unit :=
  if account.protocol ≠ "pptp" then .error (.core "PPTP core accepts only protocol='pptp'")
  else if !safeAccountId account.accountId then
    .error (.core "PPTP account id contains unsupported characters")
  else if unsafePassword (p.text (Json.getD account.settings "password")) then
    .error (.core "PPTP account password is missing or unsafe")
  else .ok ()

def prepare (p : Platform) (h : Host) (roster : Roster) (account : UserAccount) :
    Except DriverError UserAccount := do
  let account := mintPassword h account
  let settings ← h.bandwidthAddress roster account
  let account := { account with settings := settings }
  validateAccount p account
  .ok account

def syncAccounts (p : Platform) (h : Host) (accounts : List UserAccount) : Sync Unit := do
  let d ← get
  let accounts ← lift (accounts.mapM (prepare p h d.roster))
  modify fun d => d.withRoster (Roster.ofAccounts accounts)
  guarded DriverError.isException (call h .publish) fun e => do
    modify fun d' => d'.withRoster d.roster
    call h .publish
    raise e

end Pptp

-- ---------------------------------------------------------------------------
-- Xray
-- ---------------------------------------------------------------------------

namespace Xray

/-- `_PROTOCOLS` -/
def protocols : List String := ["shadowsocks", "trojan", "vless", "vmess"]

/-- The strings in `set(settings.get("excluded_inbounds", []))`. -/
def excludedInbounds (settings : Settings) : Except DriverError (List String) :=
  match Json.get? settings "excluded_inbounds" with
  | none                  => .ok []
  | some (.list xs)       =>
    if xs.all Json.hashable then .ok (xs.filterMap fun | .str s => some s | _ => none)
    else .error (.other "unhashable type")
  | some (.str s)         => .ok (s.toList.map Char.toString)
  | some (.dict entries)  => .ok (entries.map Prod.fst)
  | some _                => .error (.other "object is not iterable")

/-- `_mutate`: write the changed document and restart a running daemon. -/
def mutate (h : Host) (f : XrayConfig → XrayConfig) : Sync Unit := do
  modify fun d => d.withXray (f d.xray)
  call h .writeConfig

def deleteAccount (h : Host) (id : String) : Sync Unit := do
  let d ← get
  forEach (fun tag => mutate h fun c => c.removeUser tag id) d.xray.tags

/-- `_PROTOCOL_SETTINGS_KEYS` -/
def settingsKeys (protocol : String) : List String :=
  if protocol = "vmess" then ["id"]
  else if protocol = "vless" then ["id", "flow"]
  else if protocol = "trojan" then ["password", "flow"]
  else ["password", "method"]

/-- `_clean_settings`. The helper that spells the method of a shadowsocks
account out is not among the panel modules a node stands in for. -/
def cleanSettings (account : UserAccount) : Except DriverError Settings :=
  let keys := settingsKeys account.protocol
  let cleaned := account.settings.filter fun e => decide (e.1 ∈ keys)
  if account.protocol = "shadowsocks" && isSet cleaned "method" then
    .error (.other "cannot import name 'canonical_ss_method' from 'app.models.proxy'")
  else if account.protocol = "vless" || account.protocol = "trojan" then
    .ok (if (Json.get? cleaned "flow").isSome then cleaned else cleaned ++ [("flow", .str "")])
  else .ok cleaned

/-- `_apply_flow_policy` -/
def applyFlowPolicy (settings : Settings) (inbound : XrayInbound) : Settings :=
  if isSet settings "flow" &&
      !(decide (inbound.network ∈ ["tcp", "kcp"]) && decide (inbound.tls ∈ ["tls", "reality"])) then
    assocSet "flow" (.str "") settings
  else settings

/-- `_target_inbounds` -/
def targetInbounds (c : XrayConfig) (protocol : String) (excluded : List String) :
    List XrayInbound :=
  c.inbounds.filter fun inbound =>
    decide (inbound.protocol = protocol ∧ inbound.tag ∉ excluded)

/-- Suspended users must not exist on the core. -/
def createAccount (h : Host) (account : UserAccount) : Sync Unit := do
  lift (ensureSupported (fun protocol => decide (protocol ∈ protocols))
    (s!"Protocol '{account.protocol}' is not supported by the xray core " ++
      "(shadowsocks, trojan, vless, vmess).") account)
  onlyIf account.enabled do
    let settings ← lift (cleanSettings account)
    let d ← get
    let excluded ← lift (excludedInbounds account.settings)
    let targets := targetInbounds d.xray account.protocol excluded
    if targets = [] then
      raise (.core (s!"No active xray inbound matches protocol '{account.protocol}' " ++
        s!"for account '{account.accountId}'."))
    else
      forEach (fun inbound => mutate h fun c =>
        c.addUser inbound.tag ⟨account.accountId, applyFlowPolicy settings inbound⟩) targets

/-- Converge the core to the desired set after downtime. -/
def syncAccounts (h : Host) (accounts : List UserAccount) : Sync Unit := do
  forEach (fun account => deleteAccount h account.accountId) accounts
  forEach (createAccount h) accounts

end Xray

/-- `driver.sync_accounts(accounts)` -/
def syncAccounts (p : Platform) (h : Host) (accounts : List UserAccount) : CoreId → Sync Unit
  | .openvpn   => OpenVpn.syncAccounts p h accounts
  | .pptp      => Pptp.syncAccounts p h accounts
  | .singBox   => SingBox.syncAccounts p h accounts
  | .softether => SoftEther.syncAccounts h accounts
  | .ssh       => Ssh.syncAccounts p h accounts
  | .wireguard => WireGuard.syncAccounts h accounts
  | .xray      => Xray.syncAccounts h accounts

end ZagrosNode.Accounts
