import ZagrosNode.Lib.Coroutine
import ZagrosNode.Accounts.Drivers

/-!
# ZagrosNode — where a sync gives up control

`Accounts/Drivers.lean` has each driver's `sync_accounts` as one computation.
Here it is the coroutine it is in the source: other requests run at its
awaits, and what it reads after an await is what they left. The mark stands
where the coroutine starts to work on the set of accounts. Four of the five
drivers that rebuild their dictionary prepare all accounts first; SSH and Xray
work on the set account by account from the start.

Key generation is one await for each account, taken before the addresses
others hold are looked at; whether the account needs new keys makes no
difference to what can happen at it.

The two forms of a driver are written one beside the other, with the same names in
two namespaces, so that the awaits can be compared with the source and the
statements with each other. `toOp_syncAccounts` ties them: if nobody comes between,
the coroutine does what the computation does, answer for answer. Whatever is proved
of a sync that runs alone is thereby proved of the coroutine's uninterrupted runs.

An `await` is a suspension point whether or not the driver has anything to do there.
Looking up the uid of an SSH user and asking whether he exists are awaited in the
source, and so they are here; that these two give no answer of their own but read the
set of unix users at the moment they are answered is what `answers` says.

What is lost at a suspension point is the assumption that the dictionary still is what
it was. The drivers that build the new dictionary first and assign it at once are not
affected; the other two read it after awaits.

Main results:

* `toOp_syncAccounts` — a sync nobody interrupts is the one computation.
-/

namespace ZagrosNode.Accounts

open ZagrosNode.Lib ZagrosNode.Cores Co

/-- What a driver awaits during a sync. -/
inductive Await
  | backend (c : HostCall)
  /-- `generate_keypair`, `generate_preshared` -/
  | keys
  /-- Xray's `_inbounds` -/
  | inbounds
  /-- SSH's `user_exists`; whether there is one is read when the coroutine goes on -/
  | userExists (name : String)
  /-- SSH's `uid_of` -/
  | uidOf (name : String)
  deriving DecidableEq, Repr

namespace Suspended

/-- A driver's coroutine. -/
abbrev Sync := Co Driver DriverError Await

def call (c : HostCall) : Sync Unit := await (.backend c)

def onlyIf (condition : Bool) (body : Sync Unit) : Sync Unit := if condition then body else pure ()

-- ---------------------------------------------------------------------------
-- Drivers that rebuild their dictionary
-- ---------------------------------------------------------------------------

namespace WireGuard

/-- `_ensure_supported` and `_provision_keys` of one account. -/
def provision (h : Host) (account : UserAccount) : Sync UserAccount := do
  lift (ensureSupported (· == "wireguard")
    s!"WireGuard core only serves protocol 'wireguard', got '{account.protocol}'." account)
  await .keys
  let d ← get
  let settings ← lift (h.provisionKeys d.roster account)
  pure { account with settings := settings }

def syncAccounts (h : Host) (accounts : List UserAccount) : Sync Unit := do
  let accounts ← mapList (provision h) accounts
  announce
  modify fun d => d.withRoster (Roster.ofAccounts accounts)
  call .publish

end WireGuard

namespace OpenVpn

def killStrangers (h : Host) (live : List String) : Sync Unit := do
  call .statusClients
  forEach (fun name => call (.killClient name))
    (h.clients.filter fun name => decide (name ∉ live))

def syncAccounts (p : Platform) (h : Host) (accounts : List UserAccount) : Sync Unit := do
  let d ← get
  let accounts ← lift (accounts.mapM (OpenVpn.prepare p h d))
  let served := accounts.filter fun a => OpenVpn.serves a.protocol
  announce
  modify fun d => d.withRoster (Roster.ofAccounts served)
  let live := (served.filter UserAccount.enabled).map UserAccount.accountId
  guarded DriverError.isCore (fun _ => pure ()) (killStrangers h live)

end OpenVpn

namespace SingBox

def syncAccounts (p : Platform) (h : Host) (accounts : List UserAccount) : Sync Unit := do
  let d ← get
  let accounts := accounts.map (SingBox.provisionCredentials h)
  let served := accounts.filter fun a => decide (a.protocol ∈ SingBox.protocols)
  announce
  modify fun d' =>
    d'.withRoster (Roster.ofAccounts (served.map (SingBox.normalizeAccount p d.settings)))
  call .publish

end SingBox

namespace SoftEther

def syncAccounts (h : Host) (accounts : List UserAccount) : Sync Unit := do
  let d ← get
  let ids := accounts.map UserAccount.accountId
  let stale := d.roster.ids.filter fun id => decide (id ∉ ids)
  let accounts ← lift (accounts.mapM (SoftEther.prepare h))
  call (.reconcileUsers ids stale)
  announce
  modify fun d => d.withRoster (Roster.ofAccounts accounts)

end SoftEther

namespace Pptp

/-- `except Exception` of a failed publication -/
def rollBack (previous : Roster) (e : DriverError) : Sync Unit := do
  modify fun d => d.withRoster previous
  call .publish
  raise e

def syncAccounts (p : Platform) (h : Host) (accounts : List UserAccount) : Sync Unit := do
  let d ← get
  let accounts ← lift (accounts.mapM (Pptp.prepare p h d.roster))
  announce
  modify fun d => d.withRoster (Roster.ofAccounts accounts)
  guarded DriverError.isException (rollBack d.roster) (call .publish)

end Pptp

-- ---------------------------------------------------------------------------
-- SSH
-- ---------------------------------------------------------------------------

namespace Ssh

def ensureUser (account : UserAccount) (name : String) : Sync Unit := do
  await (.userExists name)
  let d ← get
  if name ∉ d.unixUsers then do
    call (.createUser name)
    modify fun d => d.addUnixUser name
  else onlyIf account.enabled (call (.setPassword name))

def installKey (p : Platform) (name : String) : Sync Unit := do
  let d ← get
  let key := strip (p.text (Json.getD d.settings "default_authorized_key")).toList
  let pubkeyAuth := ((Json.get? d.settings "pubkey_auth").getD (.bool true)).truthy
  onlyIf (!key.isEmpty && pubkeyAuth) (call (.authorizeKey name))

def lockAndKill (name : String) : Sync Unit := do
  call (.lockUser name)
  call (.killSessions name)

def createAccount (p : Platform) (h : Host) (account : UserAccount) : Sync Unit := do
  let d ← get
  lift (ensureSupported (· == "ssh")
    s!"SSH core only serves protocol 'ssh', got '{account.protocol}'." account)
  let account := Ssh.provisionCredentials h d.settings account
  lift (Ssh.ensureCredentials d.settings account)
  let name ← lift (Ssh.unixName p account)
  ensureUser account name
  installKey p name
  modify fun d => d.putAccount account
  if account.enabled then call (.unlockUser name) else lockAndKill name

def removeUser (name : String) : Sync Unit := do
  await (.uidOf name)
  lockAndKill name
  call (.forgetTransport name)
  call (.deleteUser name)
  modify fun d => d.dropUnixUser name

def deleteAccount (p : Platform) (id : String) : Sync Unit := do
  let d ← get
  modify fun d => d.dropAccount id
  match d.roster.table.get? id with
  | none =>
    match sanitizeUsername p id with
    | .ok name => removeUser name
    | .error _ => pure ()
  | some account => lift (Ssh.unixName p account) >>= removeUser

def syncAccounts (p : Platform) (h : Host) (accounts : List UserAccount) : Sync Unit := do
  announce
  let d ← get
  let accounts := accounts.map (Ssh.provisionCredentials h d.settings)
  forEach (createAccount p h)
    (accounts.filter fun a => decide (a.accountId ∈ Ssh.desiredIds accounts))
  let d ← get
  forEach (deleteAccount p) (d.roster.ids.filter fun id => decide (id ∉ Ssh.desiredIds accounts))

end Ssh

-- ---------------------------------------------------------------------------
-- Xray
-- ---------------------------------------------------------------------------

namespace Xray

/-- One edit of the document, which the backend makes under its lock. -/
def mutate (f : XrayConfig → XrayConfig) : Sync Unit := do
  modify fun d => d.withXray (f d.xray)
  call .writeConfig

def deleteAccount (id : String) : Sync Unit := do
  await .inbounds
  let d ← get
  forEach (fun tag => mutate fun c => c.removeUser tag id) d.xray.tags

def createAccount (account : UserAccount) : Sync Unit := do
  lift (ensureSupported (fun protocol => decide (protocol ∈ Xray.protocols))
    (s!"Protocol '{account.protocol}' is not supported by the xray core " ++
      "(shadowsocks, trojan, vless, vmess).") account)
  onlyIf account.enabled do
    let settings ← lift (Xray.cleanSettings account)
    await .inbounds
    let d ← get
    let excluded ← lift (Xray.excludedInbounds account.settings)
    let targets := Xray.targetInbounds d.xray account.protocol excluded
    if targets = [] then
      raise (.core (s!"No active xray inbound matches protocol '{account.protocol}' " ++
        s!"for account '{account.accountId}'."))
    else
      forEach (fun inbound => mutate fun c =>
        c.addUser inbound.tag ⟨account.accountId, Xray.applyFlowPolicy settings inbound⟩) targets

def syncAccounts (accounts : List UserAccount) : Sync Unit := do
  announce
  forEach (fun account => deleteAccount account.accountId) accounts
  forEach createAccount accounts

end Xray

/-- `driver.sync_accounts(accounts)` -/
def syncAccounts (p : Platform) (h : Host) (accounts : List UserAccount) : CoreId → Sync Unit
  | .openvpn   => OpenVpn.syncAccounts p h accounts
  | .pptp      => Pptp.syncAccounts p h accounts
  | .singBox   => SingBox.syncAccounts p h accounts
  | .softether => SoftEther.syncAccounts h accounts
  | .ssh       => Ssh.syncAccounts p h accounts
  | .wireguard => WireGuard.syncAccounts h accounts
  | .xray      => Xray.syncAccounts accounts

-- ---------------------------------------------------------------------------
-- A sync nobody interrupts
-- ---------------------------------------------------------------------------

/-- What the awaits of a request meet. -/
def answers (h : Host) : Await → Except DriverError Unit
  | .backend c    => h.call c
  | .keys         => .ok ()
  | .inbounds     => .ok ()
  | .userExists _ => .ok ()
  | .uidOf _      => .ok ()

section Uninterrupted

variable (p : Platform) (h : Host)

theorem toOp_call (c : HostCall) : (call c).toOp (answers h) = Accounts.call h c := rfl

theorem toOp_onlyIf (condition : Bool) (body : Sync Unit) :
    (onlyIf condition body).toOp (answers h) =
      Accounts.onlyIf condition (body.toOp (answers h)) := by
  cases condition <;> rfl

theorem WireGuard.toOp_provision (account : UserAccount) (d : Driver) :
    ((provision h account).toOp (answers h)).run d =
      (Accounts.WireGuard.prepare h d.roster account, d) := by
  unfold provision Accounts.WireGuard.prepare ensureSupported
  simp only [toOp_bind, toOp_lift]
  split
  · show (Op.lift (h.provisionKeys d.roster account) >>= fun settings =>
      pure { account with settings := settings }).run d = _
    cases h.provisionKeys d.roster account <;> rfl
  · rfl

theorem WireGuard.toOp_provisionAll (accounts : List UserAccount) (d : Driver) :
    ((mapList (provision h) accounts).toOp (answers h)).run d =
      (accounts.mapM (Accounts.WireGuard.prepare h d.roster), d) := by
  induction accounts with
  | nil => rfl
  | cons account rest ih =>
    rw [mapList, toOp_bind, List.mapM_cons]
    cases hFirst : Accounts.WireGuard.prepare h d.roster account with
    | error e => exact Op.run_bind_error (by rw [toOp_provision, hFirst])
    | ok first =>
      rw [Op.run_bind_ok (by rw [toOp_provision, hFirst]), toOp_bind]
      cases hRest : rest.mapM (Accounts.WireGuard.prepare h d.roster) with
      | error e => exact Op.run_bind_error (by rw [ih, hRest])
      | ok others =>
        rw [Op.run_bind_ok (by rw [ih, hRest])]
        rfl

theorem WireGuard.toOp_syncAccounts (accounts : List UserAccount) :
    (syncAccounts h accounts).toOp (answers h) = Accounts.WireGuard.syncAccounts h accounts := by
  funext d
  show ((syncAccounts h accounts).toOp (answers h)).run d =
    (Op.lift (accounts.mapM (Accounts.WireGuard.prepare h d.roster)) >>= fun prepared =>
      Op.modify (fun d => d.withRoster (Roster.ofAccounts prepared)) >>= fun _ =>
        Accounts.call h .publish).run d
  rw [syncAccounts, toOp_bind, Op.run_bind, Op.run_bind, toOp_provisionAll]
  rfl

theorem OpenVpn.toOp_killStrangers (live : List String) :
    (killStrangers h live).toOp (answers h) = Accounts.OpenVpn.killStrangers h live := by
  unfold killStrangers Accounts.OpenVpn.killStrangers
  simp only [toOp_bind, toOp_forEach, toOp_call]

theorem OpenVpn.toOp_syncAccounts (accounts : List UserAccount) :
    (syncAccounts p h accounts).toOp (answers h) = Accounts.OpenVpn.syncAccounts p h accounts := by
  unfold syncAccounts Accounts.OpenVpn.syncAccounts
  simp only [toOp_bind, toOp_get, toOp_lift, toOp_announce, Op.bind_of_pure, toOp_modify, toOp_guarded,
    toOp_killStrangers, toOp_pure]

theorem SingBox.toOp_syncAccounts (accounts : List UserAccount) :
    (syncAccounts p h accounts).toOp (answers h) = Accounts.SingBox.syncAccounts p h accounts := rfl

theorem SoftEther.toOp_syncAccounts (accounts : List UserAccount) :
    (syncAccounts h accounts).toOp (answers h) = Accounts.SoftEther.syncAccounts h accounts := by
  unfold syncAccounts Accounts.SoftEther.syncAccounts
  simp only [toOp_bind, toOp_get, toOp_lift, toOp_call, toOp_announce, Op.bind_of_pure, toOp_modify]

theorem Pptp.toOp_syncAccounts (accounts : List UserAccount) :
    (syncAccounts p h accounts).toOp (answers h) = Accounts.Pptp.syncAccounts p h accounts := by
  unfold syncAccounts Accounts.Pptp.syncAccounts rollBack
  simp only [toOp_bind, toOp_get, toOp_lift, toOp_call, toOp_announce, Op.bind_of_pure, toOp_modify,
    toOp_guarded, toOp_raise]

theorem Ssh.toOp_ensureUser (account : UserAccount) (name : String) :
    (ensureUser account name).toOp (answers h) = Accounts.Ssh.ensureUser h account name := by
  unfold ensureUser Accounts.Ssh.ensureUser
  rw [toOp_await_bind (answers h) rfl]
  simp only [toOp_bind, toOp_get, toOp_call, toOp_modify, toOp_onlyIf, apply_ite (toOp (answers h))]

theorem Ssh.toOp_createAccount (account : UserAccount) :
    (createAccount p h account).toOp (answers h) = Accounts.Ssh.createAccount p h account := by
  unfold createAccount Accounts.Ssh.createAccount installKey Accounts.Ssh.installKey lockAndKill
    Accounts.Ssh.lockAndKill
  simp only [toOp_bind, toOp_get, toOp_lift, toOp_call, toOp_modify, toOp_onlyIf, toOp_ensureUser,
    apply_ite (toOp (answers h))]

theorem Ssh.toOp_removeUser (name : String) :
    (removeUser name).toOp (answers h) = Accounts.Ssh.removeUser h name := by
  unfold removeUser Accounts.Ssh.removeUser lockAndKill Accounts.Ssh.lockAndKill
  rw [toOp_await_bind (answers h) rfl]
  simp only [toOp_bind, toOp_call, toOp_modify]

theorem Ssh.toOp_deleteAccount (id : String) :
    (deleteAccount p id).toOp (answers h) = Accounts.Ssh.deleteAccount p h id := by
  unfold deleteAccount Accounts.Ssh.deleteAccount
  simp only [toOp_bind, toOp_get, toOp_modify]
  congr
  funext d
  congr
  funext _
  cases d.roster.table.get? id with
  | none =>
    cases sanitizeUsername p id with
    | ok name => exact toOp_removeUser h name
    | error e => rfl
  | some account =>
    simp only [toOp_bind, toOp_lift, toOp_removeUser]

theorem Ssh.toOp_syncAccounts (accounts : List UserAccount) :
    (syncAccounts p h accounts).toOp (answers h) = Accounts.Ssh.syncAccounts p h accounts := by
  unfold syncAccounts Accounts.Ssh.syncAccounts
  simp only [toOp_announce, Op.bind_of_pure, toOp_bind, toOp_get, toOp_forEach, toOp_createAccount,
    toOp_deleteAccount]

theorem Xray.toOp_mutate (f : XrayConfig → XrayConfig) :
    (mutate f).toOp (answers h) = Accounts.Xray.mutate h f := rfl

theorem Xray.toOp_deleteAccount (id : String) :
    (deleteAccount id).toOp (answers h) = Accounts.Xray.deleteAccount h id := by
  unfold deleteAccount Accounts.Xray.deleteAccount
  rw [toOp_await_bind (answers h) rfl]
  simp only [toOp_bind, toOp_get, toOp_forEach, toOp_mutate]

theorem Xray.toOp_createAccount (account : UserAccount) :
    (createAccount account).toOp (answers h) = Accounts.Xray.createAccount h account := by
  have hAwait : ∀ f : Unit → Sync Unit,
      (await .inbounds >>= f).toOp (answers h) = (f ()).toOp (answers h) :=
    fun f => toOp_await_bind (answers h) rfl f
  unfold createAccount Accounts.Xray.createAccount
  simp only [hAwait, toOp_bind, toOp_get, toOp_lift, toOp_onlyIf, toOp_raise, toOp_forEach,
    toOp_mutate, apply_ite (toOp (answers h))]

theorem Xray.toOp_syncAccounts (accounts : List UserAccount) :
    (syncAccounts accounts).toOp (answers h) = Accounts.Xray.syncAccounts h accounts := by
  unfold syncAccounts Accounts.Xray.syncAccounts
  simp only [toOp_announce, Op.bind_of_pure, toOp_bind, toOp_forEach, toOp_deleteAccount,
    toOp_createAccount]

/--
**The coroutines are the syncs.** Answering every await of a driver's coroutine
at once, with what the host answers, is the sync as one operation. So what is
proved of whole syncs holds of the coroutines when nothing comes between, and
the two embeddings of one function cannot drift apart.
-/
theorem toOp_syncAccounts (accounts : List UserAccount) (core : CoreId) :
    (syncAccounts p h accounts core).toOp (answers h) =
      Accounts.syncAccounts p h accounts core := by
  cases core with
  | openvpn => exact OpenVpn.toOp_syncAccounts p h accounts
  | pptp => exact Pptp.toOp_syncAccounts p h accounts
  | singBox => exact SingBox.toOp_syncAccounts p h accounts
  | softether => exact SoftEther.toOp_syncAccounts h accounts
  | ssh => exact Ssh.toOp_syncAccounts p h accounts
  | wireguard => exact WireGuard.toOp_syncAccounts h accounts
  | xray => exact Xray.toOp_syncAccounts h accounts

end Uninterrupted

end Suspended

end ZagrosNode.Accounts
