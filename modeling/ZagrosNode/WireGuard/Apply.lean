import ZagrosNode.Lib.Cancel
import ZagrosNode.WireGuard.Studio

/-!
# ZagrosNode — applying an inbound document to WireGuard

`CoreManager.apply_studio_document` with the driver's part of it: the old
interfaces are taken down, the rows and their backends put in place, server keys
and accounts provided for them, and the new interfaces brought up. An ordinary
exception puts the driver's memory back and brings the old interfaces up again;
the manager then records whether the core still runs.

Every await carries the place in the source it stands at, and a call that has
been answered has left its result on the host, where the code after it finds it.
The texts of errors of the last sync and the aliases of the primary inbound are
left out.

The model is a coroutine of the library `Lib/Co.lean`, over the world of one core: the
driver's memory, the state the manager has recorded, and of the host the interfaces that
are up and the files with keys. Each driver method that is awaited on the way is a
definition of its own, in the source's order of statements.

* **Awaits.** `Stop` is a call with its place. Places matter because a timeout is asked
  about at each of them, and the same call (taking an interface down, say) is awaited at
  several.
* **Exceptions.** `guarded` takes what `except Exception` takes, and the cancellation is
  not among it. `cleanUp` swallows what a `down` raises, `rollBack` answers an exception
  of the apply, and after it the manager asks the driver for its state.
* **Answers.** A call may be answered in any way that `Call.Answers` of
  `WireGuard/Steps.lean` allows; the model has no fixed host.
-/

namespace ZagrosNode.WireGuard

open ZagrosNode.Lib ZagrosNode.Cores ZagrosNode.Accounts Co
open ZagrosNode.Drivers (Lang Refused py)

/-- What the driver works with. -/
structure Studio where
  platform : Platform
  lang     : Lang
  tools    : Tools
  /-- `public_from_private` -/
  publicFromPrivate : String → Except DriverError String
  /-- `server_address` -/
  serverAddress : String → Except DriverError String
  /-- a generated private key is not empty -/
  keypair_ne_empty : ∀ account, (tools.keypair account).1 ≠ ""

-- ---------------------------------------------------------------------------
-- State
-- ---------------------------------------------------------------------------

/-- What the driver keeps in memory and a document replaces. -/
structure Memory where
  desired    : Desired
  backends   : Dict String Backend
  serverKeys : Dict String (String × String)
  roster     : Roster

structure World where
  memory   : Memory
  chain    : Option ChainPeer
  /-- `_states[core_id]` -/
  recorded : CoreState
  /-- the kernel interfaces there are -/
  up       : String → Bool
  /-- the private key in a backend's directory -/
  keyFile  : Backend → Option String

namespace World

/-- `_configure_backend_set`, `_mirror_primary_flat_settings` and the empty table
of server keys, for new rows -/
def install (lang : Lang) (rows : List Settings) (s : World) : World :=
  let flat := s.memory.desired.flat
  { s with
    memory :=
      { s.memory with
        desired    := ⟨rows, mirror rows flat⟩
        backends   := configureBackendSet lang ⟨rows, flat⟩
        serverKeys := Dict.empty } }

def putServerKeys (tag : String) (pair : String × String) (s : World) : World :=
  { s with memory := { s.memory with serverKeys := s.memory.serverKeys.set tag pair } }

def putAccount (account : UserAccount) (s : World) : World :=
  { s with memory := { s.memory with roster := s.memory.roster.put account } }

def withMemory (memory : Memory) (s : World) : World := { s with memory := memory }

def withChain (chain : Option ChainPeer) (s : World) : World := { s with chain := chain }

def record (state : CoreState) (s : World) : World := { s with recorded := state }

@[simp] theorem up_install (lang : Lang) (rows : List Settings) (s : World) :
    (s.install lang rows).up = s.up := rfl

@[simp] theorem up_putServerKeys (tag : String) (pair : String × String) (s : World) :
    (s.putServerKeys tag pair).up = s.up := rfl

@[simp] theorem up_putAccount (account : UserAccount) (s : World) :
    (s.putAccount account).up = s.up := rfl

@[simp] theorem up_withMemory (memory : Memory) (s : World) : (s.withMemory memory).up = s.up := rfl

@[simp] theorem up_withChain (chain : Option ChainPeer) (s : World) :
    (s.withChain chain).up = s.up := rfl

@[simp] theorem up_record (state : CoreState) (s : World) : (s.record state).up = s.up := rfl

end World

-- ---------------------------------------------------------------------------
-- Awaits
-- ---------------------------------------------------------------------------

/-- What `render_interface` is given. -/
structure InterfaceFile where
  privateKey : String
  address    : String
  listener   : Listener
  peers      : List DesiredPeer

/-- What is awaited. -/
inductive Call
  | lock
  | isRunning (b : Backend)
  | down (b : Backend)
  | up (b : Backend) (file : InterfaceFile)
  | waitReady (b : Backend) (port : Nat)
  | publicFromPrivate (key : String)
  | writeServerPrivateKey (b : Backend) (key : String)
  | ensureServerKeys (b : Backend)
  | generateKeypair (id : String)
  | generatePreshared (id : String)
  | version
  | metrics
  | onlineDevices
  | dump
  | saveState
  | emit

/-- Where it is awaited. -/
inductive Place
  /-- the manager's lock of the core -/
  | lock
  /-- `is_running` of the old backends -/
  | probe
  /-- `down` of those that run -/
  | takedown
  /-- the server keys of the new rows -/
  | keys
  /-- `_provision_keys` of the accounts -/
  | accounts
  /-- `up` and `wait_ready` of the new rows -/
  | bringUp
  /-- `down` of those that are up when one fails -/
  | cleanup
  /-- the old interfaces, after an exception -/
  | rollback
  /-- the manager's look at a driver that has raised -/
  | failedCheck
  /-- and the record of what it saw -/
  | failedRecord
  /-- the manager's look at a driver that has returned -/
  | check
  /-- the record of a new state -/
  | record
  /-- `driver.start()` -/
  | start
  /-- the core's record at the end -/
  | save
  deriving DecidableEq

structure Stop where
  place : Place
  call  : Call

abbrev Way := Co World DriverError Stop

def onlyIf (condition : Prop) [Decidable condition] (body : Way Unit) : Way Unit :=
  if condition then body else pure ()

/-- `await asyncio.to_thread(backend.is_running)` -/
def isRunning (place : Place) (b : Backend) : Way Bool := do
  await ⟨place, .isRunning b⟩
  let s ← get
  pure (s.up b.interface)

/-- `self._backends[tag]` -/
def backendOf (lang : Lang) (row : Settings) : Way Backend := do
  let s ← get
  match s.memory.backends.get? (tagOf lang row) with
  | some b => pure b
  | none   => raise (.other (tagOf lang row))

def refusal : Refused → DriverError
  | .py e      => .other e.text
  | .core text => .core text

variable (t : Studio)

-- ---------------------------------------------------------------------------
-- Server keys
-- ---------------------------------------------------------------------------

/-- `ensure_server_keys` -/
def ensureServerKeys (place : Place) (b : Backend) : Way (String × String) := do
  await ⟨place, .ensureServerKeys b⟩
  let s ← get
  match s.keyFile b with
  | some key => lift ((t.publicFromPrivate key).map fun other => (key, other))
  | none     => raise (.other "no key file")

/-- The pair of an inbound: the one there was if the document names its private
key, one made of the key it names, or that of the backend. -/
def serverKeysFor (old : Dict String (String × String)) (tag key : String) (b : Backend) :
    Way (String × String) :=
  match (old.get? tag).filter fun pair => decide (key ≠ "" ∧ key = pair.1) with
  | some pair => pure pair
  | none      =>
    if key = "" then ensureServerKeys t .keys b
    else do
      await ⟨.keys, .publicFromPrivate key⟩
      let other ← lift (t.publicFromPrivate key)
      await ⟨.keys, .writeServerPrivateKey b key⟩
      pure (key, other)

/-- One turn of the loop over the inbounds and their rows. -/
def provideServerKeys (old : Dict String (String × String)) (inbound : Json × Settings) :
    Way Unit := do
  let tag := tagOf t.lang inbound.2
  let key := t.lang.label (Json.getD (fieldsOf inbound.1) "private_key")
  let b ← backendOf t.lang inbound.2
  let pair ← serverKeysFor t old tag key b
  modify (World.putServerKeys tag pair)

-- ---------------------------------------------------------------------------
-- Accounts
-- ---------------------------------------------------------------------------

/-- The addresses of an account that has its keys. -/
def addressed (ls : Listeners) (chain : Option ChainPeer) (roster : Roster) (account : UserAccount)
    (granted : List Listener) : Except DriverError Settings :=
  (assignAddresses t.platform t.tools ls
    (takenAddresses t.platform ls roster chain account.accountId) account.settings
      (addressTable t.platform account.settings) granted).map fun r =>
        assocSet "inbound_addresses" (.dict (r.2.entries.map fun e => (e.1, Json.str e.2))) r.1

/-- `if not (settings.get("private_key") and settings.get("public_key"))` -/
def provideKeypair (place : Place) (account : UserAccount) : Way UserAccount := do
  if isSet account.settings "private_key" && isSet account.settings "public_key" then pure account
  else do
    await ⟨place, .generateKeypair account.accountId⟩
    let keyed := { account with settings := withKeypair t.tools account }
    modify (World.putAccount keyed)
    pure keyed

/-- The preshared key of an account that has its identity, where a granted row
uses one. -/
def providePreshared (place : Place) (account keyed : UserAccount) (granted : List Listener) :
    Way UserAccount := do
  let complete := { keyed with settings := withPreshared t.tools account granted keyed.settings }
  if granted.any Listener.usePresharedKeys && !isSet keyed.settings "preshared_key" then do
    await ⟨place, .generatePreshared account.accountId⟩
    modify (World.putAccount complete)
    pure complete
  else pure complete

/-- What `_provision_keys` does for an account with an identity. An account whose
addresses cannot be assigned keeps those it had. -/
def provideAddresses (place : Place) (account keyed : UserAccount) : Way Unit := do
  let s ← get
  let ls ← lift (listenersOf t.lang s.memory.desired)
  let granted ← lift (grantedListeners t.platform ls keyed.settings)
  let complete ← providePreshared t place account keyed granted
  let s ← get
  let settings ← lift (addressed t ls s.chain s.memory.roster complete granted)
  modify (World.putAccount { complete with settings := settings })

/-- `_provision_keys` of an account of the driver -/
def provision (place : Place) (id : String) : Way Unit := do
  let s ← get
  match s.memory.roster.table.get? id with
  | none         => pure ()
  | some account => do
    let keyed ← provideKeypair t place account
    if isValidKey (t.platform.str (Json.getD keyed.settings "public_key")).toList then
      provideAddresses t place account keyed
    else raise (.core s!"invalid wireguard public key for '{id}'.")

/-- `_repair_chain_address`, for a peer there is -/
def repaired (ls : Listeners) (roster : Roster) (peer : ChainPeer) :
    Except DriverError ChainPeer :=
  if peer.allowedIps.head?.any fun a => t.tools.inSubnet a ls.primary.subnet then .ok peer
  else
    -- no account is excluded, and none has an empty id
    match h : t.tools.allocate ls.primary.subnet
        (takenAddresses t.platform ls roster (some peer) "" ls.primary) with
    | .error e => .error e
    | .ok a    =>
      .ok
        { peer with
          allowedIps      := [a]
          allowedIps_kept := ⟨List.cons_ne_nil _ _, fun _ hOther =>
            List.mem_singleton.mp hOther ▸ (AddressLibrary.allocate_kept h).2⟩ }

def repairChainAddress : Way Unit := do
  let s ← get
  match s.chain with
  | none      => pure ()
  | some peer => do
    let ls ← lift (listenersOf t.lang s.memory.desired)
    let peer ← lift (repaired t ls s.memory.roster peer)
    modify (World.withChain (some peer))

-- ---------------------------------------------------------------------------
-- Interfaces
-- ---------------------------------------------------------------------------

/-- `render_server_config` -/
def renderServerConfig (s : World) (row : Settings) : Except DriverError InterfaceFile := do
  let l := listenerOf t.lang row
  match s.memory.serverKeys.get? l.tag with
  | none      =>
    .error (.core s!"WireGuard server keys for inbound '{l.tag}' are not initialized.")
  | some pair => do
    let address ← t.serverAddress l.subnet
    let ls ← listenersOf t.lang s.memory.desired
    let peers ← desiredPeers t.platform ls s.chain s.memory.roster l
    .ok ⟨pair.1, address, l, peers⟩

/-- `except Exception: pass` around each `down` -/
def cleanUp (place : Place) (started : List Backend) : Way Unit :=
  forEach (fun b => (await ⟨place, .down b⟩).guarded DriverError.isException fun _ => pure ())
    started

/-- Bring the rows up, one by one; `started` has those that are up, the last one
first. -/
def bringUp (place undoing : Place) : List Backend → List Settings → Way Unit
  | _, []               => pure ()
  | started, row :: rest => do
    let undo (started : List Backend) (e : DriverError) : Way Backend := do
      cleanUp undoing started
      raise e
    let up : Way Backend := do
      let b ← backendOf t.lang row
      let s ← get
      let file ← lift (renderServerConfig t s row)
      await ⟨place, .up b file⟩
      pure b
    let b ← up.guarded DriverError.isException (undo started)
    let ready : Way Backend := do
      await ⟨place, .waitReady b (listenerOf t.lang row).port⟩
      pure b
    let b ← ready.guarded DriverError.isException (undo (b :: started))
    bringUp place undoing (b :: started) rest

/-- The old interfaces again; what fails is only logged. -/
def restore (row : Settings) : Way Unit := do
  let b ← backendOf t.lang row
  let again : Way Unit := do
    let running ← isRunning .rollback b
    if running then pure ()
    else do
      let s ← get
      let file ← lift (renderServerConfig t s row)
      await ⟨.rollback, .up b file⟩
      await ⟨.rollback, .waitReady b (listenerOf t.lang row).port⟩
  again.guarded DriverError.isException fun _ => pure ()

-- ---------------------------------------------------------------------------
-- The driver
-- ---------------------------------------------------------------------------

/-- What `WireGuardDriver.apply_studio_document` tries. -/
def replace (old : Memory) (inbounds : List Json) (rows : List Settings)
    (running : List (String × Backend)) : Way Unit := do
  forEach (fun e => await ⟨.takedown, .down e.2⟩) running.reverse
  modify (World.install t.lang rows)
  forEach (provideServerKeys t old.serverKeys) (inbounds.zip rows)
  forEach (provision t .accounts) old.roster.ids
  repairChainAddress t
  onlyIf (running ≠ []) (bringUp t .bringUp .cleanup [] rows)

/-- Its `except Exception`. -/
def rollBack (old : Memory) (running : List (String × Backend)) (e : DriverError) : Way Unit := do
  modify (World.withMemory old)
  onlyIf (running ≠ []) (forEach (restore t) old.desired.listeners)
  raise e

/-- `WireGuardDriver.apply_studio_document` -/
def applyDocument (document : Settings) : Way Unit := do
  let s ← get
  let old := s.memory
  let rows ← lift ((parseStudioDocument t.lang old.desired document).mapError refusal)
  let inbounds ← lift ((inboundsOf document).mapError fun e => .other e.text)
  let probed ← mapList
    (fun e => do
      let running ← isRunning .probe e.2
      pure (e, running))
    old.backends.entries
  let running := (probed.filter Prod.snd).map Prod.fst
  (replace t old inbounds rows running).guarded DriverError.isException (rollBack t old running)

/-- `start` -/
def start : Way Unit := do
  let s ← get
  forEach
    (fun row => do
      let b ← backendOf t.lang row
      let pair ← ensureServerKeys t .start b
      modify (World.putServerKeys (tagOf t.lang row) pair))
    s.memory.desired.listeners
  let s ← get
  forEach (provision t .start) s.memory.roster.ids
  repairChainAddress t
  let s ← get
  bringUp t .start .start [] s.memory.desired.listeners

/-- `status`, as far as the state goes -/
def status (place : Place) : Way CoreState := do
  let s ← get
  let running ← mapList
    (fun row => do
      let b ← backendOf t.lang row
      isRunning place b)
    s.memory.desired.listeners
  await ⟨place, .version⟩
  onlyIf (running.any id) do
    await ⟨place, .metrics⟩
    await ⟨place, .onlineDevices⟩
    await ⟨place, .dump⟩
  pure (if running.all id then .running else if running.any id then .error else .stopped)

-- ---------------------------------------------------------------------------
-- The manager
-- ---------------------------------------------------------------------------

/-- `_set_state` -/
def setState (place : Place) (state : CoreState) : Way Unit := do
  modify (World.record state)
  await ⟨place, .saveState⟩
  await ⟨place, .emit⟩

/-- The manager after a driver that has raised. -/
def afterFailure (before : CoreState) (e : DriverError) : Way Unit := do
  let look : Way (Option CoreState) := do
    let actual ← status t .failedCheck
    pure (some actual)
  let actual ← look.guarded DriverError.isException fun _ => pure none
  onlyIf (before = .running ∧ actual ≠ some .running) (setState .failedRecord .error)
  raise e

/-- The manager after a driver that has returned, if the core was recorded as
running or failed. -/
def afterSuccess (before : CoreState) : Way Unit := do
  let actual ← status t .check
  if actual = .running then onlyIf (before ≠ .running) (setState .record .running)
  else do
    setState .record .starting
    (start t).guarded DriverError.isException fun e => do
      setState .record .error
      raise e
    setState .record .running

/-- `CoreManager.apply_studio_document` of WireGuard, whose metadata does not ask
to stop the core without inbounds -/
def applyStudioDocument (document : Settings) : Way Unit := do
  await ⟨.lock, .lock⟩
  let s ← get
  (applyDocument t document).guarded DriverError.isException (afterFailure t s.recorded)
  onlyIf (s.recorded = .running ∨ s.recorded = .error) (afterSuccess t s.recorded)
  await ⟨.save, .saveState⟩

end ZagrosNode.WireGuard
