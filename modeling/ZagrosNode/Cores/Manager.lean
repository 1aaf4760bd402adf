import Mathlib.Logic.Function.Basic
import ZagrosNode.Lib.Dict
import ZagrosNode.Lib.Op
import ZagrosNode.Lib.Py

/-!
# ZagrosNode — the core manager

`CoreManager` keeps, for every installed core, its driver, its lifecycle state
and its enabled flag in memory, and persists state, flag and settings in
`cores.json`. Every operation runs under the core's lock and awaits driver
calls and store writes. Each await may end normally, with an exception, or by
cancellation, which is not an `Exception` and therefore passes the manager's
`except Exception` clauses.

What the awaits return is part of the world an operation runs in: two queues
of replies, one for driver calls and one for store writes, each reply `ok`
where a queue has run out.

What the operations do to the manager's memory is in `Cores/Memory.lean`.

The operations are translated statement by statement from `CoreManager` of
`vendor/zagros/app/cores/manager.py`: the checks with their texts, the order in
which memory and the store are written, and which statements stand inside a `try`.
They are computations in the sense of `Op`, so the state that an exception leaves is
the state at the await that raised.

Three choices are worth a word:

* **Awaits.** A driver call changes nothing the manager knows of; it ends with a
  reply. A store write may happen although its await is cancelled, because the thread
  that writes goes on, and the reply says whether it did.
* **Locks.** Every operation holds its core's lock from beginning to end, and what
  runs beside it for other cores touches other entries. The operations are therefore
  single steps; what happens when a cancelled job leaves the lock and its thread goes
  on is in `Jobs/Workers.lean` and `State/Writers.lean`.
* **Dependencies.** No driver of a node requires or provides anything, so `dependents`
  is empty; the check is there as the source has it.

The event bus has no handlers on a node, and its awaits return at once.
-/

namespace ZagrosNode.Cores

open ZagrosNode.Lib Op

-- ---------------------------------------------------------------------------
-- Data
-- ---------------------------------------------------------------------------

/-- The cores of `NODE_CORE_ALLOWLIST`, in the order of their names. -/
inductive CoreId
  | openvpn | pptp | singBox | softether | ssh | wireguard | xray
  deriving DecidableEq, Repr

namespace CoreId

def name : CoreId → String
  | .openvpn   => "openvpn"
  | .pptp      => "pptp"
  | .singBox   => "sing-box"
  | .softether => "softether"
  | .ssh       => "ssh"
  | .wireguard => "wireguard"
  | .xray      => "xray"

/-- Every core, sorted by name. -/
def all : List CoreId := [.openvpn, .pptp, .singBox, .softether, .ssh, .wireguard, .xray]

theorem mem_all (core : CoreId) : core ∈ all := by
  cases core <;> decide

theorem all_nodup : all.Nodup := by
  decide

end CoreId

/-- Lifecycle states of an installed core instance. -/
inductive CoreState
  | loaded | installed | starting | running | stopping | stopped | error | uninstalled
  deriving DecidableEq, Repr

def CoreState.value : CoreState → String
  | .loaded      => "loaded"
  | .installed   => "installed"
  | .starting    => "starting"
  | .running     => "running"
  | .stopping    => "stopping"
  | .stopped     => "stopped"
  | .error       => "error"
  | .uninstalled => "uninstalled"

abbrev Settings := List (String × Json)

/-- One core's entry of `cores.json`, unsealed. -/
structure Record where
  state    : CoreState
  enabled  : Bool
  settings : Settings

inductive DriverCall
  | install
  | uninstall (purge : Bool)
  | start
  | stop
  | update (version : Json)
  | status

def DriverCall.isStart : DriverCall → Bool
  | .start => true
  | _      => false

/-- How an awaited driver call ends. -/
inductive DriverReply
  | ok | unsupported | raised | cancelled
  deriving DecidableEq, Repr

/-- How an awaited store write ends. Cancelling the await does not stop the
thread that writes, so the write may still happen. -/
inductive StoreReply
  | ok
  | raised
  | cancelled (written : Bool)
  deriving DecidableEq, Repr

/-- The exceptions of the manager's operations. -/
inductive Exn
  | coreState (text : String)
  | coreNotFound (core : CoreId)
  | key (core : CoreId)
  | unsupported
  | driver
  | store
  | cancelled

/-- `except Exception` catches everything but the cancellation. -/
def Exn.isException : Exn → Bool
  | .cancelled => false
  | _          => true

/-- `except CapabilityNotSupportedError` -/
def Exn.isUnsupported : Exn → Bool
  | .unsupported => true
  | _            => false

/-- The manager's memory, the state file, and what the next awaits return. -/
structure World where
  drivers       : CoreId → Option Settings
  states        : CoreId → Option CoreState
  enabled       : CoreId → Option Bool
  file          : CoreId → Option Record
  driverReplies : List DriverReply
  storeReplies  : List StoreReply
  calls         : List (CoreId × DriverCall)

/-- An agent with no cores. -/
def World.empty : World :=
  { drivers := fun _ => none, states := fun _ => none, enabled := fun _ => none,
    file := fun _ => none, driverReplies := [], storeReplies := [], calls := [] }

-- ---------------------------------------------------------------------------
-- Awaits
-- ---------------------------------------------------------------------------

def DriverReply.result : DriverReply → Except Exn Unit
  | .ok          => .ok ()
  | .unsupported => .error .unsupported
  | .raised      => .error .driver
  | .cancelled   => .error .cancelled

def StoreReply.result : StoreReply → Except Exn Unit
  | .ok          => .ok ()
  | .raised      => .error .store
  | .cancelled _ => .error .cancelled

def StoreReply.written : StoreReply → Bool
  | .ok          => true
  | .raised      => false
  | .cancelled b => b

namespace World

variable (w : World)

/-- The reply of the driver call after the next `n`. -/
def driverReplyAt (n : Nat) : DriverReply := (w.driverReplies.drop n).headD .ok

/-- The reply of the store write after the next `n`. -/
def storeReplyAt (n : Nat) : StoreReply := (w.storeReplies.drop n).headD .ok

def driverReply : DriverReply := w.driverReplyAt 0

def storeReply : StoreReply := w.storeReplyAt 0

def afterCall (core : CoreId) (call : DriverCall) : World :=
  { w with driverReplies := w.driverReplies.tail, calls := w.calls ++ [(core, call)] }

/-- After an awaited write that would leave `record` for `core`. -/
def afterWrite (core : CoreId) (record : Option Record) : World :=
  { w with
    storeReplies := w.storeReplies.tail
    file := if w.storeReply.written then Function.update w.file core record else w.file }

def withState (core : CoreId) (state : CoreState) : World :=
  { w with states := Function.update w.states core (some state) }

/-- `self._drivers.pop`, `self._states.pop`, `self._enabled.pop` -/
def dropCore (core : CoreId) : World :=
  { w with
    drivers := Function.update w.drivers core none
    states := Function.update w.states core none
    enabled := Function.update w.enabled core none }

end World

abbrev Manager := Op World Exn

def awaitDriver (core : CoreId) (call : DriverCall) : Manager Unit := fun w =>
  (w.driverReply.result, w.afterCall core call)

/-- `store.save_state`; without settings the record keeps the ones it has. -/
def saveState (core : CoreId) (state : CoreState) (enabled : Bool)
    (settings : Option Settings) : Manager Unit := fun w =>
  let kept := settings.getD (((w.file core).map Record.settings).getD [])
  (w.storeReply.result, w.afterWrite core (some ⟨state, enabled, kept⟩))

/-- `store.remove` -/
def removeRecord (core : CoreId) : Manager Unit := fun w =>
  (w.storeReply.result, w.afterWrite core none)

-- ---------------------------------------------------------------------------
-- Operations
-- ---------------------------------------------------------------------------

/-- Where the driver's defaults live on this host. -/
structure Environment where
  coreRoot        : String
  defaultSettings : CoreId → Settings

def coreRootDefault : String := "/var/lib/zagros"

/-- `_node_driver_settings` -/
def nodeDriverSettings (env : Environment) (core : CoreId) (settings : Settings) : Settings :=
  let merged := assocSet "_runtime_mode" (.str "node") settings
  if env.coreRoot = coreRootDefault then merged
  else
    (env.defaultSettings core).foldl
      (fun acc entry =>
        match entry.2 with
        | .str default =>
          if (assocGet? entry.1 acc).isSome then acc
          else if (coreRootDefault ++ "/").isPrefixOf default then
            assocSet entry.1
              (.str (env.coreRoot ++ String.ofList (default.toList.drop coreRootDefault.length))) acc
          else acc
        | _            => acc)
      merged

/-- `self.get(core_id)` -/
def getDriver (core : CoreId) : Manager Settings := do
  let w ← Op.get
  match w.drivers core with
  | some settings => pure settings
  | none          => raise (.coreNotFound core)

/-- `self._states[core_id]` -/
def recordedState (core : CoreId) : Manager CoreState := do
  let w ← Op.get
  match w.states core with
  | some state => pure state
  | none       => raise (.key core)

/-- `_set_state`: memory first, then the store; the event bus has no handlers. -/
def setState (core : CoreId) (state : CoreState) : Manager Unit := do
  modify fun w => w.withState core state
  let w ← Op.get
  saveState core state ((w.enabled core).getD false) none

/-- `except Exception: await self._set_state(ERROR); raise` -/
def recordError (core : CoreId) (e : Exn) : Manager Unit := do
  setState core .error
  raise e

/-- `_transition` -/
def transition (core : CoreId) (intermediate success : CoreState) (action : Manager Unit) :
    Manager Unit := do
  setState core intermediate
  guarded Exn.isException action (recordError core)
  setState core success

/-- `store.save_state` with the driver's settings and the recorded state. -/
def persistSettings (core : CoreId) (settings : Settings) : Manager Unit := do
  let state ← recordedState core
  let w ← Op.get
  saveState core state ((w.enabled core).getD false) (some settings)

def quoted (core : CoreId) : String := "'" ++ core.name ++ "'"

/-- `except CapabilityNotSupportedError: pass`, and any other exception drops the
core again. -/
def abandonInstall (core : CoreId) (e : Exn) : Manager Unit :=
  match e with
  | .unsupported => pure ()
  | e            => do
    modify fun w => w.dropCore core
    raise e

def installCore (env : Environment) (core : CoreId) (settings : Settings) (enabled : Bool) :
    Manager Unit := do
  let w ← Op.get
  if (w.drivers core).isSome then
    raise (.coreState ("Core " ++ quoted core ++ " is already installed."))
  else do
    let effective := nodeDriverSettings env core settings
    modify fun w =>
      { w with
        drivers := Function.update w.drivers core (some effective)
        states := Function.update w.states core (some .loaded)
        enabled := Function.update w.enabled core (some enabled) }
    guarded Exn.isException (awaitDriver core .install) (abandonInstall core)
    setState core .installed
    let state ← recordedState core
    saveState core state enabled (some effective)

/-- `driver.metadata.requires` and `.provides`: empty for all seven drivers. -/
def requires (_ : CoreId) : List String := []

def provides (_ : CoreId) : List String := []

/-- Installed cores whose `requires` overlap this core's `provides`. -/
def dependents (w : World) (core : CoreId) : List CoreId :=
  match w.drivers core with
  | none   => []
  | some _ =>
    CoreId.all.filter fun other =>
      (w.drivers other).isSome && decide (other ≠ core) &&
        (requires other).any fun feature => (provides core).contains feature

/-- `str` of a list of core ids. -/
def listText (cores : List CoreId) : String :=
  "[" ++ ", ".intercalate (cores.map quoted) ++ "]"

def uninstallCore (core : CoreId) (purge force : Bool) : Manager Unit := do
  let w ← Op.get
  if !(dependents w core).isEmpty && !force then
    raise (.coreState ("Core " ++ quoted core ++ " provides features required by " ++
      listText (dependents w core) ++ "; uninstall those first or pass force=True."))
  else do
    let _ ← getDriver core
    let state ← recordedState core
    if state = .running then
      transition core .stopping .stopped (awaitDriver core .stop)
    else pure ()
    guarded Exn.isUnsupported (awaitDriver core (.uninstall purge)) fun _ => pure ()
    setState core .uninstalled
    modify fun w => w.dropCore core
    removeRecord core

def updateCore (core : CoreId) (version : Json) : Manager Unit := do
  let _ ← getDriver core
  awaitDriver core (.update version)

/-- The states `start_core` accepts. -/
def CoreState.startable (state : CoreState) : Bool :=
  state == .installed || state == .stopped || state == .error

/-- The states `stop_core` accepts. -/
def CoreState.stoppable (state : CoreState) : Bool :=
  state == .running || state == .error || state == .starting

def startCore (core : CoreId) : Manager Unit := do
  let settings ← getDriver core
  let w ← Op.get
  match w.enabled core with
  | none       => raise (.key core)
  | some false => raise (.coreState ("Core " ++ quoted core ++ " is disabled; enable it first."))
  | some true  => do
    let state ← recordedState core
    if state = .running then
      raise (.coreState ("Core " ++ quoted core ++ " is already running."))
    else if state.startable = false then
      raise (.coreState
        ("Cannot start core " ++ quoted core ++ " from state '" ++ state.value ++ "'."))
    else do
      transition core .starting .running (awaitDriver core .start)
      persistSettings core settings
      awaitDriver core .status

def stopCore (core : CoreId) : Manager Unit := do
  let _ ← getDriver core
  let state ← recordedState core
  if state.stoppable = false then
    raise (.coreState
      ("Cannot stop core " ++ quoted core ++ " from state '" ++ state.value ++ "'."))
  else do
    transition core .stopping .stopped (awaitDriver core .stop)
    awaitDriver core .status

/-- `restart_core`: the stop is awaited outside any `try`. -/
def restartCore (core : CoreId) : Manager Unit := do
  let settings ← getDriver core
  let state ← recordedState core
  if state ≠ .running then
    raise (.coreState ("Only a running core can be restarted (" ++ quoted core ++ " is '" ++
      state.value ++ "')."))
  else do
    setState core .stopping
    awaitDriver core .stop
    setState core .starting
    guarded Exn.isException (awaitDriver core .start) (recordError core)
    setState core .running
    persistSettings core settings
    awaitDriver core .status

/-- `CoreManager.status`: a failing probe is reported, not raised. -/
def status (core : CoreId) : Manager Unit := do
  let _ ← getDriver core
  guarded Exn.isException (awaitDriver core .status) fun _ => pure ()

end ZagrosNode.Cores
