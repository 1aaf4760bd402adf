import ZagrosNode.Cores.Memory
import ZagrosNode.Lib.Machine

/-!
# ZagrosNode — lifecycle jobs

`core_lifecycle` submits one job per action and core; `JobManager._run` awaits
the action under the job's deadline. The deadline cancels whatever the action
is awaiting at that moment: a driver call, a store write, or the core's lock.
Jobs of one core never overlap, so a run is a list of jobs.

A core is *settled* when its recorded state is one from which a start or a
stop is accepted. Several awaits lie outside the `try` blocks that would
restore a settled state, and no such block catches a cancellation.

What an await returns is asked of the world, and the condition of the theorem is a
condition on these replies: `driverReply n` and `storeReply n` are the replies to
the driver call and the store write after the next `n`. So `Settles` can say of a
job, before it runs, which of its awaits must return for the core to be settled
afterwards, and it says it for each action separately.

* **`install`** — the driver call must not be cancelled; an ordinary exception takes
  the core out again.
* **`start`, `stop`** — the intermediate state must have been saved and the call not
  be cancelled; an ordinary exception of the driver records `error`.
* **`restart`** — its stop is outside any `try`, so that part must return altogether.
* **`uninstall`** — of a running core it is a stop first; then, if the driver call lets
  it go on, the write of `uninstalled` must return.
* **`update`** — records nothing.

The proofs use only what the operations leave in the three dictionaries
(`Cores/Memory.lean`), by cases on the replies of the awaits that are reached. That a
job changes its own core alone makes it a matter of one core, and
`lifecycle_settled_iff` is the run of such steps.

Main results:

* `job_settles_iff` — what one job must meet to leave every core settled.
* `lifecycle_settled_iff` — every core is settled after every job of a run
  exactly when every job of the run meets that condition.
* `restart_leaves_stopping` — a restart whose stop raises leaves `stopping`.
-/

namespace ZagrosNode.Cores

open ZagrosNode.Lib

-- ---------------------------------------------------------------------------
-- Jobs
-- ---------------------------------------------------------------------------

inductive Action
  | install | uninstall | start | stop | restart | update
  deriving DecidableEq, Repr

/-- The body of a lifecycle request. -/
structure CoreActionBody where
  action   : Action
  settings : Settings
  purge    : Bool
  force    : Bool

inductive JobState
  | queued | running | succeeded | failed | cancelled
  deriving DecidableEq, Repr

/-- A job with what its awaits return: whether it got the core's lock before
its deadline, and the replies to its driver calls and store writes. -/
structure Job where
  core          : CoreId
  body          : CoreActionBody
  acquired      : Bool
  driverReplies : List DriverReply
  storeReplies  : List StoreReply

/-- `core_lifecycle.execute` -/
def execute (env : Environment) (core : CoreId) (body : CoreActionBody) : Manager Unit :=
  match body.action with
  | .install   => do installCore env core body.settings true; status core
  | .uninstall => uninstallCore core body.purge body.force
  | .start     => do startCore core; status core
  | .stop      => do stopCore core; status core
  | .restart   => do restartCore core; status core
  | .update    => updateCore core (Json.getD body.settings "release_version")

/-- The world in which a job's awaits return what the job says. -/
def World.awaiting (w : World) (job : Job) : World :=
  { w with driverReplies := job.driverReplies, storeReplies := job.storeReplies }

/-- `JobManager._run` -/
def runJob (env : Environment) (w : World) (job : Job) : World × JobState :=
  if job.acquired then
    match (execute env job.core job.body).run (w.awaiting job) with
    | (.ok _, w')    => (w', .succeeded)
    | (.error _, w') => (w', .failed)
  else (w, .failed)

def lifecycleMachine (env : Environment) : Machine World Job JobState := ⟨runJob env⟩

-- ---------------------------------------------------------------------------
-- Settled cores
-- ---------------------------------------------------------------------------

/-- The states from which a start or a stop is accepted. -/
def CoreState.settled : CoreState → Bool
  | .installed | .running | .stopped | .error => true
  | _ => false

@[simp] theorem error_settled : CoreState.error.settled = true := rfl

theorem settled_accepts {state : CoreState} (h : state.settled = true) :
    state.startable = true ∨ state.stoppable = true := by
  cases state with
  | installed => exact Or.inl rfl
  | running => exact Or.inr rfl
  | stopped => exact Or.inl rfl
  | error => exact Or.inl rfl
  | loaded => cases h
  | starting => cases h
  | stopping => cases h
  | uninstalled => cases h

namespace Memory

/-- `list_cores` -/
def listCores (m : Memory) : List CoreId := CoreId.all.filter fun core => (m.drivers core).isSome

theorem mem_listCores {m : Memory} {core : CoreId} :
    core ∈ m.listCores ↔ (m.drivers core).isSome = true := by
  simp [listCores, CoreId.mem_all]

/-- Every listed core has a settled recorded state. -/
def Settled (m : Memory) : Prop :=
  ∀ core ∈ m.listCores, ∃ state, m.states core = some state ∧ state.settled = true

theorem settled_withState {m : Memory} (h : m.Settled) {core : CoreId}
    (hListed : (m.drivers core).isSome = true) (state : CoreState) :
    (m.withState core state).Settled ↔ state.settled = true := by
  constructor
  · intro hAfter
    obtain ⟨state', hState, hSettled⟩ := hAfter core (mem_listCores.mpr hListed)
    have hEq : some state = some state' := by
      rw [← hState]
      simp [withState]
    rwa [← Option.some.inj hEq] at hSettled
  · intro hSettled other hOther
    by_cases hEq : other = core
    · subst hEq
      exact ⟨state, by simp [withState], hSettled⟩
    · obtain ⟨state', hState, hSettled'⟩ := h other (mem_listCores.mpr (mem_listCores.mp hOther))
      exact ⟨state', by simp [withState, hEq, hState], hSettled'⟩

theorem settled_addCore {m : Memory} (h : m.Settled) (core : CoreId) (settings : Settings)
    (enabled : Bool) (state : CoreState) :
    (m.addCore core settings enabled state).Settled ↔ state.settled = true := by
  constructor
  · intro hAfter
    have hListed : core ∈ (m.addCore core settings enabled state).listCores :=
      mem_listCores.mpr (by simp [addCore])
    obtain ⟨state', hState, hSettled⟩ := hAfter core hListed
    have hEq : some state = some state' := by
      rw [← hState]
      simp [addCore]
    rwa [← Option.some.inj hEq] at hSettled
  · intro hSettled other hOther
    by_cases hEq : other = core
    · subst hEq
      exact ⟨state, by simp [addCore], hSettled⟩
    · have hListed : (m.drivers other).isSome = true := by
        simpa [addCore, hEq] using mem_listCores.mp hOther
      obtain ⟨state', hState, hSettled'⟩ := h other (mem_listCores.mpr hListed)
      exact ⟨state', by simp [addCore, hEq, hState], hSettled'⟩

theorem settled_dropCore {m : Memory} (h : m.Settled) (core : CoreId) :
    (m.dropCore core).Settled := by
  intro other hOther
  have hListed := mem_listCores.mp hOther
  by_cases hEq : other = core
  · subst hEq
    simp [dropCore] at hListed
  · have hOld : (m.drivers other).isSome = true := by simpa [dropCore, hEq] using hListed
    obtain ⟨state, hState, hSettled⟩ := h other (mem_listCores.mpr hOld)
    exact ⟨state, by simp [dropCore, hEq, hState], hSettled⟩

end Memory

-- ---------------------------------------------------------------------------
-- The condition on one job
-- ---------------------------------------------------------------------------

namespace Job

/-- The reply to the driver call after the next `n`. -/
def driverReply (job : Job) (n : Nat) : DriverReply := (job.driverReplies.drop n).headD .ok

/-- The reply to the store write after the next `n`. -/
def storeReply (job : Job) (n : Nat) : StoreReply := (job.storeReplies.drop n).headD .ok

/-- The action of `start_core` and `stop_core`: the intermediate state is saved
and the driver call is not cancelled. -/
def TransitionSettles (job : Job) : Prop :=
  job.storeReply 0 = .ok ∧ job.driverReply 0 ≠ .cancelled

/-- The uninstall proper: if the driver call lets it go on, the write of
`uninstalled` returns. -/
def UninstallSettles (call : DriverReply) (write : StoreReply) : Prop :=
  call = .ok ∨ call = .unsupported → write = .ok

/-- The condition under which a job leaves its core settled. -/
def Settles (job : Job) (w : World) : Prop :=
  job.acquired = true →
    match job.body.action with
    | .install   => w.drivers job.core = none → job.driverReply 0 ≠ .cancelled
    | .start     => CanStart w job.core → job.TransitionSettles
    | .stop      => CanStop w job.core → job.TransitionSettles
    | .restart   => CanRestart w job.core →
        job.storeReply 0 = .ok ∧ job.driverReply 0 = .ok ∧
          job.storeReply 1 = .ok ∧ job.driverReply 1 ≠ .cancelled
    | .update    => True
    | .uninstall => (w.drivers job.core).isSome →
        if w.states job.core = some .running then
          job.TransitionSettles ∧ (job.driverReply 0 = .ok → job.storeReply 1 = .ok →
            UninstallSettles (job.driverReply 1) (job.storeReply 2))
        else UninstallSettles (job.driverReply 0) (job.storeReply 0)

end Job

theorem transitionState_settled {w : World} {intermediate success : CoreState}
    (hIntermediate : intermediate.settled = false) (hSuccess : success.settled = true) :
    (transitionState w intermediate success).settled = true ↔
      w.storeReply = .ok ∧ w.driverReply ≠ .cancelled := by
  unfold transitionState
  by_cases hStore : w.storeReply = .ok
  · cases hDriver : w.driverReply <;> simp [hStore, hIntermediate, hSuccess]
  · simp [hStore, hIntermediate]

theorem uninstallMemory_settled {m : Memory} (h : m.Settled) {core : CoreId}
    (hListed : (m.drivers core).isSome = true) (call : DriverReply) (write : StoreReply) :
    (uninstallMemory m core call write).Settled ↔ Job.UninstallSettles call write := by
  unfold uninstallMemory Job.UninstallSettles
  by_cases hCall : call = .ok ∨ call = .unsupported
  · rw [if_pos hCall]
    by_cases hWrite : write = .ok
    · rw [if_pos hWrite]
      exact ⟨fun _ _ => hWrite, fun _ => Memory.settled_dropCore h core⟩
    · rw [if_neg hWrite, Memory.settled_withState h hListed]
      simp [hCall, hWrite, CoreState.settled]
  · rw [if_neg hCall]
    exact ⟨fun _ hGo => absurd hGo hCall, fun _ => h⟩

-- ---------------------------------------------------------------------------
-- One job
-- ---------------------------------------------------------------------------

theorem memory_of_error {α : Type} {x : Manager α} {w : World} (h : ∃ e, x.run w = (.error e, w)) :
    (x.after w).memory = w.memory := by
  obtain ⟨e, hRun⟩ := h
  rw [Op.after, hRun]

theorem startCore_settled {w : World} (h : w.memory.Settled) (core : CoreId) :
    ((startCore core).after w).memory.Settled ↔
      (CanStart w core → w.storeReply = .ok ∧ w.driverReply ≠ .cancelled) := by
  by_cases hCan : CanStart w core
  · rw [startCore_memory_of_canStart hCan, Memory.settled_withState h hCan.1,
      transitionState_settled rfl rfl]
    exact ⟨fun hGo _ => hGo, fun hGo => hGo hCan⟩
  · obtain ⟨e, hRefused, -⟩ := startCore_refused hCan
    rw [memory_of_error ⟨e, hRefused⟩]
    exact ⟨fun _ hGo => absurd hGo hCan, fun _ => h⟩

theorem stopCore_settled {w : World} (h : w.memory.Settled) (core : CoreId) :
    ((stopCore core).after w).memory.Settled ↔
      (CanStop w core → w.storeReply = .ok ∧ w.driverReply ≠ .cancelled) := by
  by_cases hCan : CanStop w core
  · rw [stopCore_memory_of_canStop hCan, Memory.settled_withState h hCan.1,
      transitionState_settled rfl rfl]
    exact ⟨fun hGo _ => hGo, fun hGo => hGo hCan⟩
  · rw [memory_of_error (stopCore_refused hCan)]
    exact ⟨fun _ hGo => absurd hGo hCan, fun _ => h⟩

theorem restartCore_settled {w : World} (h : w.memory.Settled) (core : CoreId) :
    ((restartCore core).after w).memory.Settled ↔
      (CanRestart w core → w.storeReply = .ok ∧ w.driverReply = .ok ∧
        w.storeReplyAt 1 = .ok ∧ w.driverReplyAt 1 ≠ .cancelled) := by
  by_cases hCan : CanRestart w core
  · rw [restartCore_memory_of_canRestart hCan, Memory.settled_withState h hCan.1]
    have hState : (restartState w).settled = true ↔ w.storeReply = .ok ∧ w.driverReply = .ok ∧
        w.storeReplyAt 1 = .ok ∧ w.driverReplyAt 1 ≠ .cancelled := by
      unfold restartState
      by_cases hFirst : w.storeReply = .ok ∧ w.driverReply = .ok
      · by_cases hStore : w.storeReplyAt 1 = .ok
        · cases hDriver : w.driverReplyAt 1 <;> simp [hFirst, hStore, CoreState.settled]
        · simp [hFirst, hStore, CoreState.settled]
      · rw [if_neg hFirst]
        constructor
        · intro hStopping
          cases hStopping
        · rintro ⟨hStore, hDriver, -, -⟩
          exact absurd ⟨hStore, hDriver⟩ hFirst
    rw [hState]
    exact ⟨fun hGo _ => hGo, fun hGo => hGo hCan⟩
  · have hRefused : ∃ e, (restartCore core).run w = (.error e, w) := restartCore_refused hCan
    rw [memory_of_error hRefused]
    exact ⟨fun _ hGo => absurd hGo hCan, fun _ => h⟩

theorem installCore_settled {w : World} (h : w.memory.Settled) (env : Environment) (core : CoreId)
    (settings : Settings) (enabled : Bool) :
    ((installCore env core settings enabled).after w).memory.Settled ↔
      (w.drivers core = none → w.driverReply ≠ .cancelled) := by
  cases hDriver : w.drivers core with
  | some old =>
    rw [memory_of_error (installCore_refused (by simp [hDriver]))]
    exact ⟨fun _ hNone => absurd hNone (by simp), fun _ => h⟩
  | none =>
    rw [installCore_memory hDriver]
    unfold installMemory
    cases hReply : w.driverReply with
    | ok => simp [Memory.settled_addCore h, CoreState.settled]
    | unsupported => simp [Memory.settled_addCore h, CoreState.settled]
    | cancelled => simp [Memory.settled_addCore h, CoreState.settled]
    | raised => simp [Memory.settled_dropCore h]

theorem uninstallCore_settled {w : World} (h : w.memory.Settled) (core : CoreId)
    (purge force : Bool) :
    ((uninstallCore core purge force).after w).memory.Settled ↔
      ((w.drivers core).isSome →
        if w.states core = some .running then
          (w.storeReply = .ok ∧ w.driverReply ≠ .cancelled) ∧
            (w.driverReply = .ok → w.storeReplyAt 1 = .ok →
              Job.UninstallSettles (w.driverReplyAt 1) (w.storeReplyAt 2))
        else Job.UninstallSettles w.driverReply w.storeReply) := by
  cases hDriver : w.drivers core with
  -- a core that is not listed is refused, and nothing changes
  | none =>
    rw [memory_of_error (uninstallCore_refused (Or.inl hDriver))]
    exact ⟨fun _ hSome => absurd hSome (by simp), fun _ => h⟩
  | some settings =>
    have hListed : (w.memory.drivers core).isSome = true := by simp [World.memory, hDriver]
    obtain ⟨state, hState, hSettled⟩ := h core (Memory.mem_listCores.mpr hListed)
    change w.states core = some state at hState
    -- a running core is stopped first, and the stop has its own two writes
    by_cases hRunning : state = .running
    · subst hRunning
      rw [uninstallCore_memory_running hDriver hState, if_pos hState]
      by_cases hAll : w.storeReply = .ok ∧ w.driverReply = .ok ∧ w.storeReplyAt 1 = .ok
      · have hStopped : (w.memory.withState core .stopped).Settled :=
          (Memory.settled_withState h hListed .stopped).mpr rfl
        rw [if_pos hAll, uninstallMemory_settled hStopped hListed]
        simp [hAll]
      · rw [if_neg hAll, Memory.settled_withState h hListed, transitionState_settled rfl rfl]
        constructor
        · intro hGo _
          exact ⟨hGo, fun hD hS => absurd ⟨hGo.1, hD, hS⟩ hAll⟩
        · intro hGo
          exact (hGo rfl).1
    · have hIdle : ¬ w.states core = some .running := by
        rw [hState]
        exact fun hEq => hRunning (Option.some.inj hEq)
      rw [uninstallCore_memory_idle hDriver hState hRunning, uninstallMemory_settled h hListed,
        if_neg hIdle]
      exact ⟨fun hGo _ => hGo, fun hGo => hGo rfl⟩

theorem runJob_after {env : Environment} {w : World} {job : Job} (h : job.acquired = true) :
    (runJob env w job).1 = (execute env job.core job.body).after (w.awaiting job) := by
  unfold runJob Op.after
  rw [if_pos h]
  cases (execute env job.core job.body).run (w.awaiting job) with
  | mk result w' => cases result <;> rfl

/--
**One job.** From a settled memory, a job leaves every core settled exactly
under its condition, which speaks of the job, of the memory and of the replies
to its awaits. One case per action; only the core of the job can have changed.
-/
theorem job_settles_iff (env : Environment) (w : World) (job : Job) (h : w.memory.Settled) :
    (runJob env w job).1.memory.Settled ↔ job.Settles w := by
  have hAwaiting : (w.awaiting job).memory.Settled := h
  unfold Job.Settles
  by_cases hAcquired : job.acquired = true
  · rw [runJob_after hAcquired, execute]
    simp only [hAcquired, forall_const]
    -- the probe after an action keeps the memory, so each case is its operation
    cases job.body.action with
    | install =>
      rw [memory_bind fun _ => keeps_status job.core]
      exact installCore_settled hAwaiting env job.core job.body.settings true
    | uninstall => exact uninstallCore_settled hAwaiting job.core job.body.purge job.body.force
    | start =>
      rw [memory_bind fun _ => keeps_status job.core]
      exact startCore_settled hAwaiting job.core
    | stop =>
      rw [memory_bind fun _ => keeps_status job.core]
      exact stopCore_settled hAwaiting job.core
    | restart =>
      rw [memory_bind fun _ => keeps_status job.core]
      exact restartCore_settled hAwaiting job.core
    | update =>
      rw [keeps_updateCore]
      exact ⟨fun _ => trivial, fun _ => h⟩
  · simp [runJob, hAcquired, h]

/--
**Settled lifecycle.** In every run of lifecycle jobs from a settled memory,
with every outcome of their awaits, each listed core is settled before, between
and after the jobs **if and only if** every job of the run meets its condition
at the state it starts from.
-/
theorem lifecycle_settled_iff (env : Environment) (w : World) (jobs : List Job)
    (h : w.memory.Settled) :
    (lifecycleMachine env).Always (fun w => w.memory.Settled) w jobs ↔
      (lifecycleMachine env).Along (fun _ w job => job.Settles w) [] w jobs :=
  (lifecycleMachine env).always_iff_along (fun s job hs => job_settles_iff env s job hs) h [] jobs

-- ---------------------------------------------------------------------------
-- A restart whose stop raises
-- ---------------------------------------------------------------------------

theorem empty_settled : World.empty.memory.Settled := by
  intro core hListed
  simp [Memory.mem_listCores, World.memory, World.empty] at hListed

def defaultEnvironment : Environment := ⟨coreRootDefault, fun _ => []⟩

/-- A job on the SSH core that gets its lock. -/
def sshJob (action : Action) (driverReplies : List DriverReply) : Job :=
  { core := .ssh, body := ⟨action, [], false, false⟩, acquired := true,
    driverReplies := driverReplies, storeReplies := [] }

/-- Install and start succeed; the stop inside the restart raises. -/
def failingRestart : List Job :=
  [sshJob .install [], sshJob .start [], sshJob .restart [.raised]]

theorem failingRestart_state :
    ((lifecycleMachine defaultEnvironment).exec World.empty failingRestart).states .ssh =
      some .stopping := by
  decide

/-- The core is left in `stopping`, from which neither a start nor a stop is
accepted. -/
theorem restart_leaves_stopping :
    ¬ ((lifecycleMachine defaultEnvironment).exec World.empty failingRestart).memory.Settled := by
  intro hSettled
  have hListed : CoreId.ssh ∈
      ((lifecycleMachine defaultEnvironment).exec World.empty failingRestart).memory.listCores := by
    decide
  obtain ⟨state, hState, hOk⟩ := hSettled .ssh hListed
  rw [show ((lifecycleMachine defaultEnvironment).exec World.empty
    failingRestart).memory.states .ssh = some .stopping from failingRestart_state] at hState
  rw [← Option.some.inj hState] at hOk
  cases hOk

/-- The condition at a run in which the deadline cancels a start. -/
theorem lifecycle_settled_iff_cancelledStart :
    World.empty.memory.Settled ∧
      ((lifecycleMachine defaultEnvironment).Always (fun w => w.memory.Settled) World.empty
          [sshJob .install [], sshJob .start [.cancelled]] ↔
        (lifecycleMachine defaultEnvironment).Along (fun _ w job => job.Settles w) [] World.empty
          [sshJob .install [], sshJob .start [.cancelled]]) :=
  ⟨empty_settled, lifecycle_settled_iff defaultEnvironment World.empty
    [sshJob .install [], sshJob .start [.cancelled]] empty_settled⟩

end ZagrosNode.Cores
