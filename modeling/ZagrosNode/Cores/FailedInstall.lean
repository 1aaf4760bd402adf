import ZagrosNode.Cores.Boot

/-!
# ZagrosNode — what a failed install leaves behind

`install_core` enters the new driver in three dictionaries, awaits the long
`driver.install()`, records `installed` and saves the state; the lifecycle job
then probes the core. Only an exception of `driver.install()` takes the three
entries out again. The job's deadline arrives as a cancellation, which is no
`Exception`, and the two writes and the probe stand outside the `try`.

The job of an install passes four points at which it can end: before the lock and in
the constructor of the driver, where nothing has been entered; in
`driver.install()`, whose exceptions take the entries out again and whose
cancellation does not; in the two writes behind it; and in the probe, after which the
job fails although the core is installed. The condition of the theorem names the
first two and the exceptions of the call.

`NoTrace` compares the three dictionaries and the file as lookups. To know that the
entries were not there before, one needs that a core that can be installed has
neither state nor flag: that is `Memory.Coherent`, an invariant of all reachable
states. A state is reachable by jobs, stops and starts with any replies and any
constructors that raise; each operation of the manager keeps the invariant from any
of its awaits on (`KeepsCoherent`), so the jobs, the loops over the cores and the
start of the agent do.

Main results:

* `failedInstall_noTrace_iff` — in every reachable state, an install job that
  does not succeed leaves no trace exactly when it ended before the entries
  were made or `driver.install()` itself raised.
* `coherent_of_reachable` — a core without a driver has no recorded state and
  no flag, in every reachable state.
* `timeout_leaves_core` — the deadline cancels the install: the core is listed
  as installed, and the next install is refused.
-/

namespace ZagrosNode.Cores

open ZagrosNode.Lib Op

-- ---------------------------------------------------------------------------
-- Install jobs
-- ---------------------------------------------------------------------------

/-- Which drivers the constructor `cls(settings=…)` builds. -/
abbrev Constructs := CoreId → Settings → Bool

variable (env : Environment) (constructs : Constructs)

/-- The constructor of the driver raises. Nothing is entered yet. -/
def ConstructorRaises (w : World) (job : Job) : Prop :=
  job.body.action = .install ∧ job.acquired = true ∧ w.drivers job.core = none ∧
    constructs job.core (nodeDriverSettings env job.core job.body.settings) = false

instance (w : World) (job : Job) : Decidable (ConstructorRaises env constructs w job) := by
  unfold ConstructorRaises
  infer_instance

/-- `JobManager._run`, where building the driver may raise. -/
def runLifecycle (w : World) (job : Job) : World × JobState :=
  if ConstructorRaises env constructs w job then (w, .failed) else runJob env w job

/-- What jobs, stops and starts of the agent can lead to. -/
inductive Reachable : World → Prop
  | empty : Reachable World.empty
  | job {w : World} (job : Job) (h : Reachable w) : Reachable (runLifecycle env constructs w job).1
  | restart {w : World} (stop : Option Replies) (replies : Replies) (h : Reachable w) :
      Reachable (reboot env replies (shutdown stop w))

/-- `list_cores`, the recorded states, the flags and `cores.json` are the same. -/
structure NoTrace (w w' : World) : Prop where
  cores   : w'.memory.listCores = w.memory.listCores
  states  : w'.states = w.states
  enabled : w'.enabled = w.enabled
  file    : w'.file = w.file

variable {env constructs}

theorem noTrace_refl (w : World) : NoTrace w w := ⟨rfl, rfl, rfl, rfl⟩

/-- No trace, so a core that was not installed is not refused as installed. -/
theorem installable_of_noTrace {w w' : World} (h : NoTrace w w') {core : CoreId}
    (hNone : w.drivers core = none) : w'.drivers core = none := by
  by_contra hSome
  have hListed : core ∈ w'.memory.listCores :=
    Memory.mem_listCores.mpr (Option.isSome_iff_ne_none.mpr hSome)
  rw [h.cores, Memory.mem_listCores] at hListed
  rw [show w.memory.drivers core = none from hNone] at hListed
  cases hListed

-- ---------------------------------------------------------------------------
-- The three dictionaries agree
-- ---------------------------------------------------------------------------

/-- A core without a driver has no recorded state and no flag. -/
def Memory.Coherent (m : Memory) : Prop :=
  ∀ core, m.drivers core = none → m.states core = none ∧ m.enabled core = none

namespace Memory

theorem coherent_withState {m : Memory} (h : m.Coherent) {core : CoreId}
    (hListed : (m.drivers core).isSome = true) (state : CoreState) :
    (m.withState core state).Coherent := by
  intro other hNone
  have hNe : other ≠ core := by
    rintro rfl
    rw [show m.drivers other = none from hNone] at hListed
    cases hListed
  simpa [withState, hNe] using h other hNone

theorem coherent_addCore {m : Memory} (h : m.Coherent) (core : CoreId) (settings : Settings)
    (enabled : Bool) (state : CoreState) : (m.addCore core settings enabled state).Coherent := by
  intro other hNone
  by_cases hEq : other = core
  · subst hEq
    simp [addCore] at hNone
  · have hOld : m.drivers other = none := by simpa [addCore, hEq] using hNone
    simpa [addCore, hEq] using h other hOld

theorem coherent_dropCore {m : Memory} (h : m.Coherent) (core : CoreId) :
    (m.dropCore core).Coherent := by
  intro other hNone
  by_cases hEq : other = core
  · subst hEq
    simp [dropCore]
  · have hOld : m.drivers other = none := by simpa [dropCore, hEq] using hNone
    simpa [dropCore, hEq] using h other hOld

/-- Dropping a core that is not there changes nothing. -/
theorem dropCore_of_coherent {m : Memory} (h : m.Coherent) {core : CoreId}
    (hNone : m.drivers core = none) : m.dropCore core = m := by
  obtain ⟨hState, hEnabled⟩ := h core hNone
  have hDrivers : Function.update m.drivers core none = m.drivers := by
    rw [← hNone, Function.update_eq_self]
  have hStates : Function.update m.states core none = m.states := by
    rw [← hState, Function.update_eq_self]
  have hFlags : Function.update m.enabled core none = m.enabled := by
    rw [← hEnabled, Function.update_eq_self]
  rw [dropCore, hDrivers, hStates, hFlags]

theorem coherent_uninstall {m : Memory} (h : m.Coherent) {core : CoreId}
    (hListed : (m.drivers core).isSome = true) (call : DriverReply) (write : StoreReply) :
    (uninstallMemory m core call write).Coherent := by
  unfold uninstallMemory
  split
  · split
    · exact coherent_dropCore h core
    · exact coherent_withState h hListed .uninstalled
  · exact h

end Memory

/-- A computation that keeps the dictionaries in agreement. -/
def KeepsCoherent {α : Type} (x : Manager α) : Prop :=
  Steps (fun w w' => w.memory.Coherent → w'.memory.Coherent) x

theorem coherent_startCore (core : CoreId) : KeepsCoherent (startCore core) := by
  intro w h
  by_cases hCan : CanStart w core
  · rw [startCore_memory_of_canStart hCan]
    exact Memory.coherent_withState h hCan.1 _
  · obtain ⟨e, hRefused, -⟩ := startCore_refused hCan
    rw [memory_of_error ⟨e, hRefused⟩]
    exact h

theorem coherent_stopCore (core : CoreId) : KeepsCoherent (stopCore core) := by
  intro w h
  by_cases hCan : CanStop w core
  · rw [stopCore_memory_of_canStop hCan]
    exact Memory.coherent_withState h hCan.1 _
  · rw [memory_of_error (stopCore_refused hCan)]
    exact h

theorem coherent_restartCore (core : CoreId) : KeepsCoherent (restartCore core) := by
  intro w h
  by_cases hCan : CanRestart w core
  · rw [restartCore_memory_of_canRestart hCan]
    exact Memory.coherent_withState h hCan.1 _
  · rw [memory_of_error (restartCore_refused hCan)]
    exact h

theorem coherent_installCore (env : Environment) (core : CoreId) (settings : Settings)
    (enabled : Bool) : KeepsCoherent (installCore env core settings enabled) := by
  intro w h
  cases hDriver : w.drivers core with
  | some old =>
    rw [memory_of_error (installCore_refused (by simp [hDriver]))]
    exact h
  | none =>
    rw [installCore_memory hDriver]
    unfold installMemory
    cases w.driverReply with
    | ok => exact Memory.coherent_addCore h core _ enabled .installed
    | unsupported => exact Memory.coherent_addCore h core _ enabled .installed
    | raised => exact Memory.coherent_dropCore h core
    | cancelled => exact Memory.coherent_addCore h core _ enabled .loaded

theorem coherent_uninstallCore (core : CoreId) (purge force : Bool) :
    KeepsCoherent (uninstallCore core purge force) := by
  intro w h
  cases hDriver : w.drivers core with
  | none =>
    rw [memory_of_error (uninstallCore_refused (Or.inl hDriver))]
    exact h
  | some settings =>
    have hListed : (w.memory.drivers core).isSome = true := by simp [World.memory, hDriver]
    cases hState : w.states core with
    | none =>
      rw [memory_of_error (uninstallCore_refused (Or.inr hState))]
      exact h
    | some state =>
      by_cases hRunning : state = .running
      · subst hRunning
        rw [uninstallCore_memory_running hDriver hState]
        split
        · exact Memory.coherent_uninstall (Memory.coherent_withState h hListed .stopped) hListed _ _
        · exact Memory.coherent_withState h hListed _
      · rw [uninstallCore_memory_idle hDriver hState hRunning]
        exact Memory.coherent_uninstall h hListed _ _

/--
**Step.** Every job keeps the dictionaries in agreement: a core without a
driver has no recorded state and no flag. An install that is abandoned takes
all three back, and so does an uninstall.
-/
theorem coherent_runJob (env : Environment) {w : World} (h : w.memory.Coherent) (job : Job) :
    (runJob env w job).1.memory.Coherent := by
  have hAwaiting : (w.awaiting job).memory.Coherent := h
  by_cases hAcquired : job.acquired = true
  · rw [runJob_after hAcquired, execute]
    cases job.body.action with
    | install =>
      rw [memory_bind fun _ => keeps_status job.core]
      exact coherent_installCore env job.core job.body.settings true _ hAwaiting
    | uninstall => exact coherent_uninstallCore job.core job.body.purge job.body.force _ hAwaiting
    | start =>
      rw [memory_bind fun _ => keeps_status job.core]
      exact coherent_startCore job.core _ hAwaiting
    | stop =>
      rw [memory_bind fun _ => keeps_status job.core]
      exact coherent_stopCore job.core _ hAwaiting
    | restart =>
      rw [memory_bind fun _ => keeps_status job.core]
      exact coherent_restartCore job.core _ hAwaiting
    | update =>
      rw [keeps_updateCore]
      exact hAwaiting
  · simp [runJob, hAcquired, h]

theorem coherent_runLifecycle {w : World} (h : w.memory.Coherent) (job : Job) :
    (runLifecycle env constructs w job).1.memory.Coherent := by
  unfold runLifecycle
  split
  · exact h
  · exact coherent_runJob env h job

section Restart

theorem coherent_startOne (core : CoreId) : KeepsCoherent (startOne core) := by
  refine Steps.get_bind fun w => ?_
  by_cases hGo : w.enabled core = some true ∧ (w.states core).any CoreState.startable = true
  · rw [if_pos hGo]
    exact Steps.guarded (R := fun w w' : World => w.memory.Coherent → w'.memory.Coherent)
      (fun hab hbc h => hbc (hab h)) (coherent_startCore core) fun _ => fun _ h => h
  · rw [if_neg hGo]
    exact fun _ h => h

theorem coherent_startEnabled : KeepsCoherent startEnabled := by
  refine Steps.get_bind fun w => Steps.forEach (fun _ h => h) ?_ fun core _ => coherent_startOne core
  exact fun hab hbc h => hbc (hab h)

/-- A start of the agent fills all three dictionaries from `cores.json`. -/
theorem coherent_boot (env : Environment) (w : World) : (boot env w).memory.Coherent := by
  intro core hNone
  have hFile : w.file core = none := by simpa [boot, World.memory] using hNone
  simp [boot, World.memory, hFile]

end Restart

/--
**Run.** The dictionaries agree in every reachable state, by induction on the
jobs, stops and starts that led to it. So putting a core into memory and
dropping it again is no change.
-/
theorem coherent_of_reachable {w : World} (h : Reachable env constructs w) :
    w.memory.Coherent := by
  induction h with
  | empty =>
    intro core _
    exact ⟨rfl, rfl⟩
  | job job _ ih => exact coherent_runLifecycle ih job
  | restart stop replies _ ih => exact coherent_startEnabled _ (coherent_boot env _)

-- ---------------------------------------------------------------------------
-- One install job
-- ---------------------------------------------------------------------------

/-- A core that was not there and is entered leaves a trace. -/
theorem trace_of_addCore {w w' : World} {core : CoreId} {settings : Settings} {enabled : Bool}
    {state : CoreState} (hNone : w.drivers core = none)
    (hMemory : w'.memory = w.memory.addCore core settings enabled state) : ¬ NoTrace w w' := by
  intro hSame
  have hStill := installable_of_noTrace hSame hNone
  have hSome : w'.drivers core = some settings := by
    show w'.memory.drivers core = some settings
    rw [hMemory]
    simp [Memory.addCore]
  rw [hStill] at hSome
  cases hSome

/-- The world in which `install_core` has entered the new driver. -/
def World.entered (w : World) (core : CoreId) (effective : Settings) (enabled : Bool) : World :=
  { w with
    drivers := Function.update w.drivers core (some effective)
    states := Function.update w.states core (some .loaded)
    enabled := Function.update w.enabled core (some enabled) }

/-- `driver.install()` raises: the entries are taken out, nothing is written. -/
theorem installCore_raised (env : Environment) {core : CoreId} (settings : Settings)
    (enabled : Bool) {w : World} (hNone : w.drivers core = none) (hReply : w.driverReply = .raised) :
    ∃ w', (installCore env core settings enabled).run w = (.error .driver, w') ∧
      w'.memory = w.memory.dropCore core ∧ w'.file = w.file := by
  have hNotSome : ¬ (w.drivers core).isSome = true := by simp [hNone]
  have hCall := awaitDriver_run core .install
    (w.entered core (nodeDriverSettings env core settings) enabled)
  rw [show (w.entered core (nodeDriverSettings env core settings) enabled).driverReply = .raised
    from hReply] at hCall
  have hAbandoned : (guarded Exn.isException (awaitDriver core .install)
      (abandonInstall core)).run (w.entered core (nodeDriverSettings env core settings) enabled) =
        (.error .driver, ((w.entered core (nodeDriverSettings env core settings)
          enabled).afterCall core .install).dropCore core) :=
    Op.run_guarded_error hCall
  refine ⟨((w.entered core (nodeDriverSettings env core settings) enabled).afterCall core
    .install).dropCore core, ?_, Memory.dropCore_addCore w.memory core _ enabled .loaded, rfl⟩
  unfold installCore
  rw [Op.run_get_bind, if_neg hNotSome]
  simp only [Op.run_modify_bind]
  exact Op.run_bind_error hAbandoned

/-- An install job that ended before the entries were made. -/
theorem runJob_refused {w : World} {job : Job} (hInstall : job.body.action = .install)
    (hEarly : job.acquired = false ∨ (w.drivers job.core).isSome = true) :
    NoTrace w (runJob env w job).1 := by
  by_cases hAcquired : job.acquired = true
  · have hListed : ((w.awaiting job).drivers job.core).isSome = true := by
      rcases hEarly with hNo | hYes
      · rw [hAcquired] at hNo
        cases hNo
      · exact hYes
    obtain ⟨e, hRun⟩ : ∃ e, (installCore env job.core job.body.settings true).run
        (w.awaiting job) = (.error e, w.awaiting job) := installCore_refused hListed
    have hAfter : (runJob env w job).1 = w.awaiting job := by
      rw [runJob_after hAcquired, execute, hInstall]
      simp only [Op.after]
      rw [Op.run_bind_error hRun]
    rw [hAfter]
    exact ⟨rfl, rfl, rfl, rfl⟩
  · have hSame : (runJob env w job).1 = w := by simp [runJob, hAcquired]
    rw [hSame]
    exact noTrace_refl w

/-- An install job on a core that is not there, past the constructor: its one
way back is an exception of `driver.install()`. -/
theorem runJob_noTrace_iff {w : World} {job : Job} (hCoherent : w.memory.Coherent)
    (hInstall : job.body.action = .install) (hAcquired : job.acquired = true)
    (hNone : w.drivers job.core = none) :
    NoTrace w (runJob env w job).1 ↔ job.driverReply 0 = .raised := by
  have hAwaitingNone : (w.awaiting job).drivers job.core = none := hNone
  -- the one exception after which the manager takes the core out again
  by_cases hRaised : job.driverReply 0 = .raised
  · obtain ⟨w', hRun, hMemory, hFile⟩ :=
      installCore_raised env job.body.settings true hAwaitingNone hRaised
    have hSame : w'.memory = w.memory :=
      hMemory.trans (Memory.dropCore_of_coherent hCoherent hNone)
    have hAfter : (runJob env w job).1 = w' := by
      rw [runJob_after hAcquired, execute, hInstall]
      simp only [Op.after]
      rw [Op.run_bind_error hRun]
    rw [hAfter]
    exact ⟨fun _ => hRaised, fun _ => ⟨by rw [hSame], congrArg Memory.states hSame,
      congrArg Memory.enabled hSame, hFile⟩⟩
  · have hMemory : (runJob env w job).1.memory =
        installMemory env job.core job.body.settings true (w.awaiting job) := by
      rw [runJob_after hAcquired, execute, hInstall]
      simp only
      rw [memory_bind fun _ => keeps_status job.core, installCore_memory hAwaitingNone]
    -- after every other answer the core is listed, which it was not before
    have hTrace : ¬ NoTrace w (runJob env w job).1 := by
      unfold installMemory at hMemory
      rw [show (w.awaiting job).driverReply = job.driverReply 0 from rfl] at hMemory
      cases hReply : job.driverReply 0 with
      | ok => exact trace_of_addCore hNone (by rw [hMemory, hReply]; rfl)
      | unsupported => exact trace_of_addCore hNone (by rw [hMemory, hReply]; rfl)
      | cancelled => exact trace_of_addCore hNone (by rw [hMemory, hReply]; rfl)
      | raised => exact absurd hReply hRaised
    exact ⟨fun h => absurd h hTrace, fun h => absurd h hRaised⟩

-- ---------------------------------------------------------------------------
-- Failed installs
-- ---------------------------------------------------------------------------

/--
**Failed installs.** In every state reached by jobs, stops and starts of the
agent, an install job leaves the listed cores, the recorded states, the flags
and `cores.json` as they were **if and only if** it never got the core's lock,
or the core was installed already, or building the driver raised, or
`driver.install()` raised. Every other way to fail (a cancellation at any
await, a write that raises) leaves the new core behind.
-/
theorem failedInstall_noTrace_iff (env : Environment) (constructs : Constructs) (w : World)
    (hReachable : Reachable env constructs w) (job : Job)
    (hInstall : job.body.action = .install) :
    NoTrace w (runLifecycle env constructs w job).1 ↔
      (job.acquired = false ∨ (w.drivers job.core).isSome = true ∨
        constructs job.core (nodeDriverSettings env job.core job.body.settings) = false ∨
        job.driverReply 0 = .raised) := by
  have hCoherent := coherent_of_reachable hReachable
  unfold runLifecycle
  -- the constructor raises before anything is put anywhere
  by_cases hRaises : ConstructorRaises env constructs w job
  · rw [if_pos hRaises]
    exact ⟨fun _ => Or.inr (Or.inr (Or.inl hRaises.2.2.2)), fun _ => noTrace_refl w⟩
  -- without the lock, or with the core there, the job has done nothing
  · rw [if_neg hRaises]
    by_cases hEarly : job.acquired = false ∨ (w.drivers job.core).isSome = true
    · refine ⟨fun _ => ?_, fun _ => runJob_refused hInstall hEarly⟩
      rcases hEarly with hLock | hListed
      · exact Or.inl hLock
      · exact Or.inr (Or.inl hListed)
    · rw [not_or, Bool.not_eq_false, Bool.not_eq_true, Option.isSome_eq_false_iff,
        Option.isNone_iff_eq_none] at hEarly
      obtain ⟨hAcquired, hNone⟩ := hEarly
      have hBuilt : constructs job.core
          (nodeDriverSettings env job.core job.body.settings) ≠ false :=
        fun hFalse => hRaises ⟨hInstall, hAcquired, hNone, hFalse⟩
      rw [runJob_noTrace_iff hCoherent hInstall hAcquired hNone]
      simp [hAcquired, hNone, hBuilt]

/-- The deadline cancels `driver.install()`. -/
def cancelledInstall : Job := sshJob .install [.cancelled]

/-- The condition at that job. -/
theorem failedInstall_noTrace_iff_cancelled :
    NoTrace World.empty
        (runLifecycle defaultEnvironment (fun _ _ => true) World.empty cancelledInstall).1 ↔
      (cancelledInstall.acquired = false ∨
        (World.empty.drivers cancelledInstall.core).isSome = true ∨ true = false ∨
        cancelledInstall.driverReply 0 = .raised) :=
  failedInstall_noTrace_iff defaultEnvironment (fun _ _ => true) World.empty Reachable.empty
    cancelledInstall rfl

/-- The deadline cancels the install: the job has failed, the core is listed,
and the next install of it fails as already installed. -/
theorem timeout_leaves_core :
    (runLifecycle defaultEnvironment (fun _ _ => true) World.empty cancelledInstall).2 = .failed ∧
      ¬ NoTrace World.empty
        (runLifecycle defaultEnvironment (fun _ _ => true) World.empty cancelledInstall).1 ∧
      (runLifecycle defaultEnvironment (fun _ _ => true)
        (runLifecycle defaultEnvironment (fun _ _ => true) World.empty cancelledInstall).1
        (sshJob .install [])).2 = .failed := by
  refine ⟨by decide, ?_, by decide⟩
  intro hSame
  have hListed : (runLifecycle defaultEnvironment (fun _ _ => true) World.empty
      cancelledInstall).1.memory.listCores = [.ssh] := by
    decide
  have hEmpty : World.empty.memory.listCores = [] := by decide
  have hCores := hSame.cores
  rw [hListed, hEmpty] at hCores
  cases hCores

end ZagrosNode.Cores
