import ZagrosNode.Cores.Jobs

/-!
# ZagrosNode — stopping and starting the agent

At a graceful stop `stop_all` stops every running core; at a start `boot`
rebuilds drivers, states and flags from `cores.json`, and `start_enabled`
starts every enabled core whose rehydrated state is `installed`, `stopped` or
`error`. The documented boot policy is to start every enabled core that was
running before.

`boot` maps `running` to `stopped`, so after it a core that was running cannot
be told from one that was stopped on purpose, or was never started at all. What
this means for the jobs before the stop is in `Cores/Intent.lean`.

Every operation is about one core, and the manager goes through the cores one
after the other. So the proofs follow one core through the loops: an operation on
another core changes nothing about it (`coreRelation_sameAt`), and once the driver
has been called for a core that stays recorded (`coreRelation_started`).

A phase of the agent (a start, a stop, a job) is given its own queues of replies by
`withReplies`, so that what the awaits of one phase return says nothing about those
of another. A kill is a stop without `stop_all`: memory is gone and the file stays.

Main results:

* `reboot_runsAgain` — a start of the agent can start a core exactly if its
  record is enabled and in a state that a start accepts.
* `shutdown_file` — a stop leaves the record of a core alone that is not running.
-/

namespace ZagrosNode.Cores

open ZagrosNode.Lib Op

-- ---------------------------------------------------------------------------
-- The life cycle of the agent
-- ---------------------------------------------------------------------------

/-- A reboot never trusts `running`. -/
def bootState (state : CoreState) : CoreState :=
  match state with
  | .running | .starting | .stopping => .stopped
  | state => state

/-- `CoreManager.boot` in a fresh process. -/
def boot (env : Environment) (w : World) : World :=
  { drivers := fun core => (w.file core).map fun r => nodeDriverSettings env core r.settings
    states := fun core => (w.file core).map fun r => bootState r.state
    enabled := fun core => (w.file core).map Record.enabled
    file := w.file
    driverReplies := []
    storeReplies := []
    calls := [] }

/-- One round of `start_enabled`. -/
def startOne (core : CoreId) : Manager Unit := do
  let w ← Op.get
  if w.enabled core = some true ∧ (w.states core).any CoreState.startable = true then
    guarded Exn.isException (startCore core) fun _ => pure ()
  else pure ()

def startEnabled : Manager Unit := do
  let w ← Op.get
  forEach startOne w.memory.listCores

/-- One round of `stop_all`. -/
def stopOne (core : CoreId) : Manager Unit := do
  let w ← Op.get
  if w.states core = some .running then
    guarded Exn.isException (do stopCore core) fun _ => pure ()
  else pure ()

def stopAll : Manager Unit := do
  let w ← Op.get
  forEach stopOne w.memory.listCores

/-- What the awaits of one phase return. -/
structure Replies where
  driver : List DriverReply
  store  : List StoreReply

def World.withReplies (w : World) (r : Replies) : World :=
  { w with driverReplies := r.driver, storeReplies := r.store }

/-- The agent stops: killed, or gracefully through `stop_all`. -/
def shutdown (stop : Option Replies) (w : World) : World :=
  match stop with
  | none   => w
  | some r => stopAll.after (w.withReplies r)

/-- The agent starts on the files it left. -/
def reboot (env : Environment) (r : Replies) (w : World) : World :=
  startEnabled.after ((boot env w).withReplies r)

/-- The driver's `start` was called for `core` in this process. -/
def World.started (w : World) (core : CoreId) : Bool :=
  w.calls.any fun call => decide (call.1 = core) && call.2.isStart

/-- The core was started, or is recorded as running. -/
def RunsAgain (w : World) (core : CoreId) : Prop :=
  w.started core = true ∨ w.states core = some .running

-- ---------------------------------------------------------------------------
-- Frames
-- ---------------------------------------------------------------------------

/-- A relation on worlds that composes and that every step of an operation on
`core` respects. -/
structure CoreRelation (core : CoreId) (R : World → World → Prop) : Prop where
  refl       : ∀ w, R w w
  trans      : ∀ {a b c}, R a b → R b c → R a c
  withState  : ∀ w state, R w (w.withState core state)
  afterWrite : ∀ w record, R w (w.afterWrite core record)
  afterCall  : ∀ w call, R w (w.afterCall core call)

section Frames

variable {core : CoreId} {R : World → World → Prop} (h : CoreRelation core R)
include h

theorem steps_setState (state : CoreState) : Steps R (setState core state) :=
  fun w => h.trans (h.withState w state) (h.afterWrite _ _)

theorem steps_awaitDriver (call : DriverCall) : Steps R (awaitDriver core call) :=
  fun w => h.afterCall w call

theorem steps_getDriver : Steps R (getDriver core) := by
  apply Steps.get_bind
  intro w
  cases w.drivers core with
  | some settings => exact Steps.pure h.refl settings
  | none => exact Steps.raise h.refl _

theorem steps_recordedState : Steps R (recordedState core) := by
  apply Steps.get_bind
  intro w
  cases w.states core with
  | some state => exact Steps.pure h.refl state
  | none => exact Steps.raise h.refl _

theorem steps_transition (intermediate success : CoreState) (call : DriverCall) :
    Steps R (transition core intermediate success (awaitDriver core call)) := by
  refine Steps.bind h.trans (steps_setState h intermediate) fun _ => ?_
  refine Steps.bind h.trans ?_ fun _ => steps_setState h success
  refine Steps.guarded (R := R) h.trans (steps_awaitDriver h call) fun e => ?_
  exact Steps.bind h.trans (steps_setState h .error) fun _ => Steps.raise h.refl e

theorem steps_persistSettings (settings : Settings) : Steps R (persistSettings core settings) := by
  refine Steps.bind h.trans (steps_recordedState h) fun state => ?_
  exact Steps.get_bind fun _ => fun w => h.afterWrite w _

theorem steps_startCore : Steps R (startCore core) := by
  refine Steps.bind h.trans (steps_getDriver h) fun settings => Steps.get_bind fun w => ?_
  cases w.enabled core with
  | none => exact Steps.raise h.refl _
  | some enabled =>
    cases enabled with
    | false => exact Steps.raise h.refl _
    | true =>
      refine Steps.bind h.trans (steps_recordedState h) fun state => ?_
      by_cases hRunning : state = .running
      · rw [if_pos hRunning]
        exact Steps.raise h.refl _
      · rw [if_neg hRunning]
        by_cases hStartable : state.startable = false
        · rw [if_pos hStartable]
          exact Steps.raise h.refl _
        · rw [if_neg hStartable]
          refine Steps.bind h.trans (steps_transition h _ _ _) fun _ => ?_
          exact Steps.bind h.trans (steps_persistSettings h settings)
            fun _ => steps_awaitDriver h .status

theorem steps_stopCore : Steps R (stopCore core) := by
  refine Steps.bind h.trans (steps_getDriver h) fun _ => ?_
  refine Steps.bind h.trans (steps_recordedState h) fun state => ?_
  by_cases hStoppable : state.stoppable = false
  · rw [if_pos hStoppable]
    exact Steps.raise h.refl _
  · rw [if_neg hStoppable]
    exact Steps.bind h.trans (steps_transition h _ _ _) fun _ => steps_awaitDriver h .status

theorem steps_startOne : Steps R (startOne core) := by
  refine Steps.get_bind fun w => ?_
  by_cases hGo : w.enabled core = some true ∧ (w.states core).any CoreState.startable = true
  · rw [if_pos hGo]
    exact Steps.guarded (R := R) h.trans (steps_startCore h) fun _ => Steps.pure h.refl ()
  · rw [if_neg hGo]
    exact Steps.pure h.refl ()

theorem steps_stopOne : Steps R (stopOne core) := by
  refine Steps.get_bind fun w => ?_
  by_cases hGo : w.states core = some .running
  · rw [if_pos hGo]
    exact Steps.guarded (R := R) h.trans (steps_stopCore h) fun _ => Steps.pure h.refl ()
  · rw [if_neg hGo]
    exact Steps.pure h.refl ()

end Frames

/-- Everything the world holds about `core` is the same. -/
structure SameAt (core : CoreId) (w w' : World) : Prop where
  drivers : w'.drivers core = w.drivers core
  states  : w'.states core = w.states core
  enabled : w'.enabled core = w.enabled core
  file    : w'.file core = w.file core
  started : w'.started core = w.started core

theorem sameAt_refl (core : CoreId) (w : World) : SameAt core w w := ⟨rfl, rfl, rfl, rfl, rfl⟩

theorem sameAt_trans {core : CoreId} {a b c : World} (hab : SameAt core a b)
    (hbc : SameAt core b c) : SameAt core a c :=
  ⟨hbc.drivers.trans hab.drivers, hbc.states.trans hab.states, hbc.enabled.trans hab.enabled,
    hbc.file.trans hab.file, hbc.started.trans hab.started⟩

/--
**Frame rule.** An operation on one core changes nothing about another: not its
driver, its recorded state or its flag, nor its record in `cores.json`. It is
given as a relation that every step of an operation keeps, so that it holds
wherever the operation is cancelled.
-/
theorem coreRelation_sameAt {core other : CoreId} (hNe : other ≠ core) :
    CoreRelation core (SameAt other) where
  refl := sameAt_refl other
  trans := sameAt_trans
  withState w state := ⟨rfl, by simp [World.withState, hNe], rfl, rfl, rfl⟩
  afterWrite w record := by
    refine ⟨rfl, rfl, rfl, ?_, rfl⟩
    unfold World.afterWrite
    by_cases hWritten : w.storeReply.written = true
    · simp [hWritten, hNe]
    · simp [hWritten]
  afterCall w call := by
    refine ⟨rfl, rfl, rfl, rfl, ?_⟩
    simp [World.started, World.afterCall, Ne.symm hNe]

theorem coreRelation_started (core other : CoreId) :
    CoreRelation core fun w w' => w.started other = true → w'.started other = true where
  refl _ hStarted := hStarted
  trans hab hbc hStarted := hbc (hab hStarted)
  withState _ _ hStarted := hStarted
  afterWrite _ _ hStarted := hStarted
  afterCall w call hStarted := by
    unfold World.started World.afterCall at *
    rw [List.any_append, hStarted]
    rfl

-- ---------------------------------------------------------------------------
-- What a start of the agent starts
-- ---------------------------------------------------------------------------

/-- `start_enabled` will start this core. -/
def Bootable (w : World) (core : CoreId) : Prop :=
  (w.drivers core).isSome ∧ w.enabled core = some true ∧
    (w.states core).any CoreState.startable = true

/-- A core that is not to be started is not touched by any round. -/
theorem startOne_unbootable (core other : CoreId) :
    Steps (fun w w' => ¬ Bootable w other → SameAt other w w') (startOne core) := by
  intro w hNot
  by_cases hEq : other = core
  · subst hEq
    by_cases hGo : w.enabled other = some true ∧ (w.states other).any CoreState.startable = true
    · -- enabled and startable, so it has no driver and the start is refused
      have hNone : ¬ CanStart w other := by
        rintro ⟨hDriver, -, -⟩
        exact hNot ⟨hDriver, hGo.1, hGo.2⟩
      obtain ⟨e, hRun, hException⟩ := startCore_refused hNone
      have hAfter : (startOne other).after w =
          (guarded Exn.isException (startCore other) fun _ => pure ()).after w := by
        unfold startOne Op.after
        rw [Op.run_get_bind, if_pos hGo]
      rw [hAfter, Op.after, Op.run_guarded_error hRun, if_pos hException]
      exact sameAt_refl other w
    · have hAfter : (startOne other).after w = w := by
        unfold startOne Op.after
        rw [Op.run_get_bind, if_neg hGo]
        rfl
      rw [hAfter]
      exact sameAt_refl other w
  · exact steps_startOne (coreRelation_sameAt hEq) w

theorem bootable_of_sameAt {core : CoreId} {w w' : World} (h : SameAt core w w') :
    Bootable w' core ↔ Bootable w core := by
  unfold Bootable
  rw [h.drivers, h.enabled, h.states]

theorem startEnabled_unbootable (other : CoreId) :
    Steps (fun w w' => ¬ Bootable w other → SameAt other w w') startEnabled := by
  refine Steps.get_bind fun w => Steps.forEach (fun w _ => sameAt_refl other w) ?_
    fun core _ => startOne_unbootable core other
  intro a b c hab hbc hNot
  have hSame := hab hNot
  exact sameAt_trans hSame (hbc (by rwa [bootable_of_sameAt hSame]))

/-- Every await returns. -/
def AllOk (w : World) : Prop := w.driverReplies = [] ∧ w.storeReplies = []

theorem allOk_recorded {w : World} (h : AllOk w) (core : CoreId) (state : CoreState) :
    (setState core state).run w = (.ok (), w.recorded core state) ∧
      AllOk (w.recorded core state) := by
  constructor
  · rw [setState_run]
    simp [World.storeReply, World.storeReplyAt, h.2, StoreReply.result]
  · exact ⟨h.1, by simp [World.recorded, World.afterWrite, World.withState, h.2]⟩

theorem allOk_awaitDriver {w : World} (h : AllOk w) (core : CoreId) (call : DriverCall) :
    (awaitDriver core call).run w = (.ok (), w.afterCall core call) ∧
      AllOk (w.afterCall core call) := by
  constructor
  · rw [awaitDriver_run]
    simp [World.driverReply, World.driverReplyAt, h.1, DriverReply.result]
  · exact ⟨by simp [World.afterCall, h.1], h.2⟩

theorem started_afterCall_start (w : World) (core : CoreId) :
    (w.afterCall core .start).started core = true := by
  simp [World.started, World.afterCall, DriverCall.isStart]

theorem allOk_persistSettings {w : World} (h : AllOk w) {core : CoreId} {state : CoreState}
    (hState : w.states core = some state) (settings : Settings) :
    ∃ w', (persistSettings core settings).run w = (.ok (), w') ∧ AllOk w' ∧
      w'.calls = w.calls := by
  refine ⟨w.afterWrite core (some ⟨state, (w.enabled core).getD false, settings⟩), ?_, ?_, rfl⟩
  · unfold persistSettings
    rw [Op.run_bind_ok (recordedState_run_some hState), Op.run_get_bind]
    simp [saveState, Op.run, World.storeReply, World.storeReplyAt, h.2, StoreReply.result]
  · exact ⟨h.1, by simp [World.afterWrite, h.2]⟩

theorem startCore_allOk {w : World} (h : AllOk w) {core : CoreId} (hCan : CanStart w core) :
    ∃ w', (startCore core).run w = (.ok (), w') ∧ AllOk w' ∧ w'.started core = true := by
  obtain ⟨hDriver, hEnabled, state, hState, hStartable⟩ := hCan
  obtain ⟨settings, hDriver⟩ := Option.isSome_iff_exists.mp hDriver
  obtain ⟨hStarting, hOk1⟩ := allOk_recorded h core .starting
  obtain ⟨hCall, hOk2⟩ := allOk_awaitDriver hOk1 core .start
  obtain ⟨hRunning, hOk3⟩ := allOk_recorded hOk2 core .running
  have hTransition : (transition core .starting .running (awaitDriver core .start)).run w =
      (.ok (), ((w.recorded core .starting).afterCall core .start).recorded core .running) := by
    unfold transition
    rw [Op.run_bind_ok hStarting, Op.run_bind_ok (Op.run_guarded_ok hCall), hRunning]
  -- the settings are persisted under the state just recorded
  have hRecorded : (((w.recorded core .starting).afterCall core .start).recorded core
      .running).states core = some .running := by
    simp [World.recorded, World.afterWrite, World.withState]
  obtain ⟨w4, hPersist, hOk4, hCalls⟩ := allOk_persistSettings hOk3 hRecorded settings
  have hStarted : w4.started core = true := by
    unfold World.started
    rw [hCalls]
    exact started_afterCall_start (w.recorded core .starting) core
  obtain ⟨hStatus, hOk5⟩ := allOk_awaitDriver hOk4 core .status
  have hNotRunning : state ≠ .running := by
    rintro rfl
    cases hStartable
  refine ⟨w4.afterCall core .status, ?_, hOk5, ?_⟩
  · unfold startCore
    rw [Op.run_bind_ok (getDriver_run_some hDriver), Op.run_get_bind]
    simp only [hEnabled]
    rw [Op.run_bind_ok (recordedState_run_some hState), if_neg hNotRunning, hStartable,
      if_neg (by decide), Op.run_bind_ok hTransition, Op.run_bind_ok hPersist, hStatus]
  · exact (coreRelation_started core core).afterCall w4 .status hStarted

theorem canStart_of_bootable {w : World} {core : CoreId} (h : Bootable w core) :
    CanStart w core := by
  obtain ⟨hDriver, hEnabled, hStartable⟩ := h
  cases hState : w.states core with
  | none => simp [hState] at hStartable
  | some state => exact ⟨hDriver, hEnabled, state, hState, by simpa [hState] using hStartable⟩

/-- When every await returns, a round starts a core that is to be started, and
the loop goes on. -/
theorem startOne_allOk {w : World} (h : AllOk w) (core : CoreId) :
    ∃ w', (startOne core).run w = (.ok (), w') ∧ AllOk w' ∧
      (Bootable w core → w'.started core = true) := by
  unfold startOne
  rw [Op.run_get_bind]
  by_cases hGo : w.enabled core = some true ∧ (w.states core).any CoreState.startable = true
  · rw [if_pos hGo]
    by_cases hCan : CanStart w core
    · obtain ⟨w', hRun, hOk, hStarted⟩ := startCore_allOk h hCan
      exact ⟨w', Op.run_guarded_ok hRun, hOk, fun _ => hStarted⟩
    · obtain ⟨e, hRun, hException⟩ := startCore_refused hCan
      refine ⟨w, ?_, h, fun hBoot => absurd (canStart_of_bootable hBoot) hCan⟩
      rw [Op.run_guarded_error hRun, if_pos hException]
      rfl
  · rw [if_neg hGo]
    exact ⟨w, rfl, h, fun hBoot => absurd ⟨hBoot.2.1, hBoot.2.2⟩ hGo⟩

/-- When every await returns, the loop starts every listed core that is to be
started. -/
theorem forEach_startOne_allOk {w : World} (h : AllOk w) {cores : List CoreId} {core : CoreId}
    (hMem : core ∈ cores) (hBoot : Bootable w core) :
    ((forEach startOne cores).after w).started core = true := by
  induction cores generalizing w with
  | nil => cases hMem
  | cons first rest ih =>
    obtain ⟨w', hRun, hOk, hStarted⟩ := startOne_allOk h first
    have hLoop : (forEach startOne (first :: rest)).after w =
        (forEach startOne rest).after w' := by
      unfold Op.after
      rw [forEach, Op.run_bind_ok hRun]
    rw [hLoop]
    -- a core that is started stays so, and one that is yet to come stays as it is
    by_cases hEq : core = first
    · subst hEq
      have hKeeps : Steps (fun w w' => w.started core = true → w'.started core = true)
          (forEach startOne rest) :=
        Steps.forEach (fun _ hs => hs) (fun hab hbc hs => hbc (hab hs))
          fun other _ => steps_startOne (coreRelation_started other core)
      exact hKeeps w' (hStarted hBoot)
    · have hRest : core ∈ rest := by
        rcases List.mem_cons.mp hMem with hFirst | hRest
        · exact absurd hFirst hEq
        · exact hRest
      have hSame : SameAt core w w' := by
        have hFrame := steps_startOne (coreRelation_sameAt hEq) w
        rwa [Op.after, hRun] at hFrame
      exact ih hOk hRest ((bootable_of_sameAt hSame).mpr hBoot)

-- ---------------------------------------------------------------------------
-- What a stop of the agent leaves on file
-- ---------------------------------------------------------------------------

/-- A graceful stop does not touch a core that is not running. -/
theorem stopOne_notRunning (core other : CoreId) :
    Steps (fun w w' => w.states other ≠ some .running → SameAt other w w') (stopOne core) := by
  intro w hNot
  by_cases hEq : other = core
  · subst hEq
    have hAfter : (stopOne other).after w = w := by
      unfold stopOne Op.after
      rw [Op.run_get_bind, if_neg hNot]
      rfl
    rw [hAfter]
    exact sameAt_refl other w
  · exact steps_stopOne (coreRelation_sameAt hEq) w

theorem shutdown_file (stop : Option Replies) (w : World) {core : CoreId}
    (hNot : w.states core ≠ some .running) : (shutdown stop w).file core = w.file core := by
  cases stop with
  | none => rfl
  | some r =>
    have hLoop : Steps (fun w w' => w.states core ≠ some .running → SameAt core w w') stopAll := by
      refine Steps.get_bind fun w => Steps.forEach (fun w _ => sameAt_refl core w) ?_
        fun other _ => stopOne_notRunning other core
      intro a b c hab hbc hNot
      have hSame := hab hNot
      exact sameAt_trans hSame (hbc (by rwa [hSame.states]))
    exact (hLoop (w.withReplies r) hNot).file

-- ---------------------------------------------------------------------------
-- What can be started from the file
-- ---------------------------------------------------------------------------

/-- `cores.json` holds an enabled record for the core that a boot would start. -/
def StartableOnFile (w : World) (core : CoreId) : Prop :=
  ∃ r, w.file core = some r ∧ r.enabled = true ∧ (bootState r.state).startable = true

theorem bootable_boot (env : Environment) (r : Replies) (w : World) (core : CoreId) :
    Bootable ((boot env w).withReplies r) core ↔ StartableOnFile w core := by
  unfold Bootable StartableOnFile boot World.withReplies
  cases hFile : w.file core with
  | none => simp [hFile]
  | some record => simp [hFile]

/-- **A restart of the agent.** Whatever the awaits of the start return, a core
that runs again was startable on file; and when they all return, every such
core runs again. -/
theorem reboot_runsAgain (env : Environment) (w : World) (core : CoreId) :
    (∃ r, RunsAgain (reboot env r w) core) ↔ StartableOnFile w core := by
  constructor
  · rintro ⟨r, hRuns⟩
    by_contra hNot
    rw [← bootable_boot env r] at hNot
    have hSame := startEnabled_unbootable core ((boot env w).withReplies r) hNot
    rcases hRuns with hStarted | hRunning
    · unfold reboot at hStarted
      rw [hSame.started] at hStarted
      cases hStarted
    · unfold reboot at hRunning
      rw [hSame.states] at hRunning
      have hBoot : (w.file core).map (fun r => bootState r.state) = some .running := hRunning
      obtain ⟨record, -, hState⟩ := Option.map_eq_some_iff.mp hBoot
      cases hRecord : record.state <;> simp [bootState, hRecord] at hState
  · intro hFile
    refine ⟨⟨[], []⟩, Or.inl ?_⟩
    have hBoot := (bootable_boot env ⟨[], []⟩ w core).mpr hFile
    exact forEach_startOne_allOk ⟨rfl, rfl⟩ (Memory.mem_listCores.mpr hBoot.1) hBoot

end ZagrosNode.Cores
