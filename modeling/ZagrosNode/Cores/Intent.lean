import ZagrosNode.Cores.Boot

/-!
# ZagrosNode — which cores a restart of the agent brings up again

`start_enabled` in `vendor/zagros/app/cores/manager.py` is documented to start
"every enabled, previously-running core". What was running before is a matter of
the jobs: the last lifecycle action of a core that completed has left it running
or has not. What the manager goes by is a matter of the file: `stop_core` leaves
`enabled` alone and `boot` reads `running` as `stopped`, so a record says that a
core was installed, not that it was meant to run.

The theorem puts the two against each other, for an agent that has been stopped
and started any number of times before. The condition is on the file as the jobs
leave it; that a graceful stop does not change what can be started from it needs
an invariant of the agent, `OnRecord`: a core that is running in memory has a
record a start accepts, because `starting` was written before the driver was
called, and every flag that is ever written is true, because lifecycle requests
install with `enabled=True` and nothing in a node disables a core again.

Main results:

* `onRecord_agentAfter` — the invariant, over any number of lifetimes of jobs, stop and
  start.
* `shutdown_startable` — a stop keeps what can be started from the file.
* `intent_iff` — only cores that their last completed action left running are
  started again exactly when every core that can be started from the file was
  left running so.
* `stopped_core_runs_again` — install, start, stop, restart of the agent: the
  stopped core runs.
-/

namespace ZagrosNode.Cores

open ZagrosNode.Lib Op

-- ---------------------------------------------------------------------------
-- Worlds on record
-- ---------------------------------------------------------------------------

/-- Flags are true wherever there is one, and a core that is running in memory can be
started from its record. -/
structure OnRecord (w : World) : Prop where
  flags   : ∀ core, w.states core ≠ none → w.enabled core = some true
  records : ∀ core r, w.file core = some r → r.enabled = true
  running : ∀ core, w.states core = some .running → StartableOnFile w core

/-- So, at a core that has its flag: where an operation on the core is on its
way. -/
structure OnRecordAt (core : CoreId) (w : World) : Prop extends OnRecord w where
  flag : w.enabled core = some true

theorem onRecord_empty : OnRecord World.empty where
  flags _ hState := absurd rfl hState
  records _ _ hRecord := by cases hRecord
  running _ hState := by cases hState

theorem onRecordAt_of_state {w : World} (h : OnRecord w) {core : CoreId} {state : CoreState}
    (hState : w.states core = some state) : OnRecordAt core w :=
  { h with flag := h.flags core (by rw [hState]; exact Option.some_ne_none state) }

section Steps

variable {w : World} {core : CoreId}

theorem states_withState (state : CoreState) (other : CoreId) :
    (w.withState core state).states other =
      if other = core then some state else w.states other := by
  simp [World.withState, Function.update_apply]

theorem file_recorded (state : CoreState) : (w.recorded core state).file core =
    if w.storeReply.written then
      some ⟨state, (w.enabled core).getD false, ((w.file core).map Record.settings).getD []⟩
    else w.file core := by
  by_cases hWritten : w.storeReply.written = true
  · have hSame : (w.withState core state).storeReply.written = true := hWritten
    simp [World.recorded, World.afterWrite, hSame, hWritten]
  · have hSame : ¬ (w.withState core state).storeReply.written = true := hWritten
    simp only [World.recorded, World.afterWrite, if_neg hSame, if_neg hWritten]
    rfl

/-- A record that is written, or not, keeps the world on record if its flag is true and a
running core can be started from it. -/
theorem OnRecord.afterWrite (h : OnRecord w) (core : CoreId) {r : Record} (hFlag : r.enabled = true)
    (hRunning : w.states core = some .running → (bootState r.state).startable = true) :
    OnRecord (w.afterWrite core (some r)) := by
  -- written or not: the record of the core, and those of the others
  by_cases hWritten : w.storeReply.written = true
  · have hFile : (w.afterWrite core (some r)).file = Function.update w.file core (some r) :=
      if_pos hWritten
    refine ⟨h.flags, fun other r' hRecord => ?_, fun other hState => ?_⟩
    · rw [hFile] at hRecord
      by_cases hOther : other = core
      · subst hOther
        rw [Function.update_self] at hRecord
        obtain rfl := Option.some.inj hRecord
        exact hFlag
      · rw [Function.update_of_ne hOther] at hRecord
        exact h.records other r' hRecord
    · by_cases hOther : other = core
      · subst hOther
        exact ⟨r, by rw [hFile, Function.update_self], hFlag, hRunning hState⟩
      · obtain ⟨r', hRecord, hStartable⟩ := h.running other hState
        exact ⟨r', by rw [hFile, Function.update_of_ne hOther, hRecord], hStartable⟩
  · have hFile : (w.afterWrite core (some r)).file = w.file := if_neg hWritten
    refine ⟨h.flags, fun other r' hRecord => ?_, fun other hState => ?_⟩
    · rw [hFile] at hRecord
      exact h.records other r' hRecord
    · obtain ⟨r', hRecord, hStartable⟩ := h.running other hState
      exact ⟨r', by rw [hFile, hRecord], hStartable⟩

/-- So does the removal of the record of a core that is not running. -/
theorem OnRecord.afterRemove (h : OnRecord w) (core : CoreId) (hNot : w.states core ≠ some .running) :
    OnRecord (w.afterWrite core none) := by
  by_cases hWritten : w.storeReply.written = true
  · have hFile : (w.afterWrite core none).file = Function.update w.file core none := if_pos hWritten
    refine ⟨h.flags, fun other r' hRecord => ?_, fun other hState => ?_⟩
    · rw [hFile] at hRecord
      by_cases hOther : other = core
      · subst hOther
        rw [Function.update_self] at hRecord
        cases hRecord
      · rw [Function.update_of_ne hOther] at hRecord
        exact h.records other r' hRecord
    · have hOther : other ≠ core := fun hEq => hNot (hEq ▸ hState)
      obtain ⟨r', hRecord, hStartable⟩ := h.running other hState
      exact ⟨r', by rw [hFile, Function.update_of_ne hOther, hRecord], hStartable⟩
  · have hFile : (w.afterWrite core none).file = w.file := if_neg hWritten
    refine ⟨h.flags, fun other r' hRecord => ?_, fun other hState => ?_⟩
    · rw [hFile] at hRecord
      exact h.records other r' hRecord
    · obtain ⟨r', hRecord, hStartable⟩ := h.running other hState
      exact ⟨r', by rw [hFile, hRecord], hStartable⟩

/-- A state in memory: `running` only where the record is one to start from. -/
theorem OnRecordAt.withState (h : OnRecordAt core w) {state : CoreState}
    (hRunning : state = .running → StartableOnFile w core) :
    OnRecordAt core (w.withState core state) := by
  refine ⟨⟨fun other hState => ?_, h.records, fun other hState => ?_⟩, h.flag⟩
  · by_cases hOther : other = core
    · subst hOther
      exact h.flag
    · rw [states_withState, if_neg hOther] at hState
      exact h.flags other hState
  · rw [states_withState] at hState
    by_cases hOther : other = core
    · subst hOther
      rw [if_pos rfl] at hState
      exact hRunning (Option.some.inj hState)
    · rw [if_neg hOther] at hState
      exact h.running other hState

/-- `_set_state` -/
theorem OnRecordAt.recorded (h : OnRecordAt core w) (state : CoreState)
    (hRunning : state = .running → StartableOnFile w core) :
    OnRecordAt core (w.recorded core state) := by
  have hState := h.withState hRunning
  have hFlag : (w.enabled core).getD false = true := by rw [h.flag]; rfl
  refine ⟨hState.toOnRecord.afterWrite core hFlag fun hNow => ?_, h.flag⟩
  rw [states_withState, if_pos rfl] at hNow
  show (bootState state).startable = true
  rw [Option.some.inj hNow]
  rfl

theorem OnRecordAt.afterCall (h : OnRecordAt core w) (call : DriverCall) :
    OnRecordAt core (w.afterCall core call) :=
  ⟨⟨h.flags, h.records, h.running⟩, h.flag⟩

/-- A record that was written can be started from, if its state is one of those. -/
theorem startable_recorded (hFlag : w.enabled core = some true) (hStore : w.storeReply = .ok)
    (state : CoreState) (hState : (bootState state).startable = true) :
    StartableOnFile (w.recorded core state) core := by
  refine ⟨_, (file_recorded state).trans (if_pos (congrArg StoreReply.written hStore)), ?_, hState⟩
  rw [hFlag]
  rfl

/-- A record that can be started from stays one, whether or not the write went through. -/
theorem StartableOnFile.recorded (h : StartableOnFile w core) (hFlag : w.enabled core = some true)
    {state : CoreState} (hState : (bootState state).startable = true) :
    StartableOnFile (w.recorded core state) core := by
  by_cases hWritten : w.storeReply.written = true
  · refine ⟨_, (file_recorded state).trans (if_pos hWritten), ?_, hState⟩
    rw [hFlag]
    rfl
  · obtain ⟨r, hRecord, hStartable⟩ := h
    exact ⟨r, ((file_recorded state).trans (if_neg hWritten)).trans hRecord, hStartable⟩

end Steps

-- ---------------------------------------------------------------------------
-- Operations
-- ---------------------------------------------------------------------------

section Operations

variable {env : Environment} {w : World} {core : CoreId}

theorem ends_setState {state : CoreState} {Q : Unit → World → Prop} {E : World → Prop}
    (hQ : w.storeReply = .ok → Q () (w.recorded core state)) (hE : E (w.recorded core state)) :
    Ends (setState core state) w Q E := by
  refine ⟨fun a w' hRun => ?_, fun e w' hRun => ?_⟩
  · rw [setState_run] at hRun
    obtain ⟨hResult, rfl⟩ := Prod.mk.inj hRun
    refine hQ ?_
    by_contra hStore
    obtain ⟨e, hError⟩ := storeReply_error hStore
    rw [hError] at hResult
    cases hResult
  · rw [setState_run] at hRun
    obtain ⟨-, rfl⟩ := Prod.mk.inj hRun
    exact hE

theorem ends_awaitDriver {call : DriverCall} {Q : Unit → World → Prop} {E : World → Prop}
    (hQ : Q () (w.afterCall core call)) (hE : E (w.afterCall core call)) :
    Ends (awaitDriver core call) w Q E := by
  refine ⟨fun a w' hRun => ?_, fun e w' hRun => ?_⟩
  · obtain ⟨-, rfl⟩ := Prod.mk.inj hRun
    exact hQ
  · obtain ⟨-, rfl⟩ := Prod.mk.inj hRun
    exact hE

theorem ends_getDriver {Q : Settings → World → Prop} {E : World → Prop}
    (hQ : ∀ settings, w.drivers core = some settings → Q settings w) (hE : E w) :
    Ends (getDriver core) w Q E := by
  unfold getDriver
  refine Ends.get_bind ?_
  cases hDriver : w.drivers core with
  | some settings => exact Ends.pure (hQ settings hDriver)
  | none => exact Ends.raise hE

theorem ends_recordedState {Q : CoreState → World → Prop} {E : World → Prop}
    (hQ : ∀ state, w.states core = some state → Q state w) (hE : E w) :
    Ends (recordedState core) w Q E := by
  unfold recordedState
  refine Ends.get_bind ?_
  cases hState : w.states core with
  | some state => exact Ends.pure (hQ state hState)
  | none => exact Ends.raise hE

/-- What an operation on a core keeps from any of its awaits to any later one. -/
structure Left (core : CoreId) (w w' : World) : Prop where
  onRecord  : OnRecordAt core w'
  startable : StartableOnFile w core → StartableOnFile w' core
  others    : ∀ other, other ≠ core → w'.file other = w.file other

theorem Left.trans {a b c : World} (hab : Left core a b) (hbc : Left core b c) : Left core a c :=
  ⟨hbc.onRecord, fun h => hbc.startable (hab.startable h),
    fun other hNe => (hbc.others other hNe).trans (hab.others other hNe)⟩

/-- Of what an operation on a core has left behind, any core's record is one to start
from if it was before. -/
theorem Left.startableOnFile {w' : World} (h : Left core w w') {other : CoreId}
    (hFile : StartableOnFile w other) : StartableOnFile w' other := by
  by_cases hEq : other = core
  · subst hEq
    exact h.startable hFile
  · obtain ⟨r, hRecord, hStartable⟩ := hFile
    exact ⟨r, (h.others other hEq).trans hRecord, hStartable⟩

theorem left_recorded (h : OnRecordAt core w) (state : CoreState)
    (hRunning : state = .running → StartableOnFile w core)
    (hState : (bootState state).startable = true) : Left core w (w.recorded core state) where
  onRecord := h.recorded state hRunning
  startable hFile := hFile.recorded h.flag hState
  others _ hNe := (coreRelation_sameAt hNe).afterWrite (w.withState core state) _ |>.file

theorem left_afterCall (h : OnRecordAt core w) (call : DriverCall) :
    Left core w (w.afterCall core call) := ⟨h.afterCall call, id, fun _ _ => rfl⟩

/-- `except Exception: await self._set_state(ERROR); raise` -/
theorem ends_recordError {w0 : World} {Q : Unit → World → Prop} (h : Left core w0 w) (e : Exn) :
    Ends (recordError core e) w Q (Left core w0) := by
  have hError := h.trans (left_recorded h.onRecord .error
    (fun hState => by cases hState) rfl)
  exact Ends.bind (ends_setState (fun _ => Ends.raise hError) hError)

/--
**A transition.** Once it returns, the intermediate state has been written, and
the core can be started from its record. Where it ends early, what could be
started from the file still can.
-/
theorem ends_transition (h : OnRecordAt core w) {intermediate success : CoreState}
    {call : DriverCall} (hNot : intermediate ≠ .running)
    (hIntermediate : (bootState intermediate).startable = true)
    (hSuccess : (bootState success).startable = true) :
    Ends (transition core intermediate success (awaitDriver core call)) w
      (fun _ w' => Left core w w' ∧ StartableOnFile w' core) (Left core w) := by
  have hFirst := left_recorded h intermediate (fun hState => absurd hState hNot) hIntermediate
  refine Ends.bind (ends_setState (fun hStore => ?_) hFirst)
  have hStarting := startable_recorded h.flag hStore intermediate hIntermediate
  have hCalled := hFirst.trans (left_afterCall hFirst.onRecord call)
  refine Ends.bind (Ends.guarded (ends_awaitDriver ?_ ⟨hCalled, ends_recordError hCalled⟩))
  -- the record has not changed since, so `running` is recorded over one to start from
  have hLast := left_recorded hCalled.onRecord success (fun _ => hStarting) hSuccess
  exact ends_setState (fun _ => ⟨hCalled.trans hLast, hLast.startable hStarting⟩)
    (hCalled.trans hLast)

/-- The driver's settings, written under the recorded state. -/
theorem ends_persistSettings (h : OnRecordAt core w) (settings : Settings) :
    Ends (persistSettings core settings) w (fun _ w' => OnRecordAt core w') (OnRecordAt core) := by
  refine Ends.bind (ends_recordedState (fun state hState => Ends.get_bind ?_) h)
  have hFlag : (w.enabled core).getD false = true := by rw [h.flag]; rfl
  have hWritten : OnRecordAt core
      (w.afterWrite core (some ⟨state, (w.enabled core).getD false, settings⟩)) := by
    refine ⟨h.toOnRecord.afterWrite core hFlag fun hNow => ?_, h.flag⟩
    rw [Option.some.inj (hState.symm.trans hNow)]
    rfl
  refine ⟨fun a w' hRun => ?_, fun e w' hRun => ?_⟩
  · obtain ⟨-, rfl⟩ := Prod.mk.inj hRun
    exact hWritten
  · obtain ⟨-, rfl⟩ := Prod.mk.inj hRun
    exact hWritten

theorem ends_startCore (h : OnRecord w) :
    Ends (startCore core) w (fun _ w' => OnRecord w') OnRecord := by
  refine Ends.bind (ends_getDriver (fun settings _ => Ends.get_bind ?_) h)
  cases hEnabled : w.enabled core with
  | none => exact Ends.raise h
  | some enabled =>
    cases enabled with
    | false => exact Ends.raise h
    | true =>
      refine Ends.bind (ends_recordedState (fun state hState => ?_) h)
      split
      · exact Ends.raise h
      split
      · exact Ends.raise h
      have hAt := onRecordAt_of_state h hState
      refine Ends.bind ((ends_transition hAt (by decide) rfl rfl).mono (fun _ w' hLeft => ?_)
        fun _ hLeft => hLeft.onRecord.toOnRecord)
      refine Ends.bind ((ends_persistSettings hLeft.1.onRecord settings).mono
        (fun _ w'' hWritten => ?_) fun _ hWritten => hWritten.toOnRecord)
      have hCalled := (hWritten.afterCall .status).toOnRecord
      exact ends_awaitDriver hCalled hCalled

/-- A stop keeps what can be started from the file as well. -/
theorem ends_stopCore {P : World → Prop} (h : OnRecord w) (hP : ∀ w', Left core w w' → P w')
    (hStay : P w) : Ends (stopCore core) w (fun _ w' => P w') P := by
  refine Ends.bind (ends_getDriver (fun settings _ => ?_) hStay)
  refine Ends.bind (ends_recordedState (fun state hState => ?_) hStay)
  split
  · exact Ends.raise hStay
  have hAt := onRecordAt_of_state h hState
  refine Ends.bind ((ends_transition hAt (by decide) rfl rfl).mono (fun _ w' hLeft => ?_)
    fun w' hLeft => hP w' hLeft)
  have hCalled := hP _ (hLeft.1.trans (left_afterCall hLeft.1.onRecord .status))
  exact ends_awaitDriver hCalled hCalled

theorem ends_restartCore (h : OnRecord w) :
    Ends (restartCore core) w (fun _ w' => OnRecord w') OnRecord := by
  refine Ends.bind (ends_getDriver (fun settings _ => ?_) h)
  refine Ends.bind (ends_recordedState (fun state hState => ?_) h)
  split
  · exact Ends.raise h
  have hStopping := left_recorded (onRecordAt_of_state h hState) .stopping
    (fun hRunning => by cases hRunning) rfl
  refine Ends.bind (ends_setState (fun _ => ?_) hStopping.onRecord.toOnRecord)
  have hStopped := left_afterCall hStopping.onRecord .stop
  refine Ends.bind (ends_awaitDriver ?_ hStopped.onRecord.toOnRecord)
  have hStarting := left_recorded hStopped.onRecord .starting
    (fun hRunning => by cases hRunning) rfl
  refine Ends.bind (ends_setState (fun hStore => ?_) hStarting.onRecord.toOnRecord)
  -- from here the record says `starting`
  have hFile := startable_recorded hStopped.onRecord.flag hStore .starting rfl
  have hCalled := left_afterCall hStarting.onRecord .start
  refine Ends.bind (Ends.guarded (ends_awaitDriver ?_ ⟨hCalled.onRecord.toOnRecord, fun e => ?_⟩))
  · have hRunning := left_recorded hCalled.onRecord .running (fun _ => hFile) rfl
    refine Ends.bind (ends_setState (fun _ => ?_) hRunning.onRecord.toOnRecord)
    refine Ends.bind ((ends_persistSettings hRunning.onRecord settings).mono
      (fun _ w' hWritten => ?_) fun _ hWritten => hWritten.toOnRecord)
    have hProbed := (hWritten.afterCall .status).toOnRecord
    exact ends_awaitDriver hProbed hProbed
  · exact (ends_recordError hCalled e).mono (fun _ _ hNever => hNever)
      fun _ hLeft => hLeft.onRecord.toOnRecord

theorem ends_status (h : OnRecord w) :
    Ends (status core) w (fun _ w' => OnRecord w') OnRecord := by
  refine Ends.bind (ends_getDriver (fun settings _ => ?_) h)
  have hCalled : OnRecord (w.afterCall core .status) := ⟨h.flags, h.records, h.running⟩
  exact Ends.guarded (ends_awaitDriver hCalled ⟨hCalled, fun _ => Ends.pure hCalled⟩)

theorem ends_updateCore (h : OnRecord w) (version : Json) :
    Ends (updateCore core version) w (fun _ w' => OnRecord w') OnRecord := by
  refine Ends.bind (ends_getDriver (fun settings _ => ?_) h)
  have hCalled : OnRecord (w.afterCall core (.update version)) := ⟨h.flags, h.records, h.running⟩
  exact ends_awaitDriver hCalled hCalled

/-- A core that is dropped has neither state nor flag. -/
theorem OnRecord.dropCore (h : OnRecord w) (core : CoreId) : OnRecord (w.dropCore core) := by
  refine ⟨fun other hState => ?_, h.records, fun other hState => ?_⟩
  · by_cases hOther : other = core
    · subst hOther
      exact absurd (by simp [World.dropCore]) hState
    · have hKept : w.states other ≠ none := by simpa [World.dropCore, hOther] using hState
      simpa [World.dropCore, hOther] using h.flags other hKept
  · by_cases hOther : other = core
    · subst hOther
      simp [World.dropCore] at hState
    · exact h.running other (by simpa [World.dropCore, hOther] using hState)

/-- A lifecycle request installs with `enabled=True`. -/
theorem ends_installCore (h : OnRecord w) (settings : Settings) :
    Ends (installCore env core settings true) w (fun _ w' => OnRecord w') OnRecord := by
  unfold installCore
  refine Ends.get_bind ?_
  split
  · exact Ends.raise h
  refine Ends.bind (Ends.modify ?_)
  generalize hAdded : ({ w with
    drivers := Function.update w.drivers core (some (nodeDriverSettings env core settings))
    states := Function.update w.states core (some .loaded)
    enabled := Function.update w.enabled core (some true) } : World) = added
  -- the core is added as loaded, with its flag, and no file knows of it yet
  have hAt : OnRecordAt core added := by
    subst hAdded
    refine ⟨⟨fun other hState => ?_, h.records, fun other hState => ?_⟩, by simp⟩
    · by_cases hOther : other = core
      · subst hOther
        simp
      · have hKept : w.states other ≠ none := by simpa [hOther] using hState
        simpa [hOther] using h.flags other hKept
    · by_cases hOther : other = core
      · subst hOther
        simp at hState
      · exact h.running other (by simpa [hOther] using hState)
  have hCalled := hAt.afterCall .install
  -- past the driver's call: the state, and then the record with it
  have hRest : ∀ w', OnRecordAt core w' → Ends (setState core .installed >>= fun _ =>
      recordedState core >>= fun state =>
        saveState core state true (some (nodeDriverSettings env core settings))) w'
      (fun _ w'' => OnRecord w'') OnRecord := by
    intro w' hAt'
    have hInstalled := hAt'.recorded .installed fun hRunning => by cases hRunning
    refine Ends.bind (ends_setState (fun _ => ?_) hInstalled.toOnRecord)
    refine Ends.bind (ends_recordedState (fun state hState => ?_) hInstalled.toOnRecord)
    have hWritten := hInstalled.toOnRecord.afterWrite core
      (r := ⟨state, true, nodeDriverSettings env core settings⟩) rfl fun hNow => by
        rw [Option.some.inj (hState.symm.trans hNow)]
        rfl
    refine ⟨fun a w'' hRun => ?_, fun e w'' hRun => ?_⟩
    · obtain ⟨-, rfl⟩ := Prod.mk.inj hRun
      exact hWritten
    · obtain ⟨-, rfl⟩ := Prod.mk.inj hRun
      exact hWritten
  refine Ends.bind (Ends.guarded (ends_awaitDriver (hRest _ hCalled)
    ⟨hCalled.toOnRecord, fun e => ?_⟩))
  -- an exception of the driver takes the core out again
  have hDropped : Ends (do
      modify fun w => w.dropCore core
      raise e : Manager Unit) (added.afterCall core .install)
      (fun _ w' => Ends (setState core .installed >>= fun _ => recordedState core >>= fun state =>
        saveState core state true (some (nodeDriverSettings env core settings))) w'
        (fun _ w'' => OnRecord w'') OnRecord) OnRecord :=
    Ends.bind (Ends.modify (Ends.raise (hCalled.toOnRecord.dropCore core)))
  cases e with
  | unsupported => exact Ends.pure (hRest _ hCalled)
  | coreState | coreNotFound | key | driver | store | cancelled => exact hDropped

theorem ends_uninstallCore (h : OnRecord w) (purge force : Bool) :
    Ends (uninstallCore core purge force) w (fun _ w' => OnRecord w') OnRecord := by
  unfold uninstallCore
  refine Ends.get_bind ?_
  split
  · exact Ends.raise h
  refine Ends.bind (ends_getDriver (fun settings _ => ?_) h)
  refine Ends.bind (ends_recordedState (fun state hState => ?_) h)
  have hAt := onRecordAt_of_state h hState
  -- the uninstall proper, from wherever the stop has left the core
  have hRest : ∀ w', OnRecordAt core w' → Ends (do
      guarded Exn.isUnsupported (awaitDriver core (.uninstall purge)) fun _ => pure ()
      setState core .uninstalled
      modify fun w => w.dropCore core
      removeRecord core : Manager Unit) w' (fun _ w'' => OnRecord w'') OnRecord := by
    intro w' hAt'
    have hCalled := hAt'.afterCall (.uninstall purge)
    have hTail : Ends (do
        setState core .uninstalled
        modify fun w => w.dropCore core
        removeRecord core : Manager Unit) (w'.afterCall core (.uninstall purge))
        (fun _ w'' => OnRecord w'') OnRecord := by
      have hGone := hCalled.recorded .uninstalled fun hRunning => by cases hRunning
      refine Ends.bind (ends_setState (fun _ => ?_) hGone.toOnRecord)
      refine Ends.bind (Ends.modify ?_)
      have hRemoved := (hGone.toOnRecord.dropCore core).afterRemove core
        (by simp [World.dropCore])
      refine ⟨fun a w'' hRun => ?_, fun e w'' hRun => ?_⟩
      · obtain ⟨-, rfl⟩ := Prod.mk.inj hRun
        exact hRemoved
      · obtain ⟨-, rfl⟩ := Prod.mk.inj hRun
        exact hRemoved
    exact Ends.bind (Ends.guarded (ends_awaitDriver hTail
      ⟨hCalled.toOnRecord, fun _ => Ends.pure hTail⟩))
  split
  · refine Ends.bind ((ends_transition hAt (by decide) rfl rfl).mono (fun _ w' hLeft => ?_)
      fun _ hLeft => hLeft.onRecord.toOnRecord)
    exact hRest w' hLeft.1.onRecord
  · exact hRest w hAt

end Operations

-- ---------------------------------------------------------------------------
-- The agent
-- ---------------------------------------------------------------------------

section Agent

variable {env : Environment} {w : World}

/--
**A job** keeps the world on record, however it ends: flags are true wherever
there is one, and a core that runs in memory has a record to start from, also
after a cancellation at any await.
-/
theorem onRecord_job (h : OnRecord w) (job : Job) :
    OnRecord ((lifecycleMachine env).next w job) := by
  have hAwaiting : OnRecord (w.awaiting job) := ⟨h.flags, h.records, h.running⟩
  have hProbed : ∀ {x : Manager Unit}, Ends x (w.awaiting job) (fun _ w' => OnRecord w') OnRecord →
      Ends (x >>= fun _ => status job.core) (w.awaiting job) (fun _ w' => OnRecord w') OnRecord :=
    fun hx => Ends.bind (hx.mono (fun _ _ hw => ends_status hw) fun _ hw => hw)
  have hExecute : Ends (execute env job.core job.body) (w.awaiting job)
      (fun _ w' => OnRecord w') OnRecord := by
    unfold execute
    cases job.body.action with
    | install => exact hProbed (ends_installCore hAwaiting job.body.settings)
    | uninstall => exact ends_uninstallCore hAwaiting job.body.purge job.body.force
    | start => exact hProbed (ends_startCore hAwaiting)
    | stop => exact hProbed (ends_stopCore hAwaiting (fun _ hLeft => hLeft.onRecord.toOnRecord)
        hAwaiting)
    | restart => exact hProbed (ends_restartCore hAwaiting)
    | update => exact ends_updateCore hAwaiting _
  show OnRecord (runJob env w job).1
  by_cases hAcquired : job.acquired = true
  · rw [runJob_after hAcquired]
    exact hExecute.after
  · rw [runJob, if_neg hAcquired]
    exact h

/-- What every round of `stop_all` keeps, whichever core it is about. -/
structure Kept (start w : World) : Prop where
  onRecord  : OnRecord w
  startable : ∀ core, StartableOnFile start core → StartableOnFile w core

theorem ends_stopOne {start : World} (hKept : Kept start w) (core : CoreId) :
    Ends (stopOne core) w (fun _ w' => Kept start w') (Kept start) := by
  unfold stopOne
  refine Ends.get_bind ?_
  split
  · have hStop : ∀ w', Left core w w' → Kept start w' := fun w' hLeft =>
      ⟨hLeft.onRecord.toOnRecord,
        fun other hFile => hLeft.startableOnFile (hKept.startable other hFile)⟩
    -- whatever stops the core short of it is swallowed
    refine Ends.guarded ((ends_stopCore hKept.onRecord hStop hKept).mono (fun _ _ hw => hw)
      fun _ hw => ⟨hw, fun _ => Ends.pure hw⟩)
  · exact Ends.pure hKept

/--
**A stop of the agent**, killed or graceful, keeps the world on record and
every core that can be started from the file one that can. Killed it writes
nothing; gracefully it stops core after core, and each round keeps this
wherever it ends.
-/
theorem kept_shutdown (h : OnRecord w) (stop : Option Replies) : Kept w (shutdown stop w) := by
  cases stop with
  | none => exact ⟨h, fun _ hFile => hFile⟩
  | some r =>
    have hReplies : Kept w (w.withReplies r) :=
      ⟨⟨h.flags, h.records, h.running⟩, fun _ hFile => hFile⟩
    have hLoop : Ends stopAll (w.withReplies r) (fun _ w' => Kept w w') (Kept w) :=
      Ends.get_bind (Ends.forEach (Kept w) (fun core _ _ hKept => ends_stopOne hKept core) hReplies)
    exact hLoop.after

/-- What a stop does to the file does not matter for what can be started from it: a core
that is running could be started before, and any other is left alone. -/
theorem shutdown_startable (h : OnRecord w) (stop : Option Replies) (core : CoreId) :
    StartableOnFile (shutdown stop w) core ↔ StartableOnFile w core := by
  refine ⟨fun hFile => ?_, (kept_shutdown h stop).startable core⟩
  by_cases hRunning : w.states core = some .running
  · exact h.running core hRunning
  · unfold StartableOnFile at hFile
    rwa [shutdown_file stop w hRunning] at hFile

theorem ends_startOne (h : OnRecord w) (core : CoreId) :
    Ends (startOne core) w (fun _ w' => OnRecord w') OnRecord := by
  unfold startOne
  refine Ends.get_bind ?_
  split
  · exact Ends.guarded ((ends_startCore h).mono (fun _ _ hw => hw)
      fun _ hw => ⟨hw, fun _ => Ends.pure hw⟩)
  · exact Ends.pure h

/-- `boot` takes states and flags from the same records, and trusts no `running`. -/
theorem onRecord_boot (h : OnRecord w) : OnRecord (boot env w) where
  flags core hState := by
    cases hRecord : w.file core with
    | none => exact absurd (by simp [boot, hRecord]) hState
    | some r => simp [boot, hRecord, h.records core r hRecord]
  records := h.records
  running core hState := by
    have hBoot : (w.file core).map (fun r => bootState r.state) = some .running := hState
    obtain ⟨r, -, hNever⟩ := Option.map_eq_some_iff.mp hBoot
    cases hRecord : r.state <;> simp [bootState, hRecord] at hNever

/--
**A start of the agent.** The memory is built from `cores.json`, so the new
world is on record whatever the awaits of the start-up return.
-/
theorem onRecord_reboot (h : OnRecord w) (r : Replies) : OnRecord (reboot env r w) := by
  have hBoot : OnRecord (boot env w) := onRecord_boot h
  have hReplies : OnRecord ((boot env w).withReplies r) :=
    ⟨hBoot.flags, hBoot.records, hBoot.running⟩
  have hLoop : Ends startEnabled ((boot env w).withReplies r) (fun _ w' => OnRecord w') OnRecord :=
    Ends.get_bind (Ends.forEach OnRecord (fun core _ _ hw => ends_startOne hw core) hReplies)
  exact hLoop.after

theorem onRecord_exec (h : OnRecord w) (jobs : List Job) :
    OnRecord ((lifecycleMachine env).exec w jobs) := by
  induction jobs generalizing w with
  | nil => exact h
  | cons job rest ih => exact ih (onRecord_job h job)

end Agent

-- ---------------------------------------------------------------------------
-- The history of an agent
-- ---------------------------------------------------------------------------

/-- What a completed action leaves of a core: running, not running, or (`update`) as it
was. -/
def Action.leavesRunning : Action → Option Bool
  | .start | .restart             => some true
  | .stop | .install | .uninstall => some false
  | .update                       => none

/-- A job that completed: the core it was for, and the action. -/
structure Completed where
  core   : CoreId
  action : Action

/-- The jobs of one lifetime that complete, in their order: those whose operation
returns. -/
def jobLog (env : Environment) : World → List Job → List Completed
  | _, []          => []
  | w, job :: rest =>
    let later := jobLog env ((lifecycleMachine env).next w job) rest
    if (lifecycleMachine env).out w job = .succeeded then ⟨job.core, job.body.action⟩ :: later
    else later

/-- One lifetime of the agent and the start of the next: the jobs it runs, the way it
stops, and what the awaits of the start return. -/
structure Lifetime where
  jobs  : List Job
  stop  : Option Replies
  start : Replies

/-- An agent over its lifetimes. What it puts out is the log of the jobs. -/
def agentMachine (env : Environment) : Machine World Lifetime (List Completed) :=
  ⟨fun w life => (reboot env life.start (shutdown life.stop
    ((lifecycleMachine env).exec w life.jobs)), jobLog env w life.jobs)⟩

/-- Installed with no cores, and started again after each lifetime. -/
def agentAfter (env : Environment) (lives : List Lifetime) : World :=
  (agentMachine env).exec World.empty lives

/-- What a last lifetime with these jobs leaves, before the agent stops. -/
def agentLeft (env : Environment) (lives : List Lifetime) (jobs : List Job) : World :=
  (lifecycleMachine env).exec (agentAfter env lives) jobs

/-- All jobs that ever completed, the ones of this lifetime included. -/
def history (env : Environment) (lives : List Lifetime) (jobs : List Job) : List Completed :=
  ((agentMachine env).log World.empty lives).flatten ++ jobLog env (agentAfter env lives) jobs

/-- The last action of the core that says something about it has left it running. -/
def leftRunning (core : CoreId) (done : List Completed) : Bool :=
  done.foldl (fun running job =>
    if job.core = core then job.action.leavesRunning.getD running else running) false

theorem onRecord_agentAfter (env : Environment) (lives : List Lifetime) :
    OnRecord (agentAfter env lives) := by
  unfold agentAfter
  generalize hStart : World.empty = w
  have hOnRecord : OnRecord w := hStart ▸ onRecord_empty
  clear hStart
  induction lives generalizing w with
  | nil => exact hOnRecord
  | cons life rest ih =>
    have hExec : OnRecord ((lifecycleMachine env).exec w life.jobs) :=
      onRecord_exec hOnRecord life.jobs
    have hStopped := kept_shutdown hExec life.stop
    exact ih _ (onRecord_reboot hStopped.onRecord life.start)

-- ---------------------------------------------------------------------------
-- Run intent
-- ---------------------------------------------------------------------------

/-- What a start of the agent starts is on file when the jobs end, as far as the stop
does not matter to it. -/
theorem startsOnly_iff (env : Environment) {left : World} {stop : Option Replies}
    {Meant : CoreId → Prop} (hStop : ∀ core, ¬ Meant core →
      (StartableOnFile (shutdown stop left) core ↔ StartableOnFile left core)) :
    (∀ r core, RunsAgain (reboot env r (shutdown stop left)) core → Meant core) ↔
      ∀ core, StartableOnFile left core → Meant core := by
  constructor
  · intro hIntent core hStartable
    by_contra hNot
    obtain ⟨r, hRuns⟩ := (reboot_runsAgain env (shutdown stop left) core).mpr
      ((hStop core hNot).mpr hStartable)
    exact hNot (hIntent r core hRuns)
  · intro hMeant r core hRuns
    by_contra hNot
    exact hNot (hMeant core ((hStop core hNot).mp
      ((reboot_runsAgain env (shutdown stop left) core).mp ⟨r, hRuns⟩)))

/-- By the states in memory, and from any world: only cores that are running when the
jobs end are started again exactly when no other has a record to start from. -/
theorem recordedIntent_iff (env : Environment) (w : World) (jobs : List Job)
    (stop : Option Replies) :
    (∀ r core, RunsAgain (reboot env r (shutdown stop ((lifecycleMachine env).exec w jobs))) core →
        ((lifecycleMachine env).exec w jobs).states core = some .running) ↔
      ∀ core, StartableOnFile ((lifecycleMachine env).exec w jobs) core →
        ((lifecycleMachine env).exec w jobs).states core = some .running := by
  refine startsOnly_iff env fun core hNot => ?_
  unfold StartableOnFile
  rw [shutdown_file stop _ hNot]

/--
**Run intent.** An agent has been through any lifetimes, has run any jobs since, and
stops in any way. Whatever the awaits of its next start return, that start starts only
cores whose last completed lifecycle action left them running **if and only if**
every core that `cores.json`, as the jobs leave it, has an enabled record to start
from was left running so.
-/
theorem intent_iff (env : Environment) (lives : List Lifetime) (jobs : List Job)
    (stop : Option Replies) :
    (∀ r core, RunsAgain (reboot env r (shutdown stop (agentLeft env lives jobs))) core →
        leftRunning core (history env lives jobs) = true) ↔
      ∀ core, StartableOnFile (agentLeft env lives jobs) core →
        leftRunning core (history env lives jobs) = true :=
  startsOnly_iff env fun core _ =>
    shutdown_startable (onRecord_exec (onRecord_agentAfter env lives) jobs) stop core

-- ---------------------------------------------------------------------------
-- A stopped core that runs again
-- ---------------------------------------------------------------------------

/-- Install, start and stop, all successful. -/
def stoppedOnPurpose : List Job := [sshJob .install [], sshJob .start [], sshJob .stop []]

/-- A new agent that is stopped gracefully and started again: the last action of the
core was `stop`, and it runs. -/
theorem stopped_core_runs_again :
    leftRunning .ssh (history defaultEnvironment [] stoppedOnPurpose) = false ∧
      (reboot defaultEnvironment ⟨[], []⟩ (shutdown (some ⟨[], []⟩)
        (agentLeft defaultEnvironment [] stoppedOnPurpose))).states .ssh = some .running := by
  decide

end ZagrosNode.Cores
