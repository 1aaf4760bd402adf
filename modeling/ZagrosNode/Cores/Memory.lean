import ZagrosNode.Cores.Manager

/-!
# ZagrosNode — what the manager's operations do to its memory

For every operation of `CoreManager` and every reply of its awaits, the three
dictionaries it leaves behind. A step rule for each await says what follows
runs exactly if the await returned, so that an operation is read off its text
from the top down.

For every operation there is a predicate that says when the driver is reached
(`CanStart`, `CanStop`, `CanRestart`), a function that gives the recorded state
afterwards from the replies (`transitionState`, `restartState`), and a theorem that
ties the two to the operation. Where the driver is not reached the operation has
left everything as it was (`…_refused`).

The work is in the step rules. `x` before `rest` is looked at as what `x` has made of
memory and whether it returned, and then `rest` runs from there or does not run at
all. Reading computations keep memory (`Keeps`) and drop out. `_transition` is the one
place where an exception is caught and re-raised, and `transition_bind_memory` has its
four cases: the intermediate state not saved, the call cancelled, the call failed, the
call done.

Main results:

* `transition_bind_memory` — the step rule of `_transition`.
* `startCore_memory_of_canStart`, `stopCore_memory_of_canStop`,
  `restartCore_memory_of_canRestart`, `installCore_memory`,
  `uninstallCore_memory` — the operations.
-/

namespace ZagrosNode.Cores

open ZagrosNode.Lib Op

/-- The three dictionaries of the manager. -/
structure Memory where
  drivers : CoreId → Option Settings
  states  : CoreId → Option CoreState
  enabled : CoreId → Option Bool

def World.memory (w : World) : Memory := ⟨w.drivers, w.states, w.enabled⟩

namespace Memory

def withState (m : Memory) (core : CoreId) (state : CoreState) : Memory :=
  { m with states := Function.update m.states core (some state) }

def addCore (m : Memory) (core : CoreId) (settings : Settings) (enabled : Bool)
    (state : CoreState) : Memory :=
  { drivers := Function.update m.drivers core (some settings)
    states := Function.update m.states core (some state)
    enabled := Function.update m.enabled core (some enabled) }

def dropCore (m : Memory) (core : CoreId) : Memory :=
  { drivers := Function.update m.drivers core none
    states := Function.update m.states core none
    enabled := Function.update m.enabled core none }

@[simp] theorem withState_withState (m : Memory) (core : CoreId) (s t : CoreState) :
    (m.withState core s).withState core t = m.withState core t := by
  simp [withState]

@[simp] theorem dropCore_withState (m : Memory) (core : CoreId) (s : CoreState) :
    (m.withState core s).dropCore core = m.dropCore core := by
  simp [withState, dropCore]

@[simp] theorem withState_addCore (m : Memory) (core : CoreId) (settings : Settings)
    (enabled : Bool) (s t : CoreState) :
    (m.addCore core settings enabled s).withState core t = m.addCore core settings enabled t := by
  simp [withState, addCore]

@[simp] theorem dropCore_addCore (m : Memory) (core : CoreId) (settings : Settings)
    (enabled : Bool) (s : CoreState) :
    (m.addCore core settings enabled s).dropCore core = m.dropCore core := by
  simp [dropCore, addCore]

end Memory

@[simp] theorem memory_afterCall (w : World) (core : CoreId) (call : DriverCall) :
    (w.afterCall core call).memory = w.memory := rfl

@[simp] theorem memory_afterWrite (w : World) (core : CoreId) (record : Option Record) :
    (w.afterWrite core record).memory = w.memory := rfl

@[simp] theorem memory_withState (w : World) (core : CoreId) (state : CoreState) :
    (w.withState core state).memory = w.memory.withState core state := rfl

@[simp] theorem memory_dropCore (w : World) (core : CoreId) :
    (w.dropCore core).memory = w.memory.dropCore core := rfl

/-- A computation that leaves the manager's memory as it is. -/
def Keeps {α : Type} (x : Manager α) : Prop := Steps (fun w w' => w'.memory = w.memory) x

theorem keeps_pure {α : Type} (a : α) : Keeps (pure a : Manager α) := fun _ => rfl

theorem keeps_raise {α : Type} (e : Exn) : Keeps (raise e : Manager α) := fun _ => rfl

theorem keeps_awaitDriver (core : CoreId) (call : DriverCall) : Keeps (awaitDriver core call) :=
  fun _ => rfl

theorem keeps_saveState (core : CoreId) (state : CoreState) (enabled : Bool)
    (settings : Option Settings) : Keeps (saveState core state enabled settings) := fun _ => rfl

theorem keeps_bind {α β : Type} {x : Manager α} {f : α → Manager β} (hx : Keeps x)
    (hf : ∀ a, Keeps (f a)) : Keeps (x >>= f) :=
  Steps.bind (fun hab hbc => hbc.trans hab) hx hf

theorem keeps_get_bind {β : Type} {f : World → Manager β} (hf : ∀ w, Keeps (f w)) :
    Keeps (Op.get >>= f) := Steps.get_bind hf

/-- What follows a computation does not matter to the memory if it keeps it. -/
theorem memory_bind {α β : Type} {x : Manager α} {f : α → Manager β} (hf : ∀ a, Keeps (f a))
    (w : World) : ((x >>= f).after w).memory = (x.after w).memory := by
  unfold Op.after
  rw [Op.run_bind]
  cases hRun : x.run w with
  | mk result w' =>
    cases result with
    | ok a => exact hf a w'
    | error e => rfl

theorem keeps_getDriver (core : CoreId) : Keeps (getDriver core) := by
  apply keeps_get_bind
  intro w
  cases w.drivers core with
  | some settings => exact keeps_pure settings
  | none => exact keeps_raise _

theorem keeps_recordedState (core : CoreId) : Keeps (recordedState core) := by
  apply keeps_get_bind
  intro w
  cases w.states core with
  | some state => exact keeps_pure state
  | none => exact keeps_raise _

theorem keeps_persistSettings (core : CoreId) (settings : Settings) :
    Keeps (persistSettings core settings) :=
  keeps_bind (keeps_recordedState core) fun state =>
    keeps_get_bind fun _ => keeps_saveState core state _ _

theorem keeps_status (core : CoreId) : Keeps (status core) :=
  keeps_bind (keeps_getDriver core) fun _ =>
    Steps.guarded (fun hab hbc => hbc.trans hab) (keeps_awaitDriver core .status)
      fun _ => keeps_pure ()

theorem keeps_updateCore (core : CoreId) (version : Json) : Keeps (updateCore core version) :=
  keeps_bind (keeps_getDriver core) fun _ => keeps_awaitDriver core _

/-- The world after `_set_state`. -/
def World.recorded (w : World) (core : CoreId) (state : CoreState) : World :=
  (w.withState core state).afterWrite core
    (some ⟨state, (w.enabled core).getD false, ((w.file core).map Record.settings).getD []⟩)

@[simp] theorem memory_recorded (w : World) (core : CoreId) (state : CoreState) :
    (w.recorded core state).memory = w.memory.withState core state := rfl

@[simp] theorem storeReply_afterCall (w : World) (core : CoreId) (call : DriverCall) :
    (w.afterCall core call).storeReply = w.storeReply := rfl

theorem driverReply_afterCall (w : World) (core : CoreId) (call : DriverCall) :
    (w.afterCall core call).driverReply = w.driverReplyAt 1 := by
  unfold World.driverReply World.driverReplyAt World.afterCall
  rw [List.drop_zero, List.drop_one]

theorem storeReplyAt_recorded (w : World) (core : CoreId) (state : CoreState) (n : Nat) :
    (w.recorded core state).storeReplyAt n = w.storeReplyAt (n + 1) := by
  unfold World.storeReplyAt World.recorded World.afterWrite World.withState
  rw [List.drop_tail]

theorem storeReply_recorded (w : World) (core : CoreId) (state : CoreState) :
    (w.recorded core state).storeReply = w.storeReplyAt 1 := storeReplyAt_recorded w core state 0

@[simp] theorem driverReply_recorded (w : World) (core : CoreId) (state : CoreState) :
    (w.recorded core state).driverReply = w.driverReply := rfl

theorem setState_run (core : CoreId) (state : CoreState) (w : World) :
    (setState core state).run w = (w.storeReply.result, w.recorded core state) := rfl

theorem awaitDriver_run (core : CoreId) (call : DriverCall) (w : World) :
    (awaitDriver core call).run w = (w.driverReply.result, w.afterCall core call) := rfl

theorem storeReply_error {reply : StoreReply} (h : reply ≠ .ok) :
    ∃ e, reply.result = .error e := by
  cases reply with
  | ok => exact absurd rfl h
  | raised => exact ⟨_, rfl⟩
  | cancelled written => exact ⟨_, rfl⟩

theorem driverReply_error {reply : DriverReply} (h : reply ≠ .ok) :
    ∃ e, reply.result = .error e := by
  cases reply with
  | ok => exact absurd rfl h
  | unsupported => exact ⟨_, rfl⟩
  | raised => exact ⟨_, rfl⟩
  | cancelled => exact ⟨_, rfl⟩

/--
**Step rule for `_set_state`.** The state is recorded in memory in any case;
what follows runs exactly if the store write returned. So a write that fails
leaves memory ahead of the file.
-/
theorem setState_bind_memory {α : Type} (core : CoreId) (state : CoreState)
    (f : Unit → Manager α) (w : World) :
    ((setState core state >>= f).after w).memory =
      if w.storeReply = .ok then ((f ()).after (w.recorded core state)).memory
      else w.memory.withState core state := by
  unfold Op.after
  by_cases hStore : w.storeReply = .ok
  · rw [if_pos hStore, Op.run_bind_ok (by rw [setState_run, hStore]; rfl)]
  · obtain ⟨e, hResult⟩ := storeReply_error hStore
    rw [if_neg hStore, Op.run_bind_error (by rw [setState_run, hResult])]
    rfl

/--
**Step rule for an unguarded driver call.** A call that raises or is cancelled
ends the operation with the memory it had; one that returns changes no memory
of its own.
-/
theorem awaitDriver_bind_memory {α : Type} (core : CoreId) (call : DriverCall)
    (f : Unit → Manager α) (w : World) :
    ((awaitDriver core call >>= f).after w).memory =
      if w.driverReply = .ok then ((f ()).after (w.afterCall core call)).memory
      else w.memory := by
  unfold Op.after
  by_cases hDriver : w.driverReply = .ok
  · rw [if_pos hDriver, Op.run_bind_ok (by rw [awaitDriver_run, hDriver]; rfl)]
  · obtain ⟨e, hResult⟩ := driverReply_error hDriver
    rw [if_neg hDriver, Op.run_bind_error (by rw [awaitDriver_run, hResult])]
    rfl

theorem recordError_run (core : CoreId) (e : Exn) (w : World) :
    ∃ e', (recordError core e).run w = (.error e', w.recorded core .error) := by
  unfold recordError
  by_cases hStore : w.storeReply = .ok
  · refine ⟨e, ?_⟩
    rw [Op.run_bind_ok (by rw [setState_run, hStore]; rfl)]
    rfl
  · obtain ⟨e', hResult⟩ := storeReply_error hStore
    exact ⟨e', Op.run_bind_error (by rw [setState_run, hResult])⟩

/-- **Step rule for a guarded driver call.** A cancelled call changes nothing,
any other failure records `error`, and what follows runs only after a call that
returned. -/
theorem guardedCall_bind_memory {α : Type} (core : CoreId) (call : DriverCall)
    (f : Unit → Manager α) (w : World) :
    ((guarded Exn.isException (awaitDriver core call) (recordError core) >>= f).after w).memory =
      match w.driverReply with
      | .ok        => ((f ()).after (w.afterCall core call)).memory
      | .cancelled => w.memory
      | _          => w.memory.withState core .error := by
  have hCall := awaitDriver_run core call w
  unfold Op.after
  -- by the answer of the driver; both kinds of failure are recorded
  cases hReply : w.driverReply with
  | ok =>
    rw [hReply] at hCall
    rw [Op.run_bind_ok (Op.run_guarded_ok hCall)]
  | cancelled =>
    rw [hReply] at hCall
    rw [Op.run_bind_error (Op.run_guarded_error hCall)]
    rfl
  | unsupported =>
    rw [hReply] at hCall
    obtain ⟨e, hHandler⟩ := recordError_run core .unsupported (w.afterCall core call)
    have hGuarded : (guarded Exn.isException (awaitDriver core call) (recordError core)).run w =
        (.error e, (w.afterCall core call).recorded core .error) :=
      (Op.run_guarded_error hCall).trans hHandler
    rw [Op.run_bind_error hGuarded]
    rfl
  | raised =>
    rw [hReply] at hCall
    obtain ⟨e, hHandler⟩ := recordError_run core .driver (w.afterCall core call)
    have hGuarded : (guarded Exn.isException (awaitDriver core call) (recordError core)).run w =
        (.error e, (w.afterCall core call).recorded core .error) :=
      (Op.run_guarded_error hCall).trans hHandler
    rw [Op.run_bind_error hGuarded]
    rfl

/-- Where `_transition` leaves the recorded state: if the intermediate state
could not be saved, or the action was cancelled, the intermediate state stays;
if the action raised, it is `error`; otherwise the success state. -/
def transitionState (w : World) (intermediate success : CoreState) : CoreState :=
  if w.storeReply = .ok then
    match w.driverReply with
    | .ok        => success
    | .cancelled => intermediate
    | _          => .error
  else intermediate

/--
**Step rule for `_transition`.** What follows runs exactly if the action and
both writes returned. Otherwise the core is left in the intermediate state, in
`error`, or in the state of success that was not written, by where it ended.
-/
theorem transition_bind_memory {α : Type} (core : CoreId) (intermediate success : CoreState)
    (call : DriverCall) (f : Unit → Manager α) (w : World) :
    ((transition core intermediate success (awaitDriver core call) >>= f).after w).memory =
      if w.storeReply = .ok ∧ w.driverReply = .ok ∧ w.storeReplyAt 1 = .ok then
        ((f ()).after (((w.recorded core intermediate).afterCall core call).recorded core
          success)).memory
      else w.memory.withState core (transitionState w intermediate success) := by
  have hAssoc : transition core intermediate success (awaitDriver core call) >>= f =
      (setState core intermediate >>= fun _ =>
        guarded Exn.isException (awaitDriver core call) (recordError core) >>= fun _ =>
          setState core success >>= f) := by
    unfold transition
    simp only [Op.bind_assoc]
  rw [hAssoc, setState_bind_memory, guardedCall_bind_memory, setState_bind_memory,
    driverReply_recorded, storeReply_afterCall, storeReply_recorded]
  by_cases hStore : w.storeReply = .ok
  · cases hReply : w.driverReply with
    | ok =>
      by_cases hSecond : w.storeReplyAt 1 = .ok
      · simp [hStore, hSecond]
      · simp [hStore, hSecond, transitionState, hReply]
    | cancelled => simp [hStore, transitionState, hReply]
    | unsupported => simp [hStore, transitionState, hReply]
    | raised => simp [hStore, transitionState, hReply]
  · simp [hStore, transitionState]

/-- `_transition` with nothing after it that touches the memory. -/
theorem transition_memory {α : Type} (core : CoreId) (intermediate success : CoreState)
    (call : DriverCall) {f : Unit → Manager α} (hf : Keeps (f ())) (w : World) :
    ((transition core intermediate success (awaitDriver core call) >>= f).after w).memory =
      w.memory.withState core (transitionState w intermediate success) := by
  rw [transition_bind_memory]
  by_cases hAll : w.storeReply = .ok ∧ w.driverReply = .ok ∧ w.storeReplyAt 1 = .ok
  · rw [if_pos hAll, hf]
    simp [transitionState, hAll]
  · rw [if_neg hAll]

-- ---------------------------------------------------------------------------
-- What each operation does to the memory
-- ---------------------------------------------------------------------------

/-- `start_core` reaches the driver. -/
def CanStart (w : World) (core : CoreId) : Prop :=
  (w.drivers core).isSome ∧ w.enabled core = some true ∧
    ∃ state, w.states core = some state ∧ state.startable = true

/-- `stop_core` reaches the driver. -/
def CanStop (w : World) (core : CoreId) : Prop :=
  (w.drivers core).isSome ∧ ∃ state, w.states core = some state ∧ state.stoppable = true

/-- `restart_core` reaches the driver. -/
def CanRestart (w : World) (core : CoreId) : Prop :=
  (w.drivers core).isSome ∧ w.states core = some .running

theorem getDriver_run_some {core : CoreId} {w : World} {settings : Settings}
    (h : w.drivers core = some settings) : (getDriver core).run w = (.ok settings, w) := by
  simp [getDriver, h]

theorem getDriver_run_none {core : CoreId} {w : World} (h : w.drivers core = none) :
    (getDriver core).run w = (.error (.coreNotFound core), w) := by
  simp [getDriver, h]

theorem recordedState_run_some {core : CoreId} {w : World} {state : CoreState}
    (h : w.states core = some state) : (recordedState core).run w = (.ok state, w) := by
  simp [recordedState, h]

theorem recordedState_run_none {core : CoreId} {w : World} (h : w.states core = none) :
    (recordedState core).run w = (.error (.key core), w) := by
  simp [recordedState, h]

theorem startCore_memory_of_canStart {core : CoreId} {w : World} (h : CanStart w core) :
    ((startCore core).after w).memory =
      w.memory.withState core (transitionState w .starting .running) := by
  obtain ⟨hDriver, hEnabled, state, hState, hStartable⟩ := h
  obtain ⟨settings, hDriver⟩ := Option.isSome_iff_exists.mp hDriver
  have hNotRunning : state ≠ .running := by
    rintro rfl
    cases hStartable
  have hRun : (startCore core).run w =
      (do transition core .starting .running (awaitDriver core .start)
          persistSettings core settings
          awaitDriver core .status : Manager Unit).run w := by
    unfold startCore
    rw [Op.run_bind_ok (getDriver_run_some hDriver), Op.run_get_bind]
    simp only [hEnabled]
    rw [Op.run_bind_ok (recordedState_run_some hState), if_neg hNotRunning, hStartable]
    rfl
  rw [Op.after, hRun]
  exact transition_memory core .starting .running .start
    (keeps_bind (keeps_persistSettings core settings) fun _ => keeps_awaitDriver core .status) w

theorem startCore_refused {core : CoreId} {w : World} (h : ¬ CanStart w core) :
    ∃ e, (startCore core).run w = (.error e, w) ∧ e.isException = true := by
  unfold startCore
  -- the checks in their order, each of which may refuse
  cases hDriver : w.drivers core with
  | none => exact ⟨_, Op.run_bind_error (getDriver_run_none hDriver), rfl⟩
  | some settings =>
    rw [Op.run_bind_ok (getDriver_run_some hDriver), Op.run_get_bind]
    cases hEnabled : w.enabled core with
    | none => exact ⟨_, rfl, rfl⟩
    | some enabled =>
      cases enabled with
      | false => exact ⟨_, rfl, rfl⟩
      | true =>
        cases hState : w.states core with
        | none => exact ⟨_, Op.run_bind_error (recordedState_run_none hState), rfl⟩
        | some state =>
          simp only
          rw [Op.run_bind_ok (recordedState_run_some hState)]
          by_cases hRunning : state = .running
          · rw [if_pos hRunning]
            exact ⟨_, rfl, rfl⟩
          · rw [if_neg hRunning]
            cases hStartable : state.startable with
            | false => exact ⟨_, rfl, rfl⟩
            | true =>
              exact absurd ⟨by simp [hDriver], hEnabled, state, hState, hStartable⟩ h

theorem stopCore_memory_of_canStop {core : CoreId} {w : World} (h : CanStop w core) :
    ((stopCore core).after w).memory =
      w.memory.withState core (transitionState w .stopping .stopped) := by
  obtain ⟨hDriver, state, hState, hStoppable⟩ := h
  obtain ⟨settings, hDriver⟩ := Option.isSome_iff_exists.mp hDriver
  have hRun : (stopCore core).run w =
      (do transition core .stopping .stopped (awaitDriver core .stop)
          awaitDriver core .status : Manager Unit).run w := by
    unfold stopCore
    rw [Op.run_bind_ok (getDriver_run_some hDriver), Op.run_bind_ok (recordedState_run_some hState),
      hStoppable]
    rfl
  rw [Op.after, hRun]
  exact transition_memory core .stopping .stopped .stop (keeps_awaitDriver core .status) w

theorem stopCore_refused {core : CoreId} {w : World} (h : ¬ CanStop w core) :
    ∃ e, (stopCore core).run w = (.error e, w) := by
  unfold stopCore
  cases hDriver : w.drivers core with
  | none => exact ⟨_, Op.run_bind_error (getDriver_run_none hDriver)⟩
  | some settings =>
    rw [Op.run_bind_ok (getDriver_run_some hDriver)]
    cases hState : w.states core with
    | none => exact ⟨_, Op.run_bind_error (recordedState_run_none hState)⟩
    | some state =>
      rw [Op.run_bind_ok (recordedState_run_some hState)]
      cases hStoppable : state.stoppable with
      | false => exact ⟨_, rfl⟩
      | true => exact absurd ⟨by simp [hDriver], state, hState, hStoppable⟩ h

/-- Where `restart_core` leaves the recorded state: the stop is outside any
`try`, so an exception there leaves `stopping`. -/
def restartState (w : World) : CoreState :=
  if w.storeReply = .ok ∧ w.driverReply = .ok then
    if w.storeReplyAt 1 = .ok then
      match w.driverReplyAt 1 with
      | .ok        => .running
      | .cancelled => .starting
      | _          => .error
    else .starting
  else .stopping

theorem restartCore_memory_of_canRestart {core : CoreId} {w : World} (h : CanRestart w core) :
    ((restartCore core).after w).memory = w.memory.withState core (restartState w) := by
  obtain ⟨hDriver, hState⟩ := h
  obtain ⟨settings, hDriver⟩ := Option.isSome_iff_exists.mp hDriver
  have hRun : (restartCore core).run w =
      (do setState core .stopping
          awaitDriver core .stop
          setState core .starting
          guarded Exn.isException (awaitDriver core .start) (recordError core)
          setState core .running
          persistSettings core settings
          awaitDriver core .status : Manager Unit).run w := by
    unfold restartCore
    rw [Op.run_bind_ok (getDriver_run_some hDriver), Op.run_bind_ok (recordedState_run_some hState)]
    rfl
  rw [Op.after, hRun, ← Op.after, setState_bind_memory, awaitDriver_bind_memory,
    setState_bind_memory, guardedCall_bind_memory]
  -- the replies the later awaits consume, and the bookkeeping at the end
  have hStop : (w.recorded core .stopping).driverReply = w.driverReply := rfl
  have hStore : ((w.recorded core .stopping).afterCall core .stop).storeReply =
      w.storeReplyAt 1 := storeReply_recorded w core .stopping
  have hStart : (((w.recorded core .stopping).afterCall core .stop).recorded core
      .starting).driverReply = w.driverReplyAt 1 :=
    driverReply_afterCall (w.recorded core .stopping) core .stop
  have hTail : ∀ w', ((do setState core .running
                          persistSettings core settings
                          awaitDriver core .status : Manager Unit).after w').memory =
      w'.memory.withState core .running := by
    intro w'
    exact memory_bind (fun _ => keeps_bind (keeps_persistSettings core settings)
      fun _ => keeps_awaitDriver core .status) w'
  rw [hStop, hStore, hStart, hTail]
  by_cases hStore0 : w.storeReply = .ok
  · by_cases hDriver0 : w.driverReply = .ok
    · by_cases hStore1 : w.storeReplyAt 1 = .ok
      · cases hDriver1 : w.driverReplyAt 1 <;>
          simp [restartState, hStore0, hDriver0, hStore1, hDriver1]
      · simp [restartState, hStore0, hDriver0, hStore1]
    · simp [restartState, hStore0, hDriver0]
  · simp [restartState, hStore0]

theorem restartCore_refused {core : CoreId} {w : World} (h : ¬ CanRestart w core) :
    ∃ e, (restartCore core).run w = (.error e, w) := by
  unfold restartCore
  cases hDriver : w.drivers core with
  | none => exact ⟨_, Op.run_bind_error (getDriver_run_none hDriver)⟩
  | some settings =>
    rw [Op.run_bind_ok (getDriver_run_some hDriver)]
    cases hState : w.states core with
    | none => exact ⟨_, Op.run_bind_error (recordedState_run_none hState)⟩
    | some state =>
      rw [Op.run_bind_ok (recordedState_run_some hState)]
      by_cases hRunning : state = .running
      · exact absurd ⟨by simp [hDriver], by rw [hState, hRunning]⟩ h
      · rw [if_pos hRunning]
        exact ⟨_, rfl⟩

/-- What `install_core` leaves in memory when the core is not installed yet. -/
def installMemory (env : Environment) (core : CoreId) (settings : Settings) (enabled : Bool)
    (w : World) : Memory :=
  match w.driverReply with
  | .ok | .unsupported =>
    w.memory.addCore core (nodeDriverSettings env core settings) enabled .installed
  | .raised    => w.memory.dropCore core
  | .cancelled => w.memory.addCore core (nodeDriverSettings env core settings) enabled .loaded

theorem installCore_refused {env : Environment} {core : CoreId} {settings : Settings}
    {enabled : Bool} {w : World} (h : (w.drivers core).isSome = true) :
    ∃ e, (installCore env core settings enabled).run w = (.error e, w) := by
  unfold installCore
  rw [Op.run_get_bind, if_pos h]
  exact ⟨_, rfl⟩

/--
**Step rule for the install call.** An exception takes the new core back out of
memory; a cancellation is none, and leaves it there.
-/
theorem installCall_bind_memory {α : Type} (core : CoreId) (f : Unit → Manager α) (w : World) :
    ((guarded Exn.isException (awaitDriver core .install) (abandonInstall core) >>= f).after
        w).memory =
      match w.driverReply with
      | .ok | .unsupported => ((f ()).after (w.afterCall core .install)).memory
      | .raised            => w.memory.dropCore core
      | .cancelled         => w.memory := by
  have hCall := awaitDriver_run core .install w
  unfold Op.after
  -- by the answer; a driver without an install step counts as one that has done it
  cases hReply : w.driverReply with
  | ok =>
    rw [hReply] at hCall
    rw [Op.run_bind_ok (Op.run_guarded_ok hCall)]
  | unsupported =>
    rw [hReply] at hCall
    have hGuarded : (guarded Exn.isException (awaitDriver core .install)
        (abandonInstall core)).run w = (.ok (), w.afterCall core .install) :=
      Op.run_guarded_error hCall
    rw [Op.run_bind_ok hGuarded]
  | raised =>
    rw [hReply] at hCall
    have hGuarded : (guarded Exn.isException (awaitDriver core .install)
        (abandonInstall core)).run w =
          (.error .driver, (w.afterCall core .install).dropCore core) :=
      Op.run_guarded_error hCall
    rw [Op.run_bind_error hGuarded]
    rfl
  | cancelled =>
    rw [hReply] at hCall
    have hGuarded : (guarded Exn.isException (awaitDriver core .install)
        (abandonInstall core)).run w = (.error .cancelled, w.afterCall core .install) :=
      Op.run_guarded_error hCall
    rw [Op.run_bind_error hGuarded]
    rfl

theorem installCore_memory {env : Environment} {core : CoreId} {settings : Settings}
    {enabled : Bool} {w : World} (h : w.drivers core = none) :
    ((installCore env core settings enabled).after w).memory =
      installMemory env core settings enabled w := by
  unfold Op.after installCore
  rw [Op.run_get_bind, if_neg (by simp [h])]
  simp only [Op.run_modify_bind]
  rw [← Op.after, installCall_bind_memory]
  -- of what follows the call only the state is memory
  have hTail : ∀ w', ((do setState core .installed
                          let state ← recordedState core
                          saveState core state enabled
                            (some (nodeDriverSettings env core settings)) : Manager Unit).after
      w').memory = w'.memory.withState core .installed := by
    intro w'
    exact memory_bind (fun _ => keeps_bind (keeps_recordedState core)
      fun state => keeps_saveState core state _ _) w'
  rw [hTail]
  unfold installMemory
  show (match w.driverReply with
    | .ok | .unsupported => _
    | .raised => _
    | .cancelled => _) = _
  cases w.driverReply with
  | ok => exact Memory.withState_addCore w.memory core _ enabled .loaded .installed
  | unsupported => exact Memory.withState_addCore w.memory core _ enabled .loaded .installed
  | raised => exact Memory.dropCore_addCore w.memory core _ enabled .loaded
  | cancelled => rfl

-- ---------------------------------------------------------------------------
-- Uninstalling
-- ---------------------------------------------------------------------------

theorem dependents_eq_nil (w : World) (core : CoreId) : dependents w core = [] := by
  unfold dependents
  cases w.drivers core with
  | none => rfl
  | some settings => simp [requires]

/-- What the part of `uninstall_core` after the optional stop leaves: the
driver call ended with `call`, the write of `uninstalled` with `write`. -/
def uninstallMemory (m : Memory) (core : CoreId) (call : DriverReply) (write : StoreReply) :
    Memory :=
  if call = .ok ∨ call = .unsupported then
    if write = .ok then m.dropCore core else m.withState core .uninstalled
  else m

theorem uninstallTail_memory (core : CoreId) (purge : Bool) (w : World) :
    ((do guarded Exn.isUnsupported (awaitDriver core (.uninstall purge)) fun _ => pure ()
         setState core .uninstalled
         modify fun w => w.dropCore core
         removeRecord core : Manager Unit).after w).memory =
      uninstallMemory w.memory core w.driverReply w.storeReply := by
  have hCall := awaitDriver_run core (.uninstall purge) w
  -- a write that fails leaves the core listed, as uninstalled
  have hTail : ((do setState core .uninstalled
                    modify fun w => w.dropCore core
                    removeRecord core : Manager Unit).after
      (w.afterCall core (.uninstall purge))).memory =
      if w.storeReply = .ok then w.memory.dropCore core
      else w.memory.withState core .uninstalled := by
    rw [setState_bind_memory, storeReply_afterCall]
    by_cases hStore : w.storeReply = .ok
    · rw [if_pos hStore, if_pos hStore]
      exact Memory.dropCore_withState w.memory core .uninstalled
    · rw [if_neg hStore, if_neg hStore]
      rfl
  -- a driver without an uninstall step counts as one that has done it
  have hGoes : ∀ call, w.driverReply = call → (call = .ok ∨ call = .unsupported) →
      (guarded Exn.isUnsupported (awaitDriver core (.uninstall purge)) fun _ => pure ()).run w =
        (.ok (), w.afterCall core (.uninstall purge)) := by
    rintro call hReply (rfl | rfl)
    · rw [hReply] at hCall
      exact Op.run_guarded_ok hCall
    · rw [hReply] at hCall
      exact Op.run_guarded_error hCall
  unfold uninstallMemory
  by_cases hReply : w.driverReply = .ok ∨ w.driverReply = .unsupported
  · rw [if_pos hReply, ← hTail, Op.after, Op.run_bind_ok (hGoes _ rfl hReply)]
    rfl
  · rw [if_neg hReply]
    have hStops : ∃ e, (guarded Exn.isUnsupported (awaitDriver core (.uninstall purge))
        fun _ => pure ()).run w = (.error e, w.afterCall core (.uninstall purge)) := by
      cases hD : w.driverReply with
      | ok => exact absurd (Or.inl hD) hReply
      | unsupported => exact absurd (Or.inr hD) hReply
      | raised =>
        rw [hD] at hCall
        exact ⟨_, Op.run_guarded_error hCall⟩
      | cancelled =>
        rw [hD] at hCall
        exact ⟨_, Op.run_guarded_error hCall⟩
    obtain ⟨e, hStops⟩ := hStops
    rw [Op.after, Op.run_bind_error hStops]
    rfl

theorem uninstallCore_refused {core : CoreId} {purge force : Bool} {w : World}
    (h : w.drivers core = none ∨ w.states core = none) :
    ∃ e, (uninstallCore core purge force).run w = (.error e, w) := by
  unfold uninstallCore
  rw [Op.run_get_bind, dependents_eq_nil]
  rw [if_neg (by simp)]
  cases hDriver : w.drivers core with
  | none => exact ⟨_, Op.run_bind_error (getDriver_run_none hDriver)⟩
  | some settings =>
    rw [Op.run_bind_ok (getDriver_run_some hDriver)]
    rcases h with hNone | hNone
    · rw [hDriver] at hNone
      cases hNone
    · exact ⟨_, Op.run_bind_error (recordedState_run_none hNone)⟩

/-- Uninstalling a core that is not running. -/
theorem uninstallCore_memory_idle {core : CoreId} {purge force : Bool} {w : World}
    {settings : Settings} {state : CoreState} (hDriver : w.drivers core = some settings)
    (hState : w.states core = some state) (hIdle : state ≠ .running) :
    ((uninstallCore core purge force).after w).memory =
      uninstallMemory w.memory core w.driverReply w.storeReply := by
  rw [← uninstallTail_memory core purge w]
  unfold Op.after uninstallCore
  rw [Op.run_get_bind, dependents_eq_nil, if_neg (by simp), Op.run_bind_ok (getDriver_run_some hDriver),
    Op.run_bind_ok (recordedState_run_some hState), if_neg hIdle]

/-- Uninstalling a running core: it is stopped first, and a stop or a write that
fails ends the operation there. -/
theorem uninstallCore_memory_running {core : CoreId} {purge force : Bool} {w : World}
    {settings : Settings} (hDriver : w.drivers core = some settings)
    (hState : w.states core = some .running) :
    ((uninstallCore core purge force).after w).memory =
      if w.storeReply = .ok ∧ w.driverReply = .ok ∧ w.storeReplyAt 1 = .ok then
        uninstallMemory (w.memory.withState core .stopped) core (w.driverReplyAt 1)
          (w.storeReplyAt 2)
      else w.memory.withState core (transitionState w .stopping .stopped) := by
  -- the stop, and then what an idle core would have
  have hRun : (uninstallCore core purge force).run w =
      (transition core .stopping .stopped (awaitDriver core .stop) >>= fun _ => do
        guarded Exn.isUnsupported (awaitDriver core (.uninstall purge)) fun _ => pure ()
        setState core .uninstalled
        modify fun w => w.dropCore core
        removeRecord core).run w := by
    unfold uninstallCore
    rw [Op.run_get_bind, dependents_eq_nil, if_neg (by simp),
      Op.run_bind_ok (getDriver_run_some hDriver), Op.run_bind_ok (recordedState_run_some hState)]
    rfl
  -- the answers after the stop are the next ones
  have hDriver1 : (((w.recorded core .stopping).afterCall core .stop).recorded core
      .stopped).driverReply = w.driverReplyAt 1 :=
    driverReply_afterCall (w.recorded core .stopping) core .stop
  have hStore2 : (((w.recorded core .stopping).afterCall core .stop).recorded core
      .stopped).storeReply = w.storeReplyAt 2 := by
    rw [storeReply_recorded]
    exact storeReplyAt_recorded w core .stopping 1
  rw [Op.after, hRun, ← Op.after, transition_bind_memory, uninstallTail_memory, hDriver1, hStore2]
  simp

end ZagrosNode.Cores
