import ZagrosNode.Jobs.Exclusive

/-!
# ZagrosNode — jobs and the threads that work for them

A job's coroutine takes the core manager's lock for its core and has the
body of the driver operation run by a worker thread, which it awaits. When
the job's deadline passes or the job is cancelled, the coroutine is cancelled:
it leaves the lock, and the job ends. A body that no thread has taken up yet
is withdrawn; one that is running goes on.

The lock excludes coroutines, and slots exclude jobs that are not over; the
bodies themselves are excluded by neither.

The runtime has the job manager of `Jobs/JobManager.lean` inside, and beside it for
every job the phase of its coroutine (outside the lock, inside it, or awaiting a
body) and what has become of its body (queued or running). The pool takes bodies up
in any order, which the events say.

`Attended` is the invariant: a body that is queued or runs belongs to a job whose task
awaits its work and whose coroutine awaits the body. Such a job is not over, so by
the slots there is one for a core, and two bodies of one core are bodies of one job.
The step that breaks it is a job that ends under a running body, by its deadline or
by a cancelled task, and that is the condition of the theorem (`LeavesNoBody`), a
condition on the state before each step.

Main results:

* `attended_step` — as long as no job ends under a running body, every body
  belongs to a job that awaits it.
* `bodies_serial` — in every run of such steps the bodies of two jobs of one
  core never run at the same time.
* `overlapping_bodies` — an install and an uninstall at work together.
-/

namespace ZagrosNode.Jobs

open ZagrosNode.Lib
open ZagrosNode.Cores (JobState)

-- ---------------------------------------------------------------------------
-- State
-- ---------------------------------------------------------------------------

/-- Where the coroutine of a job is. -/
inductive Phase
  /-- outside the manager's lock, perhaps waiting for it -/
  | outside
  /-- in `async with self._locks[core_id]` -/
  | inside
  /-- at `await asyncio.to_thread(…)` -/
  | offloaded (locked : Bool)
  deriving DecidableEq, Repr

/-- What became of a body handed to the pool. -/
inductive Body
  | queued | running
  deriving DecidableEq, Repr

structure Runtime where
  manager : JobManager Unit
  phases  : JobId → Phase
  /-- the holder of each core's lock, as far as jobs go: any other holder only
  delays the acquisition -/
  locks   : String → Option JobId
  bodies  : JobId → Option Body

namespace Runtime

def init (historyLimit : Nat) : Runtime :=
  ⟨JobManager.init historyLimit, fun _ => .outside, fun _ => none, fun _ => none⟩

variable (r : Runtime)

def withPhase (id : JobId) (phase : Phase) : Runtime :=
  { r with phases := Function.update r.phases id phase }

def withLock (core : String) (holder : Option JobId) : Runtime :=
  { r with locks := Function.update r.locks core holder }

def withBody (id : JobId) (body : Option Body) : Runtime :=
  { r with bodies := Function.update r.bodies id body }

@[simp] theorem withPhase_phases (id : JobId) (phase : Phase) (other : JobId) :
    (r.withPhase id phase).phases other = if other = id then phase else r.phases other :=
  Function.update_apply r.phases id phase other

@[simp] theorem withBody_bodies (id : JobId) (body : Option Body) (other : JobId) :
    (r.withBody id body).bodies other = if other = id then body else r.bodies other :=
  Function.update_apply r.bodies id body other

/-- The lock is free, or taken by another job. -/
def leaveLock (core : String) (id : JobId) : Runtime :=
  if r.locks core = some id then r.withLock core none else r

end Runtime

-- ---------------------------------------------------------------------------
-- Steps
-- ---------------------------------------------------------------------------

inductive RuntimeEvent
  | submit (core action : String) (timeout : Nat) (now : Int)
  | start (id : JobId) (now : Int)
  | abandon (id : JobId)
  | acquire (id : JobId)
  | release (id : JobId)
  | dispatch (id : JobId)
  | takeUp (id : JobId)
  | bodyEnds (id : JobId)
  | ends (id : JobId) (ended : Ended) (now : Int)

/-- The event cancels the coroutine from outside. -/
def Ended.cancels : Ended → Bool
  | .timedOut | .cancelled       => true
  | .returned _ | .raised _ _    => false

/-- A coroutine ends by itself only where it does not await a thread. -/
def canEnd (phase : Phase) (ended : Ended) : Bool :=
  match phase with
  | .offloaded _ => ended.cancels
  | _            => true

/-- The body is withdrawn unless a thread runs it. -/
def withdraw : Option Body → Option Body
  | some .running => some .running
  | _             => none

/-- A step of a job whose coroutine is under way. -/
def coroutineStep (r : Runtime) (id : JobId) (job : Job Unit) : RuntimeEvent → Runtime
  | .acquire _ =>
    if r.phases id = .outside ∧ r.locks job.coreId = none then
      (r.withLock job.coreId (some id)).withPhase id .inside
    else r
  | .release _ =>
    if r.phases id = .inside then (r.leaveLock job.coreId id).withPhase id .outside else r
  | .dispatch _ =>
    match r.phases id with
    | .outside     => (r.withBody id (some .queued)).withPhase id (.offloaded false)
    | .inside      => (r.withBody id (some .queued)).withPhase id (.offloaded true)
    | .offloaded _ => r
  | .ends _ ended now =>
    if canEnd (r.phases id) ended then
      { (r.leaveLock job.coreId id).withBody id (withdraw (r.bodies id)) with
        manager := r.manager.finish id ended now }
    else r
  | _ => r

/-- A body ends; a coroutine that still awaits it goes on. -/
def bodyEnds (r : Runtime) (id : JobId) : Runtime :=
  if r.bodies id = some .running then
    let ended := r.withBody id none
    match r.manager.heap id, r.phases id with
    | some ⟨_, .waiting⟩, .offloaded true  => ended.withPhase id .inside
    | some ⟨_, .waiting⟩, .offloaded false => ended.withPhase id .outside
    | _, _                                 => ended
  else r

def runtimeStep (r : Runtime) (e : RuntimeEvent) : Runtime :=
  match e with
  | .submit core action timeout now =>
    { r with manager := (r.manager.submit core action () timeout now).1 }
  | .start id now                   => { r with manager := r.manager.start id now }
  | .abandon id                     => { r with manager := r.manager.abandon id }
  | .takeUp id                      =>
    if r.bodies id = some .queued then r.withBody id (some .running) else r
  | .bodyEnds id                    => bodyEnds r id
  | .acquire id | .release id | .dispatch id | .ends id _ _ =>
    match r.manager.heap id with
    | some ⟨job, .waiting⟩ => coroutineStep r id job e
    | _                    => r

def runtimeMachine : Machine Runtime RuntimeEvent Unit where
  step r e := (runtimeStep r e, ())

-- ---------------------------------------------------------------------------
-- Bodies and the jobs they work for
-- ---------------------------------------------------------------------------

/-- The bodies that run at one time for one core work for one job. -/
def Serial (r : Runtime) : Prop :=
  ∀ i j a b, r.bodies i = some .running → r.bodies j = some .running →
    r.manager.heap i = some a → r.manager.heap j = some b → a.job.coreId = b.job.coreId → i = j

/-- The step does not end a job under a running body. -/
def LeavesNoBody (r : Runtime) : RuntimeEvent → Prop
  | .ends id ended _ => ended.cancels = true → r.bodies id ≠ some .running
  | _                => True

/-- Every body belongs to a job that awaits it. -/
structure Attended (r : Runtime) : Prop where
  coherent : Coherent r.manager
  awaited  : ∀ {id}, r.bodies id ≠ none →
    (∃ job, r.manager.heap id = some ⟨job, .waiting⟩) ∧ ∃ locked, r.phases id = .offloaded locked

/-- Bodies that jobs await run one at a time for each core. -/
theorem Attended.serial {r : Runtime} (h : Attended r) : Serial r := by
  intro i j a b hI hJ hA hB hCore
  have hOpen : ∀ {id : JobId} {e : Entry Unit}, r.bodies id = some .running →
      r.manager.heap id = some e → terminal e.job.state = false := by
    intro id e hBody hEntry
    obtain ⟨⟨job, hWaiting⟩, -⟩ := h.awaited (show r.bodies id ≠ none by rw [hBody]; simp)
    obtain rfl := Option.some.inj (hEntry.symm.trans hWaiting)
    rw [(h.coherent.entries hWaiting).waiting rfl]
    rfl
  exact h.coherent.exclusive.unique hA hB hCore (hOpen hI hA) (hOpen hJ hB)

/-- A step of the manager alone keeps bodies attended if it leaves waiting
jobs waiting. -/
theorem attended_manager {r : Runtime} (h : Attended r) {m : JobManager Unit} (hCoherent : Coherent m)
    (hWaiting : ∀ id job, r.manager.heap id = some ⟨job, .waiting⟩ →
      m.heap id = some ⟨job, .waiting⟩) : Attended { r with manager := m } where
  coherent := hCoherent
  awaited := by
    intro id hBody
    obtain ⟨⟨job, hEntry⟩, hPhase⟩ := h.awaited hBody
    exact ⟨⟨job, hWaiting id job hEntry⟩, hPhase⟩

/-- Only the end of its work takes a job out of the waiting state. -/
theorem waiting_kept (m : JobManager Unit) (hCoherent : Coherent m) (e : Event Unit)
    (hEnd : ∀ id ended now, e ≠ .finish id ended now) (id : JobId) (job : Job Unit)
    (hEntry : m.heap id = some ⟨job, .waiting⟩) :
    ((jobMachine Unit).next m e).heap id = some ⟨job, .waiting⟩ := by
  generalize hNext : (jobMachine Unit).next m e = m'
  have hStepped : Stepped m e m' := hNext ▸ stepped m e
  have hOther : ∀ {other : JobId} {old : Job Unit} {new : Entry Unit},
      m.heap other = some ⟨old, .created⟩ →
        (m.setEntry other new).heap id = some ⟨job, .waiting⟩ := by
    intro other old new hCreated
    have hId : id ≠ other := by
      rintro rfl
      rw [hEntry] at hCreated
      cases hCreated
    rw [setEntry_heap, if_neg hId, hEntry]
  cases hStepped with
  | idle => exact hEntry
  | created core action work timeout now hFree =>
    rw [create_heap, if_neg (hCoherent.fresh hEntry).ne, hEntry]
  | started other now old hCreated => exact hOther hCreated
  | abandoned other old hCreated => exact hOther hCreated
  | finished other ended now old hOld => exact absurd rfl (hEnd other ended now)

/-- Changing phases and locks of jobs without a body keeps bodies attended. -/
theorem attended_phase {r : Runtime} (h : Attended r) {id : JobId} (hNone : r.bodies id = none)
    (locks : String → Option JobId) (phase : Phase) :
    Attended (({ r with locks := locks } : Runtime).withPhase id phase) where
  coherent := h.coherent
  awaited := by
    intro other hBody
    have hOther : other ≠ id := by
      rintro rfl
      exact hBody hNone
    obtain ⟨hEntry, locked, hPhase⟩ := h.awaited hBody
    refine ⟨hEntry, locked, ?_⟩
    rw [Runtime.withPhase_phases, if_neg hOther]
    exact hPhase

theorem leaveLock_eq (r : Runtime) (core : String) (id : JobId) :
    ∃ locks, r.leaveLock core id = { r with locks := locks } := by
  unfold Runtime.leaveLock
  split
  · exact ⟨_, rfl⟩
  · exact ⟨r.locks, rfl⟩

/-- A coroutine that awaits no thread has no body at work. -/
theorem body_none {r : Runtime} (h : Attended r) {id : JobId}
    (hPhase : ∀ locked, r.phases id ≠ .offloaded locked) : r.bodies id = none := by
  by_contra hBody
  obtain ⟨-, locked, hOffloaded⟩ := h.awaited hBody
  exact hPhase locked hOffloaded

theorem attended_dispatch {r : Runtime} (h : Attended r) {id : JobId} {job : Job Unit}
    (hEntry : r.manager.heap id = some ⟨job, .waiting⟩) (locked : Bool) :
    Attended ((r.withBody id (some .queued)).withPhase id (.offloaded locked)) where
  coherent := h.coherent
  awaited := by
    intro other hBody
    by_cases hId : other = id
    · subst hId
      refine ⟨⟨job, hEntry⟩, locked, ?_⟩
      rw [Runtime.withPhase_phases, if_pos rfl]
    · have hOld : r.bodies other ≠ none := by
        have hNew : (r.withBody id (some .queued)).bodies other ≠ none := hBody
        rwa [Runtime.withBody_bodies, if_neg hId] at hNew
      obtain ⟨hWaiting, locked', hPhase⟩ := h.awaited hOld
      refine ⟨hWaiting, locked', ?_⟩
      rw [Runtime.withPhase_phases, if_neg hId]
      exact hPhase

/-- Setting the body of a job that has one, or withdrawing it. -/
theorem attended_withBody {r : Runtime} (h : Attended r) {id : JobId} {body : Option Body}
    (hHad : body ≠ none → r.bodies id ≠ none) : Attended (r.withBody id body) where
  coherent := h.coherent
  awaited := by
    intro other hBody
    refine h.awaited fun hNone => ?_
    rw [Runtime.withBody_bodies] at hBody
    by_cases hId : other = id
    · subst hId
      rw [if_pos rfl] at hBody
      exact hHad hBody hNone
    · rw [if_neg hId] at hBody
      exact hBody hNone

/-- The end of a job whose body no thread runs. -/
theorem attended_ends {r : Runtime} (h : Attended r) {id : JobId} (hIdle : r.bodies id ≠ some .running)
    (locks : String → Option JobId) (ended : Ended) (now : Int) :
    Attended { ({ r with locks := locks } : Runtime).withBody id (withdraw (r.bodies id)) with
      manager := r.manager.finish id ended now } := by
  have hWithdrawn : withdraw (r.bodies id) = none := by
    cases hBody : r.bodies id with
    | none => rfl
    | some body =>
      cases body with
      | queued => rfl
      | running => exact absurd hBody hIdle
  refine ⟨coherent_step r.manager (.finish id ended now) h.coherent, fun {other} hBody => ?_⟩
  have hNew : (r.withBody id (withdraw (r.bodies id))).bodies other ≠ none := hBody
  rw [Runtime.withBody_bodies] at hNew
  have hOther : other ≠ id := by
    rintro rfl
    rw [if_pos rfl] at hNew
    exact hNew hWithdrawn
  have hOld : r.bodies other ≠ none := by
    rwa [if_neg hOther] at hNew
  obtain ⟨⟨job, hEntry⟩, hPhase⟩ := h.awaited hOld
  refine ⟨⟨job, ?_⟩, hPhase⟩
  show (r.manager.finish id ended now).heap other = some ⟨job, .waiting⟩
  unfold JobManager.finish
  split
  · exact (setEntry_heap r.manager id other _).trans ((if_neg hOther).trans hEntry)
  · exact hEntry

/-- A body that ends leaves its coroutine running again. -/
theorem attended_bodyEnds {r : Runtime} (h : Attended r) (id : JobId) :
    Attended (bodyEnds r id) := by
  have hEnded : Attended (r.withBody id none) :=
    attended_withBody h fun hNone => absurd rfl hNone
  have hNone : (r.withBody id none).bodies id = none := by
    rw [Runtime.withBody_bodies, if_pos rfl]
  unfold bodyEnds
  split
  · simp only
    split
    · exact attended_phase hEnded hNone r.locks .inside
    · exact attended_phase hEnded hNone r.locks .outside
    · exact hEnded
  · exact h

theorem attended_coroutine {r : Runtime} (h : Attended r) {id : JobId} {job : Job Unit}
    (hEntry : r.manager.heap id = some ⟨job, .waiting⟩) {e : RuntimeEvent} (hOk : LeavesNoBody r e)
    (hOwn : ∀ other ended now, e = .ends other ended now → other = id) :
    Attended (coroutineStep r id job e) := by
  obtain ⟨locks, hLeave⟩ := leaveLock_eq r job.coreId id
  unfold coroutineStep
  cases e with
  | acquire =>
    simp only
    split
    · rename_i hFree
      have hNone : r.bodies id = none := body_none h fun locked hPhase => by
        rw [hFree.1] at hPhase
        cases hPhase
      exact attended_phase h hNone _ .inside
    · exact h
  | release =>
    simp only
    split
    · rename_i hInside
      have hNone : r.bodies id = none := body_none h fun locked hPhase => by
        rw [hInside] at hPhase
        cases hPhase
      rw [hLeave]
      exact attended_phase h hNone locks .outside
    · exact h
  | dispatch =>
    simp only
    split
    · exact attended_dispatch h hEntry false
    · exact attended_dispatch h hEntry true
    · exact h
  | ends other ended now =>
    simp only
    split
    · rename_i hCan
      rw [hLeave]
      refine attended_ends h ?_ locks ended now
      obtain rfl : other = id := hOwn other ended now rfl
      cases hCancels : ended.cancels with
      | true => exact hOk hCancels
      | false =>
        -- it ended by itself, so it awaited no thread
        intro hRunning
        obtain ⟨-, locked, hPhase⟩ := h.awaited (show r.bodies other ≠ none by rw [hRunning]; simp)
        rw [hPhase] at hCan
        rw [canEnd, hCancels] at hCan
        cases hCan
    · exact h
  | submit | start | abandon | takeUp | bodyEnds => exact h

theorem attended_step (r : Runtime) (e : RuntimeEvent) (h : Attended r) (hOk : LeavesNoBody r e) :
    Attended (runtimeMachine.next r e) := by
  show Attended (runtimeStep r e)
  -- an event of the manager that ends no job leaves its bodies attended
  have hManager : ∀ e : Event Unit, (∀ id ended now, e ≠ .finish id ended now) →
      Attended { r with manager := (jobMachine Unit).next r.manager e } := fun e hEnd =>
    attended_manager h (coherent_step r.manager e h.coherent)
      (waiting_kept r.manager h.coherent e hEnd)
  unfold runtimeStep
  cases e with
  | submit core action timeout now =>
    exact hManager (.submit core action () timeout now) fun id ended now' hEq => by cases hEq
  | start id now => exact hManager (.start id now) fun id' ended now' hEq => by cases hEq
  | abandon id => exact hManager (.abandon id) fun id' ended now' hEq => by cases hEq
  -- a worker takes a body that nobody has
  | takeUp id =>
    simp only
    split
    · rename_i hQueued
      exact attended_withBody h fun _ hNone => by
        rw [hQueued] at hNone
        cases hNone
    · exact h
  | bodyEnds id => exact attended_bodyEnds h id
  -- the three steps of a coroutine that is waited for
  | acquire id | release id | dispatch id =>
    simp only
    split
    · rename_i job hEntry
      exact attended_coroutine h hEntry hOk fun other ended now hEq => by cases hEq
    · exact h
  -- the coroutine ends, in a way that the condition allows
  | ends id ended now =>
    simp only
    split
    · rename_i job hEntry
      refine attended_coroutine h hEntry hOk fun other ended' now' hEq => ?_
      exact (RuntimeEvent.ends.inj hEq).1.symm
    · exact h

/--
**Bodies run one at a time.** In every run in which no job is timed out or
cancelled while a thread runs its body, at every moment the bodies that run
for one core work for one job.
-/
theorem bodies_serial (historyLimit : Nat) (events : List RuntimeEvent)
    (hAlong : runtimeMachine.Along (fun _ => LeavesNoBody) [] (Runtime.init historyLimit) events) :
    runtimeMachine.Always Serial (Runtime.init historyLimit) events := by
  rintro pre post rfl
  rw [Machine.along_append] at hAlong
  have hInit : Attended (Runtime.init historyLimit) :=
    ⟨coherent_init historyLimit, fun hBody => absurd rfl hBody⟩
  have hRun := runtimeMachine.along_inv (fun _ => Attended)
    (fun _ r e hAttended hOk => attended_step r e hAttended hOk) hInit hAlong.1
  exact Attended.serial hRun

/-- An install whose body runs on behind its deadline, and an uninstall. -/
def lateInstall : List RuntimeEvent :=
  [.submit "xray" "install" 1200 0, .start 0 0, .acquire 0, .dispatch 0, .takeUp 0,
    .ends 0 .timedOut 1200, .submit "xray" "uninstall" 600 1201, .start 1 1201, .acquire 1,
    .dispatch 1, .takeUp 1]

/-- The same install, given time to end. -/
def promptInstall : List RuntimeEvent :=
  [.submit "xray" "install" 1200 0, .start 0 0, .acquire 0, .dispatch 0, .takeUp 0, .bodyEnds 0,
    .ends 0 .timedOut 1200]

/-- The install whose body ends before the deadline strikes. -/
theorem bodies_serial_promptInstall :
    runtimeMachine.Always Serial (Runtime.init 200) promptInstall := by
  have hAlong : runtimeMachine.Along (fun _ => LeavesNoBody) [] (Runtime.init 200) promptInstall :=
    ⟨trivial, trivial, trivial, trivial, trivial, trivial, (fun _ hRunning => by cases hRunning),
      trivial⟩
  exact bodies_serial 200 promptInstall hAlong

/--
The install is timed out while its thread runs on, the lock is released, and
the uninstall starts its own body beside it.
-/
theorem overlapping_bodies :
    ¬ runtimeMachine.Always Serial (Runtime.init 200) lateInstall := by
  intro hAlways
  have hSame := hAlways lateInstall [] (List.append_nil _).symm 0 1 _ _ rfl rfl rfl rfl rfl
  cases hSame

end ZagrosNode.Jobs
