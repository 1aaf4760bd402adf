import Mathlib.Logic.Function.Basic
import ZagrosNode.Cores.Jobs
import ZagrosNode.Lib.Dict
import ZagrosNode.Lib.Machine

/-!
# ZagrosNode — the job manager

Lifecycle actions run as jobs. A submit either joins the job its core has in
flight, conflicts with it, or creates a new one together with a task that will
run it. Neither a submit nor any stretch of the task contains an await that
can suspend it half-way, so the event loop interleaves four kinds of steps:
submits, first steps of tasks, tasks that are cancelled before their first
step, and the step in which the awaited work ends one way or another.

The heap has every job ever created; the manager itself forgets old ones.
What the work of a job is does not matter to the manager and is a parameter.

The event loop runs a coroutine from one suspension to the next without interruption.
`JobManager.submit` awaits nothing, and `_run` awaits the work alone, so the manager's
own code is made of the four transitions of `Event`, each of them a function on the
whole manager. Timestamps are part of the events.

A look-up may find nothing: a job in a core's slot can have been forgotten by the
bounded history, and the submit then raises `KeyError` where it would have joined.
The texts of the conflicts are built as the source builds them.

`Stepped` lists what a step can do, with its guard: nothing, create, start, abandon
or finish. All invariants of the jobs are derived from that list by one case each, so
none of them unfolds the step.

Main results:

* `stepped` — everything a step can do; the invariants are derived from it.
-/

namespace ZagrosNode.Jobs

open ZagrosNode.Lib
open ZagrosNode.Cores (JobState)

-- ---------------------------------------------------------------------------
-- Data
-- ---------------------------------------------------------------------------

/-- `uuid.uuid4().hex`: every job gets one that no other job has. -/
abbrev JobId := Nat

/-- `TERMINAL` -/
def terminal : JobState → Bool
  | .succeeded | .failed | .cancelled => true
  | .queued | .running                => false

def stateText : JobState → String
  | .queued    => "queued"
  | .running   => "running"
  | .succeeded => "succeeded"
  | .failed    => "failed"
  | .cancelled => "cancelled"

/-- A job, with the work its task will await. -/
structure Job (ω : Type) where
  jobId      : JobId
  coreId     : String
  action     : String
  work       : ω
  /-- seconds until the work is cancelled -/
  timeout    : Nat
  state      : JobState
  queuedAt   : Int
  startedAt  : Option Int
  finishedAt : Option Int
  result     : Option Json
  error      : Option String
  errorType  : Option String

/-- How the awaited work ends. -/
inductive Ended
  | returned (result : Json)
  | timedOut
  | cancelled
  | raised (text type : String)

/-- The task of a job: it has not run yet, awaits the work, or is over. -/
inductive TaskState
  | created | waiting | done
  deriving DecidableEq, Repr

structure Entry (ω : Type) where
  job  : Job ω
  task : TaskState

structure JobManager (ω : Type) where
  historyLimit : Nat
  /-- the next fresh id -/
  fresh        : JobId
  heap         : JobId → Option (Entry ω)
  /-- the keys of `_jobs`, in insertion order -/
  jobs         : List JobId
  order        : List JobId
  active       : Dict String JobId

/-- `JobConflictError`, or the `KeyError` of a look-up that finds no job. -/
inductive SubmitError
  | conflict (text : String)
  | key (id : JobId)
  deriving DecidableEq, Repr

variable {ω : Type}

namespace Job

/-- A job as `submit` creates it. -/
def create (id : JobId) (core action : String) (work : ω) (timeout : Nat) (now : Int) :
    Job ω where
  jobId      := id
  coreId     := core
  action     := action
  work       := work
  timeout    := timeout
  state      := .queued
  queuedAt   := now
  startedAt  := none
  finishedAt := none
  result     := none
  error      := none
  errorType  := none

/-- The first stretch of `_run`. -/
def start (job : Job ω) (now : Int) : Job ω :=
  { job with state := .running, startedAt := some now }

/-- The rest of `_run`, once the awaited work has ended. -/
def finish (job : Job ω) (ended : Ended) (now : Int) : Job ω :=
  let settled : Job ω :=
    match ended with
    | .returned result  => { job with result := some result, state := .succeeded }
    | .timedOut         =>
      { job with
        state := .failed
        error := some s!"{job.action} timed out after {job.timeout}s"
        errorType := some "TimeoutError" }
    | .cancelled        => { job with state := .cancelled, errorType := some "CancelledError" }
    | .raised text type =>
      { job with state := .failed, error := some text, errorType := some type }
  { settled with finishedAt := some now }

theorem terminal_finish (job : Job ω) (ended : Ended) (now : Int) :
    terminal (job.finish ended now).state = true := by
  cases ended <;> rfl

@[simp] theorem finish_coreId (job : Job ω) (ended : Ended) (now : Int) :
    (job.finish ended now).coreId = job.coreId := by
  cases ended <;> rfl

end Job

-- ---------------------------------------------------------------------------
-- Steps
-- ---------------------------------------------------------------------------

namespace JobManager

def init (historyLimit : Nat) : JobManager ω where
  historyLimit := historyLimit
  fresh        := 0
  heap _       := none
  jobs         := []
  order        := []
  active       := Dict.empty

variable (m : JobManager ω)

def setEntry (id : JobId) (e : Entry ω) : JobManager ω :=
  { m with heap := Function.update m.heap id (some e) }

/-- `_remember`: the oldest jobs beyond the limit are forgotten. -/
def remember (id : JobId) : JobManager ω :=
  let order := m.order ++ [id]
  let overflow := order.length - m.historyLimit
  let stale := order.take overflow
  { m with
    jobs := (m.jobs ++ [id]).filter fun other => decide (other ∉ stale)
    order := order.drop overflow }

/-- The text of a conflict. -/
def conflictText (core : String) (job : Job ω) : String :=
  s!"a '{job.action}' job for core '{core}' is already {stateText job.state} (job {job.jobId})"

/-- `self._jobs[job_id]` -/
def lookUp (id : JobId) : Option (Job ω) :=
  if id ∈ m.jobs then (m.heap id).map Entry.job else none

/-- A new job with its task. -/
def create (core action : String) (work : ω) (timeout : Nat) (now : Int) : JobManager ω :=
  let id := m.fresh
  let remembered :=
    ({ m with fresh := m.fresh + 1 }.setEntry id
      ⟨Job.create id core action work timeout now, .created⟩).remember id
  { remembered with active := remembered.active.set core id }

def submit (core action : String) (work : ω) (timeout : Nat) (now : Int) :
    JobManager ω × Except SubmitError (Job ω) :=
  match m.active.get? core with
  | some id =>
    match m.lookUp id with
    | none     => (m, .error (.key id))
    | some job =>
      if job.action = action then (m, .ok job) else (m, .error (.conflict (conflictText core job)))
  | none =>
    (m.create core action work timeout now, .ok (Job.create m.fresh core action work timeout now))

/-- A task runs its first stretch. -/
def start (id : JobId) (now : Int) : JobManager ω :=
  match m.heap id with
  | some ⟨job, .created⟩ => m.setEntry id ⟨job.start now, .waiting⟩
  | _                    => m

/-- A task is cancelled before its first step: nothing of `_run` runs. -/
def abandon (id : JobId) : JobManager ω :=
  match m.heap id with
  | some ⟨job, .created⟩ => m.setEntry id ⟨job, .done⟩
  | _                    => m

/-- The awaited work ends; the job's slot is given up. -/
def finish (id : JobId) (ended : Ended) (now : Int) : JobManager ω :=
  match m.heap id with
  | some ⟨job, .waiting⟩ =>
    { m.setEntry id ⟨job.finish ended now, .done⟩ with active := m.active.pop job.coreId }
  | _                    => m

-- ---------------------------------------------------------------------------
-- Queries
-- ---------------------------------------------------------------------------

def get (id : JobId) : Option (Job ω) := m.lookUp id

def activeFor (core : String) : Option (Job ω) := (m.active.get? core).bind m.lookUp

/-- `recent`: the newest jobs first. -/
def recent (limit : Nat) : List (Job ω) :=
  (m.order.reverse.take (max 1 (min limit m.historyLimit))).filterMap m.lookUp

end JobManager

/-- What the event loop does next. -/
inductive Event (ω : Type)
  | submit (core action : String) (work : ω) (timeout : Nat) (now : Int)
  | start (id : JobId) (now : Int)
  | abandon (id : JobId)
  | finish (id : JobId) (ended : Ended) (now : Int)

/-- One step, with what a submit returns. -/
def step (m : JobManager ω) : Event ω → JobManager ω × Option (Except SubmitError (Job ω))
  | .submit core action work timeout now =>
    let (m', answer) := m.submit core action work timeout now
    (m', some answer)
  | .start id now        => (m.start id now, none)
  | .abandon id          => (m.abandon id, none)
  | .finish id ended now => (m.finish id ended now, none)

def jobMachine (ω : Type) :
    Machine (JobManager ω) (Event ω) (Option (Except SubmitError (Job ω))) where
  step := step

-- ---------------------------------------------------------------------------
-- What a step changes
-- ---------------------------------------------------------------------------

/-- Everything a step can do, guards included. -/
inductive Stepped (m : JobManager ω) : Event ω → JobManager ω → Prop
  | idle (e : Event ω) : Stepped m e m
  | created (core action : String) (work : ω) (timeout : Nat) (now : Int)
      (hFree : m.active.get? core = none) :
    Stepped m (.submit core action work timeout now) (m.create core action work timeout now)
  | started (id : JobId) (now : Int) (job : Job ω) (hEntry : m.heap id = some ⟨job, .created⟩) :
    Stepped m (.start id now) (m.setEntry id ⟨job.start now, .waiting⟩)
  | abandoned (id : JobId) (job : Job ω) (hEntry : m.heap id = some ⟨job, .created⟩) :
    Stepped m (.abandon id) (m.setEntry id ⟨job, .done⟩)
  | finished (id : JobId) (ended : Ended) (now : Int) (job : Job ω)
      (hEntry : m.heap id = some ⟨job, .waiting⟩) :
    Stepped m (.finish id ended now)
      { m.setEntry id ⟨job.finish ended now, .done⟩ with active := m.active.pop job.coreId }

theorem stepped (m : JobManager ω) (e : Event ω) : Stepped m e ((jobMachine ω).next m e) := by
  cases e with
  | submit core action work timeout now =>
    show Stepped m _ (m.submit core action work timeout now).1
    -- a free slot takes the job; otherwise it joins, or is refused
    unfold JobManager.submit
    cases hActive : m.active.get? core with
    | none => exact .created core action work timeout now hActive
    | some id =>
      simp only
      cases m.lookUp id with
      | none => exact .idle _
      | some job =>
        simp only
        split <;> exact .idle _
  | start id now =>
    show Stepped m _ (m.start id now)
    -- the three others look the entry up and change it if it is as they expect
    unfold JobManager.start
    split
    · rename_i job hEntry
      exact .started id now job hEntry
    · exact .idle _
  | abandon id =>
    show Stepped m _ (m.abandon id)
    unfold JobManager.abandon
    split
    · rename_i job hEntry
      exact .abandoned id job hEntry
    · exact .idle _
  | finish id ended now =>
    show Stepped m _ (m.finish id ended now)
    unfold JobManager.finish
    split
    · rename_i job hEntry
      exact .finished id ended now job hEntry
    · exact .idle _

theorem setEntry_heap (m : JobManager ω) (id other : JobId) (e : Entry ω) :
    (m.setEntry id e).heap other = if other = id then some e else m.heap other := by
  by_cases hId : other = id
  · subst hId
    simp [JobManager.setEntry]
  · simp [JobManager.setEntry, hId]

theorem create_heap (m : JobManager ω) (core action : String) (work : ω) (timeout : Nat)
    (now : Int) (id : JobId) :
    (m.create core action work timeout now).heap id =
      if id = m.fresh then some ⟨Job.create m.fresh core action work timeout now, .created⟩
      else m.heap id :=
  setEntry_heap { m with fresh := m.fresh + 1 } m.fresh id _

theorem create_active (m : JobManager ω) (core action : String) (work : ω) (timeout : Nat)
    (now : Int) (other : String) :
    (m.create core action work timeout now).active.get? other =
      if core = other then some m.fresh else m.active.get? other :=
  m.active.get?_set core other m.fresh

end ZagrosNode.Jobs
