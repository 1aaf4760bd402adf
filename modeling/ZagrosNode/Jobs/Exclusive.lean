import ZagrosNode.Jobs.JobManager

/-!
# ZagrosNode — exclusive jobs and their life cycle

A job gives up its core's slot unconditionally when it ends. That is safe
because a slot is only ever taken when it is free, so that the slot a job
gives up is its own. A task cancelled before its first step leaves its job
queued for good, and with it the slot.

The table of active jobs is written at two places, by a submit that creates a job and
by a job that ends, and each of them writes without looking. `Coherent` relates it to
the heap, which has every job ever created: a core has a slot exactly if there is a
job of it that is not over, and the slot holds that job. `Entry.Sound` is the part
about a single job and its task: while the task has not run the job is queued, while
it awaits the work the job is running, and once it is done the job is over, or was
abandoned in the queue; a job that is over says when, and a result is that of a job
that succeeded.

A step changes one entry and at most one slot (`stepped`), so the invariant is checked
for that entry and its core. The life cycle is a relation between a job before and
after a step, `Job.Moves`, and it composes along a run.

Main results:

* `coherent_step` — the invariant: slots and unfinished jobs correspond.
* `moves_step` — no step takes a job anywhere but forward.
* `jobs_exclusive` — both, in every run.
-/

namespace ZagrosNode.Jobs

open ZagrosNode.Lib
open ZagrosNode.Cores (JobState)

variable {ω : Type}

-- ---------------------------------------------------------------------------
-- What holds of a job and of the manager
-- ---------------------------------------------------------------------------

/-- The job and its task agree, and its figures fit its state. -/
structure Entry.Sound (id : JobId) (e : Entry ω) : Prop where
  jobId    : e.job.jobId = id
  created  : e.task = .created → e.job.state = .queued
  waiting  : e.task = .waiting → e.job.state = .running
  done     : e.task = .done → e.job.state = .queued ∨ terminal e.job.state = true
  finished : terminal e.job.state = true → e.job.finishedAt.isSome = true
  result   : e.job.result.isSome = true → e.job.state = .succeeded

/-- The inductive invariant. -/
structure Coherent (m : JobManager ω) : Prop where
  fresh   : ∀ {id e}, m.heap id = some e → id < m.fresh
  entries : ∀ {id e}, m.heap id = some e → e.Sound id
  active  : ∀ {core id}, m.active.get? core = some id ↔
    ∃ e, m.heap id = some e ∧ e.job.coreId = core ∧ terminal e.job.state = false

/-- One job per core is not over, it is the one in the core's slot, and jobs
that are over say when, and have a result only if they succeeded. -/
structure Exclusive (m : JobManager ω) : Prop where
  unique : ∀ {i j a b}, m.heap i = some a → m.heap j = some b → a.job.coreId = b.job.coreId →
    terminal a.job.state = false → terminal b.job.state = false → i = j
  active : ∀ {core id}, m.active.get? core = some id ↔
    ∃ e, m.heap id = some e ∧ e.job.coreId = core ∧ terminal e.job.state = false
  finished : ∀ {id e}, m.heap id = some e → terminal e.job.state = true →
    e.job.finishedAt.isSome = true
  result : ∀ {id e}, m.heap id = some e → e.job.result.isSome = true → e.job.state = .succeeded

/-- A job stays as it is, or moves from queued to running or from running to
an end; which job it is does not change. -/
inductive Job.Moves : Job ω → Job ω → Prop
  | stay (job : Job ω) : Job.Moves job job
  | begin {job job' : Job ω} (hQueued : job.state = .queued) (hRunning : job'.state = .running)
      (hSame : job'.jobId = job.jobId ∧ job'.coreId = job.coreId ∧ job'.action = job.action) :
    Job.Moves job job'
  | finish {job job' : Job ω} (hRunning : job.state = .running)
      (hTerminal : terminal job'.state = true)
      (hSame : job'.jobId = job.jobId ∧ job'.coreId = job.coreId ∧ job'.action = job.action) :
    Job.Moves job job'

/-- A terminal job never changes again. -/
theorem Job.Moves.eq_of_terminal {job job' : Job ω} (h : Job.Moves job job')
    (hTerminal : terminal job.state = true) : job' = job := by
  cases h with
  | stay => rfl
  | begin hQueued =>
    rw [hQueued] at hTerminal
    cases hTerminal
  | finish hRunning =>
    rw [hRunning] at hTerminal
    cases hTerminal

/-- Every job is still there and has moved at most one step forward. -/
def Forward (m m' : JobManager ω) : Prop :=
  ∀ id e, m.heap id = some e → ∃ e', m'.heap id = some e' ∧ e.job.Moves e'.job

theorem Coherent.exclusive {m : JobManager ω} (h : Coherent m) : Exclusive m where
  unique := by
    intro i j a b ha hb hCore hOpenA hOpenB
    have hI := h.active.mpr ⟨a, ha, hCore, hOpenA⟩
    have hJ := h.active.mpr ⟨b, hb, rfl, hOpenB⟩
    exact Option.some.inj (hI.symm.trans hJ)
  active := h.active
  finished := fun hEntry => (h.entries hEntry).finished
  result := fun hEntry => (h.entries hEntry).result

theorem coherent_init (historyLimit : Nat) : Coherent (JobManager.init (ω := ω) historyLimit) where
  fresh := fun hEntry => by cases hEntry
  entries := fun hEntry => by cases hEntry
  active := by
    intro core id
    constructor
    · intro hActive
      cases hActive
    · rintro ⟨e, hEntry, -⟩
      cases hEntry

-- ---------------------------------------------------------------------------
-- Every step keeps it
-- ---------------------------------------------------------------------------

/-- Changing an entry without ending its job, or reopening it, keeps the
invariant. -/
theorem coherent_setEntry {m : JobManager ω} (h : Coherent m) {id : JobId} {e e' : Entry ω}
    (hEntry : m.heap id = some e) (hSound : e'.Sound id) (hCore : e'.job.coreId = e.job.coreId)
    (hOpen : terminal e'.job.state = terminal e.job.state) : Coherent (m.setEntry id e') where
  fresh := by
    intro other found hFound
    rw [setEntry_heap] at hFound
    -- the slot of the core stays, for the job is as open as it was
    by_cases hId : other = id
    · subst hId
      exact h.fresh hEntry
    · rw [if_neg hId] at hFound
      exact h.fresh hFound
  entries := by
    intro other found hFound
    rw [setEntry_heap] at hFound
    by_cases hId : other = id
    · subst hId
      rw [if_pos rfl] at hFound
      obtain rfl := Option.some.inj hFound
      exact hSound
    · rw [if_neg hId] at hFound
      exact h.entries hFound
  active := by
    intro core other
    show m.active.get? core = some other ↔ _
    rw [h.active, setEntry_heap]
    by_cases hId : other = id
    · subst hId
      rw [if_pos rfl, hEntry]
      simp only [Option.some.injEq, exists_eq_left', hCore, hOpen]
    · rw [if_neg hId]

theorem coherent_create {m : JobManager ω} (h : Coherent m) {core : String}
    (hFree : m.active.get? core = none) (action : String) (work : ω) (timeout : Nat) (now : Int) :
    Coherent (m.create core action work timeout now) where
  fresh := by
    intro id e hEntry
    show id < m.fresh + 1
    rw [create_heap] at hEntry
    by_cases hId : id = m.fresh
    · exact hId ▸ Nat.lt_succ_self m.fresh
    · rw [if_neg hId] at hEntry
      exact Nat.lt_succ_of_lt (h.fresh hEntry)
  entries := by
    intro id e hEntry
    rw [create_heap] at hEntry
    by_cases hId : id = m.fresh
    · rw [if_pos hId] at hEntry
      obtain rfl := Option.some.inj hEntry
      exact
        { jobId := hId.symm
          created := fun _ => rfl
          waiting := fun hTask => by cases hTask
          done := fun hTask => by cases hTask
          finished := fun hTerminal => by cases hTerminal
          result := fun hResult => by cases hResult }
    · rw [if_neg hId] at hEntry
      exact h.entries hEntry
  active := by
    intro other id
    rw [create_active, create_heap]
    -- no entry has the new id
    have hUnused : m.heap m.fresh = none := by
      by_contra hSome
      obtain ⟨e, hEntry⟩ := Option.ne_none_iff_exists'.mp hSome
      exact absurd (h.fresh hEntry) (lt_irrefl m.fresh)
    -- the core's slot was free, and now is the new job's
    by_cases hCore : core = other
    · subst hCore
      rw [if_pos rfl]
      constructor
      · intro hId
        obtain rfl := Option.some.inj hId
        exact ⟨_, if_pos rfl, rfl, rfl⟩
      · rintro ⟨e, hEntry, hOwner, hOpen⟩
        by_cases hId : id = m.fresh
        · rw [hId]
        · -- an older unfinished job of the core would still have the slot
          rw [if_neg hId] at hEntry
          have hTaken := h.active.mpr ⟨e, hEntry, hOwner, hOpen⟩
          rw [hFree] at hTaken
          cases hTaken
    · rw [if_neg hCore, h.active]
      by_cases hId : id = m.fresh
      · rw [if_pos hId, hId, hUnused]
        constructor
        · rintro ⟨e, hEntry, -⟩
          cases hEntry
        · rintro ⟨e, hEntry, hOwner, -⟩
          obtain rfl := Option.some.inj hEntry
          exact absurd hOwner hCore
      · rw [if_neg hId]

theorem coherent_finish {m : JobManager ω} (h : Coherent m) {id : JobId} {job : Job ω}
    (hEntry : m.heap id = some ⟨job, .waiting⟩) (ended : Ended) (now : Int) :
    Coherent { m.setEntry id ⟨job.finish ended now, .done⟩ with
      active := m.active.pop job.coreId } := by
  have hSound := h.entries hEntry
  -- the job was running and had no result
  have hRunning : job.state = .running := hSound.waiting rfl
  have hResult : job.result = none := by
    by_contra hSome
    have hSucceeded := hSound.result (Option.isSome_iff_ne_none.mpr hSome)
    rw [show (Entry.mk job .waiting).job = job from rfl, hRunning] at hSucceeded
    cases hSucceeded
  constructor
  · intro other e hFound
    by_cases hId : other = id
    · subst hId
      exact h.fresh hEntry
    · have hOld : m.heap other = some e := by
        have hHeap := setEntry_heap m id other ⟨job.finish ended now, .done⟩
        rw [if_neg hId] at hHeap
        exact hHeap.symm.trans hFound
      exact h.fresh hOld
  · intro other e hFound
    have hHeap := setEntry_heap m id other ⟨job.finish ended now, .done⟩
    have hFound' := hHeap.symm.trans hFound
    by_cases hId : other = id
    · rw [if_pos hId] at hFound'
      obtain rfl := Option.some.inj hFound'
      refine
        { jobId := ?_
          created := fun hTask => by cases hTask
          waiting := fun hTask => by cases hTask
          done := fun _ => Or.inr (job.terminal_finish ended now)
          finished := fun _ => by cases ended <;> rfl
          result := ?_ }
      · rw [hId]
        exact (by cases ended <;> rfl : (job.finish ended now).jobId = job.jobId).trans hSound.jobId
      · cases ended <;> simp [Job.finish, hResult]
    · rw [if_neg hId] at hFound'
      exact h.entries hFound'
  · intro core other
    show (m.active.pop job.coreId).get? core = some other ↔
      ∃ e, (m.setEntry id ⟨job.finish ended now, .done⟩).heap other = some e ∧ _
    -- it had the slot of its core
    have hOwn : m.active.get? job.coreId = some id :=
      h.active.mpr ⟨_, hEntry, rfl, by rw [hRunning]; rfl⟩
    rw [Dict.get?_pop, setEntry_heap]
    by_cases hId : other = id
    · -- the job that ended has no slot any more
      rw [if_pos hId]
      constructor
      · intro hActive
        by_cases hCore : core = job.coreId
        · rw [if_pos hCore] at hActive
          cases hActive
        · rw [if_neg hCore, hId] at hActive
          obtain ⟨e, hFound, hOwner, -⟩ := h.active.mp hActive
          rw [hEntry] at hFound
          obtain rfl := Option.some.inj hFound
          exact absurd hOwner.symm hCore
      · rintro ⟨e, hFound, -, hOpen⟩
        obtain rfl := Option.some.inj hFound
        rw [job.terminal_finish ended now] at hOpen
        cases hOpen
    · rw [if_neg hId]
      by_cases hCore : core = job.coreId
      · -- the slot it gave up was no other job's
        rw [if_pos hCore]
        refine iff_of_false (by simp) ?_
        rintro ⟨e, hFound, hOwner, hOpen⟩
        have hSlot := h.active.mpr ⟨e, hFound, hOwner.trans hCore, hOpen⟩
        exact hId (Option.some.inj (hSlot.symm.trans hOwn))
      · rw [if_neg hCore, h.active]

theorem coherent_step (m : JobManager ω) (e : Event ω) (h : Coherent m) :
    Coherent ((jobMachine ω).next m e) := by
  generalize hNext : (jobMachine ω).next m e = m'
  have hStepped : Stepped m e m' := hNext ▸ stepped m e
  cases hStepped with
  | idle => exact h
  | created core action work timeout now hFree =>
    exact coherent_create h hFree action work timeout now
  -- queued to running: the job is as open as before
  | started id now job hEntry =>
    have hSound := h.entries hEntry
    have hQueued : job.state = .queued := hSound.created rfl
    refine coherent_setEntry h hEntry ?_ rfl ?_
    · exact
        { jobId := hSound.jobId
          created := fun hTask => by cases hTask
          waiting := fun _ => rfl
          done := fun hTask => by cases hTask
          finished := fun hTerminal => by cases hTerminal
          result := fun hResult => by
            have hSucceeded := hSound.result hResult
            rw [show (Entry.mk job .created).job = job from rfl, hQueued] at hSucceeded
            cases hSucceeded }
    · show terminal (job.start now).state = terminal job.state
      rw [hQueued]
      rfl
  -- a task that was never started leaves its job queued
  | abandoned id job hEntry =>
    have hSound := h.entries hEntry
    refine coherent_setEntry h hEntry ?_ rfl rfl
    exact
      { jobId := hSound.jobId
        created := fun hTask => by cases hTask
        waiting := fun hTask => by cases hTask
        done := fun _ => Or.inl (hSound.created rfl)
        finished := hSound.finished
        result := hSound.result }
  | finished id ended now job hEntry => exact coherent_finish h hEntry ended now

/-- Every step takes every job forward, or leaves it alone. -/
theorem moves_step (m : JobManager ω) (e : Event ω) (h : Coherent m) :
    Forward m ((jobMachine ω).next m e) := by
  generalize hNext : (jobMachine ω).next m e = m'
  have hStepped : Stepped m e m' := hNext ▸ stepped m e
  have hSet : ∀ {id : JobId} {old new : Entry ω}, m.heap id = some old →
      old.job.Moves new.job → Forward m (m.setEntry id new) := by
    intro id old new hEntry hMoves other found hFound
    by_cases hId : other = id
    · subst hId
      rw [hEntry] at hFound
      obtain rfl := Option.some.inj hFound
      exact ⟨new, (setEntry_heap m other other new).trans (if_pos rfl), hMoves⟩
    · exact ⟨found, (setEntry_heap m id other new).trans ((if_neg hId).trans hFound), .stay _⟩
  cases hStepped with
  | idle => exact fun id found hFound => ⟨found, hFound, .stay _⟩
  | created core action work timeout now hFree =>
    intro id found hFound
    have hOld : id ≠ m.fresh := (h.fresh hFound).ne
    exact ⟨found, (create_heap m core action work timeout now id).trans
      ((if_neg hOld).trans hFound), .stay _⟩
  | started id now job hEntry =>
    exact hSet hEntry (.begin ((h.entries hEntry).created rfl) rfl ⟨rfl, rfl, rfl⟩)
  | abandoned id job hEntry => exact hSet hEntry (.stay job)
  | finished id ended now job hEntry =>
    refine hSet hEntry (.finish ((h.entries hEntry).waiting rfl) (job.terminal_finish ended now) ?_)
    cases ended <;> exact ⟨rfl, rfl, rfl⟩

/--
**Exclusive jobs.** In every run, whatever the event loop interleaves: at
every moment at most one job per core is not over, and it is the one in the
core's slot; and no step takes a job anywhere but from queued to running and
from running to its end.
-/
theorem jobs_exclusive (historyLimit : Nat) (events : List (Event ω)) :
    (jobMachine ω).Always Exclusive (JobManager.init historyLimit) events ∧
      (jobMachine ω).Along (fun _ m e => Forward m ((jobMachine ω).next m e)) []
        (JobManager.init historyLimit) events := by
  have hCoherent : ∀ pre : List (Event ω),
      Coherent ((jobMachine ω).exec (JobManager.init historyLimit) pre) :=
    (jobMachine ω).exec_inv coherent_step (coherent_init historyLimit)
  constructor
  · intro pre post _
    exact (hCoherent pre).exclusive
  · rw [Machine.along_iff]
    intro pre e post _
    exact moves_step _ e (hCoherent pre)

end ZagrosNode.Jobs
