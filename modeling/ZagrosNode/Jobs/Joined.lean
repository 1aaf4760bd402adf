import ZagrosNode.Jobs.Exclusive
import ZagrosNode.Lib.Object

/-!
# ZagrosNode — lifecycle requests that join a job

A lifecycle request hands the manager a core, the name of its action and a
closure over its body: `core_lifecycle` in `node_agent/app.py`. A second request
for the core joins the job in flight if the names of their actions agree; the
body it came with is dropped, and with it the settings and the flags for `purge`
and `force`. The manager cannot compare them: all it has is the closure.

Whether the two requests asked for the same is a question about their bodies,
which the model keeps as the work of a job. Two bodies are the same request if
action and flags are equal and their settings have the same values under the
same keys, at every level and in whatever order the keys were sent.

A job whose core is still active may have been forgotten: the history is bounded.
A second request then ends in a `KeyError`, which is neither a job nor a conflict.

`Named` is the invariant that makes the names a substitute for the bodies: a job is
named after the action of the body it was created from. So a joined job has the action
that was asked for. Whether the other parts of the bodies agree is then the condition
of the theorem, on the manager before the request and on the request.

Main results:

* `named_exec` — every job carries the name of its own body's action.
* `honoured_iff` — when a second request gets the work it asked for, or a
  conflict.
* `purge_dropped` — a request to purge that joins an uninstall that does not.
-/

namespace ZagrosNode.Jobs

open ZagrosNode.Lib
open ZagrosNode.Cores (Action CoreActionBody)

-- ---------------------------------------------------------------------------
-- Requests
-- ---------------------------------------------------------------------------

def actionText : Action → String
  | .install   => "install"
  | .uninstall => "uninstall"
  | .start     => "start"
  | .stop      => "stop"
  | .restart   => "restart"
  | .update    => "update"

theorem actionText_inj {a b : Action} : actionText a = actionText b ↔ a = b := by
  cases a <;> cases b <;> decide

/-- `_JOB_TIMEOUT.get(action, 120.0)` -/
def jobTimeout : Action → Nat
  | .install | .update => 1200
  | .uninstall         => 600
  | _                  => 120

/-- `core_lifecycle`, as far as the job manager goes. -/
def coreLifecycle (m : JobManager CoreActionBody) (core : String) (body : CoreActionBody)
    (now : Int) : JobManager CoreActionBody × Except SubmitError (Job CoreActionBody) :=
  m.submit core (actionText body.action) body (jobTimeout body.action) now

/-- What the event loop does with lifecycle requests and their jobs. -/
inductive LifecycleEvent
  | request (core : String) (body : CoreActionBody) (now : Int)
  | start (id : JobId) (now : Int)
  | abandon (id : JobId)
  | finish (id : JobId) (ended : Ended) (now : Int)

def LifecycleEvent.event : LifecycleEvent → Event CoreActionBody
  | .request core body now =>
    .submit core (actionText body.action) body (jobTimeout body.action) now
  | .start id now          => .start id now
  | .abandon id            => .abandon id
  | .finish id ended now   => .finish id ended now

/-- The manager after lifecycle requests and their jobs. -/
def afterRequests (historyLimit : Nat) (events : List LifecycleEvent) : JobManager CoreActionBody :=
  (jobMachine CoreActionBody).exec (JobManager.init historyLimit)
    (events.map LifecycleEvent.event)

/-- The same request: a reader finds the same in the settings of both, and the flags
agree. The order in which the keys were sent makes no difference. -/
structure SameRequest (a b : CoreActionBody) : Prop where
  action   : a.action = b.action
  settings : Json.Same (.dict a.settings) (.dict b.settings)
  purge    : a.purge = b.purge
  force    : a.force = b.force

theorem SameRequest.refl (body : CoreActionBody) : SameRequest body body :=
  ⟨rfl, Json.Same.refl _, rfl, rfl⟩

/-- The caller gets a job whose work was built from the same request as its own, or a
conflict. -/
def Honoured (body : CoreActionBody) : Except SubmitError (Job CoreActionBody) → Prop
  | .ok job               => SameRequest job.work body
  | .error (.conflict _)  => True
  | .error (.key _)       => False

-- ---------------------------------------------------------------------------
-- Names of jobs
-- ---------------------------------------------------------------------------

/-- Every job is named after the action of its work. -/
def Named (m : JobManager CoreActionBody) : Prop :=
  ∀ id e, m.heap id = some e → e.job.action = actionText e.job.work.action

theorem named_step (m : JobManager CoreActionBody) (e : LifecycleEvent) (h : Named m) :
    Named ((jobMachine CoreActionBody).next m e.event) := by
  generalize hNext : (jobMachine CoreActionBody).next m e.event = m'
  have hStepped : Stepped m e.event m' := hNext ▸ stepped m e.event
  -- an entry that is changed keeps its action and its work
  have hSet : ∀ {id : JobId} {old new : Entry CoreActionBody}, m.heap id = some old →
      new.job.action = old.job.action → new.job.work = old.job.work →
      Named (m.setEntry id new) := by
    intro id old new hEntry hAction hWork other found hFound
    rw [setEntry_heap] at hFound
    by_cases hId : other = id
    · rw [if_pos hId] at hFound
      obtain rfl := Option.some.inj hFound
      rw [hAction, hWork]
      exact h id old hEntry
    · rw [if_neg hId] at hFound
      exact h other found hFound
  -- a new job is filed under the action of the body it was made of
  generalize hEvent : e.event = event at hStepped
  cases hStepped with
  | idle => exact h
  | created core action work timeout now hFree =>
    intro id found hFound
    rw [create_heap] at hFound
    by_cases hId : id = m.fresh
    · rw [if_pos hId] at hFound
      obtain rfl := Option.some.inj hFound
      cases e with
      | request core' body now' =>
        obtain ⟨-, rfl, rfl, -, -⟩ := Event.submit.inj hEvent
        rfl
      | start | abandon | finish => cases hEvent
    · rw [if_neg hId] at hFound
      exact h id found hFound
  | started id now job hEntry => exact hSet hEntry rfl rfl
  | abandoned id job hEntry => exact hSet hEntry rfl rfl
  | finished id ended now job hEntry =>
    exact hSet hEntry (by cases ended <;> rfl) (by cases ended <;> rfl)

theorem named_exec (historyLimit : Nat) (events : List LifecycleEvent) :
    Named (afterRequests historyLimit events) := by
  unfold afterRequests
  have hStart : Named (JobManager.init (ω := CoreActionBody) historyLimit) :=
    fun id e hEntry => by cases hEntry
  generalize (JobManager.init historyLimit : JobManager CoreActionBody) = m at hStart ⊢
  induction events generalizing m with
  | nil => exact hStart
  | cons e rest ih => exact ih _ (named_step m e hStart)

-- ---------------------------------------------------------------------------
-- The second request
-- ---------------------------------------------------------------------------

/--
**When a second request is honoured.** While a job of its core is in flight a
request gets a job that does its work, or a conflict, **if and only if** the
manager still remembers that job and the job's request, should its action be
the same, is the same in its settings and flags too.
-/
theorem honoured_iff (historyLimit : Nat) (events : List LifecycleEvent) {core : String}
    {id : JobId} {e : Entry CoreActionBody} (body : CoreActionBody) (now : Int)
    (hActive : (afterRequests historyLimit events).active.get? core = some id)
    (hEntry : (afterRequests historyLimit events).heap id = some e) :
    Honoured body (coreLifecycle (afterRequests historyLimit events) core body now).2 ↔
      id ∈ (afterRequests historyLimit events).jobs ∧
        (e.job.work.action = body.action → SameRequest e.job.work body) := by
  have hNamed := named_exec historyLimit events id e hEntry
  generalize afterRequests historyLimit events = m at *
  unfold coreLifecycle JobManager.submit
  rw [hActive]
  by_cases hKnown : id ∈ m.jobs
  · have hLookUp : m.lookUp id = some e.job := by
      rw [JobManager.lookUp, if_pos hKnown, hEntry]
      rfl
    simp only [hLookUp, hNamed, actionText_inj]
    by_cases hAction : e.job.work.action = body.action
    · rw [if_pos hAction]
      exact ⟨fun hWork => ⟨hKnown, fun _ => hWork⟩, fun hBoth => hBoth.2 hAction⟩
    · rw [if_neg hAction]
      exact iff_of_true trivial ⟨hKnown, fun hSame => absurd hSame hAction⟩
  · have hLookUp : m.lookUp id = none := by
      rw [JobManager.lookUp, if_neg hKnown]
    simp only [hLookUp]
    exact iff_of_false (fun hNever => hNever) fun hBoth => hKnown hBoth.1

def keepData : CoreActionBody := ⟨.uninstall, [], false, false⟩

def purgeData : CoreActionBody := ⟨.uninstall, [], true, false⟩

/-- An uninstall that keeps the data is in flight. -/
def uninstallRunning : List LifecycleEvent := [.request "ssh" keepData 0, .start 0 1]

def runningUninstall : Job CoreActionBody :=
  (Job.create 0 "ssh" "uninstall" keepData 600 0).start 1

/-- An install with two settings, and the same one sent in another order. -/
def installSsh : CoreActionBody :=
  ⟨.install, [("port", .num 2022), ("shell", .str "/bin/sh")], false, false⟩

def installAgain : CoreActionBody :=
  ⟨.install, [("shell", .str "/bin/sh"), ("port", .num 2022)], false, false⟩

def installRunning : List LifecycleEvent := [.request "ssh" installSsh 0, .start 0 1]

def runningInstall : Job CoreActionBody :=
  (Job.create 0 "ssh" "install" installSsh 1200 0).start 1

theorem sameRequest_installAgain : SameRequest installSsh installAgain := by
  refine ⟨rfl, Json.same_dict_iff.mpr fun key => ?_, rfl, rfl⟩
  have hSame : Json.get? installSsh.settings key = Json.get? installAgain.settings key := by
    by_cases hPort : "port" = key
    · subst hPort
      rfl
    · simp [installSsh, installAgain, Json.get?_cons, hPort]
  rw [hSame]
  exact Json.SameEntry.refl _

/-- The retry gets the job that is under way. -/
theorem honoured_iff_installRunning :
    Honoured installAgain
      (coreLifecycle (afterRequests 200 installRunning) "ssh" installAgain 2).2 :=
  (@honoured_iff 200 installRunning "ssh" 0 ⟨runningInstall, .waiting⟩ installAgain 2 rfl rfl).mpr
    ⟨by decide, fun _ => sameRequest_installAgain⟩

/-- A request to purge joins it and is told that it is under way. -/
theorem purge_dropped :
    (afterRequests 200 uninstallRunning).active.get? "ssh" = some 0 ∧
      ¬ Honoured purgeData
        (coreLifecycle (afterRequests 200 uninstallRunning) "ssh" purgeData 2).2 := by
  have hJoined : (coreLifecycle (afterRequests 200 uninstallRunning) "ssh" purgeData 2).2 =
      .ok runningUninstall := rfl
  refine ⟨rfl, ?_⟩
  rw [hJoined]
  intro hSame
  have hPurge : false = true := hSame.purge
  cases hPurge

end ZagrosNode.Jobs
