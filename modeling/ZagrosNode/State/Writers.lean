import ZagrosNode.State.Store

/-!
# ZagrosNode — writers of the state file and cancellation

`save_state` and `remove` take the store's lock, have a worker thread read
`cores.json`, and have another one write it: the new content goes to
`cores.part`, which is then moved into place. A call may be cancelled at any
of its awaits. It leaves the lock at once, while a thread that has begun goes
on; a thread that has not begun is withdrawn.

All writers share one `.part` file. A thread that outlives its call writes
what it read before later calls, or moves what a later call was about to move.

A call is a coroutine that waits for the lock, for its reading thread and for its
writing one, and a thread has its own position; a scheduler advances either of them
by one step at a time, in any order. Threads cannot
be cancelled once they run. That is the whole reason for the module: the lock belongs
to the coroutine, and the work to the thread.

`_write` seals the settings before it opens the part file, so a save whose settings
have no text (a string with half a surrogate pair) ends with an exception in its
thread, and its caller is told; such a call touches no file. What it read was sealed,
so only the settings it was given can be at fault (`sealable`).

The invariant `Orderly` says that threads write for the holder of the lock alone, that
what they write follows the file as it is, in one core only, and that the updates that
stand are in the file and came before the holder. `CallOk` is its part for one call,
by the stage of coroutine and thread. A step of one call keeps it (`StepOk`, one lemma
for each stage), and the steps of the others do not disturb it, because they do not
hold the lock.

Main results:

* `orderly_step` — as long as no call is cancelled while its thread writes,
  only the holder of the lock has a writing thread.
* `updates_kept` — in such runs updates stay until a later call replaces them,
  and no call misses its temporary file.
* `update_lost` — a run that loses an update, and one in which a call fails.
-/

namespace ZagrosNode.State

open ZagrosNode.Lib
open ZagrosNode.Cores (CoreState)

-- ---------------------------------------------------------------------------
-- Calls
-- ---------------------------------------------------------------------------

/-- The content of `cores.json`, unsealed. -/
abbrev Records (V : Type) := String → Option (CoreRecord V)

inductive Call (V : Type)
  | save (core : String) (state : CoreState) (enabled : Bool) (settings : Option V)
  | remove (core : String)

def Call.core {V : Type} : Call V → String
  | .save core _ _ _ | .remove core => core

/-- What a call makes of what it read. -/
def Call.change {V : Type} (json : JsonText V) (read : Records V) : Call V → Records V
  | .save core state enabled settings =>
    Function.update read core (some (nextRecord json (read core) state enabled settings))
  | .remove core => Function.update read core none

/-- Where the coroutine of a call is. -/
inductive Stage
  /-- at `async with self._lock` -/
  | waiting
  /-- at `await asyncio.to_thread(self._read)` -/
  | reading
  /-- at `await asyncio.to_thread(self._write, value)` -/
  | writing
  /-- the call returned; it found the temporary file gone; it was cancelled; its
  settings have no text -/
  | returned | failed | cancelled | refused
  deriving DecidableEq, Repr

/-- The next system call of `_write`. -/
inductive WriteStep
  | text | chmod | replace
  deriving DecidableEq, Repr

/-- The thread that works for a call. -/
inductive Worker (V : Type)
  | readQueued
  | readRunning
  | readDone (value : Records V)
  | writeQueued (value : Records V)
  | writeRunning (value : Records V) (next : WriteStep)
  | written (value : Records V)
  /-- the temporary file was not there -/
  | vanished
  /-- the content cannot be sealed, and nothing was written -/
  | unsealed

structure CallState (V : Type) where
  call   : Call V
  /-- its place in the order in which calls got the lock -/
  turn   : Nat
  stage  : Stage
  worker : Option (Worker V)

/-- What the calls share. -/
structure Shared (V : Type) where
  holder   : Option Nat
  turns    : Nat
  file     : Records V
  part     : Option (Records V)
  /-- for each core the update of the last call that returned, with the turn of
  the call, until a later call for the core replaces it -/
  standing : String → Option (Nat × Option (CoreRecord V))

structure Writers (V : Type) where
  shared : Shared V
  next   : Nat
  calls  : Nat → Option (CallState V)

def Writers.init {V : Type} : Writers V :=
  ⟨⟨none, 0, fun _ => none, none, fun _ => none⟩, 0, fun _ => none⟩

-- ---------------------------------------------------------------------------
-- Steps
-- ---------------------------------------------------------------------------

inductive WriterEvent (V : Type)
  | call (call : Call V)
  | acquire (id : Nat)
  /-- the next step of the call's thread -/
  | thread (id : Nat)
  /-- the coroutine goes on behind the await -/
  | resume (id : Nat)
  | cancel (id : Nat)

section Steps

variable {V : Type} (json : JsonText V)

/-- What a thread comes up with is lost if nobody awaits it. -/
def CallState.deliver (c : CallState V) (result : Worker V) : CallState V :=
  { c with worker := if c.stage = .cancelled then none else some result }

/-- The call moves its content into place. -/
def Shared.replace (sh : Shared V) (c : CallState V) (content : Records V) : Shared V :=
  let replaced := (sh.standing c.call.core).any fun standing => decide (standing.1 < c.turn)
  { sh with
    file := content
    part := none
    standing := if replaced then Function.update sh.standing c.call.core none else sh.standing }

def acquireStep (sh : Shared V) (id : Nat) (c : CallState V) : Shared V × CallState V :=
  if c.stage = .waiting ∧ sh.holder = none then
    ({ sh with holder := some id, turns := sh.turns + 1 },
      { c with turn := sh.turns, stage := .reading, worker := some .readQueued })
  else (sh, c)

/-- The settings of the core have a text, so that `_write` can seal them. Those of
other cores have been read from the file. -/
def Records.sealable (v : Records V) (core : String) : Bool :=
  (v core).all fun record => (json.dumps record.settings).toBool

def threadStep (sh : Shared V) (c : CallState V) : Shared V × CallState V :=
  match c.worker with
  | some .readQueued              => (sh, { c with worker := some .readRunning })
  | some .readRunning             => (sh, c.deliver (.readDone sh.file))
  | some (.writeQueued v)         => (sh, { c with worker := some (.writeRunning v .text) })
  | some (.writeRunning v .text)  =>
    -- all records are sealed before the first byte is written
    if v.sealable json c.call.core then
      ({ sh with part := some v }, { c with worker := some (.writeRunning v .chmod) })
    else (sh, c.deliver .unsealed)
  | some (.writeRunning v .chmod) =>
    match sh.part with
    | none   => (sh, c.deliver .vanished)
    | some _ => (sh, { c with worker := some (.writeRunning v .replace) })
  | some (.writeRunning v .replace) =>
    match sh.part with
    | none         => (sh, c.deliver .vanished)
    | some content => (sh.replace c content, c.deliver (.written v))
  | _ => (sh, c)

def resumeStep (sh : Shared V) (c : CallState V) : Shared V × CallState V :=
  match c.stage, c.worker with
  | .reading, some (.readDone v) =>
    (sh, { c with stage := .writing, worker := some (.writeQueued (c.call.change json v)) })
  | .writing, some (.written v)  =>
    ({ sh with
        holder := none
        standing :=
          Function.update sh.standing c.call.core (some (c.turn, v c.call.core)) },
      { c with stage := .returned, worker := none })
  | .writing, some .vanished     =>
    ({ sh with holder := none }, { c with stage := .failed, worker := none })
  | .writing, some .unsealed     =>
    ({ sh with holder := none }, { c with stage := .refused, worker := none })
  | _, _ => (sh, c)

/-- A cancelled coroutine leaves the lock. Its thread is withdrawn unless it
runs. -/
def cancelStep (sh : Shared V) (c : CallState V) : Shared V × CallState V :=
  match c.stage with
  | .waiting           => (sh, { c with stage := .cancelled })
  | .reading | .writing =>
    ({ sh with holder := none },
      { c with
        stage := .cancelled
        worker := match c.worker with
          | some .readRunning           => some .readRunning
          | some (.writeRunning v next) => some (.writeRunning v next)
          | _                           => none })
  | _ => (sh, c)

def Writers.advance (w : Writers V) (id : Nat)
    (step : CallState V → Shared V × CallState V) : Writers V :=
  match w.calls id with
  | none   => w
  | some c =>
    { w with shared := (step c).1, calls := Function.update w.calls id (some (step c).2) }

def writerMachine : Machine (Writers V) (WriterEvent V) Unit where
  step w e :=
    (match e with
      | .call call  =>
        { w with
          next := w.next + 1
          calls := Function.update w.calls w.next (some ⟨call, 0, .waiting, none⟩) }
      | .acquire id => w.advance id (acquireStep w.shared id)
      | .thread id  => w.advance id (threadStep json w.shared)
      | .resume id  => w.advance id (resumeStep json w.shared)
      | .cancel id  => w.advance id (cancelStep w.shared), ())

end Steps

-- ---------------------------------------------------------------------------
-- What is to hold
-- ---------------------------------------------------------------------------

variable {V : Type} {json : JsonText V}

/-- Every update that a call returned from is in the file until a later call
for the core replaces it. -/
def Shared.Kept (sh : Shared V) : Prop :=
  ∀ core turn record, sh.standing core = some (turn, record) → sh.file core = record

/-- No call has failed for want of its temporary file. -/
def NoneFailed (w : Writers V) : Prop :=
  ∀ id c, w.calls id = some c → c.stage ≠ .failed

/-- A thread is writing for the call. -/
def Writers.isWriting (w : Writers V) (id : Nat) : Prop :=
  ∃ c v next, w.calls id = some c ∧ c.worker = some (.writeRunning v next)

/-- The step does not cancel a call while its thread writes. -/
def SparesWriter (w : Writers V) : WriterEvent V → Prop
  | .cancel id => ¬ w.isWriting id
  | _          => True

-- ---------------------------------------------------------------------------
-- Order
-- ---------------------------------------------------------------------------

/-- The call has the lock, after every call whose update stands. -/
structure Holds (sh : Shared V) (id turn : Nat) : Prop where
  holder : sh.holder = some id
  past   : turn < sh.turns
  later  : ∀ core standing record, sh.standing core = some (standing, record) → standing < turn

/-- The content differs from the file in one core only. -/
def Follows (sh : Shared V) (core : String) (v : Records V) : Prop :=
  ∀ other, other ≠ core → v other = sh.file other

/-- Threads write for the holder of the lock alone, and from the file as it is. -/
inductive CallOk (sh : Shared V) (id : Nat) : CallState V → Prop
  | waiting (call turn) : CallOk sh id ⟨call, turn, .waiting, none⟩
  | returned (call turn) : CallOk sh id ⟨call, turn, .returned, none⟩
  | cancelled (call turn) : CallOk sh id ⟨call, turn, .cancelled, none⟩
  | refused (call turn) : CallOk sh id ⟨call, turn, .refused, none⟩
  /-- a thread that outlives its call reads -/
  | orphan (call turn) : CallOk sh id ⟨call, turn, .cancelled, some .readRunning⟩
  | toRead (call turn) (hHolds : Holds sh id turn) :
      CallOk sh id ⟨call, turn, .reading, some .readQueued⟩
  | reads (call turn) (hHolds : Holds sh id turn) :
      CallOk sh id ⟨call, turn, .reading, some .readRunning⟩
  | hasRead (call turn) (hHolds : Holds sh id turn) :
      CallOk sh id ⟨call, turn, .reading, some (.readDone sh.file)⟩
  | toWrite (call turn v) (hHolds : Holds sh id turn) (hFollows : Follows sh call.core v) :
      CallOk sh id ⟨call, turn, .writing, some (.writeQueued v)⟩
  | toText (call turn v) (hHolds : Holds sh id turn) (hFollows : Follows sh call.core v) :
      CallOk sh id ⟨call, turn, .writing, some (.writeRunning v .text)⟩
  | toChmod (call turn v) (hHolds : Holds sh id turn) (hFollows : Follows sh call.core v)
      (hPart : sh.part = some v) :
      CallOk sh id ⟨call, turn, .writing, some (.writeRunning v .chmod)⟩
  | toReplace (call turn v) (hHolds : Holds sh id turn) (hFollows : Follows sh call.core v)
      (hPart : sh.part = some v) :
      CallOk sh id ⟨call, turn, .writing, some (.writeRunning v .replace)⟩
  | written (call turn) (hHolds : Holds sh id turn) :
      CallOk sh id ⟨call, turn, .writing, some (.written sh.file)⟩
  | unsealed (call turn) (hHolds : Holds sh id turn) :
      CallOk sh id ⟨call, turn, .writing, some .unsealed⟩

/-- Updates that stand are in the file and of calls that had the lock. -/
structure Settled (sh : Shared V) : Prop where
  kept : sh.Kept
  past : ∀ core turn record, sh.standing core = some (turn, record) → turn < sh.turns

structure Orderly (w : Writers V) : Prop where
  settled : Settled w.shared
  fresh   : ∀ {id c}, w.calls id = some c → id < w.next
  calls   : ∀ {id c}, w.calls id = some c → CallOk w.shared id c

/-- Calls without the lock are all right whatever the shared state. -/
theorem CallOk.of_not_holder {sh : Shared V} {id : Nat} {c : CallState V} (h : CallOk sh id c)
    (hHolder : sh.holder ≠ some id) (sh' : Shared V) : CallOk sh' id c := by
  cases h with
  | waiting call turn => exact .waiting call turn
  | returned call turn => exact .returned call turn
  | cancelled call turn => exact .cancelled call turn
  | refused call turn => exact .refused call turn
  | orphan call turn => exact .orphan call turn
  | toRead call turn hHolds | reads call turn hHolds | hasRead call turn hHolds
  | written call turn hHolds | unsealed call turn hHolds => exact absurd hHolds.holder hHolder
  | toWrite call turn v hHolds | toText call turn v hHolds | toChmod call turn v hHolds
  | toReplace call turn v hHolds => exact absurd hHolds.holder hHolder

/-- A step of one call keeps what it has to. -/
structure StepOk (id : Nat) (sh : Shared V) (next : Shared V × CallState V) : Prop where
  settled : Settled next.1
  own     : CallOk next.1 id next.2
  /-- what the calls share changes only while no other call has the lock -/
  frame   : next.1 = sh ∨ ∀ other, other ≠ id → sh.holder ≠ some other

theorem orderly_advance {w : Writers V} (h : Orderly w) {id : Nat}
    {step : CallState V → Shared V × CallState V}
    (hStep : ∀ c, w.calls id = some c → StepOk id w.shared (step c)) :
    Orderly (w.advance id step) := by
  unfold Writers.advance
  cases hCall : w.calls id with
  | none => exact h
  | some c =>
    have hOk := hStep c hCall
    refine ⟨hOk.settled, fun {other d} hOther => ?_, fun {other d} hOther => ?_⟩
    · simp only [Function.update_apply] at hOther
      -- the call that has moved, and the others
      by_cases hId : other = id
      · rw [hId]
        exact h.fresh hCall
      · rw [if_neg hId] at hOther
        exact h.fresh hOther
    · simp only [Function.update_apply] at hOther
      by_cases hId : other = id
      · rw [if_pos hId] at hOther
        obtain rfl := Option.some.inj hOther
        rw [hId]
        exact hOk.own
      · rw [if_neg hId] at hOther
        have hOld := h.calls hOther
        -- either nothing they share has changed, or they do not hold the lock
        rcases hOk.frame with hSame | hAlone
        · simp only [hSame]
          exact hOld
        · exact hOld.of_not_holder (hAlone other hId) _

theorem alone_of_holder {sh : Shared V} {id : Nat} (h : sh.holder = some id) :
    ∀ other, other ≠ id → sh.holder ≠ some other := by
  intro other hOther hHolder
  rw [h] at hHolder
  exact hOther (Option.some.inj hHolder).symm

theorem stepOk_same {sh : Shared V} {id : Nat} {c : CallState V} (hSettled : Settled sh)
    (hOk : CallOk sh id c) : StepOk id sh (sh, c) :=
  ⟨hSettled, hOk, Or.inl rfl⟩

theorem stepOk_acquire {sh : Shared V} {id : Nat} {c : CallState V} (hSettled : Settled sh)
    (hOk : CallOk sh id c) : StepOk id sh (acquireStep sh id c) := by
  unfold acquireStep
  split
  · rename_i hFree
    have hHolds : Holds { sh with holder := some id, turns := sh.turns + 1 } id sh.turns :=
      ⟨rfl, Nat.lt_succ_self sh.turns, hSettled.past⟩
    refine ⟨⟨hSettled.kept, fun core turn record hStands => ?_⟩, .toRead c.call _ hHolds,
      Or.inr fun other _ => ?_⟩
    · have hPast := hSettled.past core turn record hStands
      show turn < sh.turns + 1
      omega
    · rw [hFree.2]
      exact fun hSome => by cases hSome
  · exact stepOk_same hSettled hOk

/-- What stands after a replacement stood before, and is of another core. -/
theorem standing_replace {sh : Shared V} {id : Nat} {c : CallState V} {v : Records V}
    (hHolds : Holds sh id c.turn) {core : String} {turn : Nat} {record : Option (CoreRecord V)}
    (h : (sh.replace c v).standing core = some (turn, record)) :
    sh.standing core = some (turn, record) ∧ core ≠ c.call.core := by
  unfold Shared.replace at h
  simp only at h
  split at h
  · rw [Function.update_apply] at h
    by_cases hCore : core = c.call.core
    · rw [if_pos hCore] at h
      cases h
    · rw [if_neg hCore] at h
      exact ⟨h, hCore⟩
  · rename_i hReplaced
    refine ⟨h, fun hCore => hReplaced ?_⟩
    rw [← hCore, h]
    exact decide_eq_true (hHolds.later core turn record h)

/-- Moving the content into place: the call's own core has no update standing
any more, and the others have what they had. -/
theorem stepOk_replace {sh : Shared V} {id : Nat} {call : Call V} {turn : Nat} {v : Records V}
    (hSettled : Settled sh) (hHolds : Holds sh id turn) (hFollows : Follows sh call.core v) :
    StepOk id sh (sh.replace ⟨call, turn, .writing, some (.writeRunning v .replace)⟩ v,
      ⟨call, turn, .writing, some (.written v)⟩) := by
  have hOld : ∀ core standing record,
      (sh.replace ⟨call, turn, .writing, some (.writeRunning v .replace)⟩ v).standing core =
        some (standing, record) → sh.standing core = some (standing, record) ∧ core ≠ call.core :=
    fun core standing record hStands =>
      standing_replace (c := ⟨call, turn, .writing, some (.writeRunning v .replace)⟩) hHolds hStands
  refine ⟨⟨fun core standing record hStands => ?_, fun core standing record hStands => ?_⟩,
    .written call turn ⟨hHolds.holder, hHolds.past, fun core standing record hStands => ?_⟩,
    Or.inr (alone_of_holder hHolds.holder)⟩
  · obtain ⟨hStood, hCore⟩ := hOld core standing record hStands
    show v core = record
    rw [hFollows core hCore]
    exact hSettled.kept core standing record hStood
  · exact hSettled.past core standing record (hOld core standing record hStands).1
  · exact hHolds.later core standing record (hOld core standing record hStands).1

theorem stepOk_thread {sh : Shared V} {id : Nat} {c : CallState V} (hSettled : Settled sh)
    (hOk : CallOk sh id c) : StepOk id sh (threadStep json sh c) := by
  cases hOk with
  | waiting call turn => exact stepOk_same hSettled (.waiting call turn)
  | returned call turn => exact stepOk_same hSettled (.returned call turn)
  | cancelled call turn => exact stepOk_same hSettled (.cancelled call turn)
  | refused call turn => exact stepOk_same hSettled (.refused call turn)
  | orphan call turn =>
    -- nobody awaits what it has read
    exact stepOk_same hSettled (.cancelled call turn)
  | toRead call turn hHolds => exact stepOk_same hSettled (.reads call turn hHolds)
  | reads call turn hHolds => exact stepOk_same hSettled (.hasRead call turn hHolds)
  | hasRead call turn hHolds => exact stepOk_same hSettled (.hasRead call turn hHolds)
  | toWrite call turn v hHolds hFollows =>
    exact stepOk_same hSettled (.toText call turn v hHolds hFollows)
  | toText call turn v hHolds hFollows =>
    show StepOk id sh (if v.sealable json call.core then _ else _)
    split
    · refine ⟨⟨hSettled.kept, hSettled.past⟩, .toChmod call turn v ?_ hFollows rfl,
        Or.inr (alone_of_holder hHolds.holder)⟩
      exact ⟨hHolds.holder, hHolds.past, hHolds.later⟩
    · exact stepOk_same hSettled (.unsealed call turn hHolds)
  | toChmod call turn v hHolds hFollows hPart =>
    simp only [threadStep, hPart]
    exact stepOk_same hSettled (.toReplace call turn v hHolds hFollows hPart)
  | toReplace call turn v hHolds hFollows hPart =>
    simp only [threadStep, hPart]
    exact stepOk_replace hSettled hHolds hFollows
  | written call turn hHolds => exact stepOk_same hSettled (.written call turn hHolds)
  | unsealed call turn hHolds => exact stepOk_same hSettled (.unsealed call turn hHolds)

/-- A call changes the record of its core only. -/
theorem follows_change (json : JsonText V) (sh : Shared V) (call : Call V) :
    Follows sh call.core (call.change json sh.file) := by
  intro other hOther
  cases call with
  | save core state enabled settings => exact Function.update_of_ne hOther _ sh.file
  | remove core => exact Function.update_of_ne hOther _ sh.file

/-- The call returns: its update stands from now on. -/
theorem stepOk_return {sh : Shared V} {id : Nat} {call : Call V} {turn : Nat}
    (hSettled : Settled sh) (hHolds : Holds sh id turn) :
    StepOk id sh
      ({ sh with
          holder := none
          standing := Function.update sh.standing call.core (some (turn, sh.file call.core)) },
        ⟨call, turn, .returned, none⟩) := by
  refine ⟨⟨fun core standing record hStands => ?_, fun core standing record hStands => ?_⟩,
    .returned call turn, Or.inr (alone_of_holder hHolds.holder)⟩
  all_goals
    simp only [Function.update_apply] at hStands
    by_cases hCore : core = call.core
  · rw [if_pos hCore] at hStands
    obtain ⟨-, rfl⟩ := Prod.mk.inj (Option.some.inj hStands)
    rw [hCore]
  · rw [if_neg hCore] at hStands
    exact hSettled.kept core standing record hStands
  · rw [if_pos hCore] at hStands
    obtain ⟨rfl, -⟩ := Prod.mk.inj (Option.some.inj hStands)
    exact hHolds.past
  · rw [if_neg hCore] at hStands
    exact hSettled.past core standing record hStands

/-- The lock is left, and no thread writes for the call. -/
theorem stepOk_leave {sh : Shared V} {id turn : Nat} {c : CallState V} (hSettled : Settled sh)
    (hHolds : Holds sh id turn) (hOk : CallOk { sh with holder := none } id c) :
    StepOk id sh ({ sh with holder := none }, c) :=
  ⟨⟨hSettled.kept, hSettled.past⟩, hOk, Or.inr (alone_of_holder hHolds.holder)⟩

theorem stepOk_resume {sh : Shared V} {id : Nat} {c : CallState V} (hSettled : Settled sh)
    (hOk : CallOk sh id c) : StepOk id sh (resumeStep json sh c) := by
  cases hOk with
  | hasRead call turn hHolds =>
    exact stepOk_same hSettled
      (.toWrite call turn _ hHolds (follows_change json sh call))
  | written call turn hHolds => exact stepOk_return hSettled hHolds
  | unsealed call turn hHolds => exact stepOk_leave hSettled hHolds (.refused call turn)
  | waiting call turn => exact stepOk_same hSettled (.waiting call turn)
  | returned call turn => exact stepOk_same hSettled (.returned call turn)
  | cancelled call turn => exact stepOk_same hSettled (.cancelled call turn)
  | refused call turn => exact stepOk_same hSettled (.refused call turn)
  | orphan call turn => exact stepOk_same hSettled (.orphan call turn)
  | toRead call turn hHolds => exact stepOk_same hSettled (.toRead call turn hHolds)
  | reads call turn hHolds => exact stepOk_same hSettled (.reads call turn hHolds)
  | toWrite call turn v hHolds hFollows =>
    exact stepOk_same hSettled (.toWrite call turn v hHolds hFollows)
  | toText call turn v hHolds hFollows =>
    exact stepOk_same hSettled (.toText call turn v hHolds hFollows)
  | toChmod call turn v hHolds hFollows hPart =>
    exact stepOk_same hSettled (.toChmod call turn v hHolds hFollows hPart)
  | toReplace call turn v hHolds hFollows hPart =>
    exact stepOk_same hSettled (.toReplace call turn v hHolds hFollows hPart)

theorem stepOk_cancel {sh : Shared V} {id : Nat} {c : CallState V} (hSettled : Settled sh)
    (hOk : CallOk sh id c) (hSpared : ∀ v next, c.worker ≠ some (.writeRunning v next)) :
    StepOk id sh (cancelStep sh c) := by
  cases hOk with
  | waiting call turn => exact stepOk_same hSettled (.cancelled call turn)
  | returned call turn => exact stepOk_same hSettled (.returned call turn)
  | cancelled call turn => exact stepOk_same hSettled (.cancelled call turn)
  | refused call turn => exact stepOk_same hSettled (.refused call turn)
  | orphan call turn => exact stepOk_same hSettled (.orphan call turn)
  | reads call turn hHolds => exact stepOk_leave hSettled hHolds (.orphan call turn)
  | toRead call turn hHolds | hasRead call turn hHolds | written call turn hHolds
  | unsealed call turn hHolds => exact stepOk_leave hSettled hHolds (.cancelled call turn)
  | toWrite call turn v hHolds hFollows =>
    exact stepOk_leave hSettled hHolds (.cancelled call turn)
  | toText call turn v | toChmod call turn v | toReplace call turn v =>
    exact absurd rfl (hSpared v _)

theorem orderly_step (w : Writers V) (e : WriterEvent V) (h : Orderly w) (hOk : SparesWriter w e) :
    Orderly ((writerMachine json).next w e) := by
  cases e with
  -- a new call waits, under an id that is not in use
  | call call =>
    refine ⟨h.settled, fun {id c} hCall => ?_, fun {id c} hCall => ?_⟩
    · have hNew : Function.update w.calls w.next (some ⟨call, 0, .waiting, none⟩) id = some c := hCall
      show id < w.next + 1
      by_cases hId : id = w.next
      · omega
      · rw [Function.update_of_ne hId] at hNew
        have hFresh := h.fresh hNew
        omega
    · have hNew : Function.update w.calls w.next (some ⟨call, 0, .waiting, none⟩) id = some c := hCall
      by_cases hId : id = w.next
      · subst hId
        rw [Function.update_self] at hNew
        obtain rfl := Option.some.inj hNew
        exact .waiting call 0
      · rw [Function.update_of_ne hId] at hNew
        exact h.calls hNew
  -- each step of a call is one of the four step lemmas
  | acquire id =>
    exact orderly_advance h fun c hCall => stepOk_acquire h.settled (h.calls hCall)
  | thread id =>
    exact orderly_advance h fun c hCall => stepOk_thread h.settled (h.calls hCall)
  | resume id =>
    exact orderly_advance h fun c hCall => stepOk_resume h.settled (h.calls hCall)
  -- the one step that the condition is about: cancelling a call whose thread still works
  | cancel id =>
    refine orderly_advance h fun c hCall => stepOk_cancel h.settled (h.calls hCall) ?_
    intro v next hWorker
    exact hOk ⟨c, v, next, hCall, hWorker⟩

-- ---------------------------------------------------------------------------
-- Runs
-- ---------------------------------------------------------------------------

theorem Orderly.noneFailed {w : Writers V} (h : Orderly w) : NoneFailed w := by
  intro id c hCall hFailed
  have hOk := h.calls hCall
  cases hOk <;> cases hFailed

theorem orderly_init : Orderly (Writers.init : Writers V) :=
  ⟨⟨(fun _ _ _ hStands => by cases hStands), (fun _ _ _ hStands => by cases hStands)⟩,
    (fun hCall => by cases hCall), (fun hCall => by cases hCall)⟩

/--
**Updates are kept.** In every run of concurrent saves and removals in which
no call is cancelled while its thread writes, at every moment each update that
a call returned from is in the file unless a later call for the core has
replaced it, and no call has failed for want of its temporary file.
-/
theorem updates_kept (json : JsonText V) (events : List (WriterEvent V))
    (hAlong : (writerMachine json).Along (fun _ => SparesWriter) [] Writers.init events) :
    (writerMachine json).Always (fun w => w.shared.Kept ∧ NoneFailed w) Writers.init events := by
  rintro pre post rfl
  rw [Machine.along_append] at hAlong
  have hOrderly : Orderly ((writerMachine json).exec Writers.init pre) :=
    (writerMachine json).along_inv (fun _ => Orderly)
      (fun _ w e h hOk => orderly_step w e h hOk) orderly_init hAlong.1
  exact ⟨hOrderly.settled.kept, hOrderly.noneFailed⟩

/-- Everything a call does when nobody gets in its way. -/
def wholeCall (id : Nat) : List (WriterEvent V) :=
  [.acquire id, .thread id, .thread id, .resume id, .thread id, .thread id, .thread id, .thread id,
    .resume id]

/-- A call up to where its thread is about to write the temporary file. -/
def untilText (id : Nat) : List (WriterEvent V) :=
  [.acquire id, .thread id, .thread id, .resume id, .thread id]

/-- SSH's call is cancelled while its thread writes; its thread writes on after
xray's call has returned. -/
def lateWrite : List (WriterEvent Unit) :=
  [.call (.save "ssh" .running true none), .call (.save "xray" .running true none)] ++
    untilText 0 ++ [.cancel 0] ++ wholeCall 1 ++ [.thread 0, .thread 0, .thread 0]

/-- The same, but the late thread moves the file that xray's call has written. -/
def lateMove : List (WriterEvent Unit) :=
  [.call (.save "ssh" .running true none), .call (.save "xray" .running true none)] ++
    untilText 0 ++ [.thread 0, .thread 0, .cancel 0] ++ untilText 1 ++
    [.thread 1, .thread 0, .thread 1, .resume 1]

/-- SSH's call is cancelled before its thread begins. -/
def earlyCancel : List (WriterEvent Unit) :=
  [.call (.save "ssh" .running true none), .call (.save "xray" .running true none), .acquire 0,
    .cancel 0] ++ wholeCall 1

/--
The condition at that run: the cancelled call was still waiting for its thread,
so nothing of it is written, and the other core's update is kept.
-/
theorem updates_kept_earlyCancel :
    (writerMachine JsonText.unit).Always (fun w => w.shared.Kept ∧ NoneFailed w) Writers.init
      earlyCancel := by
  have hSpared : ¬ ((writerMachine JsonText.unit).exec Writers.init
      (earlyCancel.take 3)).isWriting 0 := by
    rintro ⟨c, v, next, hCall, hWorker⟩
    rw [← Option.some.inj hCall] at hWorker
    cases hWorker
  have hAlong : (writerMachine JsonText.unit).Along (fun _ => SparesWriter) [] Writers.init
      earlyCancel :=
    ⟨trivial, trivial, trivial, hSpared, trivial, trivial, trivial, trivial, trivial, trivial,
      trivial, trivial, trivial, trivial⟩
  exact updates_kept JsonText.unit earlyCancel hAlong

/-- An update is lost in the one run, and in the other a call finds its
temporary file gone. -/
theorem update_lost :
    ¬ (writerMachine JsonText.unit).Always (fun w => w.shared.Kept) Writers.init lateWrite ∧
      ¬ (writerMachine JsonText.unit).Always NoneFailed Writers.init lateMove := by
  constructor
  · intro hAlways
    have hKept := hAlways lateWrite [] (List.append_nil _).symm
    have hXray := hKept "xray" 1 (some ⟨"running", true, ()⟩) rfl
    cases hXray
  · intro hAlways
    have hNone := hAlways lateMove [] (List.append_nil _).symm
    exact hNone 1 _ rfl rfl

end ZagrosNode.State
