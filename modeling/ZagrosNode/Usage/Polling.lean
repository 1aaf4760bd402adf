import ZagrosNode.Lib.Machine
import ZagrosNode.Usage.Baselines

/-!
# ZagrosNode — overlapping usage polls

A poll visits the cores one after the other. For each it reads the provider's
counters, later hands the reading to the core's tracker and collects the
tracker's cursors, and after the last core it merges what it collected over
the baseline file and returns its records. Polls overlap: between any two of
these steps other polls may take theirs. A restart loses the polls in flight
and rebuilds the trackers from the file.

A step is *in order* when it hands no tracker a reading older than the one it
has and puts no older cursor over a newer one in the file. What runs of such
steps report is in `Usage/Metering.lean`.

What a provider counts goes up only. The state of a poll is the list of cores it has
yet to visit, the reading of the one it is at once there is one, and the records and
cursors collected so far. A core whose read fails or takes too long is skipped.
Nothing is shared between polls but the trackers and the file.

A tracker is given a whole reading at once, row by row, and `observeAll_spec` is the
summary the accounting needs: what it remembers afterwards is the reading where there
was a row, and what the records report is the growth. Counters that went back count
in full, which is right for a provider that was restarted and wrong for a reading
that came late.

A failed write of the file is logged and the poll goes on to its answer, so returning
and storing are two things.

Main results:

* `observeAll_spec` — what a tracker remembers and what the records report
  after a reading is handed over.
-/

namespace ZagrosNode.Usage

open ZagrosNode.Lib ZagrosNode.Cores

-- ---------------------------------------------------------------------------
-- State
-- ---------------------------------------------------------------------------

/-- One usage record of a response. -/
structure Record where
  core    : CoreId
  account : String
  growth  : Totals
  deriving DecidableEq, Repr

/-- A request in flight. -/
structure Poll where
  /-- the cores it has yet to visit -/
  todo      : List CoreId
  /-- the counters of the core it is visiting, once they are read -/
  reading   : Option (Dict String Totals)
  records   : List Record
  baselines : BaselineFile

/-- The providers' counters, the trackers, the file and the requests in flight. -/
structure Node where
  counters : CoreId → String → Nat × Nat
  trackers : CoreId → DeltaTracker String
  file     : BaselineFile
  polls    : Dict Nat Poll

/-- An agent that has never been polled. -/
def Node.fresh (counters : CoreId → String → Nat × Nat) : Node :=
  ⟨counters, fun _ => Dict.empty, BaselineFile.empty, Dict.empty⟩

inductive Event
  /-- traffic of an account -/
  | grow (core : CoreId) (account : String) (more : Nat × Nat)
  | begin (id : Nat) (cores : List CoreId)
  /-- the provider answers with the counters of these accounts -/
  | read (id : Nat) (accounts : List String)
  | apply (id : Nat)
  /-- the core's read times out or fails -/
  | skip (id : Nat)
  | finish (id : Nat) (written : Bool)
  | restart

-- ---------------------------------------------------------------------------
-- Steps
-- ---------------------------------------------------------------------------

/-- The counters of some accounts, as the provider reports them. -/
def readCounters (counters : String → Nat × Nat) (accounts : List String) : Dict String Totals :=
  Dict.ofPairs (accounts.map fun account =>
    (account, (((counters account).1 : Int), ((counters account).2 : Int))))

/-- Hand every row of a reading to the tracker; records without growth are
left out of the response. -/
def observeAll (core : CoreId) (t : DeltaTracker String) :
    List (String × Totals) → List Record × DeltaTracker String
  | []        => ([], t)
  | e :: rest =>
    let observed := t.observe e.1 e.2
    let later := observeAll core observed.2 rest
    (if observed.1 = (0, 0) then later.1 else ⟨core, e.1, observed.1⟩ :: later.1, later.2)

/-- The tracker a driver has after the boot restored its part of the file. -/
def restoredTracker (f : BaselineFile) (core : CoreId) : DeltaTracker String :=
  match readBaselines f.toJson with
  | .ok b    => DeltaTracker.restore Dict.empty ((b.get? core.name).getD Dict.empty)
  | .error _ => Dict.empty

/-- The poll after it handed over its reading and collected the cursors. -/
def Poll.advance (p : Poll) (core : CoreId) (rest : List CoreId)
    (observed : List Record × DeltaTracker String) : Poll where
  todo      := rest
  reading   := none
  records   := p.records ++ observed.1
  baselines := p.baselines.collect core observed.2.entries

namespace Node

variable (s : Node)

def withPoll (id : Nat) (p : Poll) : Node := { s with polls := s.polls.set id p }

def grow (core : CoreId) (account : String) (more : Nat × Nat) : Node :=
  { s with
    counters := fun core' account' =>
      if core' = core ∧ account' = account then
        ((s.counters core account).1 + more.1, (s.counters core account).2 + more.2)
      else s.counters core' account' }

/-- `get_usage` goes on with its reading; then the cursors are collected. -/
def apply (id : Nat) (p : Poll) (core : CoreId) (rest : List CoreId)
    (reading : Dict String Totals) : Node :=
  let observed := observeAll core (s.trackers core) reading.entries
  { s with
    trackers := Function.update s.trackers core observed.2
    polls := s.polls.set id (p.advance core rest observed) }

@[simp] theorem apply_trackers (id : Nat) (p : Poll) (core : CoreId) (rest : List CoreId)
    (reading : Dict String Totals) :
    (s.apply id p core rest reading).trackers = Function.update s.trackers core
      (observeAll core (s.trackers core) reading.entries).2 := rfl

@[simp] theorem apply_polls (id : Nat) (p : Poll) (core : CoreId) (rest : List CoreId)
    (reading : Dict String Totals) :
    (s.apply id p core rest reading).polls = s.polls.set id
      (p.advance core rest (observeAll core (s.trackers core) reading.entries)) := rfl

/-- `_save_usage_baselines`; a write that fails is only logged. -/
def finish (id : Nat) (p : Poll) (written : Bool) : Node :=
  { s with
    file := if written then s.file.save p.baselines else s.file
    polls := s.polls.pop id }

def restart : Node :=
  { s with trackers := restoredTracker s.file, polls := Dict.empty }

end Node

/-- One step, with the records it returns to the panel. Steps a poll is not
ready for do nothing. -/
def step (s : Node) : Event → Node × List Record
  | .grow core account more => (s.grow core account more, [])
  | .begin id cores =>
    match s.polls.get? id with
    | none   => (s.withPoll id ⟨cores, none, [], BaselineFile.empty⟩, [])
    | some _ => (s, [])
  | .read id accounts =>
    match s.polls.get? id with
    | some ⟨core :: rest, none, records, baselines⟩ =>
      (s.withPoll id
        ⟨core :: rest, some (readCounters (s.counters core) accounts), records, baselines⟩, [])
    | _ => (s, [])
  | .apply id =>
    match s.polls.get? id with
    | some ⟨core :: rest, some reading, records, baselines⟩ =>
      (s.apply id ⟨core :: rest, some reading, records, baselines⟩ core rest reading, [])
    | _ => (s, [])
  | .skip id =>
    match s.polls.get? id with
    | some ⟨_ :: rest, _, records, baselines⟩ =>
      (s.withPoll id ⟨rest, none, records, baselines⟩, [])
    | _ => (s, [])
  | .finish id written =>
    match s.polls.get? id with
    | some ⟨[], reading, records, baselines⟩ =>
      (s.finish id ⟨[], reading, records, baselines⟩ written, records)
    | _ => (s, [])
  | .restart => (s.restart, [])

def pollMachine : Machine Node Event (List Record) where
  step := step

-- ---------------------------------------------------------------------------
-- Steps in order
-- ---------------------------------------------------------------------------

/-- Neither component is larger. -/
def Totals.below (a b : Totals) : Bool := decide (a.1 ≤ b.1 ∧ a.2 ≤ b.2)

theorem Totals.of_le_of_below {a b : Totals} (h : Totals.below a b = true) (side : Side) :
    side.of a ≤ side.of b := by
  rw [Totals.below, decide_eq_true_eq] at h
  cases side
  · exact h.1
  · exact h.2

/-- The rows of a reading are no older than what the tracker has. -/
def readingInOrder (t : DeltaTracker String) (reading : Dict String Totals) : Bool :=
  reading.entries.all fun e => Totals.below (t.base e.1) e.2

/-- The cursors a poll collected are no older than those on file, or, when the
write fails, no newer. -/
def saveInOrder (f baselines : BaselineFile) (written : Bool) : Bool :=
  baselines.entries.entries.all fun e =>
    let onFile := (f.entries.get? e.1).getD (0, 0)
    if written then Totals.below onFile e.2 else Totals.below e.2 onFile

/-- The condition on a step. -/
def inOrder (s : Node) : Event → Bool
  | .apply id =>
    match s.polls.get? id with
    | some ⟨core :: _, some reading, _, _⟩ => readingInOrder (s.trackers core) reading
    | _ => true
  | .finish id written =>
    match s.polls.get? id with
    | some ⟨[], _, _, baselines⟩ => saveInOrder s.file baselines written
    | _ => true
  | _ => true

-- ---------------------------------------------------------------------------
-- Totals of records
-- ---------------------------------------------------------------------------

/-- What the records report for an account, in one direction. -/
def total (core : CoreId) (account : String) (side : Side) (records : List Record) : Int :=
  ((records.filter fun r => decide (r.core = core ∧ r.account = account)).map
    fun r => side.of r.growth).sum

section Accounting

variable (core : CoreId) (account : String) (side : Side)

@[simp] theorem total_nil : total core account side [] = 0 := rfl

theorem total_append (a b : List Record) :
    total core account side (a ++ b) = total core account side a + total core account side b := by
  simp [total]

theorem total_cons (r : Record) (rest : List Record) :
    total core account side (r :: rest) =
      (if r.core = core ∧ r.account = account then side.of r.growth else 0) +
        total core account side rest := by
  unfold total
  by_cases h : r.core = core ∧ r.account = account <;> simp [h]

theorem total_observeAll_of_ne {other : CoreId} (h : other ≠ core) (t : DeltaTracker String)
    (l : List (String × Totals)) : total core account side (observeAll other t l).1 = 0 := by
  induction l generalizing t with
  | nil => rfl
  | cons e rest ih =>
    unfold observeAll
    simp only
    split
    · exact ih _
    · rw [total_cons, ih]
      simp [h]

/-- What handing over a reading does to one account: the tracker remembers its
row, and the records report the growth since the last one. -/
theorem observeAll_spec (t : DeltaTracker String) (l : List (String × Totals))
    (hNodup : (l.map Prod.fst).Nodup) :
    (observeAll core t l).2.get? account =
        ((assocGet? account l).map clamp).or (t.get? account) ∧
      total core account side (observeAll core t l).1 =
        (assocGet? account l).elim 0 fun r => delta (side.of r) (side.of (t.base account)) := by
  induction l generalizing t with
  | nil => exact ⟨rfl, rfl⟩
  | cons e rest ih =>
    obtain ⟨name, reading⟩ := e
    rw [List.map_cons, List.nodup_cons] at hNodup
    obtain ⟨hGet, hTotal⟩ := ih (t.observe name reading).2 hNodup.2
    have hSkip : ∀ records : List Record,
        total core account side (if (t.observe name reading).1 = (0, 0) then records
            else ⟨core, name, (t.observe name reading).1⟩ :: records) =
          (if name = account then side.of (t.observe name reading).1 else 0) +
            total core account side records := by
      intro records
      by_cases hZero : (t.observe name reading).1 = (0, 0)
      · rw [if_pos hZero, hZero]
        simp
      · rw [if_neg hZero, total_cons]
        simp
    unfold observeAll
    simp only
    rw [hSkip, hGet, hTotal, DeltaTracker.observe_get?]
    by_cases hName : name = account
    · subst hName
      -- the account has no second row
      rw [assocGet?_eq_none.mpr hNodup.1]
      simp [assocGet?, DeltaTracker.observe, of_deltas]
    · have hBase : (t.observe name reading).2.base account = t.base account := by
        unfold DeltaTracker.base
        rw [DeltaTracker.observe_get?, if_neg hName]
      simp [assocGet?, hName, hBase]

end Accounting

end ZagrosNode.Usage
