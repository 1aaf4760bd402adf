import ZagrosNode.Usage.Polling

/-!
# ZagrosNode — bytes are reported at most once

For one account of one core and one direction four numbers matter: the
provider's *counter*, the tracker's *base*, the cursor *stored* in the file,
and what has been *returned* so far. Every poll in flight has an *amount* it
will return and a cursor it has collected. In order means

  stored ≤ base ≤ counter,

and that for every bound from the stored cursor on, what has been returned and
what the polls with a cursor below the bound will return stays below the
bound. The first says what a restart falls back to, the second that the bytes
of different polls do not overlap.

The invariant is about one account of one core and one direction, with everything else
that happens in the run as noise: other accounts, other cores, polls of everything.
The bound in it is universally quantified. With the stored cursor for the bound it
says that after a crash the same bytes are not reported again by the polls still in
flight; with the counter it is the theorem.

* **grow** — the counter goes up, and nothing else changes.
* **read** — a poll notes the counter.
* **apply** — the tracker turns the reading into growth and takes it for its base; the
  poll's amount goes up by the growth, and so does the bound it is under.
* **finish** — the cursor goes to the file, and the amount to what was returned.
* **restart** — the base falls back to the file and the polls are gone.

A step that is out of order is one that would break one of the two inequalities: an
older reading after a newer one makes the growth count twice, and an older cursor over
a newer one makes the next restart do so.

Main results:

* `metered_step` — every step that is in order keeps this invariant.
* `usage_at_most_once` — in every run whose steps are in order, what has been
  returned for an account never exceeds its counter.
* `late_reading_reported_twice` — two overlapping polls that report more than
  the counter.
-/

namespace ZagrosNode.Usage

open ZagrosNode.Lib ZagrosNode.Cores

section Metering

variable (core : CoreId) (account : String) (side : Side)

-- ---------------------------------------------------------------------------
-- The four numbers
-- ---------------------------------------------------------------------------

def Node.counter (s : Node) : Int := side.of ((s.counters core account).1, (s.counters core account).2)

def Node.base (s : Node) : Int := side.of ((s.trackers core).base account)

def BaselineFile.stored (f : BaselineFile) : Int := side.of ((f.cursor core account).getD (0, 0))

/-- What the polls that have finished returned. -/
def returned (log : List (List Record)) : Int := total core account side log.flatten

/-- What the poll will return. -/
def Poll.amount (p : Poll) : Int := total core account side p.records

/-- The amount, if the collected cursor is within the bound. -/
def Poll.charge (bound : Int) (p : Poll) : Int :=
  match p.baselines.cursor core account with
  | none   => 0
  | some c => if side.of c ≤ bound then p.amount core account side else 0

/-- A poll in flight: its reading is no newer than the counter, and what it
collected is no newer than the base. -/
structure Poll.Sound (counter base : Int) (p : Poll) : Prop where
  reading : ∀ rest reading, p.todo = core :: rest → p.reading = some reading →
    ∀ r, reading.get? account = some r → 0 ≤ side.of r ∧ side.of r ≤ counter
  collected : ∀ c, p.baselines.cursor core account = some c → 0 ≤ side.of c ∧ side.of c ≤ base
  uncollected : p.baselines.cursor core account = none → p.amount core account side = 0
  amount_nonneg : 0 ≤ p.amount core account side

/-- The accounting invariant of one account in one direction. -/
structure Metered (log : List (List Record)) (s : Node) : Prop where
  stored_nonneg : 0 ≤ s.file.stored core account side
  stored_le : s.file.stored core account side ≤ s.base core account side
  base_le : s.base core account side ≤ s.counter core account side
  polls : ∀ id p, s.polls.get? id = some p →
    p.Sound core account side (s.counter core account side) (s.base core account side)
  covered : ∀ bound, s.file.stored core account side ≤ bound →
    returned core account side log +
      s.polls.sumOf (fun _ p => p.charge core account side bound) ≤ bound

variable {core account side}

theorem Metered.base_nonneg {log : List (List Record)} {s : Node}
    (h : Metered core account side log s) : 0 ≤ s.base core account side :=
  h.stored_nonneg.trans h.stored_le

-- ---------------------------------------------------------------------------
-- Charges
-- ---------------------------------------------------------------------------

namespace Poll

variable {p : Poll} {counter base bound : Int}

theorem charge_nonneg (h : p.Sound core account side counter base) :
    0 ≤ p.charge core account side bound := by
  unfold charge
  split
  · exact le_refl 0
  · split
    · exact h.amount_nonneg
    · exact le_refl 0

/-- From the base on, a poll is charged its amount. -/
theorem charge_eq_amount (h : p.Sound core account side counter base) (hBound : base ≤ bound) :
    p.charge core account side bound = p.amount core account side := by
  unfold charge
  cases hCursor : p.baselines.cursor core account with
  | none => exact (h.uncollected hCursor).symm
  | some c => exact if_pos ((h.collected c hCursor).2.trans hBound)

theorem charge_le_amount (h : p.Sound core account side counter base) :
    p.charge core account side bound ≤ p.amount core account side := by
  unfold charge
  split
  · exact h.amount_nonneg
  · split
    · exact le_refl _
    · exact h.amount_nonneg

/-- A newer counter and a newer base keep a poll sound. -/
theorem Sound.mono {counter' base' : Int} (h : p.Sound core account side counter base)
    (hCounter : counter ≤ counter') (hBase : base ≤ base') :
    p.Sound core account side counter' base' where
  reading rest reading hTodo hReading r hRow :=
    ⟨(h.reading rest reading hTodo hReading r hRow).1,
      (h.reading rest reading hTodo hReading r hRow).2.trans hCounter⟩
  collected c hCursor := ⟨(h.collected c hCursor).1, (h.collected c hCursor).2.trans hBase⟩
  uncollected := h.uncollected
  amount_nonneg := h.amount_nonneg

end Poll

@[simp] theorem returned_append (log : List (List Record)) (records : List Record) :
    returned core account side (log ++ [records]) =
      returned core account side log + total core account side records := by
  simp [returned, total_append]

-- ---------------------------------------------------------------------------
-- One step
-- ---------------------------------------------------------------------------

/-- Changing what a poll still has to do changes no amount. -/
theorem metered_withPoll {log : List (List Record)} {s : Node} {id : Nat} {p : Poll}
    (h : Metered core account side log s)
    (hSound : p.Sound core account side (s.counter core account side) (s.base core account side))
    (hCharge : ∀ bound, p.charge core account side bound =
      (s.polls.get? id).elim 0 fun old => old.charge core account side bound) :
    Metered core account side log (s.withPoll id p) where
  stored_nonneg := h.stored_nonneg
  stored_le := h.stored_le
  base_le := h.base_le
  polls := by
    intro other q hGet
    unfold Node.withPoll at hGet
    rw [Dict.get?_set] at hGet
    by_cases hId : id = other
    · rw [if_pos hId] at hGet
      obtain rfl := Option.some.inj hGet
      exact hSound
    · rw [if_neg hId] at hGet
      exact h.polls other q hGet
  covered := by
    intro bound hBound
    have hOld := h.covered bound hBound
    show returned core account side log + (s.polls.set id p).sumOf _ ≤ bound
    rw [Dict.sumOf_set, hCharge]
    omega

theorem metered_grow {log : List (List Record)} {s : Node} (h : Metered core account side log s)
    (core' : CoreId) (account' : String) (more : Nat × Nat) :
    Metered core account side log (s.grow core' account' more) := by
  have hGrows : s.counter core account side ≤
      (s.grow core' account' more).counter core account side := by
    unfold Node.counter Node.grow
    by_cases hSame : core = core' ∧ account = account'
    · obtain ⟨rfl, rfl⟩ := hSame
      cases side <;> simp [Side.of]
    · simp [hSame]
  exact
    { stored_nonneg := h.stored_nonneg
      stored_le := h.stored_le
      base_le := h.base_le.trans hGrows
      polls := fun id p hGet => (h.polls id p hGet).mono hGrows le_rfl
      covered := h.covered }

/-- The rows of a fresh reading are the counters. -/
theorem readCounters_get? {counters : String → Nat × Nat} {accounts : List String} {r : Totals}
    (h : (readCounters counters accounts).get? account = some r) :
    r = (((counters account).1 : Int), ((counters account).2 : Int)) := by
  rcases Dict.get?_setAll_cases h with hMem | hEmpty
  · obtain ⟨name, -, hPair⟩ := List.mem_map.mp hMem
    obtain ⟨rfl, rfl⟩ := Prod.mk.inj hPair
    rfl
  · cases hEmpty

theorem metered_begin {log : List (List Record)} {s : Node} (h : Metered core account side log s)
    {id : Nat} (hNew : s.polls.get? id = none) (cores : List CoreId) :
    Metered core account side log (s.withPoll id ⟨cores, none, [], BaselineFile.empty⟩) := by
  refine metered_withPoll h ?_ ?_
  · exact
      { reading := fun rest reading _ hReading => by cases hReading
        collected := fun c hCursor => by cases hCursor
        uncollected := fun _ => rfl
        amount_nonneg := le_rfl }
  · intro bound
    rw [hNew]
    rfl

theorem metered_read {log : List (List Record)} {s : Node} (h : Metered core account side log s)
    {id : Nat} {first : CoreId} {rest : List CoreId} {records : List Record}
    {baselines : BaselineFile}
    (hGet : s.polls.get? id = some ⟨first :: rest, none, records, baselines⟩)
    (accounts : List String) :
    Metered core account side log (s.withPoll id
      ⟨first :: rest, some (readCounters (s.counters first) accounts), records, baselines⟩) := by
  have hOld := h.polls id _ hGet
  refine metered_withPoll h ?_ ?_
  · refine { hOld with reading := ?_ }
    intro rest' reading hTodo hReading r hRow
    obtain ⟨rfl, -⟩ := List.cons.inj hTodo
    obtain rfl := Option.some.inj hReading
    rw [readCounters_get? hRow]
    refine ⟨?_, le_refl _⟩
    cases side <;> simp [Side.of]
  · intro bound
    rw [hGet]
    rfl

theorem metered_skip {log : List (List Record)} {s : Node} (h : Metered core account side log s)
    {id : Nat} {first : CoreId} {rest : List CoreId} {reading : Option (Dict String Totals)}
    {records : List Record} {baselines : BaselineFile}
    (hGet : s.polls.get? id = some ⟨first :: rest, reading, records, baselines⟩) :
    Metered core account side log (s.withPoll id ⟨rest, none, records, baselines⟩) := by
  have hOld := h.polls id _ hGet
  refine metered_withPoll h ?_ ?_
  · exact { hOld with reading := fun rest' reading' _ hReading => by cases hReading }
  · intro bound
    rw [hGet]
    rfl

-- ---------------------------------------------------------------------------
-- Handing over a reading
-- ---------------------------------------------------------------------------

theorem base_le_of_readingInOrder {t : DeltaTracker String} {reading : Dict String Totals}
    (h : readingInOrder t reading = true) {r : Totals} (hRow : reading.get? account = some r) :
    side.of (t.base account) ≤ side.of r := by
  unfold readingInOrder at h
  rw [List.all_eq_true] at h
  exact Totals.of_le_of_below (h (account, r) (Dict.mem_entries_iff.mpr hRow)) side

variable (core) in
/-- For the account, a reading in order moves the base from the last row to
this one, and the records report the difference. -/
theorem observeAll_base {t : DeltaTracker String} {reading : Dict String Totals}
    (hBase : 0 ≤ side.of (t.base account)) (hOrder : readingInOrder t reading = true) :
    side.of ((observeAll core t reading.entries).2.base account) =
        side.of (t.base account) + total core account side (observeAll core t reading.entries).1 ∧
      side.of (t.base account) ≤
        side.of ((observeAll core t reading.entries).2.base account) ∧
      (reading.get? account = none ∨ ∃ r, reading.get? account = some r ∧
        side.of ((observeAll core t reading.entries).2.base account) = side.of r) := by
  obtain ⟨hGet, hTotal⟩ := observeAll_spec core account side t reading.entries reading.nodup
  rw [hTotal, DeltaTracker.base, hGet]
  show _ ∧ _ ∧ (assocGet? account reading.entries = none ∨ _)
  cases hRow : reading.get? account with
  | none =>
    rw [Dict.get?] at hRow
    rw [hRow]
    refine ⟨?_, le_refl _, Or.inl rfl⟩
    simp [DeltaTracker.base]
  | some r =>
    have hLe : side.of (t.base account) ≤ side.of r := base_le_of_readingInOrder hOrder hRow
    rw [Dict.get?] at hRow
    rw [hRow]
    have hClamp : side.of (clamp r) = side.of r := by
      rw [of_clamp]
      exact max_eq_right (hBase.trans hLe)
    simp only [Option.map_some, Option.some_or, Option.getD_some, Option.elim_some, hClamp]
    rw [delta_of_le hBase hLe]
    exact ⟨by omega, hLe, Or.inr ⟨r, rfl, rfl⟩⟩

/-- Polls after one of them is replaced. -/
theorem sound_set {s : Node} {id : Nat} {p : Poll} {counter base : Int}
    (hNew : p.Sound core account side counter base)
    (hOld : ∀ id p, s.polls.get? id = some p → p.Sound core account side counter base) :
    ∀ id' q, (s.polls.set id p).get? id' = some q → q.Sound core account side counter base := by
  intro other q hGet
  rw [Dict.get?_set] at hGet
  by_cases hId : id = other
  · rw [if_pos hId] at hGet
    rwa [← Option.some.inj hGet]
  · rw [if_neg hId] at hGet
    exact hOld other q hGet

theorem metered_apply_other {log : List (List Record)} {s : Node}
    (h : Metered core account side log s) {id : Nat} {p : Poll} (hGet : s.polls.get? id = some p)
    {first : CoreId} (hOther : core ≠ first) (rest : List CoreId) (reading : Dict String Totals) :
    Metered core account side log (s.apply id p first rest reading) := by
  have hOld := h.polls id p hGet
  have hBase : (s.apply id p first rest reading).base core account side =
      s.base core account side := by
    unfold Node.base
    rw [Node.apply_trackers, Function.update_of_ne hOther]
  -- neither the amount nor the cursor of this core changes
  have hAmount : (p.advance first rest (observeAll first (s.trackers first)
      reading.entries)).amount core account side = p.amount core account side := by
    unfold Poll.amount Poll.advance
    rw [total_append, total_observeAll_of_ne core account side (Ne.symm hOther), add_zero]
  have hCursor : (p.advance first rest (observeAll first (s.trackers first)
      reading.entries)).baselines.cursor core account = p.baselines.cursor core account :=
    p.baselines.cursor_collect_of_ne hOther _ account
  constructor
  · exact h.stored_nonneg
  · rw [hBase]
    exact h.stored_le
  · rw [hBase]
    exact h.base_le
  · rw [hBase, Node.apply_polls]
    refine sound_set ?_ h.polls
    exact
      { reading := fun rest' reading' _ hReading => by cases hReading
        collected := fun c hc => hOld.collected c (by rwa [← hCursor])
        uncollected := fun hNone => hAmount.trans (hOld.uncollected (by rwa [← hCursor]))
        amount_nonneg := hAmount ▸ hOld.amount_nonneg }
  · intro bound hBound
    have hCovered := h.covered bound hBound
    rw [Node.apply_polls, Dict.sumOf_set, hGet, Option.elim_some]
    have hCharge : (p.advance first rest (observeAll first (s.trackers first)
        reading.entries)).charge core account side bound = p.charge core account side bound := by
      unfold Poll.charge
      rw [hCursor, hAmount]
    rw [hCharge]
    omega

/-- The heart of the matter: the bytes between the old base and the new one
are charged to this poll alone. -/
theorem metered_apply_own {log : List (List Record)} {s : Node}
    (h : Metered core account side log s) {id : Nat} {p : Poll} (hGet : s.polls.get? id = some p)
    {rest : List CoreId} {reading : Dict String Totals} (hTodo : p.todo = core :: rest)
    (hReading : p.reading = some reading)
    (hOrder : readingInOrder (s.trackers core) reading = true) :
    Metered core account side log (s.apply id p core rest reading) := by
  have hOld := h.polls id p hGet
  have hNonneg := h.base_nonneg
  obtain ⟨hMoved, hUp, hRow⟩ := observeAll_base core hNonneg hOrder
  have hStill : reading.get? account = none →
      total core account side (observeAll core (s.trackers core) reading.entries).1 = 0 := by
    intro hNone
    have hSpec := (observeAll_spec core account side (s.trackers core) reading.entries
      reading.nodup).2
    rw [Dict.get?] at hNone
    rwa [hNone] at hSpec
  have hBase : (s.apply id p core rest reading).base core account side =
      side.of ((observeAll core (s.trackers core) reading.entries).2.base account) := by
    unfold Node.base
    rw [Node.apply_trackers, Function.update_self]
  have hPolls := s.apply_polls id p core rest reading
  generalize observeAll core (s.trackers core) reading.entries = observed
    at hMoved hUp hRow hStill hBase hPolls
  have hAmount : (p.advance core rest observed).amount core account side =
      p.amount core account side + total core account side observed.1 :=
    total_append core account side p.records observed.1
  have hCursor : (p.advance core rest observed).baselines.cursor core account =
      (observed.2.get? account).or (p.baselines.cursor core account) :=
    p.baselines.cursor_collect core observed.2 account
  -- a tracker without the account has base zero, so it did not move
  have hUntracked : observed.2.get? account = none →
      total core account side observed.1 = 0 := by
    intro hNone
    have hZero : side.of (observed.2.base account) = 0 := by
      rw [DeltaTracker.base, hNone]
      exact Side.of_zero side
    unfold Node.base at hNonneg
    omega
  have hSound : (p.advance core rest observed).Sound core account side
      (s.counter core account side) (side.of (observed.2.base account)) := by
    constructor
    · intro rest' reading' _ hRead
      cases hRead
    · intro c hc
      rw [hCursor] at hc
      cases hNow : observed.2.get? account with
      | none =>
        rw [hNow, Option.none_or] at hc
        exact ⟨(hOld.collected c hc).1, (hOld.collected c hc).2.trans hUp⟩
      | some now =>
        rw [hNow, Option.some_or] at hc
        have hNew : side.of (observed.2.base account) = side.of c := by
          rw [DeltaTracker.base, hNow, ← Option.some.inj hc]
          rfl
        exact ⟨hNew ▸ hNonneg.trans hUp, hNew.ge⟩
    · intro hNone
      rw [hCursor, Option.or_eq_none_iff] at hNone
      rw [hAmount, hOld.uncollected hNone.2, hUntracked hNone.1, add_zero]
    · have hAmountNonneg := hOld.amount_nonneg
      rw [hAmount]
      omega
  constructor
  · exact h.stored_nonneg
  · rw [hBase]
    exact h.stored_le.trans hUp
  · rw [hBase]
    rcases hRow with hNone | ⟨r, hSome, hEq⟩
    · rw [hMoved, hStill hNone, add_zero]
      exact h.base_le
    · rw [hEq]
      exact (hOld.reading rest reading hTodo hReading r hSome).2
  · rw [hBase, hPolls]
    exact sound_set hSound fun id p hp => (h.polls id p hp).mono le_rfl hUp
  · intro bound hBound
    rw [hPolls, Dict.sumOf_set, hGet, Option.elim_some]
    by_cases hWithin : side.of (observed.2.base account) ≤ bound
    · -- within the bound every poll is charged its amount, as it is at the old base
      have hAtBase := h.covered (s.base core account side) h.stored_le
      have hSum : s.polls.sumOf (fun _ p => p.charge core account side bound) ≤
          s.polls.sumOf (fun _ p => p.charge core account side (s.base core account side)) := by
        refine Dict.sumOf_le fun id p hp => ?_
        rw [Poll.charge_eq_amount (h.polls id p hp) (le_refl _)]
        exact Poll.charge_le_amount (h.polls id p hp)
      rw [Poll.charge_eq_amount hSound hWithin, hAmount,
        Poll.charge_eq_amount hOld (hUp.trans hWithin)]
      unfold Node.base at hAtBase hSum
      omega
    · -- beyond it this poll is charged nothing new
      have hLess : (p.advance core rest observed).charge core account side bound ≤
          p.charge core account side bound := by
        cases hNow : observed.2.get? account with
        | none =>
          unfold Poll.charge
          rw [hCursor, hNow, Option.none_or, hAmount, hUntracked hNow, add_zero]
        | some now =>
          have hNone : (p.advance core rest observed).charge core account side bound = 0 := by
            unfold Poll.charge
            rw [hCursor, hNow, Option.some_or]
            refine if_neg ?_
            rwa [DeltaTracker.base, hNow] at hWithin
          rw [hNone]
          exact Poll.charge_nonneg hOld
      have hCovered := h.covered bound hBound
      omega

-- ---------------------------------------------------------------------------
-- The end of a poll, and a restart
-- ---------------------------------------------------------------------------

theorem stored_saveInOrder {f baselines : BaselineFile} {written : Bool}
    (h : saveInOrder f baselines written = true) {c : Totals}
    (hCursor : baselines.cursor core account = some c) :
    if written then f.stored core account side ≤ side.of c
    else side.of c ≤ f.stored core account side := by
  unfold saveInOrder at h
  rw [List.all_eq_true] at h
  have hBelow := h (baselineKey core.name account, c) (Dict.mem_entries_iff.mpr hCursor)
  cases written
  · exact Totals.of_le_of_below hBelow side
  · exact Totals.of_le_of_below hBelow side

theorem metered_finish {log : List (List Record)} {s : Node} (h : Metered core account side log s)
    {id : Nat} {p : Poll} (hGet : s.polls.get? id = some p) {written : Bool}
    (hOrder : saveInOrder s.file p.baselines written = true) :
    Metered core account side (log ++ [p.records]) (s.finish id p written) := by
  have hOld := h.polls id p hGet
  -- the file only moves forward, and not past the base
  have hForward : s.file.stored core account side ≤
        (s.finish id p written).file.stored core account side ∧
      (s.finish id p written).file.stored core account side ≤ s.base core account side := by
    unfold Node.finish
    cases written with
    | false => exact ⟨le_refl _, h.stored_le⟩
    | true =>
      unfold BaselineFile.stored
      simp only [if_true]
      rw [BaselineFile.cursor_save]
      cases hCursor : p.baselines.cursor core account with
      | none => exact ⟨le_refl _, h.stored_le⟩
      | some c => exact ⟨stored_saveInOrder hOrder hCursor, (hOld.collected c hCursor).2⟩
  -- from the new cursor on, the poll was charged its whole amount
  have hCharged : ∀ bound, (s.finish id p written).file.stored core account side ≤ bound →
      p.charge core account side bound = p.amount core account side := by
    intro bound hBound
    unfold Poll.charge
    cases hCursor : p.baselines.cursor core account with
    | none => exact (hOld.uncollected hCursor).symm
    | some c =>
      refine if_pos ?_
      have hSave : if written then s.file.stored core account side ≤ side.of c
          else side.of c ≤ s.file.stored core account side := stored_saveInOrder hOrder hCursor
      cases written with
      | false => exact hSave.trans hBound
      | true =>
        unfold Node.finish BaselineFile.stored at hBound
        simp only [if_true] at hBound
        rwa [BaselineFile.cursor_save, hCursor] at hBound
  constructor
  · exact h.stored_nonneg.trans hForward.1
  · exact hForward.2
  · exact h.base_le
  · intro other q hOther
    unfold Node.finish at hOther
    rw [Dict.get?_pop] at hOther
    by_cases hId : other = id
    · rw [if_pos hId] at hOther
      cases hOther
    · rw [if_neg hId] at hOther
      exact h.polls other q hOther
  · intro bound hBound
    have hCovered := h.covered bound (hForward.1.trans hBound)
    have hAmount := hCharged bound hBound
    unfold Poll.amount at hAmount
    rw [returned_append]
    unfold Node.finish
    rw [Dict.sumOf_pop, hGet, Option.elim_some]
    omega

/-- After a restart every driver has its cursors of the file. -/
theorem restoredTracker_get? (f : BaselineFile) (core : CoreId) (account : String) :
    (restoredTracker f core).get? account = f.cursor core account := by
  obtain ⟨b, hRead, hCursor⟩ := readBaselines_toJson f
  unfold restoredTracker
  rw [hRead]
  simp only
  rw [DeltaTracker.restore_get?, Dict.get?_empty, Option.or_none, ← hCursor, ByCore.cursor]
  cases b.get? core.name <;> rfl

theorem metered_restart {log : List (List Record)} {s : Node}
    (h : Metered core account side log s) : Metered core account side log s.restart := by
  have hBase : s.restart.base core account side = s.file.stored core account side := by
    unfold Node.base Node.restart DeltaTracker.base
    rw [restoredTracker_get?]
    rfl
  have hReturned : ∀ bound, s.file.stored core account side ≤ bound →
      returned core account side log ≤ bound := by
    intro bound hBound
    have hCovered := h.covered bound hBound
    have hSum : 0 ≤ s.polls.sumOf (fun _ p => p.charge core account side bound) :=
      Dict.sumOf_nonneg fun id p hp => Poll.charge_nonneg (h.polls id p hp)
    omega
  constructor
  · exact h.stored_nonneg
  · rw [hBase]
    exact le_refl _
  · rw [hBase]
    exact h.stored_le.trans h.base_le
  · intro id p hp
    cases hp
  · intro bound hBound
    have hEmpty := hReturned bound hBound
    show returned core account side log + 0 ≤ bound
    omega

-- ---------------------------------------------------------------------------
-- Every run
-- ---------------------------------------------------------------------------

theorem metered_idle {log : List (List Record)} {s : Node} (h : Metered core account side log s) :
    Metered core account side (log ++ [[]]) s :=
  { h with covered := fun bound hBound => by simpa using h.covered bound hBound }

/--
**One step.** The accounting invariant is kept by every step in order: what was
returned, with what the polls in flight are still to charge, stays within what
is on file.
-/
theorem metered_step {log : List (List Record)} {s : Node} {e : Event}
    (h : Metered core account side log s) (hOrder : inOrder s e = true) :
    Metered core account side (log ++ [(step s e).2]) (step s e).1 := by
  cases e with
  | grow core' account' more => exact metered_idle (metered_grow h core' account' more)
  -- a poll that is running already is not begun again
  | begin id cores =>
    unfold step
    simp only
    cases hGet : s.polls.get? id with
    | none => exact metered_idle (metered_begin h hGet cores)
    | some p => exact metered_idle h
  | read id accounts =>
    unfold step
    simp only
    split
    · rename_i hGet
      exact metered_idle (metered_read h hGet accounts)
    · exact metered_idle h
  -- a baseline is moved: of this core, or of another one
  | apply id =>
    unfold step inOrder at *
    simp only at hOrder ⊢
    split
    · rename_i first rest reading records baselines hGet
      rw [hGet] at hOrder
      by_cases hOwn : core = first
      · subst hOwn
        exact metered_idle (metered_apply_own h hGet rfl rfl hOrder)
      · exact metered_idle (metered_apply_other h hGet hOwn rest reading)
    · exact metered_idle h
  | skip id =>
    unfold step
    simp only
    split
    · rename_i hGet
      exact metered_idle (metered_skip h hGet)
    · exact metered_idle h
  -- the answer goes out, and the records in it join the log
  | finish id written =>
    unfold step inOrder at *
    simp only at hOrder ⊢
    split
    · rename_i reading records baselines hGet
      rw [hGet] at hOrder
      exact metered_finish h hGet hOrder
    · exact metered_idle h
  | restart => exact metered_idle (metered_restart h)

theorem metered_fresh (counters : CoreId → String → Nat × Nat) :
    Metered core account side [] (Node.fresh counters) := by
  have hCounter : 0 ≤ (Node.fresh counters).counter core account side := by
    unfold Node.counter
    cases side <;> simp [Side.of]
  have hStored : (Node.fresh counters).file.stored core account side = 0 := Side.of_zero side
  have hBase : (Node.fresh counters).base core account side = 0 := Side.of_zero side
  constructor
  · exact hStored.ge
  · rw [hStored, hBase]
  · rwa [hBase]
  · intro id p hp
    cases hp
  · intro bound hBound
    rw [hStored] at hBound
    show 0 + 0 ≤ bound
    omega

end Metering

/--
**Bytes are reported at most once.** In every run of overlapping polls,
traffic and restarts whose steps are all in order, at every point of the run
what has been returned for an account never exceeds its counter.
-/
theorem usage_at_most_once (counters : CoreId → String → Nat × Nat) (events : List Event)
    (hOrder : pollMachine.Along (fun _ s e => inOrder s e = true) [] (Node.fresh counters) events)
    (core : CoreId) (account : String) (side : Side) (pre post : List Event)
    (hPrefix : events = pre ++ post) :
    returned core account side (pollMachine.log (Node.fresh counters) pre) ≤
      (pollMachine.exec (Node.fresh counters) pre).counter core account side := by
  rw [hPrefix, Machine.along_append] at hOrder
  have hMetered := Machine.along_inv pollMachine (Metered core account side)
    (fun _ _ _ hInv hOk => metered_step hInv hOk) (metered_fresh counters) hOrder.1
  have hCovered := hMetered.covered _ (le_refl _)
  have hSum : 0 ≤ (pollMachine.exec (Node.fresh counters) pre).polls.sumOf (fun _ p =>
      p.charge core account side
        ((pollMachine.exec (Node.fresh counters) pre).file.stored core account side)) :=
    Dict.sumOf_nonneg fun id p hp => Poll.charge_nonneg (hMetered.polls id p hp)
  have hStored := hMetered.stored_le
  have hBase := hMetered.base_le
  rw [List.nil_append] at hCovered
  omega

-- ---------------------------------------------------------------------------
-- Two overlapping polls
-- ---------------------------------------------------------------------------

/-- No traffic yet. -/
def noTraffic : CoreId → String → Nat × Nat := fun _ _ => (0, 0)

/-- A poll, a restart, and a second poll. -/
def pollRestartPoll : List Event :=
  [.grow .ssh "a" (100, 0), .begin 1 [.ssh], .read 1 ["a"], .apply 1, .finish 1 true, .restart,
    .grow .ssh "a" (50, 0), .begin 2 [.ssh], .read 2 ["a"], .apply 2, .finish 2 true]

/-- A poll, a restart and a poll, with traffic between them. -/
theorem usage_at_most_once_pollRestartPoll :
    returned .ssh "a" .up (pollMachine.log (Node.fresh noTraffic) pollRestartPoll) ≤
      (pollMachine.exec (Node.fresh noTraffic) pollRestartPoll).counter .ssh "a" .up :=
  usage_at_most_once noTraffic pollRestartPoll
    ⟨rfl, rfl, rfl, by decide, by decide, rfl, rfl, rfl, rfl, by decide, by decide, trivial⟩
    .ssh "a" .up pollRestartPoll [] (List.append_nil _).symm

/-- The first poll hands over its reading after the second one did. -/
def lateReading : List Event :=
  [.grow .ssh "a" (100, 0), .begin 1 [.ssh], .read 1 ["a"], .grow .ssh "a" (100, 0),
    .begin 2 [.ssh], .read 2 ["a"], .apply 2, .finish 2 true, .apply 1, .finish 1 true]

/--
The account has moved 200 bytes: the second poll reports all of them, and the
first one, which read 100, is applied behind it and reports 100 again.
-/
theorem late_reading_reported_twice :
    (pollMachine.exec (Node.fresh noTraffic) lateReading).counter .ssh "a" .up = 200 ∧
      returned .ssh "a" .up (pollMachine.log (Node.fresh noTraffic) lateReading) = 300 := by
  decide

end ZagrosNode.Usage
