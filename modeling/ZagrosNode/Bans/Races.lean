import ZagrosNode.Bans.Projection
import ZagrosNode.Lib.Machine

/-!
# ZagrosNode — two ban pushes at once

`apply` runs in a worker thread, without a lock: it asks whether the table is
there, and later runs its one transaction. Two pushes that overlap can do
these four steps in any order.

The machine has the table and the phase of each request, and its events are the steps of
the two. A schedule is any list of events, and a step of a request that has ended does
nothing, so every interleaving is a run and every prefix of one, too.

`Atomic` is what one wants to read off the table at the end: the projection of a request
that reported ok, or the old table if none did. `Mixes` is the one step that spoils it:
a request that had found no table loads its own into one that is there by now, and the
merger is neither of the two.

`Inv` holds along every schedule without such a step. Its cases are the phases of the
two requests; what one request has found is compared with what the other has done since.
The converse takes a schedule up to its first step that mixes and shows that nothing
after it can repair the table.

Main results:

* `projections_atomic_iff` — whatever the order, the table ends up as the
  projection of one push that reported ok, exactly if no push that found no
  table loads its own into the other's, with neither of the two tables within
  the other.
* `projections_atomic_of_table` — a table that was there at the start keeps
  the pushes apart.
* `overlapping_pushes_mix` — two pushes on a host without the table, each with
  a ban of its own, leave both bans in it.
-/

namespace ZagrosNode.Bans

open ZagrosNode.Lib

-- ---------------------------------------------------------------------------
-- Steps
-- ---------------------------------------------------------------------------

/-- The two requests. -/
inductive Who
  | first
  | second
  deriving DecidableEq, Repr

/-- The request other than this one. -/
def Who.other : Who → Who
  | .first  => .second
  | .second => .first

/-- How far a call of `apply` is. -/
inductive Phase
  | ready
  | probed (active : List Row) (found : Bool)
  | done (report : Report)

structure World where
  table : Option Table
  phase : Who → Phase

/-- A request takes its next step. -/
inductive Event
  | probe (who : Who)
  | transact (who : Who) (reply : Reply)

/-- Both requests are about to start. -/
def start (table : Option Table) : World := ⟨table, fun _ => .ready⟩

namespace World

def setPhase (w : World) (who : Who) (phase : Phase) : World :=
  { w with phase := Function.update w.phase who phase }

@[simp] theorem setPhase_table (w : World) (who : Who) (phase : Phase) :
    (w.setPhase who phase).table = w.table := rfl

@[simp] theorem setPhase_self (w : World) (who : Who) (phase : Phase) :
    (w.setPhase who phase).phase who = phase := by
  simp [setPhase]

theorem setPhase_of_ne (w : World) {who other : Who} (phase : Phase) (h : other ≠ who) :
    (w.setPhase who phase).phase other = w.phase other := by
  simp [setPhase, h]

/-- The request reported ok. -/
def ReportedOk (w : World) (who : Who) : Prop := ∃ n, w.phase who = .done (.ok n)

/-- The request has ended. -/
def Done (w : World) (who : Who) : Prop := ∃ report, w.phase who = .done report

end World

variable (lib : Library) (renew nft : Bool) (pushes : Who → Push)

/-- The first half of `apply`. -/
def probe (p : Push) (table : Option Table) : Phase :=
  if nft then
    match p.active lib with
    | .error e   => .done (.raised e)
    | .ok active => .probed active table.isSome
  else .done (.error "nft is not installed")

/-- A request that has nothing to do at this point does nothing. -/
def step (w : World) : Event → World
  | .probe who          =>
    match w.phase who with
    | .ready => w.setPhase who (probe lib nft (pushes who) w.table)
    | _      => w
  | .transact who reply =>
    match w.phase who with
    | .probed active found =>
      let (table, report) := (pushes who).finish lib renew active found reply w.table
      { w.setPhase who (.done report) with table := table }
    | _ => w

/-- The machine of the two requests. -/
def requests : Machine World Event Unit := ⟨fun w e => (step lib renew nft pushes w e, ())⟩

/-- The two halves, one right after the other, are `apply`. -/
theorem step_probe_transact (w : World) (who : Who) (reply : Reply)
    (hReady : w.phase who = .ready) :
    let after := step lib renew nft pushes (step lib renew nft pushes w (.probe who))
      (.transact who reply)
    (after.table, after.phase who) =
      ((apply lib renew nft (pushes who) reply w.table).1,
        .done (apply lib renew nft (pushes who) reply w.table).2) := by
  simp only [step, hReady, probe, apply, World.setPhase_self]
  cases nft with
  | false => simp
  | true =>
    rw [if_pos rfl, if_pos rfl]
    cases (pushes who).active lib with
    | error e => simp
    | ok active => simp [World.setPhase]

-- ---------------------------------------------------------------------------
-- Atomicity
-- ---------------------------------------------------------------------------

/-- The table is the projection of a request that reported ok, or no request
did and the table is the one at the start. -/
def Atomic (table : Option Table) (w : World) : Prop :=
  (∃ who, w.ReportedOk who ∧ (pushes who).projection lib = .ok w.table) ∨
    ((∀ who, ¬ w.ReportedOk who) ∧ w.table = table)

/-- The step loads a table into one that the request had not found, and
neither table is within the other. -/
def Mixes (w : World) (e : Event) : Prop :=
  ∃ who stderr active old new, e = .transact who ⟨true, stderr⟩ ∧
    w.phase who = .probed active false ∧ w.table = some old ∧
    (pushes who).projection lib = .ok (some new) ∧
    ¬ Table.Within (!renew) old new ∧ ¬ Table.Within renew new old

variable {lib renew nft pushes}

/-- What the second half of a request does to the table `t`: nothing, or it
becomes the projection, or the projection is merged into a table that the
request had not found. -/
inductive Outcome (lib : Library) (renew : Bool) (p : Push) (t : Option Table) (found : Bool)
    (reply : Reply) : Option Table × Report → Prop
  /-- No ban is active and there was no table. -/
  | idle (n : Nat) (hProjection : p.projection lib = .ok none) (hAbsent : found = false) :
      Outcome lib renew p t found reply (t, .ok n)
  | failed (report : Report) (hReport : ∀ n, report ≠ .ok n) :
      Outcome lib renew p t found reply (t, report)
  | projected (n : Nat) (after : Option Table) (hProjection : p.projection lib = .ok after) :
      Outcome lib renew p t found reply (after, .ok n)
  | merged (n : Nat) (old new : Table) (hOld : t = some old) (hAbsent : found = false)
      (hAccepts : reply.accepts = true) (hProjection : p.projection lib = .ok (some new)) :
      Outcome lib renew p t found reply (some (old.merge renew new), .ok n)

/-- The four outcomes are all there are. -/
theorem finish_outcome {p : Push} {active : List Row} (hActive : p.active lib = .ok active)
    (found : Bool) (reply : Reply) (t : Option Table) :
    Outcome lib renew p t found reply (p.finish lib renew active found reply t) := by
  obtain ⟨accepts, stderr⟩ := reply
  have hError : ∀ text n, Report.error text ≠ .ok n := fun text n h => by cases h
  unfold Push.finish
  -- no active ban, a script that raises, or a script to run
  obtain ⟨-, hProjection, hTx⟩ | ⟨e, hTx⟩ | ⟨new, -, hProjection, hTx⟩ :=
    transaction_cases hActive found
  · rw [hTx]
    cases found with
    | false => exact .idle _ hProjection rfl
    | true =>
      cases accepts with
      | false => exact .failed _ (hError stderr)
      | true =>
        cases t with
        | none => exact .failed _ (hError stderr)
        | some old => exact .projected _ none hProjection
  · rw [hTx]
    exact .failed _ fun n h => by cases h
  · rw [hTx]
    cases accepts with
    | false => exact .failed _ (hError stderr)
    | true =>
      cases found with
      | true =>
        cases t with
        | none => exact .failed _ (hError stderr)
        | some old => exact .projected _ (some new) hProjection
      | false =>
        cases t with
        | none => exact .projected _ (some new) hProjection
        | some old => exact .merged _ old new rfl rfl rfl hProjection

-- ---------------------------------------------------------------------------
-- The invariant
-- ---------------------------------------------------------------------------

/-- What holds while no step mixes the tables. A request whose sibling has not
reported ok knows from its probe whether the table is there. -/
structure Inv (lib : Library) (pushes : Who → Push) (table : Option Table) (w : World) :
    Prop where
  atomic : Atomic lib pushes table w
  active : ∀ who rows found, w.phase who = .probed rows found → (pushes who).active lib = .ok rows
  found  : ∀ who rows found, w.phase who = .probed rows found → ¬ w.ReportedOk who.other →
    found = w.table.isSome

theorem inv_start (table : Option Table) : Inv lib pushes table (start table) := by
  refine ⟨Or.inr ⟨?_, rfl⟩, ?_, ?_⟩
  · intro who ⟨n, h⟩
    cases h
  · intro who rows found h
    cases h
  · intro who rows found h
    cases h

theorem Who.eq_or_eq_other (who i : Who) : i = who ∨ i = who.other := by
  cases who <;> cases i <;> simp [Who.other]

theorem Who.other_ne (who : Who) : who.other ≠ who := by
  cases who <;> decide

theorem Who.other_other (who : Who) : who.other.other = who := by
  cases who <;> rfl

variable {table : Option Table} {w : World}

/-- What the sibling reported does not depend on this request's phase. -/
theorem reportedOk_setPhase_other (who : Who) (phase : Phase) (t : Option Table) :
    World.ReportedOk { w.setPhase who phase with table := t } who.other ↔
      w.ReportedOk who.other := by
  unfold World.ReportedOk
  rw [show World.phase { w.setPhase who phase with table := t } who.other = w.phase who.other
    from w.setPhase_of_ne phase who.other_ne]

theorem reportedOk_setPhase_self (who : Who) (report : Report) (t : Option Table) :
    World.ReportedOk { w.setPhase who (.done report) with table := t } who ↔
      ∃ n, report = .ok n := by
  unfold World.ReportedOk
  rw [show World.phase { w.setPhase who (.done report) with table := t } who = .done report
    from w.setPhase_self who _]
  simp

/-- The world after the second half of a request. -/
def World.finished (w : World) (who : Who) (after : Option Table × Report) : World :=
  { w.setPhase who (.done after.2) with table := after.1 }

theorem step_transact {who : Who} {rows : List Row} {found : Bool} (reply : Reply)
    (hPhase : w.phase who = .probed rows found) :
    step lib renew nft pushes w (.transact who reply) =
      w.finished who ((pushes who).finish lib renew rows found reply w.table) := by
  simp [step, hPhase, World.finished]

theorem not_reportedOk_of_probed {who : Who} {rows : List Row} {found : Bool}
    (hPhase : w.phase who = .probed rows found) : ¬ w.ReportedOk who := by
  intro ⟨n, h⟩
  rw [hPhase] at h
  cases h

/-- An atomic world in which a request is still under way is as its sibling
left it, or as it was at the start. -/
theorem atomic_sibling {who : Who} (hAtomic : Atomic lib pushes table w)
    (hNot : ¬ w.ReportedOk who) :
    (w.ReportedOk who.other ∧ (pushes who.other).projection lib = .ok w.table) ∨
      (¬ w.ReportedOk who.other ∧ w.table = table) := by
  rcases hAtomic with ⟨i, hOk, hProjection⟩ | ⟨hNone, hSame⟩
  · rcases who.eq_or_eq_other i with rfl | rfl
    · exact absurd hOk hNot
    · exact Or.inl ⟨hOk, hProjection⟩
  · exact Or.inr ⟨hNone _, hSame⟩

/-- What a request reports ok about is atomic if it is its projection. -/
theorem atomic_of_projection {who : Who} {n : Nat} {t : Option Table}
    (hProjection : (pushes who).projection lib = .ok t) :
    Atomic lib pushes table (w.finished who (t, .ok n)) :=
  Or.inl ⟨who, (reportedOk_setPhase_self who (.ok n) t).mpr ⟨n, rfl⟩, hProjection⟩

/-- It is atomic as well if it is the projection the sibling reported ok. -/
theorem atomic_of_sibling {who : Who} {report : Report} {t : Option Table}
    (hOk : w.ReportedOk who.other) (hProjection : (pushes who.other).projection lib = .ok t) :
    Atomic lib pushes table (w.finished who (t, report)) :=
  Or.inl ⟨who.other, (reportedOk_setPhase_other who (.done report) t).mpr hOk, hProjection⟩

/-- A request that fails leaves an atomic world atomic. -/
theorem atomic_of_failed {who : Who} {report : Report} (hAtomic : Atomic lib pushes table w)
    (hNot : ¬ w.ReportedOk who) (hReport : ∀ n, report ≠ .ok n) :
    Atomic lib pushes table (w.finished who (w.table, report)) := by
  rcases atomic_sibling hAtomic hNot with ⟨hOk, hProjection⟩ | ⟨hOther, hSame⟩
  · exact atomic_of_sibling hOk hProjection
  · refine Or.inr ⟨fun i => ?_, hSame⟩
    rcases who.eq_or_eq_other i with rfl | rfl
    · intro hOk
      obtain ⟨n, hEq⟩ := (reportedOk_setPhase_self i report w.table).mp hOk
      exact hReport n hEq
    · exact fun hOk => hOther ((reportedOk_setPhase_other who (.done report) w.table).mp hOk)

/-- Requests that neither mix the tables end in an atomic world. -/
theorem atomic_of_not_mixes {who : Who} {rows : List Row} {found : Bool} {reply : Reply}
    {after : Option Table × Report} (hInv : Inv lib pushes table w)
    (hPhase : w.phase who = .probed rows found)
    (hOutcome : Outcome lib renew (pushes who) w.table found reply after)
    (hNot : ¬ Mixes lib renew pushes w (.transact who reply)) :
    Atomic lib pushes table (w.finished who after) := by
  have hUnreported := not_reportedOk_of_probed hPhase
  cases hOutcome with
  | idle n hProjection hAbsent =>
    rcases atomic_sibling hInv.atomic hUnreported with ⟨hOk, hOther⟩ | ⟨hOther, -⟩
    · exact atomic_of_sibling hOk hOther
    · -- the probe of this request was the last word on the table
      have hTable : w.table = none := by
        have hFound := hInv.found who rows found hPhase hOther
        rw [hAbsent] at hFound
        exact Option.not_isSome_iff_eq_none.mp (by simp [← hFound])
      exact atomic_of_projection (hTable ▸ hProjection)
  | failed report hReport => exact atomic_of_failed hInv.atomic hUnreported hReport
  | projected n after hProjection => exact atomic_of_projection hProjection
  -- the one outcome that can mix: the two tables are within each other, or the step mixes
  | merged n old new hOld hAbsent hAccepts hProjection =>
    rcases atomic_sibling hInv.atomic hUnreported with ⟨hOk, hOther⟩ | ⟨hOther, -⟩
    · by_cases hWithin : Table.Within (!renew) old new
      · rw [Table.merge_eq_new_iff.mpr hWithin]
        exact atomic_of_projection hProjection
      · by_cases hBack : Table.Within renew new old
        · rw [Table.merge_eq_old_iff.mpr hBack, ← hOld]
          exact atomic_of_sibling hOk hOther
        · refine absurd ⟨who, reply.stderr, rows, old, new, ?_, ?_, hOld, hProjection, hWithin,
            hBack⟩ hNot
          · rw [← hAccepts]
          · rw [← hAbsent]
            exact hPhase
    · -- without the sibling's table there is none
      have hFound := hInv.found who rows found hPhase hOther
      rw [hAbsent, hOld] at hFound
      cases hFound

/-- A request that did not report ok left the table alone. -/
theorem Outcome.table_of_not_ok {p : Push} {t : Option Table} {found : Bool} {reply : Reply}
    {after : Option Table × Report} (h : Outcome lib renew p t found reply after)
    (hNot : ∀ n, after.2 ≠ .ok n) : after.1 = t := by
  cases h with
  | idle n _ _ => rfl
  | failed report _ => rfl
  | projected n after _ => exact absurd rfl (hNot n)
  | merged n old new _ _ _ _ => exact absurd rfl (hNot n)

/-- The invariant after the second half of a request. -/
theorem inv_finished {who : Who} {rows : List Row} {found : Bool} {after : Option Table × Report}
    (hInv : Inv lib pushes table w) (hPhase : w.phase who = .probed rows found)
    (hAtomic : Atomic lib pushes table (w.finished who after))
    (hAlone : (∀ n, after.2 ≠ .ok n) → after.1 = w.table) :
    Inv lib pushes table (w.finished who after) := by
  have hSelf : (w.finished who after).phase who = .done after.2 := w.setPhase_self who _
  have hOther : (w.finished who after).phase who.other = w.phase who.other :=
    w.setPhase_of_ne _ who.other_ne
  refine ⟨hAtomic, ?_, ?_⟩
  · intro i rows' found' hProbed
    -- this request has ended, and the other knows what it knew
    rcases who.eq_or_eq_other i with rfl | rfl
    · rw [hSelf] at hProbed
      cases hProbed
    · exact hInv.active _ rows' found' (hOther ▸ hProbed)
  · intro i rows' found' hProbed hUnreported
    rcases who.eq_or_eq_other i with rfl | rfl
    · rw [hSelf] at hProbed
      cases hProbed
    -- a request that has not reported ok has left the table alone
    · have hNotOk : ∀ n, after.2 ≠ .ok n := by
        intro n hEq
        refine hUnreported ⟨n, ?_⟩
        rw [Who.other_other, hSelf, hEq]
      have hTable : (w.finished who after).table = w.table := hAlone hNotOk
      rw [hTable]
      refine hInv.found _ rows' found' (hOther ▸ hProbed) ?_
      rw [Who.other_other]
      exact not_reportedOk_of_probed hPhase

/-- A first half that does not get as far as the probe has not reported ok. -/
theorem probe_cases (lib : Library) (nft : Bool) (p : Push) (t : Option Table) :
    (∃ report, probe lib nft p t = .done report ∧ ∀ n, report ≠ .ok n) ∨
      ∃ rows, probe lib nft p t = .probed rows t.isSome ∧ p.active lib = .ok rows := by
  unfold probe
  cases nft with
  | false => exact Or.inl ⟨_, rfl, fun n h => by cases h⟩
  | true =>
    rw [if_pos rfl]
    cases hActive : p.active lib with
    | error e => exact Or.inl ⟨_, rfl, fun n h => by cases h⟩
    | ok rows => exact Or.inr ⟨rows, rfl, rfl⟩

/-- The invariant after the first half of a request. -/
theorem inv_probed {who : Who} (hInv : Inv lib pushes table w) (hPhase : w.phase who = .ready) :
    Inv lib pushes table (w.setPhase who (probe lib nft (pushes who) w.table)) := by
  have hUnreported : ¬ w.ReportedOk who := by
    intro ⟨n, h⟩
    rw [hPhase] at h
    cases h
  generalize hProbe : probe lib nft (pushes who) w.table = phase
  have hSelf : (w.setPhase who phase).phase who = phase := w.setPhase_self who phase
  have hOther : (w.setPhase who phase).phase who.other = w.phase who.other :=
    w.setPhase_of_ne _ who.other_ne
  -- a first half reports nothing yet, or an error
  have hOk : ∀ i, (w.setPhase who phase).ReportedOk i ↔ w.ReportedOk i := by
    intro i
    rcases who.eq_or_eq_other i with rfl | rfl
    · refine ⟨fun ⟨n, h⟩ => ?_, fun h => absurd h hUnreported⟩
      rw [hSelf, ← hProbe] at h
      rcases probe_cases lib nft (pushes i) w.table with
        ⟨report, hDone, hReport⟩ | ⟨rows, hProbed, -⟩
      · rw [hDone] at h
        injection h with hEq
        exact absurd hEq (hReport n)
      · rw [hProbed] at h
        cases h
    · unfold World.ReportedOk
      rw [hOther]
  refine ⟨?_, ?_, ?_⟩
  -- the table is as it was, so what it stands for is
  · rcases hInv.atomic with ⟨i, hReported, hProjection⟩ | ⟨hNone, hSame⟩
    · exact Or.inl ⟨i, (hOk i).mpr hReported, hProjection⟩
    · exact Or.inr ⟨fun i h => hNone i ((hOk i).mp h), hSame⟩
  · intro i rows found hProbed
    rcases who.eq_or_eq_other i with rfl | rfl
    · rw [hSelf, ← hProbe] at hProbed
      rcases probe_cases lib nft (pushes i) w.table with
        ⟨report, hDone, -⟩ | ⟨rows', hRows, hActive⟩
      · rw [hDone] at hProbed
        cases hProbed
      · rw [hRows] at hProbed
        injection hProbed with hEq _
        exact hEq ▸ hActive
    · exact hInv.active _ rows found (hOther ▸ hProbed)
  -- what this request has found is what was there
  · intro i rows found hProbed hNot
    rcases who.eq_or_eq_other i with rfl | rfl
    · rw [hSelf, ← hProbe] at hProbed
      rcases probe_cases lib nft (pushes i) w.table with
        ⟨report, hDone, -⟩ | ⟨rows', hRows, -⟩
      · rw [hDone] at hProbed
        cases hProbed
      · rw [hRows] at hProbed
        injection hProbed with _ hEq
        exact hEq.symm
    · exact hInv.found _ rows found (hOther ▸ hProbed) fun h => hNot ((hOk _).mpr h)

/--
**Step.** Every step that does not mix the tables keeps the invariant: whose
projection the table is, and for each push in flight what it may still find
when it loads its own.
-/
theorem inv_step (hInv : Inv lib pushes table w) (e : Event)
    (hNot : ¬ Mixes lib renew pushes w e) :
    Inv lib pushes table (step lib renew nft pushes w e) := by
  cases e with
  | probe who =>
    cases hPhase : w.phase who with
    | probed rows found => simpa [step, hPhase] using hInv
    | done report => simpa [step, hPhase] using hInv
    | ready =>
      have hStep : step lib renew nft pushes w (.probe who) =
          w.setPhase who (probe lib nft (pushes who) w.table) := by simp [step, hPhase]
      rw [hStep]
      exact inv_probed hInv hPhase
  | transact who reply =>
    cases hPhase : w.phase who with
    | ready => simpa [step, hPhase] using hInv
    | done report => simpa [step, hPhase] using hInv
    | probed rows found =>
      rw [step_transact reply hPhase]
      have hOutcome : Outcome lib renew (pushes who) w.table found reply
          ((pushes who).finish lib renew rows found reply w.table) :=
        finish_outcome (hInv.active who rows found hPhase) found reply w.table
      exact inv_finished hInv hPhase (atomic_of_not_mixes hInv hPhase hOutcome hNot)
        hOutcome.table_of_not_ok

-- ---------------------------------------------------------------------------
-- Mixed tables
-- ---------------------------------------------------------------------------

/-- A step that mixes the tables is the last one: both requests have ended. -/
theorem done_of_mixes (hInv : Inv lib pushes table w) {e : Event}
    (hMixes : Mixes lib renew pushes w e) :
    ∀ who, (step lib renew nft pushes w e).Done who := by
  obtain ⟨who, stderr, rows, old, new, rfl, hPhase, hOld, -, -, -⟩ := hMixes
  have hSibling : w.ReportedOk who.other := by
    by_contra hNone
    have hFound := hInv.found who rows false hPhase hNone
    rw [hOld] at hFound
    cases hFound
  intro i
  rw [step_transact _ hPhase]
  rcases who.eq_or_eq_other i with rfl | rfl
  · exact ⟨_, w.setPhase_self i _⟩
  · obtain ⟨n, hOk⟩ := hSibling
    exact ⟨.ok n, (w.setPhase_of_ne _ who.other_ne).trans hOk⟩

/-- A table loaded into another one is merged into it. -/
theorem finish_merges {p : Push} {rows : List Row} {old new : Table} {stderr : String}
    (hActive : p.active lib = .ok rows) (hProjection : p.projection lib = .ok (some new)) :
    p.finish lib renew rows false ⟨true, stderr⟩ (some old) =
      (some (old.merge renew new), .ok rows.length) := by
  unfold Push.finish
  obtain ⟨-, hNone, -⟩ | ⟨e, hTx⟩ | ⟨table, -, hSome, hTx⟩ := transaction_cases hActive false
  · rw [hProjection] at hNone
    cases hNone
  · -- a script that raises projects nothing
    have hRaised : p.projection lib = .error e := by
      unfold Push.transaction at hTx
      unfold Push.projection
      by_cases hEmpty : rows = []
      · simp [hEmpty] at hTx
      · rw [if_neg hEmpty] at hTx
        cases hScript : script lib rows p.tcp p.udp p.now with
        | ok table => simp [hScript, bind, Except.bind] at hTx
        | error e' =>
          simp only [hScript, bind, Except.bind, Except.error.injEq] at hTx
          simp [hActive, hEmpty, hScript, hTx, bind, Except.bind]
    rw [hProjection] at hRaised
    cases hRaised
  · rw [hProjection] at hSome
    obtain rfl := Option.some.inj (Except.ok.inj hSome)
    rw [hTx]
    rfl

/-- A mixed table is the projection of neither request. -/
theorem not_atomic_of_mixes (hInv : Inv lib pushes table w) {e : Event}
    (hMixes : Mixes lib renew pushes w e) :
    ¬ Atomic lib pushes table (step lib renew nft pushes w e) := by
  obtain ⟨who, stderr, rows, old, new, rfl, hPhase, hOld, hProjection, hWithin, hBack⟩ := hMixes
  have hUnreported := not_reportedOk_of_probed hPhase
  -- the table that was loaded meanwhile is the sibling's
  have hSibling : (pushes who.other).projection lib = .ok (some old) := by
    rcases atomic_sibling hInv.atomic hUnreported with ⟨-, hOther⟩ | ⟨hOther, -⟩
    · rw [← hOld]
      exact hOther
    · have hFound := hInv.found who rows false hPhase hOther
      rw [hOld] at hFound
      cases hFound
  rw [step_transact _ hPhase, hOld, finish_merges (hInv.active who rows false hPhase) hProjection]
  rintro (⟨i, -, hStands⟩ | ⟨hNone, -⟩)
  · have hMerged : (w.finished who (some (old.merge renew new), .ok rows.length)).table =
        some (old.merge renew new) := rfl
    rw [hMerged] at hStands
    rcases who.eq_or_eq_other i with rfl | rfl
    · rw [hProjection] at hStands
      have hEq : new = old.merge renew new := Option.some.inj (Except.ok.inj hStands)
      exact hWithin (Table.merge_eq_new_iff.mp hEq.symm)
    · rw [hSibling] at hStands
      have hEq : old = old.merge renew new := Option.some.inj (Except.ok.inj hStands)
      exact hBack (Table.merge_eq_old_iff.mp hEq.symm)
  · exact hNone who ((reportedOk_setPhase_self who _ _).mpr ⟨_, rfl⟩)

/-- Requests that have ended do nothing any more. -/
theorem step_of_done (hDone : ∀ who, w.Done who) (e : Event) :
    step lib renew nft pushes w e = w := by
  cases e with
  | probe who =>
    obtain ⟨report, h⟩ := hDone who
    simp [step, h]
  | transact who reply =>
    obtain ⟨report, h⟩ := hDone who
    simp [step, h]

theorem exec_of_done (hDone : ∀ who, w.Done who) (events : List Event) :
    (requests lib renew nft pushes).exec w events = w := by
  induction events with
  | nil => rfl
  | cons e events ih =>
    rw [Machine.exec_cons, show (requests lib renew nft pushes).next w e = w
      from step_of_done hDone e]
    exact ih

/--
**Run.** From a world with the invariant. One direction is the step lemma, by
induction on the events; for the other, the step that mixes two tables leaves
rules of both, and no push can report that table as its own.
-/
theorem atomic_iff_along (hInv : Inv lib pushes table w) (log : List Unit) (events : List Event) :
    Atomic lib pushes table ((requests lib renew nft pushes).exec w events) ↔
      (requests lib renew nft pushes).Along (fun _ w e => ¬ Mixes lib renew pushes w e)
        log w events := by
  induction events generalizing w log with
  | nil => exact ⟨fun _ => trivial, fun _ => hInv.atomic⟩
  | cons e events ih =>
    rw [Machine.exec_cons, Machine.Along,
      show (requests lib renew nft pushes).next w e = step lib renew nft pushes w e from rfl]
    by_cases hMixes : Mixes lib renew pushes w e
    · rw [exec_of_done (done_of_mixes hInv hMixes)]
      exact ⟨fun h => absurd h (not_atomic_of_mixes hInv hMixes), fun h => absurd hMixes h.1⟩
    · rw [ih (inv_step hInv e hMixes)]
      exact ⟨fun h => ⟨hMixes, h⟩, fun h => h.2⟩

/--
**Two pushes at once.** For every two pushes, every table at the start, every
order of their steps and every reply of `nft`: the table is the projection of
a push that reported ok (and the one at the start if none did) **if and only
if** no step loads the table of one push, which had found no table, into the
table of the other, with neither of the two within the other.
-/
theorem projections_atomic_iff (lib : Library) (renew nft : Bool) (pushes : Who → Push)
    (table : Option Table) (events : List Event) :
    Atomic lib pushes table ((requests lib renew nft pushes).exec (start table) events) ↔
      (requests lib renew nft pushes).Along (fun _ w e => ¬ Mixes lib renew pushes w e) []
        (start table) events :=
  atomic_iff_along (inv_start table) [] events

-- ---------------------------------------------------------------------------
-- A table at the start
-- ---------------------------------------------------------------------------

/-- A request that found no table has a sibling that deleted it. -/
def Deleted (lib : Library) (pushes : Who → Push) (w : World) : Prop :=
  ∀ who rows, w.phase who = .probed rows false → (pushes who.other).projection lib = .ok none

theorem not_mixes_of_deleted (hInv : Inv lib pushes table w) (hDeleted : Deleted lib pushes w)
    (e : Event) : ¬ Mixes lib renew pushes w e := by
  rintro ⟨who, stderr, rows, old, new, rfl, hPhase, hOld, -, -, -⟩
  have hUnreported := not_reportedOk_of_probed hPhase
  rcases atomic_sibling hInv.atomic hUnreported with ⟨-, hOther⟩ | ⟨hOther, -⟩
  · rw [hDeleted who rows hPhase, hOld] at hOther
    cases hOther
  · have hFound := hInv.found who rows false hPhase hOther
    rw [hOld] at hFound
    cases hFound

/--
**Step.** With a table at the start, only a delete takes it away. So a push
that has looked for the table and not found it has a sibling without a ban in
force, whose projection is no table at all.
-/
theorem deleted_step {t : Table} (hInv : Inv lib pushes (some t) w)
    (hDeleted : Deleted lib pushes w) (e : Event) :
    Deleted lib pushes (step lib renew nft pushes w e) := by
  intro i rows hProbed
  have hOld : w.phase i = .probed rows false → (pushes i.other).projection lib = .ok none :=
    hDeleted i rows
  cases e with
  | probe who =>
    cases hPhase : w.phase who with
    | probed rows' found => exact hOld (by simpa [step, hPhase] using hProbed)
    | done report => exact hOld (by simpa [step, hPhase] using hProbed)
    | ready =>
      have hStep : step lib renew nft pushes w (.probe who) =
          w.setPhase who (probe lib nft (pushes who) w.table) := by simp [step, hPhase]
      rw [hStep] at hProbed
      rcases who.eq_or_eq_other i with rfl | rfl
      · rw [World.setPhase_self] at hProbed
        rcases probe_cases lib nft (pushes i) w.table with
          ⟨report, hDone, -⟩ | ⟨rows', hRows, -⟩
        · rw [hDone] at hProbed
          cases hProbed
        · rw [hRows] at hProbed
          injection hProbed with _ hNone
          -- it finds no table: with one at the start, its sibling has deleted it
          have hUnreported : ¬ w.ReportedOk i := by
            intro ⟨n, h⟩
            rw [hPhase] at h
            cases h
          rw [Option.isSome_eq_false_iff, Option.isNone_iff_eq_none] at hNone
          rcases atomic_sibling hInv.atomic hUnreported with ⟨-, hOther⟩ | ⟨-, hSame⟩
          · rw [hNone] at hOther
            exact hOther
          · rw [hNone] at hSame
            cases hSame
      · rw [World.setPhase_of_ne _ _ who.other_ne] at hProbed
        exact hOld hProbed
  | transact who reply =>
    cases hPhase : w.phase who with
    | ready => exact hOld (by simpa [step, hPhase] using hProbed)
    | done report => exact hOld (by simpa [step, hPhase] using hProbed)
    | probed rows' found =>
      rw [step_transact reply hPhase] at hProbed
      rcases who.eq_or_eq_other i with rfl | rfl
      · rw [show World.phase (w.finished i _) i = .done _ from w.setPhase_self i _] at hProbed
        cases hProbed
      · rw [show World.phase (w.finished who _) who.other = w.phase who.other
          from w.setPhase_of_ne _ who.other_ne] at hProbed
        exact hOld hProbed

/--
**Run.** Where the table is there at the start, two pushes never mix: to mix, a
push that found no table has to load its own into the other's, and here the
other has none.
-/
theorem projections_atomic_of_table (lib : Library) (renew nft : Bool) (pushes : Who → Push)
    (t : Table) (events : List Event) :
    Atomic lib pushes (some t)
      ((requests lib renew nft pushes).exec (start (some t)) events) := by
  have hBoth : ∀ w e, Inv lib pushes (some t) w ∧ Deleted lib pushes w →
      Inv lib pushes (some t) ((requests lib renew nft pushes).next w e) ∧
        Deleted lib pushes ((requests lib renew nft pushes).next w e) := by
    intro w e ⟨hInv, hDeleted⟩
    exact ⟨inv_step hInv e (not_mixes_of_deleted hInv hDeleted e), deleted_step hInv hDeleted e⟩
  have hStart : Deleted lib pushes (start (some t)) := by
    intro who rows h
    cases h
  exact ((requests lib renew nft pushes).exec_inv hBoth ⟨inv_start (some t), hStart⟩
    events).1.atomic

-- ---------------------------------------------------------------------------
-- Two pushes on a fresh host
-- ---------------------------------------------------------------------------

/-- A library for IPv4 addresses and one instant. -/
def sampleLibrary : Library where
  str           := fun v => match v with
    | .str s => s
    | _      => ""
  fromisoformat := fun _ => .ok ⟨60000000, some 0⟩
  ipAddress     := fun s => .ok ⟨s, false⟩
  wholeSeconds  := fun span => span.tdiv 1000000

/-- A push with one ban that lasts a minute. -/
def samplePush (ip : String) : Push where
  bans := [[("ip", .str ip), ("expires_at", .str "1970-01-01T00:01:00Z")]]
  tcp  := {443}
  udp  := ∅
  now  := 0

def samplePushes : Who → Push
  | .first  => samplePush "203.0.113.1"
  | .second => samplePush "203.0.113.2"

/-- Both look before either loads. -/
def overlapping : List Event :=
  [.probe .first, .probe .second, .transact .first ⟨true, ""⟩, .transact .second ⟨true, ""⟩]

/-- Both pushes report ok, and the table has the bans of both. -/
theorem overlapping_pushes_mix :
    ¬ Atomic sampleLibrary samplePushes none
        ((requests sampleLibrary false true samplePushes).exec (start none) overlapping) ∧
      ((requests sampleLibrary false true samplePushes).exec (start none) overlapping).table.map
        (fun t => (t.bannedV4 "203.0.113.1", t.bannedV4 "203.0.113.2")) =
          some (some 60, some 60) := by
  have hTable : ((requests sampleLibrary false true samplePushes).exec (start none)
      overlapping).table.map (fun t => (t.bannedV4 "203.0.113.1", t.bannedV4 "203.0.113.2")) =
        some (some 60, some 60) := by
    decide
  refine ⟨?_, hTable⟩
  rintro (⟨who, -, hStands⟩ | ⟨hNone, -⟩)
  · have hOne : ((samplePushes who).projection sampleLibrary).toOption.map (fun p =>
        p.map fun t => (t.bannedV4 "203.0.113.1", t.bannedV4 "203.0.113.2")) =
          some (some (some 60, some 60)) := by
      rw [hStands]
      exact congrArg some hTable
    cases who with
    | first => revert hOne; decide
    | second => revert hOne; decide
  · exact hNone .first ⟨1, rfl⟩

end ZagrosNode.Bans
