import ZagrosNode.Lib.Machine
import ZagrosNode.Usage.Trackers

/-!
# ZagrosNode — the PPTP accounting ledger

ACCEL-PPP reports the counters of live sessions, and a hook reports the final
counters of a session that went down. The ledger turns both into cumulative
totals: a row of `active` keeps, for an interface of a daemon generation, the
account and the counters last seen, and a reading adds its growth over them.

The numbers here are integers of any size; `stored` says of a ledger that all
of them fit into the columns of the database.

Every byte in a total has one of three origins: the final of a recorded
session, a row that is still there, or a row that was *abandoned*, that is
removed or overwritten without being continued. `Audit` keeps the first and
the third beside the ledger.

The tables are dictionaries by account and by generation and interface, and each
method of `PptpAccountingLedger` is one transaction and so one function. Counters are
clamped at zero on their way in. `advance` is the growth of a reading over the row of
its interface, if that row is the account's; a row of another account or generation
contributes nothing and is overwritten.

The balance is proved for one operation and one direction: the total afterwards and
what the rows say afterwards, against before, differ by the final that was recorded
and by what was abandoned. An observation is a loop over sessions, so its part in the
balance is a sum over them (`rows_balance`). Forgetting an account drops its total
and its rows together, and the audit starts again.

Main results:

* `apply_balance` — what one operation does to a total and to the rows behind
  it.
* `Audit.balanced` — after any operations in any order the three origins add
  up to the total, so that no recorded final is ever missing from it.
-/

namespace ZagrosNode.Usage.Pptp

open ZagrosNode.Lib

-- ---------------------------------------------------------------------------
-- The ledger
-- ---------------------------------------------------------------------------

/-- What the ledger reads of a row of `show sessions`. -/
structure PptpSession where
  ifname   : String
  username : String
  state    : String
  rxBytes  : Int
  txBytes  : Int
  deriving DecidableEq, Repr

/-- Received by the server is the client's uplink. -/
def PptpSession.reading (s : PptpSession) : Totals := (s.rxBytes, s.txBytes)

/-- `PptpAccountingLedger`: the tables `totals` and `active`. -/
structure Ledger where
  totals : Dict String Totals
  active : Dict (String × String) (String × Totals)

/-- The largest number an `INTEGER` column holds. -/
def maxInteger : Int := 2 ^ 63 - 1

namespace Ledger

def empty : Ledger := ⟨Dict.empty, Dict.empty⟩

/-- All numbers fit into their columns. Beyond that the code does something
else: a sum that SQLite makes goes on as a floating point number, and a
parameter that Python passes is refused with an `OverflowError`. Totals only
grow within an operation, so what fits afterwards has fitted in between. -/
def stored (l : Ledger) : Bool :=
  l.totals.values.all (fun t => decide (t.1 ≤ maxInteger ∧ t.2 ≤ maxInteger)) &&
    l.active.values.all fun row => decide (row.2.1 ≤ maxInteger ∧ row.2.2 ≤ maxInteger)

variable (l : Ledger)

/-- The counters last seen on an interface, if the row is the account's. -/
def previous (generation ifname account : String) : Totals :=
  match l.active.get? (generation, ifname) with
  | some row => if row.1 = account then row.2 else (0, 0)
  | none     => (0, 0)

/-- `_add` -/
def add (account : String) (growth : Totals) : Ledger :=
  { l with
    totals := match l.totals.get? account with
      | none   => l.totals.set account (clamp growth)
      | some t => l.totals.set account (t + clamp growth) }

/-- The growth of a reading over the row of its interface; `deltas` is
`_delta` at both counters. -/
def advance (generation ifname account : String) (reading : Totals) : Ledger :=
  l.add account (deltas reading (l.previous generation ifname account))

/-- One session of `observe`. -/
def observeRow (generation : String) (s : PptpSession) : Ledger :=
  { l.advance generation s.ifname s.username s.reading with
    active := l.active.set (generation, s.ifname) (s.username, clamp s.reading) }

/-- `DELETE FROM active WHERE generation <> ?` -/
def keepGeneration (generation : String) : Ledger :=
  { l with active := l.active.filter fun e => decide (e.1.1 = generation) }

/-- `observe`, with the totals it returns. -/
def observe (generation : String) (sessions : List PptpSession) : Ledger × Dict String Totals :=
  let rows := sessions.filter fun s => decide (s.state = "active")
  let l := rows.foldl (fun l s => l.observeRow generation s) (l.keepGeneration generation)
  (l, l.totals)

/-- `record_final` -/
def recordFinal (generation ifname account : String) (final : Totals) : Ledger :=
  if generation = "" ∨ ifname = "" ∨ account = "" then l
  else
    { l.advance generation ifname account final with
      active := l.active.pop (generation, ifname) }

/-- `forget_account` -/
def forgetAccount (account : String) (purgeTotals : Bool) : Ledger where
  active := l.active.filter fun e => decide (e.2.1 ≠ account)
  totals := if purgeTotals then l.totals.pop account else l.totals

/-- The totals of an account, zero if it has none. -/
def total (account : String) : Totals := (l.totals.get? account).getD (0, 0)

end Ledger

-- ---------------------------------------------------------------------------
-- Shares of an account
-- ---------------------------------------------------------------------------

section Audit

variable (account : String) (side : Side)

/-- What a row says about the account in the direction. -/
def share (row : String × Totals) : Int := if row.1 = account then side.of row.2 else 0

namespace Ledger

/-- What the row of an interface says about the account. -/
def held (l : Ledger) (key : String × String) : Int :=
  (l.active.get? key).elim 0 (share account side)

/-- What all rows say about the account. -/
def base (l : Ledger) : Int := l.active.sumOf fun _ => share account side

/-- Counters are never stored below zero. -/
def Clamped (l : Ledger) : Prop :=
  ∀ key row, l.active.get? key = some row → 0 ≤ row.2.1 ∧ 0 ≤ row.2.2

end Ledger

/-- What is left uncounted in the row when a reading of `owner` takes its
place: all of it, unless the reading continues the row. -/
def abandonedBy (l : Ledger) (key : String × String) (owner : String) (reading : Totals) : Int :=
  if owner = account ∧ l.held account side key ≤ max 0 (side.of reading) then 0
  else l.held account side key

theorem of_add (a b : Totals) : side.of (a + b) = side.of a + side.of b := by
  cases side <;> rfl

theorem share_nonneg {row : String × Totals} (h : 0 ≤ row.2.1 ∧ 0 ≤ row.2.2) :
    0 ≤ share account side row := by
  unfold share
  split
  · cases side
    · exact h.1
    · exact h.2
  · exact le_refl 0

namespace Ledger

variable {l : Ledger}

theorem held_nonneg (hl : l.Clamped) (key : String × String) : 0 ≤ l.held account side key := by
  unfold held
  cases hGet : l.active.get? key with
  | none     => exact le_refl 0
  | some row => exact share_nonneg account side (hl key row hGet)

theorem base_nonneg (hl : l.Clamped) : 0 ≤ l.base account side :=
  Dict.sumOf_nonneg fun key row hGet => share_nonneg account side (hl key row hGet)

theorem of_previous (generation ifname : String) :
    side.of (l.previous generation ifname account) = l.held account side (generation, ifname) := by
  unfold previous held share
  cases l.active.get? (generation, ifname) with
  | none => exact Side.of_zero side
  | some row =>
    by_cases hOwner : row.1 = account
    · simp [hOwner]
    · simp [hOwner]

@[simp] theorem advance_active (generation ifname owner : String) (reading : Totals) :
    (l.advance generation ifname owner reading).active = l.active := rfl

theorem total_add (owner : String) (growth : Totals) :
    (l.add owner growth).total account =
      if owner = account then l.total account + clamp growth else l.total account := by
  unfold add total
  cases hGet : l.totals.get? owner with
  | none =>
    by_cases hOwner : owner = account
    · subst hOwner
      simp only [Dict.get?_set_self, Option.getD_some, hGet, Option.getD_none, if_true]
      exact Prod.ext (Int.zero_add _).symm (Int.zero_add _).symm
    · simp [Dict.get?_set_of_ne _ _ hOwner, hOwner]
  | some t =>
    by_cases hOwner : owner = account
    · subst hOwner
      simp [hGet]
    · simp [Dict.get?_set_of_ne _ _ hOwner, hOwner]

/-- A reading adds what it does not continue. -/
theorem total_advance (hl : l.Clamped) (generation ifname owner : String) (reading : Totals) :
    side.of ((l.advance generation ifname owner reading).total account) =
      side.of (l.total account) + (if owner = account then max 0 (side.of reading) else 0)
        - l.held account side (generation, ifname)
        + abandonedBy account side l (generation, ifname) owner reading := by
  have hHeld := held_nonneg account side hl (generation, ifname)
  rw [advance, total_add, abandonedBy]
  by_cases hOwner : owner = account
  · subst hOwner
    rw [if_pos rfl, if_pos rfl, of_add, of_clamp, of_deltas, of_previous, delta]
    simp only [true_and, max_eq_right hHeld, ge_iff_le]
    split <;> omega
  · simp only [hOwner, if_false, false_and]
    omega

-- ---------------------------------------------------------------------------
-- What one operation does
-- ---------------------------------------------------------------------------

theorem clamped_empty : empty.Clamped := by
  intro key row hGet
  cases hGet

theorem clamped_filter (hl : l.Clamped) (p : (String × String) × (String × Totals) → Bool) :
    Clamped { l with active := l.active.filter p } := by
  intro key row hGet
  rw [Dict.get?_filter] at hGet
  exact hl key row (Option.filter_eq_some_iff.mp hGet).1

theorem clamped_set (hl : l.Clamped) (key : String × String) (owner : String) (reading : Totals) :
    Clamped { l with active := l.active.set key (owner, clamp reading) } := by
  intro other row hGet
  rw [Dict.get?_set] at hGet
  split at hGet
  · cases hGet
    exact ⟨le_max_left 0 _, le_max_left 0 _⟩
  · exact hl other row hGet

theorem clamped_observeRow (hl : l.Clamped) (generation : String) (s : PptpSession) :
    (l.observeRow generation s).Clamped :=
  clamped_set hl (generation, s.ifname) s.username s.reading

theorem clamped_recordFinal (hl : l.Clamped) (generation ifname owner : String) (final : Totals) :
    (l.recordFinal generation ifname owner final).Clamped := by
  unfold recordFinal
  split
  · exact hl
  · exact clamped_filter hl _

theorem clamped_observe (hl : l.Clamped) (generation : String) (sessions : List PptpSession) :
    (l.observe generation sessions).1.Clamped := by
  have hRows : ∀ rows : List PptpSession, ∀ l : Ledger, l.Clamped →
      (rows.foldl (fun l s => l.observeRow generation s) l).Clamped := by
    intro rows
    induction rows with
    | nil => exact fun l hl => hl
    | cons s rows ih => exact fun l hl => ih _ (clamped_observeRow hl generation s)
  exact hRows _ _ (clamped_filter hl _)

-- the share of the row that was replaced leaves the sum, the new one enters

theorem observeRow_balance (hl : l.Clamped) (generation : String) (s : PptpSession) :
    side.of ((l.observeRow generation s).total account)
        - (l.observeRow generation s).base account side =
      side.of (l.total account) - l.base account side
        + abandonedBy account side l (generation, s.ifname) s.username s.reading := by
  have hTotal := total_advance account side hl generation s.ifname
    s.username s.reading
  have hBase : (l.observeRow generation s).base account side =
      l.base account side - l.held account side (generation, s.ifname)
        + share account side (s.username, clamp s.reading) :=
    Dict.sumOf_set l.active (fun _ => share account side) (generation, s.ifname) _
  have hShare : share account side (s.username, clamp s.reading) =
      if s.username = account then max 0 (side.of s.reading) else 0 := by
    rw [share, of_clamp]
  have hSame : (l.observeRow generation s).total account =
      (l.advance generation s.ifname s.username s.reading).total account := rfl
  rw [hSame, hTotal, hBase, hShare]
  omega

theorem recordFinal_balance (hl : l.Clamped) {generation ifname owner : String}
    (hNamed : ¬ (generation = "" ∨ ifname = "" ∨ owner = "")) (final : Totals) :
    side.of ((l.recordFinal generation ifname owner final).total account)
        - (l.recordFinal generation ifname owner final).base account side =
      side.of (l.total account) - l.base account side
        + (if owner = account then max 0 (side.of final) else 0)
        + abandonedBy account side l (generation, ifname) owner final := by
  have hTotal := total_advance account side hl generation ifname owner final
  have hBase : ({ l.advance generation ifname owner final with
      active := l.active.pop (generation, ifname) } : Ledger).base account side =
      l.base account side - l.held account side (generation, ifname) :=
    Dict.sumOf_pop l.active (fun _ => share account side) (generation, ifname)
  have hSame : ({ l.advance generation ifname owner final with
      active := l.active.pop (generation, ifname) } : Ledger).total account =
      (l.advance generation ifname owner final).total account := rfl
  rw [recordFinal, if_neg hNamed, hSame, hTotal, hBase]
  omega

theorem keepGeneration_balance (l : Ledger) (generation : String) :
    l.base account side = (l.keepGeneration generation).base account side
      + (l.active.filter fun e => !decide (e.1.1 = generation)).sumOf fun _ => share account side :=
  (Dict.sumOf_filter_add l.active _ _).symm

theorem forgetAccount_balance (l : Ledger) (owner : String) (purge : Bool) :
    l.base account side = (l.forgetAccount owner purge).base account side
      + (l.active.filter fun e => !decide (e.2.1 ≠ owner)).sumOf fun _ => share account side :=
  (Dict.sumOf_filter_add l.active _ _).symm

/-- No row of a forgotten account is left. -/
theorem base_forgetAccount (l : Ledger) (purge : Bool) :
    (l.forgetAccount account purge).base account side = 0 := by
  refine List.sum_eq_zero fun x hx => ?_
  obtain ⟨e, he, rfl⟩ := List.mem_map.mp hx
  have hOther : e.2.1 ≠ account := of_decide_eq_true (List.mem_filter.mp he).2
  exact if_neg hOther

end Ledger

-- ---------------------------------------------------------------------------
-- The audit
-- ---------------------------------------------------------------------------

/-- The operations of the ledger, each one transaction. -/
inductive Op
  | observe (generation : String) (sessions : List PptpSession)
  | recordFinal (generation ifname account : String) (final : Totals)
  | forgetAccount (account : String) (purgeTotals : Bool)

def Ledger.apply (l : Ledger) : Op → Ledger
  | .observe generation sessions                  => (l.observe generation sessions).1
  | .recordFinal generation ifname account final  => l.recordFinal generation ifname account final
  | .forgetAccount account purgeTotals            => l.forgetAccount account purgeTotals

/-- The final an operation records for the account. -/
def Op.final : Op → Int
  | .recordFinal generation ifname owner final =>
    if generation = "" ∨ ifname = "" ∨ owner = "" then 0
    else if owner = account then max 0 (side.of final) else 0
  | .observe _ _       => 0
  | .forgetAccount _ _ => 0

/-- What the rows of a poll leave uncounted, one after the other. -/
def abandonedByRows (generation : String) : Ledger → List PptpSession → Int
  | _, []        => 0
  | l, s :: rows =>
    abandonedBy account side l (generation, s.ifname) s.username s.reading
      + abandonedByRows generation (l.observeRow generation s) rows

/-- What an operation removes or overwrites without continuing it. -/
def Op.abandoned (l : Ledger) : Op → Int
  | .observe generation sessions =>
    ((l.active.filter fun e => !decide (e.1.1 = generation)).sumOf fun _ => share account side)
      + abandonedByRows account side generation (l.keepGeneration generation)
          (sessions.filter fun s => decide (s.state = "active"))
  | .recordFinal generation ifname owner final =>
    if generation = "" ∨ ifname = "" ∨ owner = "" then 0
    else abandonedBy account side l (generation, ifname) owner final
  | .forgetAccount owner _ =>
    (l.active.filter fun e => !decide (e.2.1 ≠ owner)).sumOf fun _ => share account side

/-- The operation starts the account's totals again. -/
def Op.purges : Op → Bool
  | .forgetAccount owner purgeTotals => purgeTotals && decide (owner = account)
  | .observe _ _                     => false
  | .recordFinal _ _ _ _             => false

/-- The ledger, and what was recorded and abandoned for the account since its
totals began. -/
structure Audit where
  ledger    : Ledger
  closed    : Int
  abandoned : Int

def Audit.start : Audit := ⟨Ledger.empty, 0, 0⟩

def Audit.next (a : Audit) (op : Op) : Audit where
  ledger    := a.ledger.apply op
  closed    := if op.purges account then 0 else a.closed + op.final account side
  abandoned := if op.purges account then 0 else a.abandoned + op.abandoned account side a.ledger

/-- The three origins add up. -/
structure Audit.Balanced (a : Audit) : Prop where
  clamped   : a.ledger.Clamped
  abandoned : 0 ≤ a.abandoned
  total     : side.of (a.ledger.total account) =
                a.closed + a.ledger.base account side + a.abandoned

theorem abandonedBy_nonneg {l : Ledger} (hl : l.Clamped) (key : String × String) (owner : String)
    (reading : Totals) : 0 ≤ abandonedBy account side l key owner reading := by
  unfold abandonedBy
  split
  · exact le_refl 0
  · exact Ledger.held_nonneg account side hl key

theorem abandonedByRows_nonneg {l : Ledger} (hl : l.Clamped) (generation : String)
    (rows : List PptpSession) : 0 ≤ abandonedByRows account side generation l rows := by
  induction rows generalizing l with
  | nil => exact le_refl 0
  | cons s rows ih =>
    have hFirst := abandonedBy_nonneg account side hl (generation, s.ifname)
      s.username s.reading
    have hRest := ih (Ledger.clamped_observeRow hl generation s)
    exact add_nonneg hFirst hRest

theorem rows_balance {l : Ledger} (hl : l.Clamped) (generation : String)
    (rows : List PptpSession) :
    side.of ((rows.foldl (fun l s => l.observeRow generation s) l).total account)
        - (rows.foldl (fun l s => l.observeRow generation s) l).base account side =
      side.of (l.total account) - l.base account side
        + abandonedByRows account side generation l rows := by
  induction rows generalizing l with
  | nil => simp [abandonedByRows]
  | cons s rows ih =>
    have hFirst := Ledger.observeRow_balance account side hl generation s
    have hRest := ih (Ledger.clamped_observeRow hl generation s)
    rw [List.foldl_cons, abandonedByRows, hRest, hFirst]
    omega

theorem observe_balance (l : Ledger) (hl : l.Clamped) (generation : String)
    (sessions : List PptpSession) :
    side.of ((l.observe generation sessions).1.total account)
        - (l.observe generation sessions).1.base account side =
      side.of (l.total account) - l.base account side
        + (Op.observe generation sessions).abandoned account side l := by
  have hKept := Ledger.keepGeneration_balance account side l generation
  have hRows := rows_balance account side
    (Ledger.clamped_filter hl fun e => decide (e.1.1 = generation)) generation
    (sessions.filter fun s => decide (s.state = "active"))
  have hSame : (l.keepGeneration generation).total account = l.total account := rfl
  rw [← Ledger.keepGeneration, hSame] at hRows
  rw [Ledger.observe, Op.abandoned]
  simp only
  omega

-- ---------------------------------------------------------------------------
-- Any operations in any order
-- ---------------------------------------------------------------------------

theorem clamped_apply {l : Ledger} (hl : l.Clamped) (op : Op) : (l.apply op).Clamped := by
  cases op with
  | observe generation sessions => exact Ledger.clamped_observe hl generation sessions
  | recordFinal generation ifname owner final =>
    exact Ledger.clamped_recordFinal hl generation ifname owner final
  | forgetAccount owner purgeTotals => exact Ledger.clamped_filter hl _

theorem sumOf_filter_nonneg {l : Ledger} (hl : l.Clamped)
    (p : (String × String) × (String × Totals) → Bool) :
    0 ≤ (l.active.filter p).sumOf fun _ => share account side :=
  Ledger.base_nonneg account side (Ledger.clamped_filter hl p)

theorem abandoned_nonneg {l : Ledger} (hl : l.Clamped) (op : Op) :
    0 ≤ op.abandoned account side l := by
  cases op with
  | observe generation sessions =>
    exact add_nonneg (sumOf_filter_nonneg account side hl _)
      (abandonedByRows_nonneg account side (Ledger.clamped_filter hl _) generation _)
  | recordFinal generation ifname owner final =>
    rw [Op.abandoned]
    split
    · exact le_refl 0
    · exact abandonedBy_nonneg account side hl _ owner final
  | forgetAccount owner purgeTotals => exact sumOf_filter_nonneg account side hl _

/-- An operation that does not purge moves the total by what it records and
what it abandons, against the rows that remain. -/
theorem apply_balance {l : Ledger} (hl : l.Clamped) {op : Op} (hKept : op.purges account = false) :
    side.of ((l.apply op).total account) - (l.apply op).base account side =
      side.of (l.total account) - l.base account side
        + op.final account side + op.abandoned account side l := by
  cases op with
  | observe generation sessions =>
    rw [Op.final, add_zero]
    exact observe_balance account side l hl generation sessions
  -- an observation without a name is dropped, and then nothing is recorded either
  | recordFinal generation ifname owner final =>
    rw [Ledger.apply, Op.final, Op.abandoned]
    by_cases hNamed : generation = "" ∨ ifname = "" ∨ owner = ""
    · rw [Ledger.recordFinal, if_pos hNamed, if_pos hNamed, if_pos hNamed]
      omega
    · rw [if_neg hNamed, if_neg hNamed]
      exact Ledger.recordFinal_balance account side hl hNamed final
  | forgetAccount owner purgeTotals =>
    have hBase := Ledger.forgetAccount_balance account side l owner purgeTotals
    -- no purge of this account: its own total stays, whatever becomes of the owner's
    have hTotal : (l.forgetAccount owner purgeTotals).total account = l.total account := by
      cases purgeTotals with
      | false => rfl
      | true =>
        have hOther : account ≠ owner := by
          rintro rfl
          simp [Op.purges] at hKept
        rw [Ledger.forgetAccount, if_pos rfl, Ledger.total, Dict.get?_pop, if_neg hOther]
        rfl
    rw [Ledger.apply, Op.final, Op.abandoned, hTotal]
    omega

/-- After a purge nothing is left of the account. -/
theorem apply_purged {l : Ledger} {op : Op} (hPurged : op.purges account = true) :
    side.of ((l.apply op).total account) = 0 ∧ (l.apply op).base account side = 0 := by
  cases op with
  | observe generation sessions => cases hPurged
  | recordFinal generation ifname owner final => cases hPurged
  | forgetAccount owner purgeTotals =>
    rw [Op.purges, Bool.and_eq_true, decide_eq_true_eq] at hPurged
    obtain ⟨rfl, rfl⟩ := hPurged
    refine ⟨?_, Ledger.base_forgetAccount owner side l true⟩
    rw [Ledger.apply, Ledger.forgetAccount, if_pos rfl, Ledger.total, Dict.get?_pop, if_pos rfl]
    exact Side.of_zero side

theorem Audit.balanced_start : Balanced account side Audit.start where
  clamped   := Ledger.clamped_empty
  abandoned := le_refl 0
  total     := Side.of_zero side

theorem Audit.balanced_next {a : Audit} (ha : a.Balanced account side) (op : Op) :
    (a.next account side op).Balanced account side := by
  have hAbandoned := abandoned_nonneg account side ha.clamped op
  have hTotal := ha.total
  have hBefore := ha.abandoned
  cases hPurges : op.purges account with
  | true =>
    obtain ⟨hNone, hBase⟩ := apply_purged account side (l := a.ledger) hPurges
    refine ⟨clamped_apply ha.clamped op, ?_, ?_⟩
    · simp [Audit.next, hPurges]
    · simp [Audit.next, hPurges, hNone, hBase]
  | false =>
    have hMoved := apply_balance account side ha.clamped hPurges
    refine ⟨clamped_apply ha.clamped op, ?_, ?_⟩
    · simp only [Audit.next, hPurges, Bool.false_eq_true, if_false]
      omega
    · simp only [Audit.next, hPurges, Bool.false_eq_true, if_false]
      omega

theorem Audit.balanced (ops : List Op) :
    (ops.foldl (fun a op => a.next account side op) Audit.start).Balanced account side := by
  have hRun : ∀ a : Audit, a.Balanced account side →
      (ops.foldl (fun a op => a.next account side op) a).Balanced account side := by
    induction ops with
    | nil => exact fun a ha => ha
    | cons op ops ih => exact fun a ha => ih _ (Audit.balanced_next account side ha op)
  exact hRun Audit.start (Audit.balanced_start account side)

end Audit

end ZagrosNode.Usage.Pptp
