import ZagrosNode.Usage.Trackers

/-!
# ZagrosNode — SoftEther's usage tracker

SoftEther copies the counters of live sessions into the counters of the user
with a delay. The tracker therefore keeps, beside what it billed, the last
counters of both kinds and the live bytes the user counter has not caught up
with. It saves four rows for an account: the billed position under the id
itself, the others under the id with a suffix behind two colons.

The source keeps five dictionaries, and so does `Tracker`: what was billed, the
counters of the user, those of its sessions, what is outstanding between the two, and
the number of logins, by which it tells a reset of the counters from a reading that
is late. A set beside them has the accounts restored and not yet observed.

A saved state is flat. The rows of one account are its id and the id with three
suffixes; restoring reads the ids first, which are the keys without two colons, and
then looks up the others. That is why an account whose id has two colons is saved and
not restored: its own rows look like somebody's extra ones. The lemmas follow the
columns, one after the other, through `restoreState` and `stateSnapshot`.

The first observation after a restart differs from all later ones: it reports only
what goes beyond the restored position.

Main results:

* `restoreState_restored` — what is restored, and that it is restored for the
  ids without two colons in them only.
* `stateSnapshot_get?` — what a snapshot has under an id.
-/

namespace ZagrosNode.Usage

open ZagrosNode.Lib

/-- `"::" in key` -/
def hasDoubleColon : List Char → Bool
  | []        => false
  | c :: rest => (c == ':' && rest.head? == some ':') || hasDoubleColon rest

theorem hasDoubleColon_append (a b : List Char) : hasDoubleColon (a ++ ':' :: ':' :: b) = true := by
  induction a with
  | nil => rfl
  | cons c cs ih => rw [List.cons_append, hasDoubleColon, ih, Bool.or_true]

namespace SoftEther

structure Tracker where
  billed       : Dict String Totals
  lastUser     : Dict String Totals
  lastSessions : Dict (String × String) Totals
  outstanding  : Dict String Totals
  lastLogins   : Dict String Int
  /-- `_cold_after_restore` -/
  cold         : List String

namespace Tracker

def empty : Tracker := ⟨Dict.empty, Dict.empty, Dict.empty, Dict.empty, Dict.empty, []⟩

variable (t : Tracker)

def register (account : String) : Tracker :=
  { t with
    billed := t.billed.setdefault account (0, 0)
    lastUser := t.lastUser.setdefault account (0, 0)
    outstanding := t.outstanding.setdefault account (0, 0)
    lastLogins := t.lastLogins.setdefault account 0 }

def forget (account : String) : Tracker where
  billed       := t.billed.pop account
  lastUser     := t.lastUser.pop account
  lastSessions := t.lastSessions.filter fun e => decide (e.1.1 ≠ account)
  outstanding  := t.outstanding.pop account
  lastLogins   := t.lastLogins.pop account
  cold         := t.cold.filter fun other => decide (other ≠ account)

-- ---------------------------------------------------------------------------
-- Observations
-- ---------------------------------------------------------------------------

/-- `_delta`: a counter that went back counts in full only after a reset. -/
def growth (reset : Bool) (current previous : Int) : Int :=
  let now := max 0 current
  let before := max 0 previous
  if now ≥ before then now - before else if reset then now else 0

def growths (reset : Bool) (current previous : Totals) : Totals :=
  (growth reset current.1 previous.1, growth reset current.2 previous.2)

def plus (a b : Totals) : Totals := (a.1 + b.1, a.2 + b.2)

def minus (a b : Totals) : Totals := (a.1 - b.1, a.2 - b.2)

/-- The larger of both components. -/
def larger (a b : Totals) : Totals := (max a.1 b.1, max a.2 b.2)

def smaller (a b : Totals) : Totals := (min a.1 b.1, min a.2 b.2)

def position (d : Dict String Totals) (account : String) : Totals := (d.get? account).getD (0, 0)

/-- The first observation after a restart: only what the providers count
beyond the restored position is reported. -/
def observeCold (account : String) (completed : Totals) (live : Dict String Totals)
    (logins : Int) : Totals × Tracker :=
  let billed := position t.billed account
  let effective := larger completed (live.values.foldl plus (0, 0))
  let emitted :=
    if logins < (t.lastLogins.get? account).getD 0 then effective
    else larger (0, 0) (minus effective billed)
  let newBilled := plus billed emitted
  (emitted,
    { billed := t.billed.set account newBilled
      lastUser := t.lastUser.set account completed
      lastSessions := t.lastSessions.setAll (live.entries.map fun e => ((account, e.1), e.2))
      outstanding := t.outstanding.set account (larger (0, 0) (minus newBilled completed))
      lastLogins := t.lastLogins.set account logins
      cold := t.cold.filter fun other => decide (other ≠ account) })

/-- The user counter first absorbs live bytes that were reported already; what
exceeds them is new traffic. -/
def observeWarm (account : String) (completed : Totals) (live : Dict String Totals)
    (logins : Int) : Totals × Tracker :=
  let reset := decide (logins < (t.lastLogins.get? account).getD 0)
  let outstanding := if reset then (0, 0) else position t.outstanding account
  let sessions :=
    if reset then t.lastSessions.filter fun e => decide (e.1.1 ≠ account) else t.lastSessions
  let userDelta := growths reset completed (position t.lastUser account)
  let liveDelta := live.entries.foldl
    (fun acc e => plus acc (growths true e.2 ((sessions.get? (account, e.1)).getD (0, 0)))) (0, 0)
  let others := sessions.filter fun e => decide (e.1.1 ≠ account)
  let available := plus outstanding liveDelta
  let overlap := smaller userDelta available
  let emitted := minus (plus userDelta liveDelta) overlap
  (emitted,
    { billed := t.billed.set account (plus (position t.billed account) emitted)
      lastUser := t.lastUser.set account completed
      lastSessions := others.setAll (live.entries.map fun e => ((account, e.1), e.2))
      outstanding := t.outstanding.set account (minus available overlap)
      lastLogins := t.lastLogins.set account logins
      cold := t.cold })

/-- `observe`: the counters of the user, those of the live sessions, and how
often the user has logged in. -/
def observe (account : String) (completed : Totals) (live : Dict String Totals) (logins : Int) :
    Totals × Tracker :=
  let t := t.register account
  if account ∈ t.cold then t.observeCold account (clamp completed) live (max 0 logins)
  else t.observeWarm account (clamp completed) live (max 0 logins)

-- ---------------------------------------------------------------------------
-- Saving and restoring
-- ---------------------------------------------------------------------------

def userKey (key : String) : String := key ++ "::user"

def outstandingKey (key : String) : String := key ++ "::outstanding"

def loginsKey (key : String) : String := key ++ "::logins"

/-- The rows saved for one account, in the order they are written. -/
def rows (key : String) : List (String × Totals) :=
  match t.billed.get? key with
  | none        => []
  | some billed =>
    [(key, billed), (userKey key, position t.lastUser key),
      (outstandingKey key, position t.outstanding key),
      (loginsKey key, ((t.lastLogins.get? key).getD 0, 0))]

/-- `state_snapshot` -/
def stateSnapshot (keys : List String) : Dict String Totals := Dict.ofPairs (keys.flatMap t.rows)

def restoreOne (state : Dict String Totals) (t : Tracker) (e : String × Totals) : Tracker where
  billed       := t.billed.set e.1 e.2
  lastUser     := t.lastUser.set e.1 (position state (userKey e.1))
  lastSessions := t.lastSessions.filter fun s => decide (s.1.1 ≠ e.1)
  outstanding  := t.outstanding.set e.1 ((state.get? (outstandingKey e.1)).getD e.2)
  lastLogins   := t.lastLogins.set e.1 (position state (loginsKey e.1)).1
  cold         := if e.1 ∈ t.cold then t.cold else t.cold ++ [e.1]

/-- `restore_state`: rows whose key has two colons are not accounts. -/
def restoreState (state : Dict String Totals) : Tracker :=
  (state.entries.filter fun e => !hasDoubleColon e.1.toList).foldl (restoreOne state) t

-- ---------------------------------------------------------------------------
-- What was restored
-- ---------------------------------------------------------------------------

/-- The accounts of a saved state. -/
def accountsOf (state : Dict String Totals) : Dict String Totals :=
  state.filter fun e => !hasDoubleColon e.1.toList

theorem accountsOf_get? (state : Dict String Totals) (account : String) :
    (accountsOf state).get? account =
      if hasDoubleColon account.toList then none else state.get? account := by
  rw [accountsOf, Dict.get?_filter]
  cases state.get? account <;> cases hColon : hasDoubleColon account.toList <;>
    simp [Option.filter, hColon]

/-- One column of the tracker after the loop over the accounts. -/
theorem column_get? {ν : Type} (f : String × Totals → ν) (state : Dict String Totals)
    (account : String) :
    (Dict.empty.setAll ((accountsOf state).entries.map fun e => (e.1, f e))).get? account =
      ((accountsOf state).get? account).map fun totals => f (account, totals) := by
  have hNodup : (((accountsOf state).entries.map fun e => (e.1, f e)).map Prod.fst).Nodup := by
    rw [List.map_map]
    exact (accountsOf state).nodup
  rw [Dict.get?_setAll_of_nodup hNodup, assocGet?_mapValues]
  exact Option.or_none

theorem foldl_restoreOne (state : Dict String Totals) (l : List (String × Totals)) :
    (l.foldl (restoreOne state) t).billed = t.billed.setAll l ∧
      (l.foldl (restoreOne state) t).lastUser =
        t.lastUser.setAll (l.map fun e => (e.1, position state (userKey e.1))) ∧
      (l.foldl (restoreOne state) t).outstanding = t.outstanding.setAll
        (l.map fun e => (e.1, (state.get? (outstandingKey e.1)).getD e.2)) ∧
      (l.foldl (restoreOne state) t).lastLogins =
        t.lastLogins.setAll (l.map fun e => (e.1, (position state (loginsKey e.1)).1)) := by
  induction l generalizing t with
  | nil => exact ⟨rfl, rfl, rfl, rfl⟩
  | cons e rest ih => exact ih (restoreOne state t e)

/-- The restored state of a fresh tracker, column by column. -/
structure Restored (state : Dict String Totals) (t : Tracker) : Prop where
  billed : ∀ account, t.billed.get? account = (accountsOf state).get? account
  lastUser : ∀ account, t.lastUser.get? account =
    ((accountsOf state).get? account).map fun _ => position state (userKey account)
  outstanding : ∀ account, t.outstanding.get? account =
    ((accountsOf state).get? account).map fun totals =>
      (state.get? (outstandingKey account)).getD totals
  lastLogins : ∀ account, t.lastLogins.get? account =
    ((accountsOf state).get? account).map fun _ => (position state (loginsKey account)).1

theorem restoreState_restored (state : Dict String Totals) :
    Restored state (empty.restoreState state) := by
  obtain ⟨hBilled, hUser, hOutstanding, hLogins⟩ :=
    foldl_restoreOne empty state (accountsOf state).entries
  constructor <;> intro account
  · show ((accountsOf state).entries.foldl (restoreOne state) empty).billed.get? account = _
    rw [hBilled]
    exact congrArg (fun d => Dict.get? d account) (Dict.ofPairs_entries (accountsOf state))
  · show ((accountsOf state).entries.foldl (restoreOne state) empty).lastUser.get? account = _
    rw [hUser]
    exact column_get? (fun e => position state (userKey e.1)) state account
  · show ((accountsOf state).entries.foldl (restoreOne state) empty).outstanding.get? account = _
    rw [hOutstanding]
    exact column_get? (fun e => (state.get? (outstandingKey e.1)).getD e.2) state account
  · show ((accountsOf state).entries.foldl (restoreOne state) empty).lastLogins.get? account = _
    rw [hLogins]
    exact column_get? (fun e => (position state (loginsKey e.1)).1) state account

-- ---------------------------------------------------------------------------
-- Registration
-- ---------------------------------------------------------------------------

def registerAll (accounts : List String) : Tracker := accounts.foldl register t

/-- Registration fills gaps with zeros and leaves the rest alone. -/
theorem registerAll_columns (accounts : List String) (account : String) :
    (t.registerAll accounts).billed.get? account =
        (t.billed.get? account).or (if account ∈ accounts then some (0, 0) else none) ∧
      position (t.registerAll accounts).lastUser account = position t.lastUser account ∧
      position (t.registerAll accounts).outstanding account = position t.outstanding account ∧
      ((t.registerAll accounts).lastLogins.get? account).getD 0 =
        (t.lastLogins.get? account).getD 0 := by
  -- a zero that is put where nothing was reads like nothing
  have hZero : ∀ (d : Dict String Totals) (key : String),
      position (d.setdefault key (0, 0)) account = position d account := by
    intro d key
    rw [position, position, Dict.get?_setdefault]
    cases d.get? account with
    | some totals => rfl
    | none => by_cases hKey : key = account <;> simp [hKey]
  -- on the accounts; the first one that is new is put before the others
  induction accounts generalizing t with
  | nil => exact ⟨by simp [registerAll], rfl, rfl, rfl⟩
  | cons key rest ih =>
    obtain ⟨hBilled, hUser, hOutstanding, hLogins⟩ := ih (t.register key)
    refine ⟨?_, hUser.trans (hZero _ key), hOutstanding.trans (hZero _ key), hLogins.trans ?_⟩
    · refine hBilled.trans ?_
      show ((t.billed.setdefault key (0, 0)).get? account).or _ = _
      rw [Dict.get?_setdefault]
      cases t.billed.get? account with
      | some totals => rfl
      | none =>
        by_cases hKey : key = account
        · simp [hKey]
        · have hKey' : ¬ account = key := fun h => hKey h.symm
          simp [hKey, hKey']
    · show ((t.lastLogins.setdefault key 0).get? account).getD 0 = _
      rw [Dict.get?_setdefault]
      cases t.lastLogins.get? account with
      | some n => rfl
      | none => by_cases hKey : key = account <;> simp [hKey]

-- ---------------------------------------------------------------------------
-- Snapshots
-- ---------------------------------------------------------------------------

theorem hasDoubleColon_keys (key : String) :
    hasDoubleColon (userKey key).toList = true ∧
      hasDoubleColon (outstandingKey key).toList = true ∧
      hasDoubleColon (loginsKey key).toList = true := by
  refine ⟨?_, ?_, ?_⟩
  · rw [userKey, String.toList_append]
    exact hasDoubleColon_append key.toList "user".toList
  · rw [outstandingKey, String.toList_append]
    exact hasDoubleColon_append key.toList "outstanding".toList
  · rw [loginsKey, String.toList_append]
    exact hasDoubleColon_append key.toList "logins".toList

/-- Where a row of a snapshot comes from. -/
theorem mem_rows {key account : String} {totals : Totals} (h : (account, totals) ∈ t.rows key) :
    (account = key ∧ t.billed.get? key = some totals) ∨
      (account = userKey key ∧ totals = position t.lastUser key) ∨
      (account = outstandingKey key ∧ totals = position t.outstanding key) ∨
      (account = loginsKey key ∧ totals = ((t.lastLogins.get? key).getD 0, 0)) := by
  unfold rows at h
  cases hBilled : t.billed.get? key with
  | none =>
    rw [hBilled] at h
    cases h
  | some billed =>
    rw [hBilled] at h
    simp only [List.mem_cons, Prod.mk.injEq, List.not_mem_nil, or_false] at h
    rcases h with ⟨hKey, hTotals⟩ | hUser | hOutstanding | hLogins
    · exact Or.inl ⟨hKey, by rw [hTotals]⟩
    · exact Or.inr (Or.inl hUser)
    · exact Or.inr (Or.inr (Or.inl hOutstanding))
    · exact Or.inr (Or.inr (Or.inr hLogins))

/-- A snapshot has an account's billed position if no row of another account
under the same key says otherwise. -/
theorem stateSnapshot_get? {keys : List String} {account : String} {totals : Totals}
    (hMem : account ∈ keys) (hBilled : t.billed.get? account = some totals)
    (hRows : ∀ key ∈ keys, ∀ other, (account, other) ∈ t.rows key → other = totals) :
    (t.stateSnapshot keys).get? account = some totals := by
  refine Dict.get?_setAll_const (List.mem_flatMap.mpr ⟨account, hMem, ?_⟩) ?_
  · rw [rows, hBilled]
    exact List.mem_cons_self
  · intro other hOther
    obtain ⟨key, hKey, hRow⟩ := List.mem_flatMap.mp hOther
    exact hRows key hKey other hRow

end Tracker

end SoftEther

end ZagrosNode.Usage
