import Mathlib.Algebra.BigOperators.Group.List.Basic
import ZagrosNode.Usage.Ledger

/-!
# ZagrosNode — PPTP sessions and their bytes

Clients connect and disconnect, the daemon counts their bytes, polls read the
counters of live sessions and hand the rows to the ledger later, and the hook
of a session that went down records its final counters, under whatever the
generation file says by then, or not at all when the file is gone.

No bytes of a recorded session are ever missing from a total. A total is above
them by the rows the ledger still has and by those it abandoned: a poll that
hands over a row of a session whose final was already recorded counts it
again. Runs where that does not happen are in `Usage/Orderly.lean`.

The columns of the ledger hold 64 bits. A run is followed as long as every
number fits; what SQLite and Python make of one that does not is not modelled.

Between a session and the ledger there are two ways, and they are not synchronised.
A poll reads all sessions at one moment and hands the rows over at another; the hook
of a session that went down writes its final counters in a process of its own, which
reads the generation from a file at that moment. `Event` has the ends of both ways as
steps of their own.

The theorem is about every run, ordered or not. Its statement is a sum over the
connections: what was recorded of an account is in its total, and what the total has
beyond that is accounted for by two figures of the audit, the rows still there and
those that were abandoned. `Accounted` is the invariant, with one lemma for a hook and
the balance of the ledger (`Usage/Ledger.lean`) for everything else.

A daemon that starts again has another generation, and a row under another one than
that of the running daemon is abandoned by the next poll.

Main results:

* `finals_counted` — every run: recorded sessions are in the total, and what
  is above them.
-/

namespace ZagrosNode.Usage.Pptp

open ZagrosNode.Lib

-- ---------------------------------------------------------------------------
-- Connections
-- ---------------------------------------------------------------------------

/-- A connection is up until its interface goes down; then its hook runs, and
records the final counters or fails to. -/
inductive Stage
  | up | down | recorded | lost
  deriving DecidableEq, Repr

/-- A connection of a client; `counted` is the last the ledger heard of it. -/
structure Connection where
  ifname     : String
  account    : String
  generation : String
  carried    : Nat × Nat
  stage      : Stage
  counted    : Totals
  deriving Repr

namespace Connection

variable (c : Connection)

/-- The counters of the interface. -/
def counters : Totals := ((c.carried.1 : Int), (c.carried.2 : Int))

/-- The row `show sessions` printed when the counters were `carried`. -/
def row (carried : Nat × Nat) : PptpSession :=
  ⟨c.ifname, c.account, "active", (carried.1 : Int), (carried.2 : Int)⟩

/-- The connection belongs to the generation and its hook has not run. -/
def isOpen (generation : String) : Bool :=
  decide (c.generation = generation ∧ (c.stage = .up ∨ c.stage = .down))

end Connection

/-- A row of a poll: whose it is, and its counters when it was read. -/
abbrev Row := Nat × (Nat × Nat)

/-- The ledger with its audit, the generation file of the running daemon, all
connections there were, and the polls that have not handed over their rows. -/
structure World where
  audit       : Audit
  generation  : String
  connections : List Connection
  polls       : List (List Row)

namespace World

def ledger (s : World) : Ledger := s.audit.ledger

def start (generation : String) : World := ⟨Audit.start, generation, [], []⟩

end World

inductive Event
  | connect (ifname account : String)
  | carry (id : Nat) (more : Nat × Nat)
  | hangup (id : Nat)
  /-- `show sessions` prints rows of connections that are up -/
  | read (ids : List Nat)
  /-- `observe`, under what the generation file said -/
  | observe (poll : Nat) (generation : String)
  /-- `hook_from_environment`; `none` is a generation file that is gone or a
  counter that is no number -/
  | hook (id : Nat) (generation : Option String)
  | restart (generation : String)
  /-- `delete_account` -/
  | forget (account : String)

-- ---------------------------------------------------------------------------
-- Steps
-- ---------------------------------------------------------------------------

/-- The rows of connections that are up. -/
def readRows (cs : List Connection) (ids : List Nat) : List Row :=
  ids.filterMap fun id => (cs[id]?).bind fun c =>
    if c.stage = .up then some (id, c.carried) else none

/-- What the rows of a poll look like to `observe`. -/
def sessionsOf (cs : List Connection) (rows : List Row) : List PptpSession :=
  rows.filterMap fun row => (cs[row.1]?).map fun c => c.row row.2

/-- The connection of a row was heard of. -/
def hear (cs : List Connection) (row : Row) : List Connection :=
  match cs[row.1]? with
  | some c => cs.set row.1 { c with counted := ((row.2.1 : Int), (row.2.2 : Int)) }
  | none   => cs

section Sessions

variable (account : String) (side : Side)

namespace World

variable (s : World)

/-- The operation that records the final of a connection. -/
def finalOp (c : Connection) (generation : String) : Op :=
  .recordFinal generation c.ifname c.account c.counters

def runHook (id : Nat) (c : Connection) : Option String → World
  | none            => { s with connections := s.connections.set id { c with stage := .lost } }
  | some generation =>
    if generation = "" then
      { s with connections := s.connections.set id { c with stage := .lost } }
    else
      { s with
        audit := s.audit.next account side (finalOp c generation)
        connections := s.connections.set id
          { c with stage := .recorded, counted := c.counters } }

end World

/-- One step; what cannot happen does nothing. -/
def World.step (s : World) : Event → World
  | .connect ifname owner =>
    if ifname = "" ∨ owner = "" ∨ s.connections.any (fun c =>
        decide (c.ifname = ifname ∧ c.stage = .up)) then s
    else
      { s with
        connections := s.connections ++ [⟨ifname, owner, s.generation, (0, 0), .up, (0, 0)⟩] }
  | .carry id more =>
    match s.connections[id]? with
    | some c =>
      if c.stage = .up then
        { s with
          connections := s.connections.set id
            { c with carried := (c.carried.1 + more.1, c.carried.2 + more.2) } }
      else s
    | none => s
  | .hangup id =>
    match s.connections[id]? with
    | some c =>
      if c.stage = .up then
        { s with connections := s.connections.set id { c with stage := .down } }
      else s
    | none => s
  | .read ids => { s with polls := s.polls ++ [readRows s.connections ids] }
  | .observe poll generation =>
    match s.polls[poll]? with
    | some rows =>
      { s with
        audit := s.audit.next account side
          (.observe generation (sessionsOf s.connections rows))
        connections := rows.foldl hear s.connections
        polls := s.polls.eraseIdx poll }
    | none => s
  | .hook id generation =>
    match s.connections[id]? with
    | some c => if c.stage = .down then s.runHook account side id c generation else s
    | none   => s
  | .restart generation => { s with generation := generation }
  | .forget owner => { s with audit := s.audit.next account side (.forgetAccount owner false) }

def sessionMachine : Machine World Event Unit where
  step s e := (s.step account side e, ())

/-- The world after the events, as long as every number fits into its column. -/
def World.run (s : World) : List Event → Option World
  | []      => some s
  | e :: es =>
    if (s.step account side e).ledger.stored then World.run (s.step account side e) es else none

/-- Such a run is a run of the machine. -/
theorem World.run_eq {s t : World} {es : List Event} (h : s.run account side es = some t) :
    t = (sessionMachine account side).exec s es := by
  induction es generalizing s with
  | nil => exact (Option.some.inj h).symm
  | cons e es ih =>
    rw [World.run] at h
    split at h
    · exact ih h
    · cases h

-- ---------------------------------------------------------------------------
-- Sums over the account's connections
-- ---------------------------------------------------------------------------

/-- The sum of `f` over the connections of the account. -/
def sumFor (f : Connection → Int) (cs : List Connection) : Int :=
  (cs.map fun c => if c.account = account then f c else 0).sum

/-- The bytes of the connections whose final was recorded. -/
def recordedBytes (cs : List Connection) : Int :=
  sumFor account (fun c => if c.stage = .recorded then side.of c.counters else 0) cs

/-- The bytes the ledger heard of. -/
def heardBytes (cs : List Connection) : Int := sumFor account (fun c => side.of c.counted) cs

theorem sumFor_set (f : Connection → Int) {cs : List Connection} {id : Nat} {c : Connection}
    (hGet : cs[id]? = some c) (c' : Connection) :
    sumFor account f (cs.set id c') =
      sumFor account f cs - (if c.account = account then f c else 0)
        + (if c'.account = account then f c' else 0) := by
  obtain ⟨hId, rfl⟩ := List.getElem?_eq_some_iff.mp hGet
  rw [sumFor, List.map_set, List.sum_set', dif_pos (by simpa using hId), List.getElem_map]
  unfold sumFor
  omega

/-- Replacing a connection by one that contributes the same. -/
theorem sumFor_set_same (f : Connection → Int) {cs : List Connection} {id : Nat} {c c' : Connection}
    (hGet : cs[id]? = some c) (hAccount : c'.account = c.account) (hSame : f c' = f c) :
    sumFor account f (cs.set id c') = sumFor account f cs := by
  rw [sumFor_set account f hGet c', hAccount, hSame]
  omega

theorem sumFor_append (f : Connection → Int) (cs : List Connection) {c : Connection} (h : f c = 0) :
    sumFor account f (cs ++ [c]) = sumFor account f cs := by
  simp [sumFor, h]

theorem recordedBytes_hear (cs : List Connection) (row : Row) :
    recordedBytes account side (hear cs row) = recordedBytes account side cs := by
  unfold hear
  cases hGet : cs[row.1]? with
  | none   => rfl
  | some c => exact sumFor_set_same account _ hGet rfl rfl

theorem recordedBytes_heard (cs : List Connection) (rows : List Row) :
    recordedBytes account side (rows.foldl hear cs) = recordedBytes account side cs := by
  induction rows generalizing cs with
  | nil => rfl
  | cons row rows ih => rw [List.foldl_cons, ih, recordedBytes_hear]

-- ---------------------------------------------------------------------------
-- Every run
-- ---------------------------------------------------------------------------

/-- Interfaces and accounts have names. -/
def Named (cs : List Connection) : Prop := ∀ c ∈ cs, c.ifname ≠ "" ∧ c.account ≠ ""

theorem named_set {cs : List Connection} {id : Nat} {c c' : Connection} (h : Named cs)
    (hGet : cs[id]? = some c) (hName : c'.ifname = c.ifname) (hAccount : c'.account = c.account) :
    Named (cs.set id c') := by
  intro d hd
  rcases List.mem_or_eq_of_mem_set hd with hOld | rfl
  · exact h d hOld
  · rw [hName, hAccount]
    exact h c (List.mem_of_getElem? hGet)

theorem named_hear {cs : List Connection} (h : Named cs) (row : Row) : Named (hear cs row) := by
  unfold hear
  cases hGet : cs[row.1]? with
  | none   => exact h
  | some c => exact named_set h hGet rfl rfl

theorem named_heard {cs : List Connection} (h : Named cs) (rows : List Row) :
    Named (rows.foldl hear cs) := by
  induction rows generalizing cs with
  | nil => exact h
  | cons row rows ih => exact ih (named_hear h row)

/-- The audit accounts for the recorded connections. -/
structure Accounted (s : World) : Prop where
  balanced : s.audit.Balanced account side
  closed   : s.audit.closed = recordedBytes account side s.connections
  named    : Named s.connections

theorem accounted_set {s : World} {id : Nat} {c c' : Connection} (h : Accounted account side s)
    (hGet : s.connections[id]? = some c) (hName : c'.ifname = c.ifname)
    (hAccount : c'.account = c.account)
    (hSame : (if c'.stage = .recorded then side.of c'.counters else 0) =
      (if c.stage = .recorded then side.of c.counters else 0)) :
    Accounted account side { s with connections := s.connections.set id c' } where
  balanced := h.balanced
  closed   := h.closed.trans (sumFor_set_same account _ hGet hAccount hSame).symm
  named    := named_set h.named hGet hName hAccount

theorem accounted_hook {s : World} {id : Nat} {c : Connection} (h : Accounted account side s)
    (hGet : s.connections[id]? = some c) (hDown : c.stage = .down) (generation : Option String) :
    Accounted account side (s.runHook account side id c generation) := by
  unfold World.runHook
  -- without a generation, or with an empty one, nothing is recorded
  cases generation with
  | none => exact accounted_set account side h hGet rfl rfl (by simp [hDown])
  | some generation =>
    by_cases hMissing : generation = ""
    · simp only [hMissing, if_true]
      exact accounted_set account side h hGet rfl rfl (by simp [hDown])
    · simp only [hMissing, if_false]
      have hNames := h.named c (List.mem_of_getElem? hGet)
      refine ⟨Audit.balanced_next account side h.balanced _, ?_, named_set h.named hGet rfl rfl⟩
      -- counters are never negative
      have hCounters : max 0 (side.of c.counters) = side.of c.counters := by
        cases side <;> exact max_eq_right (Int.natCast_nonneg _)
      have hFinal : (World.finalOp c generation).final account side =
          if c.account = account then side.of c.counters else 0 := by
        simp only [World.finalOp, Op.final, hMissing, hNames.1, hNames.2, or_self, if_false,
          hCounters]
      -- of the connections this is the one that joins the recorded ones
      have hSum := sumFor_set account
        (fun c => if c.stage = .recorded then side.of c.counters else 0) hGet
        { c with stage := .recorded, counted := c.counters }
      simp only [hDown, if_true, reduceCtorEq, if_false] at hSum
      have hSame : ({ c with stage := .recorded, counted := c.counters } : Connection).counters =
          c.counters := rfl
      simp only [Audit.next, World.finalOp, Op.purges, Bool.false_eq_true, if_false]
      rw [← World.finalOp, hFinal, h.closed]
      unfold recordedBytes
      rw [hSum, hSame]
      split <;> omega

theorem accounted_step {s : World} (h : Accounted account side s) (e : Event) :
    Accounted account side (s.step account side e) := by
  cases e with
  -- a new connection has carried nothing
  | connect ifname owner =>
    rw [World.step]
    split
    · exact h
    · next hNew =>
      rw [not_or, not_or] at hNew
      refine ⟨h.balanced, ?_, ?_⟩
      · exact h.closed.trans (sumFor_append account _ s.connections rfl).symm
      · intro c hc
        rcases List.mem_append.mp hc with hOld | hLast
        · exact h.named c hOld
        · rw [List.mem_singleton] at hLast
          subst hLast
          exact ⟨hNew.1, hNew.2.1⟩
  -- only the counters of a connection that is up move
  | carry id more =>
    rw [World.step]
    cases hGet : s.connections[id]? with
    | none => exact h
    | some c =>
      by_cases hUp : c.stage = .up
      · simp only [hUp, if_true]
        exact accounted_set account side h hGet rfl rfl (by simp [hUp])
      · simpa only [hUp, if_false] using h
  | hangup id =>
    rw [World.step]
    cases hGet : s.connections[id]? with
    | none => exact h
    | some c =>
      by_cases hUp : c.stage = .up
      · simp only [hUp, if_true]
        exact accounted_set account side h hGet rfl rfl (by simp [hUp])
      · simpa only [hUp, if_false] using h
  | read ids => exact ⟨h.balanced, h.closed, h.named⟩
  -- the rows a poll has read before, in one operation
  | observe poll generation =>
    rw [World.step]
    cases hPoll : s.polls[poll]? with
    | none => exact h
    | some rows =>
      refine ⟨Audit.balanced_next account side h.balanced _, ?_, named_heard h.named rows⟩
      rw [recordedBytes_heard, ← h.closed]
      exact add_zero _
  | hook id generation =>
    rw [World.step]
    cases hGet : s.connections[id]? with
    | none => exact h
    | some c =>
      by_cases hDown : c.stage = .down
      · simp only [hDown, if_true]
        exact accounted_hook account side h hGet hDown generation
      · simpa only [hDown, if_false] using h
  | restart generation => exact ⟨h.balanced, h.closed, h.named⟩
  -- the ledger alone changes
  | forget owner =>
    refine ⟨Audit.balanced_next account side h.balanced _, ?_, h.named⟩
    exact (add_zero _).trans h.closed

/-- Whatever happens and in whatever order, as long as the numbers fit into
their columns: a total has all bytes of the connections whose final was
recorded, and above them the rows the ledger still has and those it abandoned. -/
theorem finals_counted {generation : String} {es : List Event} {s : World}
    (hRun : (World.start generation).run account side es = some s) :
    side.of (s.ledger.total account) = recordedBytes account side s.connections
        + (s.ledger.base account side + s.audit.abandoned) ∧
      0 ≤ s.ledger.base account side ∧ 0 ≤ s.audit.abandoned := by
  have hStart : Accounted account side (World.start generation) :=
    ⟨Audit.balanced_start account side, rfl, fun c hc => by cases hc⟩
  have hStep : ∀ s e, Accounted account side s →
      Accounted account side ((sessionMachine account side).next s e) :=
    fun s e hs => accounted_step account side hs e
  have h := (sessionMachine account side).exec_inv hStep hStart es
  rw [← World.run_eq account side hRun] at h
  have hTotal := h.balanced.total
  rw [h.closed] at hTotal
  refine ⟨?_, Ledger.base_nonneg account side h.balanced.clamped, h.balanced.abandoned⟩
  rw [← add_assoc]
  exact hTotal

end Sessions

/-- A session whose final is recorded, one that is polled and stays, and one
that another daemon generation leaves behind. -/
def threeSessions : List Event :=
  [.connect "ppp0" "a", .carry 0 (100, 10), .hangup 0, .hook 0 (some "g"), .connect "ppp1" "a",
    .carry 1 (30, 3), .read [1], .observe 0 "g", .restart "h", .connect "ppp2" "a",
    .carry 2 (5, 5), .read [2], .observe 0 "h"]

/--
Three sessions, with 135 bytes in the ledger at the end: those of the final
that was recorded, and what the polls have seen of the other two.
-/
theorem three_sessions_counted :
    ∃ s, (World.start "g").run "a" .up threeSessions = some s ∧
      Side.up.of (s.ledger.total "a") = 135 ∧
      Side.up.of (s.ledger.total "a") = recordedBytes "a" .up s.connections
        + (s.ledger.base "a" .up + s.audit.abandoned) := by
  have hRun : (World.start "g").run "a" .up threeSessions =
      some ((sessionMachine "a" .up).exec (World.start "g") threeSessions) := rfl
  exact ⟨_, hRun, by decide, (finals_counted "a" .up hRun).1⟩

end ZagrosNode.Usage.Pptp
