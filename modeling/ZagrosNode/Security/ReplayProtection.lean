import ZagrosNode.Lib.Machine
import ZagrosNode.Lib.Once
import ZagrosNode.Security.SignedRequest

/-!
# ZagrosNode — no command is replayed

Runs of signed requests and restarts of the agent. A request may find any
identity and signing key (registrations and revocations happen in between),
the file write inside `accept` may fail, and a restart rebuilds the cache from
`replay.json`, or leaves the agent down if that file is invalid. The log of a
run holds the pair (nonce, timestamp) of every admitted request.

The cache is keyed by nonce alone, the window test is two-sided and pruning is
one-sided. The invariant that makes this work: every admitted pair whose
timestamp is not yet older than the window, at the clock of the last request,
is in memory under that very timestamp, and in the file.

The clock is part of every event, and the only thing asked of the surroundings is
that it does not go backwards from one request to the next. Without that a pruned
entry could be inside the window again. Restarts need no clock: loading keeps every
entry of the file.

`Held` is the invariant for one pair: in memory under its own timestamp if the agent
is up, and in the file under it. A nonce that is admitted twice with two timestamps
overwrites its entry, so the invariant has to say that the pair is held *or* too old
for the clock of the last request, and `accept` admits a nonce again only if its old
entry was pruned, that is, too old. A write that fails breaks the half about the
file; the code raises then and the request is not admitted.

`ReplayInv` adds the statement about the log, and `admitted_at_most_once` is the
induction over the run.

Main results:

* `admitted_at_most_once` — while the clock does not go backwards, no pair is
  admitted twice, and the cache holds every admitted pair whose timestamp can
  still pass the window test.
-/

namespace ZagrosNode.Security

open ZagrosNode.Lib ReplayGuard

-- ---------------------------------------------------------------------------
-- Runs of requests and restarts
-- ---------------------------------------------------------------------------

/-- The agent: its cache, if the process is up, and `replay.json`. -/
structure Agent where
  guard : Option ReplayGuard
  file  : Option ReplayFile

inductive AgentEvent
  | request (store : NodeIdentityStore) (dir : DataDir) (req : Request) (now : Int)
      (writeOk : Bool)
  | restart

/-- The clock reading of an event that has one. -/
def AgentEvent.now? : AgentEvent → Option Int
  | .request _ _ _ now _ => some now
  | .restart             => none

/-- The nonce and the timestamp of an admitted request. -/
abbrev Admitted := String × Int

/-- The pair a request carries. -/
def Request.pair? (req : Request) : Option Admitted :=
  match req.credentials? with
  | none   => none
  | some c =>
    match intOfStr c.timestamp with
    | .ok timestamp => some (c.nonce, timestamp)
    | .error _      => none

def Agent.step (sha : Sha256) (cipher : SecretsCipher) (window : Int) (a : Agent) :
    AgentEvent → Agent × Option Admitted
  | .restart =>
    match ReplayGuard.init window a.file with
    | .ok guard => ({ a with guard := some guard }, none)
    | .error _  => ({ a with guard := none }, none)
  | .request store dir req now writeOk =>
    match a.guard with
    | none       => (a, none)
    | some guard =>
      match signedRequest sha cipher ⟨store, dir, ⟨guard, a.file⟩⟩ req now writeOk with
      | (.ok _, g)    => (⟨some g.replay.guard, g.replay.file⟩, req.pair?)
      | (.error _, g) => (⟨some g.replay.guard, g.replay.file⟩, none)

def agentMachine (sha : Sha256) (cipher : SecretsCipher) (window : Int) :
    Machine Agent AgentEvent (Option Admitted) :=
  ⟨Agent.step sha cipher window⟩

/-- An agent that has not started yet, on any file. -/
def Agent.off (file : Option ReplayFile) : Agent := ⟨none, file⟩

/-- The wall clock the requests see never goes backwards. -/
def ClockMonotone (evs : List AgentEvent) : Prop :=
  (evs.filterMap AgentEvent.now?).Pairwise (· ≤ ·)

/-- No pair is admitted twice in the log. -/
def AtMostOnce (log : List (Option Admitted)) : Prop := Once id (fun _ _ => False) log

-- ---------------------------------------------------------------------------
-- The invariant
-- ---------------------------------------------------------------------------

/-- Where an admitted pair is still held: in memory, if the agent is up, and in
the file, both under its own timestamp. -/
structure Held (a : Agent) (nonce : String) (ts : Int) : Prop where
  memory : ∀ guard, a.guard = some guard → guard.seen.get? nonce = some ts
  file   : ∃ seen, load a.file = .ok seen ∧ seen.get? nonce = some ts

/-- Pairs were admitted at most once so far, every guard has the window of the
agent, and every admitted pair is held while its timestamp is not older than
the window at `clock`. -/
structure ReplayInv (window clock : Int) (log : List (Option Admitted)) (a : Agent) : Prop where
  once  : AtMostOnce log
  guard : ∀ guard, a.guard = some guard → guard.window = window
  held  : ∀ nonce ts, some (nonce, ts) ∈ log → clock - ts ≤ window → Held a nonce ts

variable {sha : Sha256} {cipher : SecretsCipher} {window clock now : Int}
  {log : List (Option Admitted)} {a : Agent}

theorem atMostOnce_none : AtMostOnce (log ++ [none]) ↔ AtMostOnce log := by
  rw [AtMostOnce, once_snoc]
  exact ⟨And.left, fun h => ⟨h, by simp⟩⟩

theorem atMostOnce_some {p : Admitted} (hOnce : AtMostOnce log) (hNew : some p ∉ log) :
    AtMostOnce (log ++ [some p]) := by
  refine once_snoc.mpr ⟨hOnce, ?_⟩
  rintro q hUsed ⟨before, m, after, rfl, hSeen, -⟩
  obtain rfl := Option.some.inj hUsed
  have hm : m = some p := hSeen
  exact hNew (by simp [hm])

/-- Time may pass. -/
theorem replayInv_later (h : ReplayInv window clock log a) (hLater : clock ≤ now) :
    ReplayInv window now log a where
  once := h.once
  guard := h.guard
  held := by
    intro nonce ts hMem hLive
    exact h.held nonce ts hMem (by omega)

/-- A step that admits nothing. -/
theorem replayInv_none {a' : Agent} (h : ReplayInv window clock log a)
    (hWindow : ∀ guard, a'.guard = some guard → guard.window = window)
    (hHeld : ∀ nonce ts, clock - ts ≤ window → Held a nonce ts → Held a' nonce ts) :
    ReplayInv window clock (log ++ [none]) a' where
  once := atMostOnce_none.mpr h.once
  guard := hWindow
  held := by
    intro nonce ts hMem hLive
    have hOld : some (nonce, ts) ∈ log := by simpa using hMem
    exact hHeld nonce ts hLive (h.held nonce ts hOld hLive)

theorem replayInv_restart (sha : Sha256) (cipher : SecretsCipher)
    (h : ReplayInv window clock log a) :
    ReplayInv window clock (log ++ [(a.step sha cipher window .restart).2])
      (a.step sha cipher window .restart).1 := by
  cases hLoad : load a.file with
  | error e =>
    simp only [Agent.step, ReplayGuard.init, hLoad]
    refine replayInv_none h (by simp) ?_
    intro nonce ts _ hHeld
    exact ⟨by simp, hHeld.file⟩
  | ok seen =>
    simp only [Agent.step, ReplayGuard.init, hLoad]
    refine replayInv_none h (by simp) ?_
    intro nonce ts _ hHeld
    refine ⟨?_, hHeld.file⟩
    rintro guard hGuard
    obtain rfl := Option.some.inj hGuard
    obtain ⟨seen', hLoad', hGet⟩ := hHeld.file
    rw [hLoad] at hLoad'
    obtain rfl := Except.ok.inj hLoad'
    exact hGet

-- ---------------------------------------------------------------------------
-- What a request does to the cache
-- ---------------------------------------------------------------------------

/-- A signed request fails and at most prunes, or fails after recording a fresh
nonce it could not write, or is admitted: its pair was fresh, and memory and
file hold it now. -/
theorem signedRequest_replay_cases (sha : Sha256) (cipher : SecretsCipher) (g : Gate)
    (req : Request) (now : Int) (writeOk : Bool) :
    (∃ e seen, signedRequest sha cipher g req now writeOk =
        (.error e, { g with replay := { g.replay with
          guard := { g.replay.guard with seen := seen } } }) ∧
      ∀ nonce ts, g.replay.guard.seen.get? nonce = some ts → now - ts ≤ g.replay.guard.window →
        seen.get? nonce = some ts) ∨
    (∃ node nonce timestamp, req.pair? = some (nonce, timestamp) ∧
      g.replay.Fresh nonce timestamp now ∧
      signedRequest sha cipher g req now writeOk =
        (.ok node, { g with replay :=
          ⟨{ g.replay.guard with
              seen := (prune g.replay.guard.window now g.replay.guard.seen).set nonce timestamp },
            some (dump ((prune g.replay.guard.window now g.replay.guard.seen).set nonce
              timestamp))⟩ })) := by
  -- pruning drops no pair whose timestamp is within the window
  have hKept : ∀ nonce ts, g.replay.guard.seen.get? nonce = some ts →
      now - ts ≤ g.replay.guard.window →
      (prune g.replay.guard.window now g.replay.guard.seen).get? nonce = some ts :=
    fun nonce ts hGet hLive => get?_prune.mpr ⟨hGet, hLive⟩
  by_cases hAuth : Authentic sha cipher g req now
  · obtain ⟨c, key, timestamp, hCred, hKey, hInt, hSig, hFresh⟩ := hAuth
    obtain ⟨state, hId⟩ := signingKey_some_identity hKey
    have hAscii : isAscii c.signature = true :=
      hSig ▸ hexDigest_ascii (signature_isHex sha _ _ _ _ _ _)
    -- the signature is the digest, so it is ASCII and the comparison says yes
    have hVerify : verifySignature sha key c.signature req.method req.path c.timestamp c.nonce
        req.body = .ok () := by
      rcases verifySignature_cases sha key c.signature req.method req.path c.timestamp
        c.nonce req.body with ⟨hNot, -⟩ | ⟨-, hNe, -⟩ | ⟨-, -, hEq⟩
      · rw [hAscii] at hNot
        cases hNot
      · exact absurd hSig hNe
      · exact hEq
    by_cases hNode : c.node = state.nodeId
    -- admitted, or recorded in memory by a write that failed
    · rcases accept_cases g.replay c.nonce timestamp now writeOk with
        ⟨-, -, hAccept⟩ | ⟨-, -, hAccept⟩ | ⟨hNot, -⟩
      · refine Or.inr ⟨c.node, c.nonce, timestamp, by simp [Request.pair?, hCred, hInt],
          hFresh, ?_⟩
        simp [signedRequest, hCred, hKey, NodeIdentityStore.read, hId, hNode, checkSigned, hInt,
          hVerify, hAccept]
      · refine Or.inl ⟨.py ⟨.os, "replay.json"⟩,
          (prune g.replay.guard.window now g.replay.guard.seen).set c.nonce timestamp, ?_, ?_⟩
        · simp [signedRequest, hCred, hKey, NodeIdentityStore.read, hId, hNode, checkSigned, hInt,
            hVerify, hAccept, to401, Failure.isValueError, PyErr.isValueError]
        · intro nonce ts hGet hLive
          have hOld := hKept nonce ts hGet hLive
          rw [Dict.get?_set_of_ne]
          · exact hOld
          · rintro rfl
            rw [hFresh.2.2] at hOld
            cases hOld
      · exact absurd hFresh hNot
    · refine Or.inl ⟨notRegistered, g.replay.guard.seen, ?_, fun _ _ hGet _ => hGet⟩
      simp [signedRequest, hCred, hKey, NodeIdentityStore.read, hId, hNode]
  -- not authentic: no pair is recorded
  · obtain ⟨e, seen, hEq, hSeen, -⟩ :=
      signedRequest_unauthentic writeOk hAuth
    refine Or.inl ⟨e, seen, hEq, ?_⟩
    intro nonce ts hGet hLive
    rcases hSeen with rfl | rfl
    · exact hGet
    · exact hKept nonce ts hGet hLive

theorem replayInv_request {store : NodeIdentityStore} {dir : DataDir} {req : Request}
    {writeOk : Bool} (h : ReplayInv window now log a) :
    ReplayInv window now
      (log ++ [(a.step sha cipher window (.request store dir req now writeOk)).2])
      (a.step sha cipher window (.request store dir req now writeOk)).1 := by
  cases hGuard : a.guard with
  | none =>
    simp only [Agent.step, hGuard]
    exact replayInv_none h h.guard (fun _ _ _ hHeld => hHeld)
  | some guard =>
    have hWindow : guard.window = window := h.guard guard hGuard
    rcases signedRequest_replay_cases sha cipher
      ⟨store, dir, ⟨guard, a.file⟩⟩ req now writeOk with
      ⟨e, seen, hEq, hKept⟩ | ⟨node, nonce, timestamp, hPair, hFresh, hEq⟩
    · simp only [Agent.step, hGuard, hEq]
      refine replayInv_none h ?_ ?_
      · rintro guard' hGuard'
        obtain rfl := Option.some.inj hGuard'
        exact hWindow
      · intro nonce ts hLive hHeld
        refine ⟨?_, hHeld.file⟩
        rintro guard' hGuard'
        obtain rfl := Option.some.inj hGuard'
        exact hKept nonce ts (hHeld.memory guard hGuard) (by rwa [hWindow])
    · simp only [Agent.step, hGuard, hEq, hPair]
      obtain ⟨hIn, -, hNone⟩ := hFresh
      simp only [outsideWindow, decide_eq_false_iff_not] at hIn
      -- an admitted pair that is still live blocks its nonce
      have hBlocked : ∀ ts, some (nonce, ts) ∈ log → ¬ now - ts ≤ window := by
        intro ts hMem hLive
        have hSeen := (h.held nonce ts hMem hLive).memory guard hGuard
        have hPruned : (prune guard.window now guard.seen).get? nonce = some ts :=
          get?_prune.mpr ⟨hSeen, by rwa [hWindow]⟩
        rw [hNone] at hPruned
        cases hPruned
      have hGet : ∀ other ts, some (other, ts) ∈ log ++ [some (nonce, timestamp)] →
          now - ts ≤ window →
          ((prune guard.window now guard.seen).set nonce timestamp).get? other = some ts := by
        intro other ts hMem hLive
        rcases List.mem_append.mp hMem with hOld | hNew
        · have hNe : nonce ≠ other := by
            rintro rfl
            exact hBlocked ts hOld hLive
          rw [Dict.get?_set_of_ne _ _ hNe, get?_prune]
          exact ⟨(h.held other ts hOld hLive).memory guard hGuard, by rwa [hWindow]⟩
        · obtain ⟨rfl, rfl⟩ := Prod.mk.inj (Option.some.inj (List.mem_singleton.mp hNew))
          exact Dict.get?_set_self _ _ _
      refine ⟨?_, ?_, ?_⟩
      · refine atMostOnce_some h.once ?_
        intro hMem
        exact hBlocked timestamp hMem (by omega)
      · rintro guard' hGuard'
        obtain rfl := Option.some.inj hGuard'
        exact hWindow
      · intro other ts hMem hLive
        refine ⟨?_, _, load_dump _, hGet other ts hMem hLive⟩
        rintro guard' hGuard'
        obtain rfl := Option.some.inj hGuard'
        exact hGet other ts hMem hLive

-- ---------------------------------------------------------------------------
-- Whole runs
-- ---------------------------------------------------------------------------

/-- A run whose clock readings start at `clock` or later and never go backwards
keeps the invariant, at every later clock. -/
theorem replayInv_run {evs : List AgentEvent} (h : ReplayInv window clock log a)
    (hStart : ∀ t ∈ evs.filterMap AgentEvent.now?, clock ≤ t) (hMono : ClockMonotone evs)
    (later : Int) (hClock : clock ≤ later)
    (hLater : ∀ t ∈ evs.filterMap AgentEvent.now?, t ≤ later) :
    ReplayInv window later (log ++ (agentMachine sha cipher window).log a evs)
      ((agentMachine sha cipher window).exec a evs) := by
  induction evs generalizing clock log a with
  | nil =>
    rw [Machine.log_nil, List.append_nil]
    exact replayInv_later h hClock
  | cons ev rest ih =>
    rw [Machine.log_cons, Machine.exec_cons, ← List.singleton_append, ← List.append_assoc]
    cases ev with
    | restart =>
      exact ih (replayInv_restart sha cipher h) hStart hMono hClock hLater
    | request store dir req now writeOk =>
      obtain ⟨hFirst, hRest⟩ := List.pairwise_cons.mp hMono
      have hNow : clock ≤ now := hStart now List.mem_cons_self
      exact ih (replayInv_request (replayInv_later h hNow)) hFirst hRest
        (hLater now List.mem_cons_self)
        (fun t ht => hLater t (List.mem_cons_of_mem _ ht))

theorem replayInv_off (file : Option ReplayFile) (window clock : Int) :
    ReplayInv window clock [] (Agent.off file) where
  once := once_nil
  guard := by simp [Agent.off]
  held := by
    intro nonce ts hMem
    exact absurd hMem (by simp)

theorem exists_earlier_clock (evs : List AgentEvent) (later : Int) :
    ∃ clock ≤ later, ∀ t ∈ evs.filterMap AgentEvent.now?, clock ≤ t := by
  generalize evs.filterMap AgentEvent.now? = clocks
  induction clocks with
  | nil => exact ⟨later, le_rfl, by simp⟩
  | cons t rest ih =>
    obtain ⟨clock, hLe, hAll⟩ := ih
    refine ⟨min clock t, by omega, ?_⟩
    intro t' ht'
    rcases List.mem_cons.mp ht' with rfl | hRest
    · exact min_le_right _ _
    · exact (min_le_left _ _).trans (hAll t' hRest)

/-- Some reading is not before any reading of the run. -/
theorem exists_later_clock (evs : List AgentEvent) :
    ∃ later : Int, ∀ t ∈ evs.filterMap AgentEvent.now?, t ≤ later := by
  generalize evs.filterMap AgentEvent.now? = clocks
  induction clocks with
  | nil => exact ⟨0, by simp⟩
  | cons t rest ih =>
    obtain ⟨later, hAll⟩ := ih
    refine ⟨max later t, ?_⟩
    intro t' ht'
    rcases List.mem_cons.mp ht' with rfl | hRest
    · exact le_max_right _ _
    · exact (hAll t' hRest).trans (le_max_left _ _)

/--
**Replay protection.** On any `replay.json`, in a run of signed requests and
(re)starts whose clock never goes backwards, each pair (nonce, timestamp) is
admitted at most once; and at any clock reading not before the run's, every
admitted pair whose timestamp would still pass the window test survives
pruning, in the running agent and in the file it would restart from.
-/
theorem admitted_at_most_once (sha : Sha256) (cipher : SecretsCipher) (window : Int)
    (file : Option ReplayFile) (evs : List AgentEvent) (hMono : ClockMonotone evs) :
    AtMostOnce ((agentMachine sha cipher window).log (Agent.off file) evs) ∧
      ∀ nonce ts now, some (nonce, ts) ∈ (agentMachine sha cipher window).log (Agent.off file) evs →
        (∀ t ∈ evs.filterMap AgentEvent.now?, t ≤ now) →
        outsideWindow window now ts = false →
        (∀ guard, ((agentMachine sha cipher window).exec (Agent.off file) evs).guard = some guard →
          (prune window now guard.seen).get? nonce = some ts) ∧
        ∃ seen, load ((agentMachine sha cipher window).exec (Agent.off file) evs).file = .ok seen ∧
          (prune window now seen).get? nonce = some ts := by
  -- the invariant of the run, at any reading of the clock not before the run's
  have hRun : ∀ later, (∀ t ∈ evs.filterMap AgentEvent.now?, t ≤ later) →
      ReplayInv window later ((agentMachine sha cipher window).log (Agent.off file) evs)
        ((agentMachine sha cipher window).exec (Agent.off file) evs) := by
    intro later hLater
    obtain ⟨clock, hClock, hAll⟩ := exists_earlier_clock evs later
    simpa using replayInv_run (replayInv_off file window clock) hAll hMono later hClock hLater
  constructor
  · obtain ⟨later, hLater⟩ := exists_later_clock evs
    exact (hRun later hLater).once
  · intro nonce ts now hMem hLater hIn
    -- a timestamp the window test lets pass is not pruned
    have hLive : now - ts ≤ window := by
      simp only [outsideWindow, decide_eq_false_iff_not] at hIn
      omega
    have hHeld := (hRun now hLater).held nonce ts hMem hLive
    constructor
    · intro guard hGuard
      exact get?_prune.mpr ⟨hHeld.memory guard hGuard, hLive⟩
    · obtain ⟨seen, hLoad, hGet⟩ := hHeld.file
      exact ⟨seen, hLoad, get?_prune.mpr ⟨hGet, hLive⟩⟩

/-- The heartbeat with its valid signature, the agent restarted after it, and
the same request presented again by someone who captured it. -/
def capturedHeartbeat : List AgentEvent :=
  [.restart, .request pairedGate.store pairedGate.dir (heartbeat validSignature) 1700000001 true,
    .restart, .request pairedGate.store pairedGate.dir (heartbeat validSignature) 1700000300 true]

example :
    (agentMachine heartbeatSha plainCipher defaultWindow).log (Agent.off none) capturedHeartbeat =
      [none, some ("0123456789abcdef0123456789abcdef", 1700000000), none, none] := by
  decide

/--
The captured request is refused after the restart, although the memory of the
agent is new.
-/
theorem capturedHeartbeat_admitted_once :
    ClockMonotone capturedHeartbeat ∧
      AtMostOnce ((agentMachine heartbeatSha plainCipher defaultWindow).log (Agent.off none)
        capturedHeartbeat) := by
  have hMono : ClockMonotone capturedHeartbeat := by
    unfold ClockMonotone
    decide
  exact ⟨hMono, (admitted_at_most_once heartbeatSha plainCipher defaultWindow none
    capturedHeartbeat hMono).1⟩

end ZagrosNode.Security
