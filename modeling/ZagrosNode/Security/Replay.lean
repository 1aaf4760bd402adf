import ZagrosNode.Lib.Dict
import ZagrosNode.Security.Identity

/-!
# ZagrosNode — the nonce cache

`ReplayGuard` remembers the nonces of accepted requests with their timestamps
and writes the whole cache to `replay.json` on every acceptance, so that a
restarted agent starts from the cache it had. `accept` tests the timestamp on
both sides of the window, prunes the entries that have left the window, and
refuses a nonce it still holds.

The test of the timestamp is on both sides of the clock and comes first; then the
length and the alphabet of the nonce are checked, and only then is the cache pruned,
on one side: an entry is dropped once it is older than the window, and one from the
future is kept. The nonce is recorded in memory before the file is written, so a
write that fails leaves it there, and the request is not admitted.

Loading does not prune. `int()` is applied to every value of the file; what it raises
becomes the security error of the constructor for a value error or a `TypeError`, and
escapes as it is otherwise, as does the missing `items` of a value that is no object.
The order of the keys in the file is not kept, since nothing depends on it.

Main results:

* `load_dump` — a guard built from the file it wrote holds the same cache.
* `accept_cases` — what `accept` can do: admit and record, refuse and at most
  prune, or record without being able to write.
* `prune_keeps_live` — pruning forgets no entry whose timestamp can still pass
  the window test, now or later.
-/

namespace ZagrosNode.Security

open ZagrosNode.Lib

/-- The content of `replay.json`: text that is no JSON, or a JSON value. The
order of the keys in the file is not kept. -/
inductive ReplayFile
  | unreadable
  | json (v : Json)

/-- The cache in memory. -/
structure ReplayGuard where
  window : Int
  seen   : Dict String Int

/-- The cache in memory and its file. -/
structure Replay where
  guard : ReplayGuard
  file  : Option ReplayFile

namespace ReplayGuard

/-- `window_seconds` as the agent constructs the guard. -/
def defaultWindow : Int := 300

def cacheInvalid : Failure := .security "node replay cache is invalid"

/-- `int(ts)` on every value of the file. -/
def parseEntries : List (String × Json) → Except PyErr (List (String × Int))
  | []               => .ok []
  | (key, ts) :: rest =>
    match ts.int with
    | .error e => .error e
    | .ok n    =>
      match parseEntries rest with
      | .error e  => .error e
      | .ok parsed => .ok ((key, n) :: parsed)

/-- What the constructor reads back. Only `OSError`, `ValueError` and
`TypeError` become the security error; anything else escapes as it is. -/
def load : Option ReplayFile → Except Failure (Dict String Int)
  | none                        => .ok Dict.empty
  | some .unreadable            => .error cacheInvalid
  | some (.json (.dict entries)) =>
    match parseEntries entries with
    | .ok parsed => .ok (Dict.ofPairs parsed)
    | .error e   =>
      if e.isValueError || e.kind == .type then .error cacheInvalid else .error (.py e)
  | some (.json _)              =>
    .error (.py ⟨.attribute, "object has no attribute 'items'"⟩)

/-- `ReplayGuard(root)` -/
def init (window : Int) (file : Option ReplayFile) : Except Failure ReplayGuard :=
  match load file with
  | .ok seen => .ok ⟨window, seen⟩
  | .error e => .error e

/-- `_write` -/
def dump (seen : Dict String Int) : ReplayFile :=
  .json (.dict (seen.entries.map fun e => (e.1, .num e.2)))

/-- `abs(now - timestamp) > window` -/
def outsideWindow (window now timestamp : Int) : Bool :=
  decide (window < now - timestamp ∨ window < timestamp - now)

/-- `16 <= len(nonce) <= 128 and nonce.isalnum()` -/
def validNonce (nonce : String) : Bool :=
  decide (16 ≤ nonce.length ∧ nonce.length ≤ 128) && nonce.toList.all isAlnumLatin1

/-- The entries that have not left the window. -/
def prune (window now : Int) (seen : Dict String Int) : Dict String Int :=
  seen.filter fun e => decide (now - e.2 ≤ window)

def staleTimestamp : Failure := .security "request timestamp is outside the replay window"

def badNonce : Failure := .security "invalid request nonce"

def replayedNonce : Failure := .security "replayed request nonce"

end ReplayGuard

open ReplayGuard

namespace Replay

/-- `ReplayGuard.accept`; `writeOk` says whether `replay.json` could be
written. -/
def accept (r : Replay) (nonce : String) (timestamp now : Int) (writeOk : Bool) :
    Except Failure Unit × Replay :=
  if outsideWindow r.guard.window now timestamp then (.error staleTimestamp, r)
  else if validNonce nonce = false then (.error badNonce, r)
  else
    let pruned := prune r.guard.window now r.guard.seen
    match pruned.get? nonce with
    | some _ => (.error replayedNonce, { r with guard := { r.guard with seen := pruned } })
    | none   =>
      let seen := pruned.set nonce timestamp
      let guard := { r.guard with seen := seen }
      if writeOk then (.ok (), ⟨guard, some (dump seen)⟩)
      else (.error (.py ⟨.os, "replay.json"⟩), { r with guard := guard })

/-- What the cache and its file hold for a request that may be admitted. -/
def Fresh (r : Replay) (nonce : String) (timestamp now : Int) : Prop :=
  outsideWindow r.guard.window now timestamp = false ∧ validNonce nonce = true ∧
    (prune r.guard.window now r.guard.seen).get? nonce = none

end Replay

-- ---------------------------------------------------------------------------
-- The cache file
-- ---------------------------------------------------------------------------

theorem parseEntries_num (entries : List (String × Int)) :
    parseEntries (entries.map fun e => (e.1, Json.num e.2)) = .ok entries := by
  induction entries with
  | nil => rfl
  | cons e rest ih => simp [parseEntries, ih]

/--
**Round trip of the cache.** A guard built from a written file holds the cache
that was written. Keys and timestamps are written as JSON, and both are read
back with the same types.
-/
theorem load_dump (seen : Dict String Int) : load (some (dump seen)) = .ok seen := by
  simp only [load, dump]
  rw [parseEntries_num]
  simp only [Dict.ofPairs_entries]

-- ---------------------------------------------------------------------------
-- Pruning
-- ---------------------------------------------------------------------------

theorem get?_prune {window now : Int} {seen : Dict String Int} {nonce : String} {ts : Int} :
    (prune window now seen).get? nonce = some ts ↔
      seen.get? nonce = some ts ∧ now - ts ≤ window := by
  rw [prune, Dict.get?_filter]
  simp [Option.filter_eq_some_iff]

/--
**Pruning is one-sided and safe.** An entry whose timestamp would pass the
window test at `later`, now or at any time after, survives pruning at `now`.
The pruning looks only at how old a timestamp is, so one from the future is
kept.
-/
theorem prune_keeps_live {window now later ts : Int} {seen : Dict String Int} {nonce : String}
    (hLater : now ≤ later) (hLive : outsideWindow window later ts = false)
    (hSeen : seen.get? nonce = some ts) : (prune window now seen).get? nonce = some ts := by
  rw [get?_prune]
  simp only [outsideWindow, decide_eq_false_iff_not] at hLive
  exact ⟨hSeen, by omega⟩

-- ---------------------------------------------------------------------------
-- What `accept` can do
-- ---------------------------------------------------------------------------

theorem accept_cases (r : Replay) (nonce : String) (timestamp now : Int) (writeOk : Bool) :
    (r.Fresh nonce timestamp now ∧ writeOk = true ∧
        r.accept nonce timestamp now writeOk =
          (.ok (), ⟨{ r.guard with
              seen := (prune r.guard.window now r.guard.seen).set nonce timestamp },
            some (dump ((prune r.guard.window now r.guard.seen).set nonce timestamp))⟩)) ∨
      (r.Fresh nonce timestamp now ∧ writeOk = false ∧
        r.accept nonce timestamp now writeOk =
          (.error (.py ⟨.os, "replay.json"⟩), { r with guard := { r.guard with
            seen := (prune r.guard.window now r.guard.seen).set nonce timestamp } })) ∨
      (¬ r.Fresh nonce timestamp now ∧ ∃ text seen,
        (seen = r.guard.seen ∨ seen = prune r.guard.window now r.guard.seen) ∧
        r.accept nonce timestamp now writeOk =
          (.error (.security text), { r with guard := { r.guard with seen := seen } })) := by
  -- the three checks in their order, each with its own refusal
  by_cases hWindow : outsideWindow r.guard.window now timestamp = true
  · refine Or.inr (Or.inr ⟨?_, "request timestamp is outside the replay window",
      r.guard.seen, Or.inl rfl, ?_⟩)
    · rintro ⟨hIn, -, -⟩
      rw [hWindow] at hIn
      cases hIn
    · rw [Replay.accept, if_pos hWindow]
      rfl
  · rw [Bool.not_eq_true] at hWindow
    cases hNonce : validNonce nonce with
    | false =>
      refine Or.inr (Or.inr ⟨?_, "invalid request nonce", r.guard.seen, Or.inl rfl, ?_⟩)
      · rintro ⟨-, hValid, -⟩
        rw [hNonce] at hValid
        cases hValid
      · simp [Replay.accept, hWindow, hNonce, badNonce]
    | true =>
      cases hGet : (prune r.guard.window now r.guard.seen).get? nonce with
      | some old =>
        refine Or.inr (Or.inr ⟨?_, "replayed request nonce", _, Or.inr rfl, ?_⟩)
        · rintro ⟨-, -, hNone⟩
          rw [hGet] at hNone
          cases hNone
        · simp [Replay.accept, hWindow, hNonce, hGet, replayedNonce]
      | none =>
        -- fresh: the pair is in memory before the file is written
        cases writeOk with
        | true => exact Or.inl ⟨⟨hWindow, hNonce, hGet⟩, rfl,
            by simp [Replay.accept, hWindow, hNonce, hGet]⟩
        | false => exact Or.inr (Or.inl ⟨⟨hWindow, hNonce, hGet⟩, rfl,
            by simp [Replay.accept, hWindow, hNonce, hGet]⟩)

end ZagrosNode.Security
