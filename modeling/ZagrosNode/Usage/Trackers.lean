import ZagrosNode.Lib.Dict

/-!
# ZagrosNode — usage trackers

A provider reports cumulative counters; a tracker turns each reading into the
growth since the previous one and remembers the reading. A reading below the
remembered one is taken for a counter that started again, and counts in full.

`DeltaTracker` is keyed by whatever identifies the counter, and
`SessionUsageTracker` by the session. SoftEther has a tracker of its own,
which merges two delayed counters.

The arithmetic of all trackers is `delta`: the difference if the counter went up, the
whole reading if it went back. It is applied to both directions at once, and the
reading is remembered whatever it was. Readings below zero count as zero before that
(`clamp`).

Nothing here knows of accounts; which keys a core uses for its counters is in
`Usage/Cursors.lean`.

Main results:

* `delta_of_le` — a reading that is not below the last one reports the growth.
* `observe_get?` — what an observation remembers.
-/

namespace ZagrosNode.Usage

open ZagrosNode.Lib

/-- Uplink and downlink bytes. -/
abbrev Totals := Int × Int

/-- One of the two directions. -/
inductive Side
  | up | down
  deriving DecidableEq, Repr

/-- The component of a pair of totals. -/
def Side.of : Side → Totals → Int
  | .up, t   => t.1
  | .down, t => t.2

@[simp] theorem Side.of_zero (side : Side) : side.of (0, 0) = 0 := by
  cases side <;> rfl

-- ---------------------------------------------------------------------------
-- Growth of a counter
-- ---------------------------------------------------------------------------

/-- `DeltaTracker._delta` -/
def delta (current previous : Int) : Int :=
  let current := max 0 current
  let previous := max 0 previous
  if current ≥ previous then current - previous else current

theorem delta_of_le {current previous : Int} (h0 : 0 ≤ previous) (h : previous ≤ current) :
    delta current previous = current - previous := by
  unfold delta
  simp only
  rw [max_eq_right (h0.trans h), max_eq_right h0, if_pos h]

/-- Both components of an observation. -/
def deltas (current previous : Totals) : Totals :=
  (delta current.1 previous.1, delta current.2 previous.2)

/-- Negative readings count as zero. -/
def clamp (t : Totals) : Totals := (max 0 t.1, max 0 t.2)

theorem of_deltas (side : Side) (current previous : Totals) :
    side.of (deltas current previous) = delta (side.of current) (side.of previous) := by
  cases side <;> rfl

theorem of_clamp (side : Side) (t : Totals) : side.of (clamp t) = max 0 (side.of t) := by
  cases side <;> rfl

-- ---------------------------------------------------------------------------
-- DeltaTracker
-- ---------------------------------------------------------------------------

/-- The readings remembered, by counter. -/
abbrev DeltaTracker (κ : Type) [DecidableEq κ] := Dict κ Totals

namespace DeltaTracker

variable {κ : Type} [DecidableEq κ]

/-- `self._baseline.get(key, (0, 0))` -/
def base (t : DeltaTracker κ) (key : κ) : Totals := (t.get? key).getD (0, 0)

/-- Growth since the previous read, and the tracker that remembers this one. -/
def observe (t : DeltaTracker κ) (key : κ) (reading : Totals) : Totals × DeltaTracker κ :=
  (deltas reading (t.base key), t.set key (clamp reading))

/-- `restore`: hand back a persisted snapshot. -/
def restore (t baseline : DeltaTracker κ) : DeltaTracker κ := t.update baseline

theorem observe_get? (t : DeltaTracker κ) (key other : κ) (reading : Totals) :
    (t.observe key reading).2.get? other =
      if key = other then some (clamp reading) else t.get? other :=
  t.get?_set key other (clamp reading)

theorem restore_get? (t baseline : DeltaTracker κ) (key : κ) :
    (t.restore baseline).get? key = (baseline.get? key).or (t.get? key) :=
  t.get?_update baseline key

end DeltaTracker

-- ---------------------------------------------------------------------------
-- SessionUsageTracker
-- ---------------------------------------------------------------------------

/-- The last interim counters of the open sessions. -/
abbrev SessionTracker (κ : Type) [DecidableEq κ] := Dict κ Totals

namespace SessionTracker

variable {κ : Type} [DecidableEq κ]

/-- `poll`: interim growth of a live session counter. -/
def poll (t : SessionTracker κ) (key : κ) (reading : Totals) : Totals × SessionTracker κ :=
  (deltas reading ((t.get? key).getD (0, 0)), t.set key (clamp reading))

/-- `close`: the final growth at disconnect, after which the session is
forgotten. -/
def close (t : SessionTracker κ) (key : κ) (final : Totals) : Totals × SessionTracker κ :=
  (deltas final ((t.get? key).getD (0, 0)), t.pop key)

end SessionTracker

end ZagrosNode.Usage
