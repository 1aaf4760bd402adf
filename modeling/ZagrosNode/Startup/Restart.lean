import ZagrosNode.Startup.Node

/-!
# ZagrosNode — what a starting agent does

The drivers are built anew and the enabled cores started; neither brings back
an account or a cursor. Then the cursors of the baselines file are handed to
the drivers, the stored accounts are replayed into them, and the stored limits
are applied. Only the last of the three steps is unguarded.

The order of the steps is that of `lifespan`: cursors, then accounts, then limits.
The cores are treated one after the other, in the order of the drivers for the
cursors and of the names for the accounts; since each step changes its own core
alone, the result is a map over the cores, `Node.mapCores`, whatever the order.

What is logged and what goes through is kept apart as in the source. Handing cursors
over and replaying accounts catch `Exception` around each core. Decoding a stored
object catches `HTTPException` alone, so an object that was never checked could stop
the start; that no such object is on disk is an invariant of the requests, and not
assumed here.

`Boot` has what the new process meets: the drivers its constructors build, what the
host answers, and the limiter's kernel.

Main results:

* `restoreUsageBaselines_run`, `restoreAccounts_run` — the first two steps go
  through on whatever the requests wrote, and treat every core by itself.
* `restart_run` — how the whole start-up ends, and what each core has then.
-/

namespace ZagrosNode.Startup

open ZagrosNode.Lib ZagrosNode.Cores ZagrosNode.Security ZagrosNode.Accounts ZagrosNode.Usage
open ZagrosNode.Bandwidth Op

/-- What the restarted agent meets. -/
structure Boot where
  host   : CoreId → Host
  kernel : Kernel

-- ---------------------------------------------------------------------------
-- The steps
-- ---------------------------------------------------------------------------

/-- The cores are those of the state file; the rest of the memory is gone. -/
def Node.rebuilt (n : Node) : Node :=
  { n with cores := fun core => (n.cores core).map fun c => Core.fresh c.driver, limits := [] }

/-- A driver gets its part of the file, if there is one; what it raises is
only logged. -/
def Core.takeCursors (p : Platform) (core : CoreId) (byCore : ByCore) (c : Core) : Core :=
  match byCore.get? core.name with
  | none         => c
  | some mapping => { c with trackers := c.trackers.restore p core c.driver.roster mapping }

/-- The keys of the file are sorted, and so are the cores in it. -/
def restoreUsageBaselines (p : Platform) : Op Node Failure Unit := do
  let n ← get
  match n.disk.baselines with
  | none      => pure ()
  | some file => do
    let byCore ← lift ((readBaselines file.toJson).mapError Failure.py)
    forEach (fun core => modify fun n => n.updateCore core (Core.takeCursors p core byCore))
      CoreId.all

/-- The records of stored objects; an object the checks refuse is passed over,
and what else they raise goes through. -/
def decodeStored (p : Platform) : List Raw → Except Failure (List UserAccount)
  | []          => .ok []
  | raw :: rest =>
    match toUserAccount p (.dict raw) with
    | .ok account        => (decodeStored p rest).map (account :: ·)
    | .error (.http _ _) => decodeStored p rest
    | .error e           => .error e

/-- The replay for one core; what the driver raises is only logged. -/
def Core.replay (p : Platform) (h : Host) (core : CoreId) (accounts : List UserAccount)
    (c : Core) : Core :=
  if accounts.isEmpty then c else c.sync p h core accounts

def replayAccounts (p : Platform) (boot : Boot) (core : CoreId) : Op Node Failure Unit := do
  let n ← get
  if (n.cores core).isNone then pure ()
  else do
    let accounts ← lift (decodeStored p (n.disk.accounts core).load)
    modify fun n => n.updateCore core (Core.replay p (boot.host core) core accounts)

def restoreAccounts (p : Platform) (boot : Boot) : Op Node Failure Unit :=
  forEach (replayAccounts p boot) CoreId.all

/-- `limiter.load` -/
def loadLimits (n : Node) : Node :=
  match n.disk.limits with
  | none        => n
  | some limits => { n with limits := limits }

theorem loadLimits_cores (n : Node) : (loadLimits n).cores = n.cores := by
  unfold loadLimits
  cases n.disk.limits <;> rfl

theorem loadLimits_limits (n : Node) :
    (loadLimits n).limits = n.disk.limits.getD n.limits := by
  unfold loadLimits
  cases n.disk.limits <;> rfl

/-- `limiter.apply` without a push: nothing is stored. -/
def applyLimits (p : Platform) (boot : Boot) : Op Node Failure Report := do
  let n ← get
  lift ((apply p boot.kernel n.limits).mapError Failure.py)

/-- `lifespan`, up to its `yield`. -/
def restart (p : Platform) (boot : Boot) : Op Node Failure Report := do
  modify Node.rebuilt
  restoreUsageBaselines p
  restoreAccounts p boot
  modify loadLimits
  applyLimits p boot

-- ---------------------------------------------------------------------------
-- Every core by itself
-- ---------------------------------------------------------------------------

/-- Change every installed core. -/
def Node.mapCores (n : Node) (f : CoreId → Core → Core) : Node :=
  { n with cores := fun core => (n.cores core).map (f core) }

/-- Going through all cores changes each of them once. -/
theorem foldl_updateCore (f : CoreId → Core → Core) (n : Node) :
    CoreId.all.foldl (fun n core => n.updateCore core (f core)) n = n.mapCores f := by
  -- on the cores that are left; a core that was visited is not visited again
  have hFold : ∀ (l : List CoreId) (n : Node), l.Nodup →
      (l.foldl (fun n core => n.updateCore core (f core)) n).limits = n.limits ∧
      (l.foldl (fun n core => n.updateCore core (f core)) n).disk = n.disk ∧
      ∀ core, (l.foldl (fun n core => n.updateCore core (f core)) n).cores core =
        if core ∈ l then (n.cores core).map (f core) else n.cores core := by
    intro l
    induction l with
    | nil => exact fun n _ => ⟨rfl, rfl, fun core => by simp⟩
    | cons first rest ih =>
      intro n hNodup
      rw [List.nodup_cons] at hNodup
      obtain ⟨hLimits, hDisk, hCores⟩ := ih (n.updateCore first (f first)) hNodup.2
      refine ⟨hLimits, hDisk, fun core => ?_⟩
      rw [List.foldl_cons, hCores, n.updateCore_cores]
      by_cases hFirst : core = first
      · subst hFirst
        simp [hNodup.1]
      · simp [hFirst]
  obtain ⟨hLimits, hDisk, hCores⟩ := hFold CoreId.all n CoreId.all_nodup
  have hMapped : (CoreId.all.foldl (fun n core => n.updateCore core (f core)) n).cores =
      (n.mapCores f).cores :=
    funext fun core => (hCores core).trans (if_pos core.mem_all)
  generalize CoreId.all.foldl (fun n core => n.updateCore core (f core)) n = n' at *
  obtain ⟨cores, limits, disk⟩ := n'
  obtain rfl : limits = n.limits := hLimits
  obtain rfl : disk = n.disk := hDisk
  obtain rfl : cores = (n.mapCores f).cores := hMapped
  rfl

/-- A loop whose bodies return on every state with this disk. -/
theorem forEach_updateCore {body : CoreId → Op Node Failure Unit} {f : CoreId → Core → Core}
    {disk : Disk}
    (hBody : ∀ core (n : Node), n.disk = disk →
      (body core).run n = (.ok (), n.updateCore core (f core)))
    {n : Node} (hDisk : n.disk = disk) :
    (forEach body CoreId.all).run n = (.ok (), n.mapCores f) := by
  have hRun : ∀ (l : List CoreId) (n : Node), n.disk = disk →
      (forEach body l).run n =
        (.ok (), l.foldl (fun n core => n.updateCore core (f core)) n) := by
    intro l
    induction l with
    | nil => exact fun n _ => rfl
    | cons core rest ih =>
      intro n hDisk
      show (body core >>= fun _ => forEach body rest).run n = _
      rw [run_bind_ok (hBody core n hDisk)]
      exact ih (n.updateCore core (f core)) hDisk
  rw [hRun CoreId.all n hDisk, foldl_updateCore]

/-- The cursors that were saved for a core, if any. -/
def Disk.cursor (d : Disk) (core : CoreId) (account : String) : Option Totals :=
  d.baselines.bind fun file => file.cursor core account

/--
**The cursors are read.** Whatever polls have saved, every driver gets the
cursors of its own core. The file reads back as it was written, so this part of
a start-up never fails.
-/
theorem restoreUsageBaselines_run (p : Platform) (n : Node) :
    ∃ byCore : ByCore, (∀ core account, byCore.cursor core.name account = n.disk.cursor core account) ∧
      (restoreUsageBaselines p).run n =
        (.ok (), n.mapCores fun core => Core.takeCursors p core byCore) := by
  unfold restoreUsageBaselines
  rw [run_get_bind]
  cases hFile : n.disk.baselines with
  -- no file: every driver gets no cursors, which it has already
  | none =>
    refine ⟨Dict.empty, fun core account => ?_, ?_⟩
    · rw [Disk.cursor, hFile]
      rfl
    · have hSame : (n.mapCores fun core => Core.takeCursors p core Dict.empty) = n := by
        have hCores : (n.mapCores fun core => Core.takeCursors p core Dict.empty).cores =
            n.cores := funext fun core => Option.map_id'
        exact congrArg (fun cores => ({ n with cores := cores } : Node)) hCores
      rw [hSame]
      rfl
  -- the file is read back as it was collected
  | some file =>
    obtain ⟨byCore, hRead, hCursor⟩ := readBaselines_toJson file
    refine ⟨byCore, fun core account => ?_, ?_⟩
    · rw [hCursor, Disk.cursor, hFile]
      rfl
    · have hLift : (lift ((readBaselines file.toJson).mapError Failure.py) :
          Op Node Failure ByCore).run n = (.ok byCore, n) := by
        rw [hRead]
        rfl
      show (lift ((readBaselines file.toJson).mapError Failure.py) >>= _).run n = _
      rw [run_bind_ok hLift]
      exact forEach_updateCore (fun core n _ => rfl) rfl

/-- The accounts of a core's snapshot, where they are all valid. -/
def Disk.storedAccounts (p : Platform) (d : Disk) (core : CoreId) : List UserAccount :=
  (d.accounts core).load.filterMap fun raw => (toUserAccount p (.dict raw)).toOption

theorem decodeStored_valid {p : Platform} {raws : List Raw}
    (h : ∀ raw ∈ raws, ∃ account, toUserAccount p (.dict raw) = .ok account) :
    decodeStored p raws =
      .ok (raws.filterMap fun raw => (toUserAccount p (.dict raw)).toOption) := by
  induction raws with
  | nil => rfl
  | cons raw rest ih =>
    obtain ⟨account, hAccount⟩ := h raw List.mem_cons_self
    have hRest := ih fun other hOther => h other (List.mem_cons_of_mem raw hOther)
    rw [decodeStored, hAccount, hRest, List.filterMap_cons, hAccount]
    rfl

/--
**The accounts are replayed.** Every stored object is read, and every core gets
the accounts of its own snapshot. A driver that raises is passed over, so the
loop gets to all of them.
-/
theorem restoreAccounts_run {p : Platform} (boot : Boot) {n : Node} (h : n.disk.Replayable p) :
    (restoreAccounts p boot).run n =
      (.ok (), n.mapCores fun core =>
        Core.replay p (boot.host core) core (n.disk.storedAccounts p core)) := by
  refine forEach_updateCore (fun core n' (hDisk : n'.disk = n.disk) => ?_) rfl
  unfold replayAccounts
  rw [run_get_bind]
  cases hCore : n'.cores core with
  | none =>
    have hSame : n'.updateCore core
        (Core.replay p (boot.host core) core (n.disk.storedAccounts p core)) = n' := by
      have hCores : Function.update n'.cores core none = n'.cores := by
        rw [← hCore]
        exact Function.update_eq_self core n'.cores
      show ({ n' with cores := Function.update n'.cores core _ } : Node) = n'
      rw [hCore, Option.map_none, hCores]
    rw [hSame]
    rfl
  | some c =>
    have hLift : (lift (decodeStored p (n'.disk.accounts core).load) :
        Op Node Failure (List UserAccount)).run n' =
          (.ok (n.disk.storedAccounts p core), n') := by
      rw [hDisk, decodeStored_valid (h core)]
      rfl
    show (lift (decodeStored p (n'.disk.accounts core).load) >>= _).run n' = _
    rw [run_bind_ok hLift]
    rfl

/-- What the start-up does to one core. -/
def Core.restarted (p : Platform) (boot : Boot) (d : Disk) (byCore : ByCore) (core : CoreId)
    (c : Core) : Core :=
  ((Core.fresh c.driver).takeCursors p core byCore).replay p (boot.host core) core
    (d.storedAccounts p core)

/--
**How a start-up ends.** Its result is that of applying the stored limits; by
then every core has its cursors and accounts. The limits come last and have no
handler around them.
-/
theorem restart_run {p : Platform} (boot : Boot) {n : Node} (h : n.disk.Replayable p) :
    ∃ (byCore : ByCore) (n' : Node),
      (∀ core account, byCore.cursor core.name account = n.disk.cursor core account) ∧
      (∀ core, n'.cores core = (n.cores core).map (Core.restarted p boot n.disk byCore core)) ∧
      (restart p boot).run n =
        ((apply p boot.kernel (n.disk.limits.getD [])).mapError Failure.py, n') := by
  obtain ⟨byCore, hCursor, hBaselines⟩ := restoreUsageBaselines_run p n.rebuilt
  have hAccounts := restoreAccounts_run (p := p) boot
    (n := n.rebuilt.mapCores fun core => Core.takeCursors p core byCore) h
  refine ⟨byCore, loadLimits ((n.rebuilt.mapCores fun core =>
    Core.takeCursors p core byCore).mapCores fun core =>
      Core.replay p (boot.host core) core (n.disk.storedAccounts p core)), hCursor, ?_, ?_⟩
  · intro core
    rw [loadLimits_cores]
    show (((n.cores core).map _).map _).map _ = _
    rw [Option.map_map, Option.map_map]
    rfl
  · unfold restart
    rw [run_modify_bind, run_bind_ok hBaselines, run_bind_ok hAccounts, run_modify_bind]
    unfold applyLimits
    rw [run_get_bind, loadLimits_limits]
    rfl

end ZagrosNode.Startup
