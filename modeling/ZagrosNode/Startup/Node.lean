import ZagrosNode.Accounts.Convergence
import ZagrosNode.Bandwidth.Limiter
import ZagrosNode.Usage.Cursors
import ZagrosNode.WireGuard.Reprovision

/-!
# ZagrosNode — the agent's state and what requests write to disk

Three files outlive the agent beside the state file of its cores: the account
snapshots, the usage baselines and the bandwidth limits. This module has the
requests that write them. A request that fails may have written already: the
limits are stored before they are applied.

The other requests here write none of these files, but change what the drivers
work with: lifecycle jobs install and remove them, `PUT settings` and
`PUT inbounds` change their settings, and for WireGuard a new set of inbounds
and every start go on to the accounts the driver holds. The drivers of a
starting agent are built from the settings that were left.

A request is one step. What requests that overlap do to each other is in
`Accounts/Interleaved.lean`, and what a running lifecycle job does in `Jobs/`.

Of what a driver does with a reconfiguration only what its accounts see is kept: the
settings it leaves, whether it goes on to the accounts, and whether it raises. What
documents do to settings is in `Drivers/`.

Main results:

* `replayable_step` — every account object on disk passed the checks of the
  request that brought it.
* `limits_exec` — the limits on disk are the last ones that could be written.
-/

namespace ZagrosNode.Startup

open ZagrosNode.Lib ZagrosNode.Cores ZagrosNode.Security ZagrosNode.Accounts ZagrosNode.Usage
open ZagrosNode.Bandwidth

-- ---------------------------------------------------------------------------
-- State
-- ---------------------------------------------------------------------------

/-- An installed core: its driver and the driver's usage tracker. -/
structure Core where
  driver   : Driver
  trackers : Trackers

/-- A driver as its constructor leaves it. What it works with on the host is
still there; accounts and trackers are in memory only. -/
def Core.fresh (driver : Driver) : Core := ⟨driver.withRoster Roster.empty, Trackers.empty⟩

/-- `accounts/*.json`, `usage-baselines.json` and `bandwidth-limits.json`. -/
structure Disk where
  accounts  : CoreId → Snapshot
  baselines : Option BaselineFile
  limits    : Option Limits

structure Node where
  cores  : CoreId → Option Core
  /-- the limiter's `_limits` -/
  limits : Limits
  disk   : Disk

namespace Node

/-- An agent without cores and without files. -/
def fresh : Node := ⟨fun _ => none, [], ⟨fun _ => none, none, none⟩⟩

variable (n : Node)

def withCore (core : CoreId) (c : Option Core) : Node :=
  { n with cores := Function.update n.cores core c }

/-- Change a core, if it is installed. -/
def updateCore (core : CoreId) (f : Core → Core) : Node := n.withCore core ((n.cores core).map f)

def withAccounts (core : CoreId) (snapshot : Snapshot) : Node :=
  { n with disk := { n.disk with accounts := Function.update n.disk.accounts core snapshot } }

def withBaselines (baselines : BaselineFile) : Node :=
  { n with disk := { n.disk with baselines := some baselines } }

@[simp] theorem updateCore_disk (core : CoreId) (f : Core → Core) :
    (n.updateCore core f).disk = n.disk := rfl

@[simp] theorem updateCore_limits (core : CoreId) (f : Core → Core) :
    (n.updateCore core f).limits = n.limits := rfl

theorem updateCore_cores (core other : CoreId) (f : Core → Core) :
    (n.updateCore core f).cores other =
      if other = core then (n.cores other).map f else n.cores other := by
  by_cases hCore : other = core
  · subst hCore
    simp [updateCore, withCore]
  · simp [updateCore, withCore, hCore]

end Node

-- ---------------------------------------------------------------------------
-- Requests
-- ---------------------------------------------------------------------------

/-- What a usage poll meets at one driver: the readings `get_usage` hands to
the tracker, and whether it then raises or runs into the timeout. -/
structure UsageRead where
  readings : List Reading
  failed   : Bool

/-- What a request for other inbounds comes to at the driver. The settings it leaves are
what it makes of the document, and for Xray so is the configuration. WireGuard provisions
the accounts it holds again, with the tools and inbounds it then has, as far as it gets. -/
structure Change where
  settings  : Settings
  xray      : XrayConfig
  tools     : WireGuard.Tools
  listeners : WireGuard.Listeners
  chain     : Option WireGuard.ChainPeer
  reached   : List (String × WireGuard.Stage)
  answer    : Except Failure Unit

/-- The requests that write the files or change which cores there are and what they work
with. Of the lifecycle jobs these are the installs and uninstalls that went through, and
the starts of WireGuard, which are reconfigurations; of the changes of settings those that
were let through and stored. -/
inductive Request
  | installed (core : CoreId) (driver : Driver)
  | uninstalled (core : CoreId) (purge : Bool)
  | settings (core : CoreId) (patch : Settings)
  | reconfigured (core : CoreId) (change : Change)
  | accounts (core : CoreId) (push : Push)
  | usage (reads : CoreId → UsageRead) (writable : Bool)
  | limits (limits : Limits) (kernel : Kernel) (writable : Bool)

/-- What a sync does to the tracker: SSH forgets every account it deletes, and
SoftEther, once the server has taken the new set, forgets the old accounts and
registers the new ones. -/
def syncTrackers (core : CoreId) (before after : Roster) (succeeded : Bool) (t : Trackers) :
    Trackers :=
  let stale := before.ids.filter fun id => decide (id ∉ after.ids)
  match core, succeeded with
  | .ssh, _          => { t with byAccount := stale.foldl Dict.pop t.byAccount }
  | .softether, true =>
    { t with softether := (stale.foldl SoftEther.Tracker.forget t.softether).registerAll after.ids }
  | _, _             => t

/-- `sync_accounts` on a driver and its tracker. -/
def Core.sync (p : Platform) (h : Host) (core : CoreId) (accounts : List UserAccount) (c : Core) :
    Core :=
  let (result, driver) := (syncAccounts p h accounts core).run c.driver
  ⟨driver, syncTrackers core c.driver.roster driver.roster result.toBool c.trackers⟩

/-- `PUT /v1/cores/{core_id}/accounts` -/
def putAccounts (p : Platform) (n : Node) (core : CoreId) (push : Push) :
    Node × Except Failure Unit :=
  match n.cores core with
  | none   => (n, .error (.http 404 s!"core '{core.name}' is not installed"))
  | some c =>
    let (site, answer) := coreAccounts p core ⟨c.driver, n.disk.accounts core⟩ push
    let trackers :=
      syncTrackers core c.driver.roster site.driver.roster answer.toBool c.trackers
    ((n.withCore core (some ⟨site.driver, trackers⟩)).withAccounts core site.snapshot,
      answer.map fun _ => ())

/-- One core's part of a usage poll, with the cursors collected so far. -/
def pollCore (reads : CoreId → UsageRead) (state : Node × BaselineFile) (core : CoreId) :
    Node × BaselineFile :=
  match state.1.cores core with
  | none   => state
  | some c =>
    let trackers := (reads core).readings.foldl (fun t r => (t.observe core r).2) c.trackers
    let n := state.1.withCore core (some { c with trackers := trackers })
    if (reads core).failed then (n, state.2)
    else
      match trackers.snapshot core c.driver.roster with
      | .ok snapshot => (n, state.2.collect core snapshot.entries)
      | .error _     => (n, state.2)

/-- `_save_usage_baselines`; a write that fails is only logged. -/
def saveUsageBaselines (n : Node) (baselines : BaselineFile) (writable : Bool) : Node :=
  if writable && !baselines.entries.entries.isEmpty then
    n.withBaselines ((n.disk.baselines.getD BaselineFile.empty).save baselines)
  else n

/-- `GET /v1/runtime/usage` -/
def getUsage (n : Node) (reads : CoreId → UsageRead) (writable : Bool) : Node :=
  let polled := CoreId.all.foldl (pollCore reads) (n, BaselineFile.empty)
  saveUsageBaselines polled.1 polled.2 writable

/-- `PUT /v1/bandwidth/limits`: the limits are in memory and on disk before
they are applied. -/
def putLimits (p : Platform) (n : Node) (limits : Limits) (kernel : Kernel) (writable : Bool) :
    Node × Except Failure Unit :=
  let stored :=
    { n with
      limits := limits
      disk := { n.disk with limits := if writable then some limits else n.disk.limits } }
  match apply p kernel limits with
  | .error e             => (stored, .error (.py e))
  | .ok (.failed text _) =>
    (stored, .error (.http 409 (if text = "" then "bandwidth apply failed" else text)))
  | .ok (.applied ..)    => (stored, .ok ())

def install (n : Node) (core : CoreId) (driver : Driver) : Node :=
  match n.cores core with
  | none   => n.withCore core (some (Core.fresh driver))
  | some _ => n

/-- The snapshot goes with the core only if the core is purged. -/
def uninstall (n : Node) (core : CoreId) (purge : Bool) : Node :=
  match n.cores core with
  | none   => n
  | some _ =>
    if purge then (n.withCore core none).withAccounts core none else n.withCore core none

/-- `{**settings, **patch}` -/
def patched (settings patch : Settings) : Settings :=
  patch.foldl (fun settings e => assocSet e.1 e.2 settings) settings

/-- `PUT /v1/cores/{core_id}/settings`: the driver reads its settings where it needs them,
and so has the new ones at once. -/
def putSettings (n : Node) (core : CoreId) (patch : Settings) : Node × Except Failure Unit :=
  match n.cores core with
  | none   => (n, .error (.http 404 s!"core '{core.name}' is not installed"))
  | some c =>
    (n.withCore core (some { c with
      driver := { c.driver with settings := patched c.driver.settings patch } }), .ok ())

/-- A driver after a reconfiguration. -/
def Core.reconfigure (p : Platform) (core : CoreId) (change : Change) (c : Core) : Core :=
  let roster :=
    match core with
    | .wireguard =>
      WireGuard.reprovision p change.tools change.listeners change.chain c.driver.roster
        change.reached
    | _          => c.driver.roster
  let xray :=
    match core with
    | .xray => change.xray
    | _     => c.driver.xray
  { c with driver := { c.driver with settings := change.settings, roster := roster, xray := xray } }

/-- `PUT /v1/cores/{core_id}/inbounds`, and a start of WireGuard. -/
def putInbounds (p : Platform) (n : Node) (core : CoreId) (change : Change) :
    Node × Except Failure Unit :=
  match n.cores core with
  | none   => (n, .error (.http 404 s!"core '{core.name}' is not installed"))
  | some c => (n.withCore core (some (c.reconfigure p core change)), change.answer)

def step (p : Platform) (n : Node) : Request → Node × Except Failure Unit
  | .installed core driver         => (install n core driver, .ok ())
  | .uninstalled core purge        => (uninstall n core purge, .ok ())
  | .settings core patch           => putSettings n core patch
  | .reconfigured core change      => putInbounds p n core change
  | .accounts core push            => putAccounts p n core push
  | .usage reads writable          => (getUsage n reads writable, .ok ())
  | .limits limits kernel writable => putLimits p n limits kernel writable

def requests (p : Platform) : Machine Node Request (Except Failure Unit) where
  step := step p

-- ---------------------------------------------------------------------------
-- What is on disk
-- ---------------------------------------------------------------------------

/-- Every stored object is a valid account. -/
def Disk.Replayable (p : Platform) (d : Disk) : Prop :=
  ∀ core, ∀ raw ∈ (d.accounts core).load, ∃ account, toUserAccount p (.dict raw) = .ok account

theorem decodes_of_decodeAll {p : Platform} {raws : List Raw} {accounts : List UserAccount}
    (h : decodeAll p raws = .ok accounts) :
    ∀ raw ∈ raws, ∃ account, toUserAccount p (.dict raw) = .ok account := by
  induction raws generalizing accounts with
  | nil => exact fun raw hRaw => absurd hRaw List.not_mem_nil
  | cons first rest ih =>
    unfold decodeAll at h ih
    rw [List.mapM_cons] at h
    cases hFirst : toUserAccount p (.dict first) with
    | error e =>
      rw [hFirst] at h
      cases h
    | ok account =>
      rw [hFirst] at h
      cases hRest : rest.mapM fun raw => toUserAccount p (.dict raw) with
      | error e =>
        rw [hRest] at h
        cases h
      | ok others =>
        intro raw hRaw
        rcases List.mem_cons.mp hRaw with rfl | hTail
        · exact ⟨account, hFirst⟩
        · exact ih hRest raw hTail

/-- A stored snapshot holds objects of the old one and of the push only. -/
theorem mem_load_store {p : Platform} {snapshot : Snapshot} {incoming : List Raw}
    {replace writable : Bool} {raw : Raw}
    (h : raw ∈ (snapshot.store p incoming replace writable).load) :
    raw ∈ snapshot.load ∨ raw ∈ incoming := by
  unfold Snapshot.store at h
  cases writable with
  | false => exact Or.inl h
  | true =>
    cases replace with
    | true => exact Or.inr h
    | false =>
      have hValue : raw ∈ (known p (snapshot.load ++ incoming)).values :=
        (List.mergeSort_perm _ _).mem_iff.mp h
      obtain ⟨e, hEntry, rfl⟩ := List.mem_map.mp hValue
      have hGet := Dict.mem_entries_iff.mp hEntry
      exact List.mem_append.mp (accountKey_of_known hGet).1

/-- Whether or not a push succeeds, it stores objects that decode. -/
theorem mem_load_coreAccounts {p : Platform} {core : CoreId} {site : Site} {push : Push}
    {raw : Raw} (h : raw ∈ (coreAccounts p core site push).1.snapshot.load) :
    raw ∈ site.snapshot.load ∨ ∃ account, toUserAccount p (.dict raw) = .ok account := by
  unfold coreAccounts at h
  cases hDecoded : decodeAll p push.accounts with
  | error e =>
    rw [hDecoded] at h
    exact Or.inl h
  | ok accounts =>
    rw [hDecoded] at h
    simp only at h
    split at h
    · exact Or.inl h
    · exact (mem_load_store h).imp_right (decodes_of_decodeAll hDecoded raw)

theorem pollCore_disk (reads : CoreId → UsageRead) (state : Node × BaselineFile) (core : CoreId) :
    (pollCore reads state core).1.disk = state.1.disk := by
  unfold pollCore
  split
  · rfl
  · simp only
    split
    · rfl
    · split <;> rfl

theorem getUsage_disk (n : Node) (reads : CoreId → UsageRead) (writable : Bool) :
    (getUsage n reads writable).disk.accounts = n.disk.accounts ∧
      (getUsage n reads writable).disk.limits = n.disk.limits := by
  have hPolled : ∀ (cores : List CoreId) (state : Node × BaselineFile),
      (cores.foldl (pollCore reads) state).1.disk = state.1.disk := by
    intro cores
    induction cores with
    | nil => exact fun _ => rfl
    | cons core rest ih => exact fun state => (ih _).trans (pollCore_disk reads state core)
  have hDisk := hPolled CoreId.all (n, BaselineFile.empty)
  unfold getUsage
  generalize CoreId.all.foldl (pollCore reads) (n, BaselineFile.empty) = polled at hDisk ⊢
  have hSaved : (saveUsageBaselines polled.1 polled.2 writable).disk.accounts =
        polled.1.disk.accounts ∧
      (saveUsageBaselines polled.1 polled.2 writable).disk.limits = polled.1.disk.limits := by
    unfold saveUsageBaselines
    split <;> exact ⟨rfl, rfl⟩
  rwa [hDisk] at hSaved

/-- New settings and inbounds write none of the files. -/
theorem putSettings_disk (n : Node) (core : CoreId) (patch : Settings) :
    (putSettings n core patch).1.disk = n.disk := by
  unfold putSettings
  split <;> rfl

theorem putInbounds_disk (p : Platform) (n : Node) (core : CoreId) (change : Change) :
    (putInbounds p n core change).1.disk = n.disk := by
  unfold putInbounds
  split <;> rfl

theorem putLimits_disk (p : Platform) (n : Node) (limits : Limits) (kernel : Kernel)
    (writable : Bool) :
    (putLimits p n limits kernel writable).1.disk =
      { n.disk with limits := if writable then some limits else n.disk.limits } := by
  unfold putLimits
  simp only
  split <;> rfl

/-- Storing decodable objects for one core keeps the disk replayable. -/
theorem replayable_withAccounts {p : Platform} {n : Node} (h : n.disk.Replayable p) {core : CoreId}
    {snapshot : Snapshot}
    (hNew : ∀ raw ∈ snapshot.load, ∃ account, toUserAccount p (.dict raw) = .ok account) :
    (n.withAccounts core snapshot).disk.Replayable p := by
  intro other raw hRaw
  by_cases hCore : other = core
  · subst hCore
    simp only [Node.withAccounts, Function.update_self] at hRaw
    exact hNew raw hRaw
  · simp only [Node.withAccounts, Function.update_of_ne hCore] at hRaw
    exact h other raw hRaw

/--
**No request stores an account that a restart could not read.** The snapshot is
written last, with objects that were all decoded for the driver, so the next
start decodes them as well.
-/
theorem replayable_step {p : Platform} (n : Node) (r : Request) (h : n.disk.Replayable p) :
    ((requests p).next n r).disk.Replayable p := by
  -- only two requests write accounts
  cases r with
  | installed core driver =>
    show (install n core driver).disk.Replayable p
    unfold install
    cases n.cores core <;> exact h
  | uninstalled core purge =>
    show (uninstall n core purge).disk.Replayable p
    unfold uninstall
    cases n.cores core with
    | none => exact h
    | some c =>
      cases purge with
      | false => exact h
      | true =>
        exact replayable_withAccounts (n := n.withCore core none) h
          fun raw hRaw => absurd hRaw List.not_mem_nil
  | settings core patch =>
    show (putSettings n core patch).1.disk.Replayable p
    rw [putSettings_disk]
    exact h
  | reconfigured core change =>
    show (putInbounds p n core change).1.disk.Replayable p
    rw [putInbounds_disk]
    exact h
  | accounts core push =>
    show (putAccounts p n core push).1.disk.Replayable p
    unfold putAccounts
    cases n.cores core with
    | none => exact h
    | some c =>
      -- a stored object is one that was stored before, or one that has been decoded
      refine replayable_withAccounts (n := n.withCore core _) h fun raw hRaw => ?_
      exact (mem_load_coreAccounts hRaw).elim (h core raw) id
  | usage reads writable =>
    show (getUsage n reads writable).disk.Replayable p
    unfold Disk.Replayable
    rw [(getUsage_disk n reads writable).1]
    exact h
  | limits limits kernel writable =>
    show (putLimits p n limits kernel writable).1.disk.Replayable p
    unfold Disk.Replayable
    rw [putLimits_disk]
    exact h

theorem replayable_exec {p : Platform} (rs : List Request) :
    ((requests p).exec Node.fresh rs).disk.Replayable p :=
  (requests p).exec_inv (P := fun n => n.disk.Replayable p) replayable_step
    (fun _ _ hRaw => absurd hRaw List.not_mem_nil) rs

end ZagrosNode.Startup
