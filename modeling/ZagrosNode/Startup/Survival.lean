import ZagrosNode.Startup.Completes

/-!
# ZagrosNode — cursors across a restart

A cursor survives a restart if the driver's next snapshot has it again for the
account, and the next poll counts the account's growth from it. Whether it
does depends on how the driver keeps cursors:

* WireGuard turns account ids into public keys with its account list, which is
  still empty when the cursors are handed over;
* Xray takes an id that ends in `::node::` and a number for the counter of a
  process;
* SoftEther takes an id with two colons for one of its extra rows, and reports
  cursors only of accounts the replay has registered.

The cursors are handed to drivers whose accounts are not there yet, and the snapshot
of the next poll is taken when they are. So for every driver the question is what its
tracker does to a row it is handed for an account it does not know, and the four
kinds of tracker answer differently: keyed by account ids, by public keys, by
counters of processes, or by account with extra rows.

`Core.Keeps` is the snapshot after the start, `Restorable` the condition on the saved
cursor, and `keeps_iff` the equivalence, by cases on the core. It is about a state
after any run of requests with any baselines file. The accounts replayed are those of
the snapshot; for SoftEther it matters that the server takes them (`Takes`).

Reading the number at the end of an id of Xray is `int()` on any text of the panel's,
with its blanks, underscores and digits of other scripts.

Main results:

* `keeps_iff` — which saved cursors survive, core by core.
* `wireguard_forgets_cursor` — a poll, a restart, and no cursor.
-/

namespace ZagrosNode.Startup

open ZagrosNode.Lib ZagrosNode.Cores ZagrosNode.Security ZagrosNode.Accounts ZagrosNode.Usage
open ZagrosNode.Bandwidth Op

/-- The core's driver has the cursor for the account. -/
def Core.Keeps (core : CoreId) (c : Core) (account : String) (cursor : Totals) : Prop :=
  (∃ snapshot, c.trackers.snapshot core c.driver.roster = .ok snapshot ∧
      snapshot.get? account = some cursor) ∧
    c.trackers.position core c.driver.roster account = some cursor

/-- SoftEther takes the accounts: it serves all of their protocols, and the
server accepts the set. -/
def Takes (h : Host) (accounts : List UserAccount) : Prop :=
  (∀ account ∈ accounts, account.protocol ∈ SoftEther.protocols) ∧
    h.call (.reconcileUsers (accounts.map UserAccount.accountId) []) = .ok ()

/-- What a saved cursor must meet to survive. -/
def Restorable (p : Platform) (boot : Boot) (d : Disk) (core : CoreId) (account : String)
    (cursor : Totals) : Prop :=
  match core with
  | .wireguard => False
  | .xray      => Xray.trackerKey account = (none, account)
  | .softether =>
    Takes (boot.host .softether) (d.storedAccounts p .softether) ∧
      (hasDoubleColon account.toList = false ∨ cursor = (0, 0))
  | _          => True

-- ---------------------------------------------------------------------------
-- The replay and the trackers
-- ---------------------------------------------------------------------------

/-- A driver that listed no account forgets none. -/
theorem syncTrackers_empty (core : CoreId) (h : core ≠ .softether) (after : Roster)
    (succeeded : Bool) (t : Trackers) :
    syncTrackers core Roster.empty after succeeded t = t := by
  cases core with
  | softether => exact absurd rfl h
  | ssh => rfl
  | openvpn | pptp | singBox | wireguard | xray => rfl

theorem syncTrackers_softether (after : Roster) (t : Trackers) :
    (syncTrackers .softether Roster.empty after true t).softether =
        t.softether.registerAll after.ids ∧
      syncTrackers .softether Roster.empty after false t = t := ⟨rfl, rfl⟩

/-- The accounts of a list that all pass are prepared; one that does not fails
the list. -/
theorem mapM_prepare_softether (h : Host) (accounts : List UserAccount) :
    (∃ prepared, accounts.mapM (Accounts.SoftEther.prepare h) = .ok prepared) ↔
      ∀ account ∈ accounts, account.protocol ∈ Accounts.SoftEther.protocols := by
  rw [exists_mapM_ok_iff]
  refine forall₂_congr fun account _ => ?_
  by_cases hServed : account.protocol ∈ Accounts.SoftEther.protocols <;>
    simp [Accounts.SoftEther.prepare, ensureSupported, hServed, bind, Except.bind]

/-- The replay into a driver without accounts goes through exactly if SoftEther
takes the set, and changes nothing otherwise. -/
theorem sync_softether_fresh (h : Host) (accounts : List UserAccount) (d : Driver)
    (hEmpty : d.roster = Roster.empty) :
    (Takes h accounts ∧ ∃ d', (Accounts.SoftEther.syncAccounts h accounts).run d = (.ok (), d')) ∨
      (¬ Takes h accounts ∧
        ∃ e, (Accounts.SoftEther.syncAccounts h accounts).run d = (.error e, d)) := by
  -- nothing is listed, so nobody is removed
  have hStale : (d.roster.ids.filter fun id =>
      decide (id ∉ accounts.map UserAccount.accountId)) = [] := by
    rw [hEmpty]
    rfl
  have hPrepared := mapM_prepare_softether h accounts
  unfold Accounts.SoftEther.syncAccounts
  simp only [run_get_bind, hStale]
  cases hMap : accounts.mapM (Accounts.SoftEther.prepare h) with
  -- an account that is refused, before the server is called
  | error e =>
    refine Or.inr ⟨fun hTakes => ?_, e, rfl⟩
    obtain ⟨prepared, hEq⟩ := hPrepared.mpr hTakes.1
    rw [hMap] at hEq
    cases hEq
  | ok prepared =>
    have hServed := hPrepared.mp ⟨prepared, hMap⟩
    -- the server is called once, with all users
    cases hCall : h.call (.reconcileUsers (accounts.map UserAccount.accountId) []) with
    | error e =>
      refine Or.inr ⟨fun hTakes => ?_, e, ?_⟩
      · rw [Takes, hCall] at hTakes
        cases hTakes.2
      · show ((Accounts.call h (.reconcileUsers _ [])) >>= _).run d = _
        exact run_bind_error (by rw [Accounts.call, hCall]; rfl)
    | ok u =>
      refine Or.inl ⟨⟨hServed, hCall⟩, d.withRoster (Roster.ofAccounts prepared), ?_⟩
      show ((Accounts.call h (.reconcileUsers _ [])) >>= _).run d = _
      have hRun : (Accounts.call h (.reconcileUsers (accounts.map UserAccount.accountId) [])).run d =
          (.ok (), d) := by
        rw [Accounts.call, hCall]
        rfl
      rw [run_bind_ok hRun]
      rfl

-- ---------------------------------------------------------------------------
-- Core by core
-- ---------------------------------------------------------------------------

section Surviving

variable {p : Platform} {mapping : Dict String Totals} {account : String} {cursor : Totals}

/-- SSH, sing-box and PPTP file cursors under the account ids themselves. -/
theorem restored_byAccount (hCursor : mapping.get? account = some cursor) :
    (DeltaTracker.restore Dict.empty mapping).get? account = some cursor := by
  rw [DeltaTracker.restore_get?, hCursor]
  rfl

theorem keeps_xray_iff (hCursor : mapping.get? account = some cursor) (driver : Driver) :
    Core.Keeps .xray ⟨driver, Trackers.empty.restore p .xray Roster.empty mapping⟩ account cursor ↔
      Xray.trackerKey account = (none, account) := by
  have hBase := Xray.restored_get? mapping account
  constructor
  · rintro ⟨-, hPosition⟩
    by_contra hPlain
    rw [if_neg hPlain] at hBase
    exact absurd (hBase.symm.trans hPosition) (by simp)
  · intro hPlain
    rw [if_pos hPlain, hCursor] at hBase
    exact ⟨⟨_, rfl, Xray.snapshot_get? Xray.restored_keys hPlain hBase⟩, hBase⟩

theorem keeps_openvpn (hCursor : mapping.get? account = some cursor) (driver : Driver) :
    Core.Keeps .openvpn ⟨driver, Trackers.empty.restore p .openvpn Roster.empty mapping⟩ account
      cursor := by
  have hBase : (OpenVpn.restore Dict.empty mapping).get? (account, "*") = some cursor := by
    rw [OpenVpn.restored_get?, hCursor]
  exact ⟨⟨_, rfl, OpenVpn.snapshot_get? driver.roster _ hBase⟩, hBase⟩

/-- WireGuard dropped every cursor. -/
theorem not_keeps_wireguard (driver : Driver) :
    ¬ Core.Keeps .wireguard ⟨driver, Trackers.empty.restore p .wireguard Roster.empty mapping⟩
      account cursor := by
  have hDropped : Trackers.empty.restore p .wireguard Roster.empty mapping = Trackers.empty := by
    unfold Trackers.restore
    simp only [WireGuard.restore_empty]
  rw [hDropped]
  rintro ⟨⟨snapshot, hSnapshot, hGet⟩, -⟩
  obtain ⟨key, hKey⟩ := WireGuard.get?_of_snapshot hSnapshot hGet
  cases hKey

/-- Every row filed under an id is zero if the saved cursor was. -/
theorem rows_zero (hZero : mapping.get? account = some (0, 0)) {t : SoftEther.Tracker}
    (hRestored : SoftEther.Tracker.Restored mapping t) {ids : List String}
    (hBilled : (t.registerAll ids).billed.get? account = some (0, 0)) {key : String}
    {other : Totals} (h : (account, other) ∈ (t.registerAll ids).rows key) : other = (0, 0) := by
  obtain ⟨-, hUser, hOutstanding, hLogins⟩ := t.registerAll_columns ids key
  rcases SoftEther.Tracker.mem_rows _ h with
    ⟨rfl, hOwn⟩ | ⟨rfl, rfl⟩ | ⟨rfl, rfl⟩ | ⟨rfl, rfl⟩
  · exact Option.some.inj (hOwn.symm.trans hBilled)
  · rw [hUser, SoftEther.Tracker.position, hRestored.lastUser, SoftEther.Tracker.position, hZero]
    cases (SoftEther.Tracker.accountsOf mapping).get? key <;> rfl
  · rw [hOutstanding, SoftEther.Tracker.position, hRestored.outstanding, hZero]
    cases (SoftEther.Tracker.accountsOf mapping).get? key <;> rfl
  · rw [hLogins, hRestored.lastLogins, SoftEther.Tracker.position, hZero]
    cases (SoftEther.Tracker.accountsOf mapping).get? key <;> rfl

/-- SoftEther, once the replay has registered the account. -/
theorem keeps_registered_iff (hCursor : mapping.get? account = some cursor) {driver : Driver}
    (hListed : account ∈ driver.roster.ids) (t : Trackers)
    (hTracker : t.softether =
      (SoftEther.Tracker.empty.restoreState mapping).registerAll driver.roster.ids) :
    Core.Keeps .softether ⟨driver, t⟩ account cursor ↔
      hasDoubleColon account.toList = false ∨ cursor = (0, 0) := by
  have hRestored := SoftEther.Tracker.restoreState_restored mapping
  -- registration leaves a restored position, and a key with two colons is not restored
  have hBilled : t.softether.billed.get? account =
      some (if hasDoubleColon account.toList then (0, 0) else cursor) := by
    rw [hTracker, (SoftEther.Tracker.registerAll_columns _ driver.roster.ids account).1,
      hRestored.billed, SoftEther.Tracker.accountsOf_get?, hCursor, if_pos hListed]
    cases hasDoubleColon account.toList <;> rfl
  -- the cursor is kept if it was restored, or if it is zero anyway
  constructor
  · rintro ⟨-, hPosition⟩
    have hEq := Option.some.inj (hBilled.symm.trans hPosition)
    cases hColon : hasDoubleColon account.toList with
    | false => exact Or.inl rfl
    | true =>
      rw [hColon, if_pos rfl] at hEq
      exact Or.inr hEq.symm
  · intro hEither
    have hOwn : t.softether.billed.get? account = some cursor := by
      rw [hBilled]
      rcases hEither with hPlain | hZero
      · rw [hPlain]
        rfl
      · rw [hZero, ite_self]
    refine ⟨⟨_, rfl, SoftEther.Tracker.stateSnapshot_get? t.softether hListed hOwn ?_⟩, hOwn⟩
    intro key _ other hRow
    rcases hEither with hPlain | rfl
    · -- without two colons only the account's own row has this key
      obtain ⟨hUser, hOutstanding, hLogins⟩ := SoftEther.Tracker.hasDoubleColon_keys key
      rcases SoftEther.Tracker.mem_rows _ hRow with
        ⟨rfl, hSame⟩ | ⟨rfl, -⟩ | ⟨rfl, -⟩ | ⟨rfl, -⟩
      · exact Option.some.inj (hSame.symm.trans hOwn)
      · exact absurd (hUser.symm.trans hPlain) (by decide)
      · exact absurd (hOutstanding.symm.trans hPlain) (by decide)
      · exact absurd (hLogins.symm.trans hPlain) (by decide)
    · rw [hTracker] at hRow hOwn
      exact rows_zero hCursor hRestored hOwn hRow

/-- The replay of a fresh driver that took cursors, spelled out. -/
theorem restarted_eq {boot : Boot} {d : Disk} {byCore : ByCore} {core : CoreId} {c : Core}
    (hMapping : byCore.get? core.name = some mapping)
    (hStored : d.storedAccounts p core ≠ []) :
    Core.restarted p boot d byCore core c =
      Core.sync p (boot.host core) core (d.storedAccounts p core)
        ⟨c.driver.withRoster Roster.empty,
          Trackers.empty.restore p core Roster.empty mapping⟩ := by
  unfold Core.restarted Core.replay Core.takeCursors
  rw [hMapping, if_neg (by simpa [List.isEmpty_iff] using hStored)]
  rfl

/--
**One core.** Whether a restarted driver has the saved cursor. The cursors are
handed over before the accounts are replayed, so what decides is what the
replay does to the cursor of an account.
-/
theorem keeps_restarted_iff {boot : Boot} {d : Disk} {byCore : ByCore} {core : CoreId} {c : Core}
    (hMapping : byCore.get? core.name = some mapping)
    (hCursor : mapping.get? account = some cursor)
    (hStored : ∃ a ∈ d.storedAccounts p core, a.accountId = account) :
    (Core.restarted p boot d byCore core c).Keeps core account cursor ↔
      Restorable p boot d core account cursor := by
  -- a core without stored accounts is not synced, this one is
  have hNonempty : d.storedAccounts p core ≠ [] := by
    obtain ⟨a, hMem, -⟩ := hStored
    exact List.ne_nil_of_mem hMem
  rw [restarted_eq hMapping hNonempty]
  unfold Core.sync
  cases hRun : (syncAccounts p (boot.host core) (d.storedAccounts p core) core).run
      (c.driver.withRoster Roster.empty) with
  | mk result driver =>
    -- a sync that starts without accounts touches the trackers of SoftEther only
    have hTrackers : ∀ t, core ≠ .softether →
        syncTrackers core Roster.empty driver.roster result.toBool t = t :=
      fun t hNe => syncTrackers_empty core hNe driver.roster result.toBool t
    show Core.Keeps core ⟨driver, syncTrackers core Roster.empty driver.roster result.toBool
      (Trackers.empty.restore p core Roster.empty mapping)⟩ account cursor ↔ _
    cases core with
    -- it drops the cursors of accounts that are not listed, which none is at that time
    | wireguard =>
      rw [hTrackers _ (by decide)]
      exact iff_of_false (not_keeps_wireguard driver) id
    | xray =>
      rw [hTrackers _ (by decide)]
      exact keeps_xray_iff hCursor driver
    | openvpn =>
      rw [hTrackers _ (by decide)]
      exact iff_of_true (keeps_openvpn hCursor driver) trivial
    -- these keep a cursor for any account
    | ssh | singBox | pptp =>
      rw [hTrackers _ (by decide)]
      have hBase := restored_byAccount hCursor
      exact iff_of_true ⟨⟨_, rfl, hBase⟩, hBase⟩ trivial
    -- the position has to outlive the registration, and the sync has to go through
    | softether =>
      have hSync := sync_softether_fresh (boot.host .softether) (d.storedAccounts p .softether)
        (c.driver.withRoster Roster.empty) rfl
      have hSame : (Accounts.SoftEther.syncAccounts (boot.host .softether)
          (d.storedAccounts p .softether)).run (c.driver.withRoster Roster.empty) =
            (result, driver) := hRun
      rw [hSame] at hSync
      rcases hSync with ⟨hTakes, d', hOk⟩ | ⟨hNot, e, hFailed⟩
      · obtain ⟨rfl, rfl⟩ := Prod.mk.inj hOk
        have hListed : account ∈ driver.roster.ids :=
          (Accounts.SoftEther.sync_ids _ _ _ () driver hSame account).mpr hStored
        rw [keeps_registered_iff hCursor hListed _ (syncTrackers_softether driver.roster _).1]
        exact ⟨fun h => ⟨hTakes, h⟩, And.right⟩
      · -- the replay failed, so the driver lists no account
        obtain ⟨rfl, rfl⟩ := Prod.mk.inj hFailed
        refine iff_of_false ?_ fun h => hNot h.1
        rintro ⟨⟨snapshot, hSnapshot, hGet⟩, -⟩
        obtain rfl := Except.ok.inj hSnapshot
        cases hGet

end Surviving

-- ---------------------------------------------------------------------------
-- Every run
-- ---------------------------------------------------------------------------

/-- A stored account is among those replayed. -/
theorem mem_storedAccounts {p : Platform} {d : Disk} (h : d.Replayable p) {core : CoreId}
    {account : String} (hListed : account ∈ accountIds p (d.accounts core).load) :
    ∃ a ∈ d.storedAccounts p core, a.accountId = account := by
  obtain ⟨⟨raw, hRaw, hKey⟩, -⟩ := mem_accountIds.mp hListed
  obtain ⟨a, hDecoded⟩ := h core raw hRaw
  refine ⟨a, List.mem_filterMap.mpr ⟨raw, hRaw, ?_⟩, ?_⟩
  · rw [hDecoded]
    rfl
  · exact (toUserAccount_accountId hDecoded).1.trans hKey

/-- A completed start-up from a disk whose accounts are valid. -/
theorem keeps_of_replayable {p : Platform} {boot : Boot} {n n' : Node} {report : Report}
    (hReplayable : n.disk.Replayable p) (hBoot : (restart p boot).run n = (.ok report, n'))
    {core : CoreId} {account : String} {cursor : Totals}
    (hInstalled : (n.cores core).isSome = true)
    (hListed : account ∈ accountIds p (n.disk.accounts core).load)
    (hSaved : n.disk.cursor core account = some cursor) :
    (∃ c, n'.cores core = some c ∧ c.Keeps core account cursor) ↔
      Restorable p boot n.disk core account cursor := by
  obtain ⟨byCore, n'', hCursor, hCores, hRun⟩ := restart_run boot hReplayable
  obtain ⟨-, rfl⟩ := Prod.mk.inj (hRun.symm.trans hBoot)
  obtain ⟨c, hCore⟩ := Option.isSome_iff_exists.mp hInstalled
  have hFile := (hCursor core account).trans hSaved
  obtain ⟨mapping, hMapping, hGet⟩ := Option.bind_eq_some_iff.mp hFile
  have hAfter : n''.cores core = some (Core.restarted p boot n.disk byCore core c) := by
    rw [hCores, hCore]
    rfl
  rw [← keeps_restarted_iff hMapping hGet (mem_storedAccounts hReplayable hListed), hAfter]
  constructor
  · rintro ⟨c', hEq, hKeeps⟩
    rwa [Option.some.inj hEq]
  · exact fun hKeeps => ⟨_, rfl, hKeeps⟩

/--
**Which cursors survive a restart.** After every sequence of requests, and for
every account of an installed core that is in the core's snapshot and has a
saved cursor: once a start-up has completed, the driver has that cursor **if
and only if** it is restorable.
-/
theorem keeps_iff (p : Platform) (boot : Boot) (rs : List Request) {n' : Node} {report : Report}
    {core : CoreId} {account : String} {cursor : Totals}
    (hBoot : (restart p boot).run ((requests p).exec Node.fresh rs) = (.ok report, n'))
    (hInstalled : (((requests p).exec Node.fresh rs).cores core).isSome = true)
    (hListed : account ∈
      accountIds p (((requests p).exec Node.fresh rs).disk.accounts core).load)
    (hSaved : ((requests p).exec Node.fresh rs).disk.cursor core account = some cursor) :
    (∃ c, n'.cores core = some c ∧ c.Keeps core account cursor) ↔
      Restorable p boot ((requests p).exec Node.fresh rs).disk core account cursor :=
  keeps_of_replayable (replayable_exec rs) hBoot hInstalled hListed hSaved

-- ---------------------------------------------------------------------------
-- A cursor that is lost, and one that is not
-- ---------------------------------------------------------------------------

/-- One account with a public key and a password. -/
def keyedAccount (protocol : String) : Raw :=
  [("user_id", .num 1), ("username", .str "a"), ("account_id", .str "a"),
    ("protocol", .str protocol),
    ("settings", .dict [("public_key", .str "K"), ("password", .str "pw")])]

/-- Install a core, push the account, and poll a byte of traffic. -/
def pushAndPoll (core : CoreId) (key : String) : List Request :=
  [.installed core ⟨[], Roster.empty, [], ⟨[], List.nodup_nil⟩⟩,
    .accounts core ⟨[keyedAccount core.name], true, willingHost, true⟩,
    .usage (fun _ => ⟨[.counter key (1, 0)], false⟩) true]

/--
An SSH account with one byte on its cursor: the restarted driver has that
cursor.
-/
theorem keeps_iff_ssh :
    ∃ report n' c, (restart plainPlatform willingBoot).run
        ((requests plainPlatform).exec Node.fresh (pushAndPoll .ssh "a")) = (.ok report, n') ∧
      n'.cores .ssh = some c ∧ c.Keeps .ssh "a" (1, 0) := by
  have hCompletes : Completes plainPlatform willingBoot
      ((requests plainPlatform).exec Node.fresh (pushAndPoll .ssh "a")) := by
    rw [completes_of_replayable (replayable_exec _)]
    exact ⟨everySpec_nil _, Or.inr (everySpec_nil _)⟩
  obtain ⟨report, n', hBoot⟩ := hCompletes
  have hListed : "a" ∈ accountIds plainPlatform (((requests plainPlatform).exec Node.fresh
      (pushAndPoll .ssh "a")).disk.accounts .ssh).load := by decide
  have hSaved : ((requests plainPlatform).exec Node.fresh
      (pushAndPoll .ssh "a")).disk.cursor .ssh "a" = some (1, 0) := by rfl
  obtain ⟨c, hCore, hKept⟩ := (keeps_iff plainPlatform willingBoot (pushAndPoll .ssh "a") hBoot rfl
    hListed hSaved).mpr trivial
  exact ⟨report, n', c, hBoot, hCore, hKept⟩

/--
The same for WireGuard: the cursor is in the file and the account in the
snapshot, but the driver that is restarted drops the cursor before it is told
of the account.
-/
theorem wireguard_forgets_cursor :
    "a" ∈ accountIds plainPlatform (((requests plainPlatform).exec Node.fresh
        (pushAndPoll .wireguard "K")).disk.accounts .wireguard).load ∧
      ((requests plainPlatform).exec Node.fresh
        (pushAndPoll .wireguard "K")).disk.cursor .wireguard "a" = some (1, 0) ∧
      ∃ report n', (restart plainPlatform willingBoot).run
          ((requests plainPlatform).exec Node.fresh (pushAndPoll .wireguard "K")) =
            (.ok report, n') ∧
        ¬ ∃ c, n'.cores .wireguard = some c ∧ c.Keeps .wireguard "a" (1, 0) := by
  have hListed : "a" ∈ accountIds plainPlatform (((requests plainPlatform).exec Node.fresh
      (pushAndPoll .wireguard "K")).disk.accounts .wireguard).load := by decide
  have hSaved : ((requests plainPlatform).exec Node.fresh
      (pushAndPoll .wireguard "K")).disk.cursor .wireguard "a" = some (1, 0) := by rfl
  have hReplayable := replayable_exec (p := plainPlatform) (pushAndPoll .wireguard "K")
  have hCompletes : Completes plainPlatform willingBoot
      ((requests plainPlatform).exec Node.fresh (pushAndPoll .wireguard "K")) := by
    rw [completes_of_replayable hReplayable]
    exact ⟨everySpec_nil _, Or.inr (everySpec_nil _)⟩
  obtain ⟨report, n', hBoot⟩ := hCompletes
  refine ⟨hListed, hSaved, report, n', hBoot, fun hKeeps => ?_⟩
  exact (keeps_of_replayable hReplayable hBoot rfl hListed hSaved).mp hKeeps

end ZagrosNode.Startup
