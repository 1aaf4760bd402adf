import ZagrosNode.Accounts.Filed
import ZagrosNode.Bandwidth.Limiter

/-!
# ZagrosNode — by what the limiter knows an account

`bandwidth_identities` of a driver tells for every account it lists the inner
addresses and the unix users of its traffic. OpenVPN, PPTP and WireGuard read
addresses out of the settings of the account, SSH asks the host for the user
the account is named after; the other drivers have no identities. The limiter
takes a driver that raises for one without identities.

`bandwidth_identities` is a property of what the driver lists, so it changes with every
push and with every delete. `get?_identities` reduces the dictionary the driver returns
to one account, and `sync_identities` the state after a push to the accounts as they
were completed; the limiter's modules use these two and never a driver's own loop.

`Resolver` has the two answers that come from outside: the uid of a unix user, and how
the library writes an address. SSH is the only driver whose identities depend on the
host, and an account whose unix user is gone has no uid.

Main results:

* `get?_identities` — the identity of one account.
* `sync_identities` — the identities after a sync that returns depend on the
  accounts as they were completed for the table before it, and for SSH on the
  users it leaves.
-/

namespace ZagrosNode.Bandwidth

open ZagrosNode.Lib ZagrosNode.Cores ZagrosNode.Accounts Op

-- ---------------------------------------------------------------------------
-- What the drivers report
-- ---------------------------------------------------------------------------

/-- What the host and the address library answer. -/
structure Resolver where
  /-- `str(ipaddress.ip_interface(source).ip)`, `none` where that raises -/
  address : String → Option String
  /-- `id -u name`, where there is such a user -/
  uid     : String → Int

/-- `(settings.get(key) or {}).values()`, as texts. -/
def valuesOf (p : Platform) (settings : Settings) (key : String) : Except PyErr (List String) :=
  match (Json.getD settings key).or (.dict []) with
  | .dict entries => .ok (entries.map fun e => p.str e.2)
  | _             => .error ⟨.attribute, "object has no attribute 'values'"⟩

/-- `[str(settings[key])] if settings.get(key) else []` -/
def valueOf (p : Platform) (settings : Settings) (key : String) : List String :=
  if isSet settings key then [p.str (Json.getD settings key)] else []

/-- The inner addresses an account is listed with. -/
def innerSources (p : Platform) (core : CoreId) (settings : Settings) :
    Except PyErr (List String) :=
  match core with
  | .openvpn   => valuesOf p settings "bandwidth_ipv4"
  | .pptp      => .ok (valueOf p settings "assigned_ipv4")
  | .wireguard =>
    (valuesOf p settings "inbound_addresses").map (· ++ valueOf p settings "address")
  | _          => .ok []

/-- The uids an account is listed with: SSH's `_uid_of_account`. -/
def unixUids (p : Platform) (r : Resolver) (core : CoreId) (users : List String) (id : String) :
    Except PyErr (List Int) :=
  match core with
  | .ssh =>
    match sanitizeUsername p id with
    | .ok name    => .ok (if name ∈ users then [r.uid name] else [])
    | .error text => .error ⟨.value, text⟩
  | _    => .ok []

/-- The driver overrides `bandwidth_identities`. -/
def reports : CoreId → Bool
  | .openvpn | .pptp | .ssh | .wireguard => true
  | _ => false

/-- One entry of `bandwidth_identities`. The addresses are a sorted set; their
order does not matter to the limiter. -/
def identityOf (p : Platform) (r : Resolver) (core : CoreId) (users : List String)
    (account : UserAccount) : Except PyErr Identity := do
  let sources ← innerSources p core account.settings
  let uids ← unixUids p r core users account.accountId
  .ok ⟨sources.eraseDups, uids⟩

/-- `bandwidth_identities` -/
def bandwidthIdentities (p : Platform) (r : Resolver) (core : CoreId) (d : Driver) :
    Except PyErr (Dict String Identity) :=
  if reports core then
    d.roster.table.traverse fun _ account => (identityOf p r core d.unixUsers account).map some
  else .ok Dict.empty

/-- `_identities` of an installed core. -/
def identities (p : Platform) (r : Resolver) (core : CoreId) (d : Driver) :
    Dict String Identity :=
  match bandwidthIdentities p r core d with
  | .ok found => found
  | .error _  => Dict.empty

-- ---------------------------------------------------------------------------
-- One account's identity
-- ---------------------------------------------------------------------------

section Lookup

variable (p : Platform) (r : Resolver) (core : CoreId)

/-- Every account a driver lists has an identity. -/
def AllIdentified (d : Driver) : Prop :=
  ∀ id account, d.roster.table.get? id = some account →
    ∃ identity, identityOf p r core d.unixUsers account = .ok identity

theorem bandwidthIdentities_ok_iff (d : Driver) (hReports : reports core = true) :
    (∃ found, bandwidthIdentities p r core d = .ok found) ↔ AllIdentified p r core d := by
  rw [bandwidthIdentities, if_pos hReports, Dict.traverse_ok_iff]
  refine forall_congr' fun id => forall_congr' fun account => imp_congr_right fun _ => ?_
  cases identityOf p r core d.unixUsers account with
  | error e => simp [Except.map]
  | ok identity => simp [Except.map]

open Classical in
/--
**The identity of an account.** One account without an identity leaves the
driver without any: the loop of `identities` raises at it, and what was
collected before it is dropped with the exception.
-/
theorem get?_identities (d : Driver) (id : String) :
    (identities p r core d).get? id =
      if reports core = true ∧ AllIdentified p r core d then
        (d.roster.table.get? id).bind fun account =>
          (identityOf p r core d.unixUsers account).toOption
      else none := by
  by_cases hReports : reports core = true
  -- one account that cannot be identified makes the driver raise
  · by_cases hAll : AllIdentified p r core d
    · rw [if_pos ⟨hReports, hAll⟩]
      have hEach : ∀ id account, d.roster.table.get? id = some account →
          ∃ w, (identityOf p r core d.unixUsers account).map some = .ok w := by
        intro id account hGet
        obtain ⟨identity, hIdentity⟩ := hAll id account hGet
        exact ⟨some identity, by rw [hIdentity]; rfl⟩
      obtain ⟨found, hFound, hGet⟩ := Dict.traverse_ok hEach
      have hRun : bandwidthIdentities p r core d = .ok found := by
        rw [bandwidthIdentities, if_pos hReports, hFound]
      rw [identities, hRun]
      show found.get? id = _
      rw [hGet]
      cases d.roster.table.get? id with
      | none => rfl
      | some account =>
        rw [Option.bind_some, Option.bind_some]
        cases identityOf p r core d.unixUsers account <;> rfl
    · rw [if_neg fun hBoth => hAll hBoth.2]
      -- and a driver that raises counts as one without identities
      have hRaise := mt (bandwidthIdentities_ok_iff p r core d hReports).mp hAll
      rw [identities]
      cases hRun : bandwidthIdentities p r core d with
      | error e => rfl
      | ok found => exact absurd ⟨found, hRun⟩ hRaise
  · rw [if_neg fun hBoth => hReports hBoth.1, identities, bandwidthIdentities, if_neg hReports]
    rfl

/-- Identities depend on the accounts listed, and for SSH on the users there
are. -/
theorem get?_identities_congr {d d' : Driver}
    (hTable : ∀ id, d'.roster.table.get? id = d.roster.table.get? id)
    (hUsers : core = .ssh → ∀ name, name ∈ d'.unixUsers ↔ name ∈ d.unixUsers) (id : String) :
    (identities p r core d').get? id = (identities p r core d).get? id := by
  have hOne : ∀ account, identityOf p r core d'.unixUsers account =
      identityOf p r core d.unixUsers account := by
    intro account
    have hUids : unixUids p r core d'.unixUsers account.accountId =
        unixUids p r core d.unixUsers account.accountId := by
      cases core with
      | ssh =>
        unfold unixUids
        cases sanitizeUsername p account.accountId with
        | error text => rfl
        | ok name => simp only [hUsers rfl name]
      | _ => rfl
    rw [identityOf, identityOf, hUids]
  have hAll : AllIdentified p r core d' ↔ AllIdentified p r core d := by
    unfold AllIdentified
    simp only [hTable, hOne]
  rw [get?_identities, get?_identities, hAll, hTable]
  simp only [hOne]

end Lookup

-- ---------------------------------------------------------------------------
-- After a sync
-- ---------------------------------------------------------------------------

/--
**Identities after a sync** that returns. They are those of the settled driver:
the completed accounts of the list, and for SSH the users it has then. So they
can be computed from the list and the driver before it, without running the
sync.
-/
theorem sync_identities (p : Platform) (r : Resolver) (core : CoreId) (h : Host)
    (accounts : List UserAccount) (d : Driver) :
    Returns (syncAccounts p h accounts core) d fun _ d' => ∀ id,
      (identities p r core d').get? id =
        (identities p r core (settled p h core accounts d)).get? id := by
  by_cases hXray : core = .xray
  · subst hXray
    intro _ d' _ id
    rw [get?_identities, get?_identities, if_neg (by simp [reports]), if_neg (by simp [reports])]
  · have hFiles := sync_files (p := p) hXray h accounts d
    intro u d' hRun id
    obtain ⟨prepared, hPrepared, hTable⟩ := hFiles u d' hRun
    have hFiled : filed p h core accounts d = prepared := filterMap_of_mapM hPrepared
    refine get?_identities_congr p r core (d := settled p h core accounts d) (fun other => ?_)
      (fun hSsh name => ?_) id
    · rw [hTable, settled, hFiled]
    · subst hSsh
      rw [settled, if_pos rfl]
      exact Ssh.sync_users p h accounts d u d' hRun name

end ZagrosNode.Bandwidth
