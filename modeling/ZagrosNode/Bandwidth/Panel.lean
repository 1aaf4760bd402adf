import ZagrosNode.Bandwidth.Malformed

/-!
# ZagrosNode — limits on the node and on the panel

The panel computes limits for the host it runs on from its own database: the
users with their rates, the owners of all accounts and the identities its
drivers report. For a node it sends the rates and the accounts, and the node
asks its own drivers. Both passes end in the same kind of rule set; the checks
at their ends differ.

The panel's limiter is in `vendor/zagros`; it reads the rates from the table of users
and asks the core manager for the identities. Both limiters end with a dictionary from
user ids to limits, which the same code installs. They are compared on the dictionary.

`ListsUsers` says what a payload must contain to be about the panel's users: an entry
for each with the same rates and the accounts that user owns. Nothing is asked of the
order of accounts or of names, so the limits agree in what is shaped (`SameShaping`):
rates, addresses, uids and SoftEther accounts, as sets.

The panel checks all rates at the end and raises for a rate over `MAX_MBIT`. The node
has no such check, and the equivalence says that it is the only difference.

Main results:

* `get?_panelRules` — the limit the panel computes for one user.
* `node_matches_panel_iff` — on a payload that lists the panel's users, the node
  computes the same limits and rejects the same payloads exactly if no rate is
  above the panel's maximum.
* `node_takes_any_rate` — above it the node goes on where the panel raises.
-/

namespace ZagrosNode.Bandwidth

open ZagrosNode.Lib ZagrosNode.Cores ZagrosNode.Security ZagrosNode.Accounts

-- ---------------------------------------------------------------------------
-- The panel's pass
-- ---------------------------------------------------------------------------

/-- A row of the panel's table of users. -/
structure UserRow where
  username          : String
  uploadLimitMbps   : Option Int
  downloadLimitMbps : Option Int

/-- `account_owners`: the user of each account of a core. -/
abbrev Owners := Dict (String × String) Int

/-- The core manager: its cores, and the identities each driver reports, `none`
where the driver cannot be had or raises. -/
structure CoreMap where
  listed     : List String
  identities : String → Option (Dict String Identity)

/-- `MAX_MBIT` -/
def maxMbit : Int := 100000

/-- The limit of a row, without accounts. -/
def rowLimit (userId : Int) (row : UserRow) : UserLimit :=
  { userId := userId
    username := row.username
    uploadMbps := max 0 (row.uploadLimitMbps.getD 0)
    downloadMbps := max 0 (row.downloadLimitMbps.getD 0)
    innerSources := []
    sshUids := []
    softetherAccounts := [] }

/-- The SoftEther accounts join the limits of their owners. -/
def addSoftether (owners : Owners) (rules : Dict Int UserLimit) : Dict Int UserLimit :=
  rules.adjustAll
    (fun e : (String × String) × Int => if e.1.1 = "softether" then some e.2 else none)
    (fun e limit => { limit with softetherAccounts := limit.softetherAccounts ++ [e.1.2] })
    owners.entries

/-- The identities of all cores, each with its account. -/
def CoreMap.all (m : CoreMap) : List ((String × String) × Identity) :=
  m.listed.flatMap fun core =>
    match m.identities core with
    | some found => found.entries.map fun e => ((core, e.1), e.2)
    | none       => []

/-- The identities join the limits of their accounts' owners. -/
def addIdentities (k : Kernel) (m : CoreMap) (owners : Owners) (rules : Dict Int UserLimit) :
    Dict Int UserLimit :=
  rules.adjustAll (fun e : (String × String) × Identity => owners.get? e.1)
    (fun e limit => limit.addIdentity k e.2) m.all

/-- The addresses SoftEther clients hold join the limits of their users. -/
def addSoftSources (softSources : Dict String Int) (rules : Dict Int UserLimit) :
    Dict Int UserLimit :=
  rules.adjustAll (fun e : String × Int => some e.2)
    (fun e limit => { limit with innerSources := limit.innerSources ++ [e.1] })
    (softSources.entries.filter fun e => (rules.get? e.2).isSome)

/-- The limits before they are checked. -/
def panelRules (k : Kernel) (m : CoreMap) (users : Dict Int UserRow) (owners : Owners)
    (softSources : Dict String Int) : Dict Int UserLimit :=
  addSoftSources softSources
    (addIdentities k m owners (addSoftether owners (users.mapValues rowLimit)))

/-- The rates of every limit are within the range. -/
def checkRates : List UserLimit → Except String Unit
  | []            => .ok ()
  | limit :: rest =>
    if ¬ (0 ≤ limit.uploadMbps ∧ limit.uploadMbps ≤ maxMbit) then
      .error s!"invalid upload limit for {limit.username}"
    else if ¬ (0 ≤ limit.downloadMbps ∧ limit.downloadMbps ≤ maxMbit) then
      .error s!"invalid download limit for {limit.username}"
    else checkRates rest

/-- `BandwidthLimiter._desired` -/
def panelDesired (k : Kernel) (m : CoreMap) (users : Dict Int UserRow) (owners : Owners)
    (softSources : Dict String Int) : Except String (Dict Int UserLimit) := do
  let rules := panelRules k m users owners softSources
  checkRates rules.values
  .ok rules

-- ---------------------------------------------------------------------------
-- The node's pass on what the panel sends
-- ---------------------------------------------------------------------------

/-- `_identities` of the node's limiter over the same core manager. -/
def CoreMap.kernel (m : CoreMap) (k : Kernel) : Kernel :=
  { k with
    identities := fun core =>
      if core ∈ m.listed then (m.identities core).getD Dict.empty else Dict.empty }

/-- The entry lists a user of the panel: the same rates, and the accounts the
user owns. -/
structure ListsUser (p : Platform) (owners : Owners) (userId : Int) (row : UserRow)
    (spec : Raw) : Prop where
  upload   : rate spec "upload_mbps" = .ok (row.uploadLimitMbps.getD 0)
  download : rate spec "download_mbps" = .ok (row.downloadLimitMbps.getD 0)
  object   : (accountsOf spec).isDict = true
  accounts : ∀ account, account ∈ listedAccounts p spec ↔ owners.get? account = some userId

/-- The payload lists the users of the panel, all of them and nobody else. -/
structure ListsUsers (p : Platform) (users : Dict Int UserRow) (owners : Owners)
    (payload : Payload) : Prop where
  entry : ∀ key spec userId, payload.get? key = some (.dict spec) → intOfStr key = .ok userId →
            ∃ row, users.get? userId = some row ∧ ListsUser p owners userId row spec
  user  : ∀ userId row, users.get? userId = some row →
            ∃ key spec, payload.get? key = some (.dict spec) ∧ intOfStr key = .ok userId

/-- The same rates, addresses, uids and SoftEther accounts. -/
structure SameShaping (a b : UserLimit) : Prop where
  upload    : a.uploadMbps = b.uploadMbps
  download  : a.downloadMbps = b.downloadMbps
  traffic   : a.traffic = b.traffic
  softether : a.softetherAccounts.toFinset = b.softetherAccounts.toFinset

/-- The node computes what the panel does, and rejects what the panel rejects. -/
def Matches (node : Except PyErr (Dict Int UserLimit))
    (panel : Except String (Dict Int UserLimit)) : Prop :=
  match panel with
  | .ok rules' => ∃ rules, node = .ok rules ∧
      ∀ userId, Option.Rel SameShaping (rules.get? userId) (rules'.get? userId)
  | .error _   => ∃ e, node = .error e

-- ---------------------------------------------------------------------------
-- What the panel computes
-- ---------------------------------------------------------------------------

section PanelRules

variable {p : Platform} {k : Kernel} {m : CoreMap} {users : Dict Int UserRow} {owners : Owners}

theorem foldl_softether (l : List ((String × String) × Int)) (limit : UserLimit) :
    l.foldl (fun limit e =>
        { limit with softetherAccounts := limit.softetherAccounts ++ [e.1.2] }) limit =
      { limit with softetherAccounts := limit.softetherAccounts ++ l.map fun e => e.1.2 } := by
  induction l generalizing limit with
  | nil =>
    show limit = { limit with softetherAccounts := limit.softetherAccounts ++ [] }
    rw [List.append_nil]
  | cons e rest ih =>
    rw [List.foldl_cons, ih, List.map_cons, List.append_assoc, List.singleton_append]

theorem foldl_identities (l : List ((String × String) × Identity)) (limit : UserLimit) :
    l.foldl (fun limit e => limit.addIdentity k e.2) limit =
      { limit with
        innerSources := limit.innerSources ++
          l.flatMap fun e => e.2.innerSources.filterMap k.address
        sshUids := limit.sshUids ++ l.flatMap fun e => e.2.uids } := by
  induction l generalizing limit with
  | nil =>
    show limit = { limit with
      innerSources := limit.innerSources ++ [], sshUids := limit.sshUids ++ [] }
    rw [List.append_nil, List.append_nil]
  | cons e rest ih =>
    rw [List.foldl_cons, ih, List.flatMap_cons, List.flatMap_cons]
    simp only [UserLimit.addIdentity, List.append_assoc]

/-- The identities of the accounts a user owns. -/
def ownedIdentities (m : CoreMap) (owners : Owners) (userId : Int) :
    List ((String × String) × Identity) :=
  m.all.filter fun e => decide (owners.get? e.1 = some userId)

/-- The SoftEther accounts a user owns. -/
def ownedSoftether (owners : Owners) (userId : Int) : List String :=
  (owners.entries.filter fun e =>
    decide ((if e.1.1 = "softether" then some e.2 else none) = some userId)).map fun e => e.1.2

/-- The limit of a user's row with everything that joins it. -/
def panelLimit (k : Kernel) (m : CoreMap) (owners : Owners) (userId : Int) (row : UserRow) :
    UserLimit :=
  { rowLimit userId row with
    innerSources := (ownedIdentities m owners userId).flatMap fun e =>
      e.2.innerSources.filterMap k.address
    sshUids := (ownedIdentities m owners userId).flatMap fun e => e.2.uids
    softetherAccounts := ownedSoftether owners userId }

/--
**The limit the panel computes** for a user, without SoftEther bindings. It is
computed from the user's own row, and from the identities of the accounts the
user owns.
-/
theorem get?_panelRules (userId : Int) :
    (panelRules k m users owners Dict.empty).get? userId =
      (users.get? userId).map (panelLimit k m owners userId) := by
  rw [panelRules, addSoftSources, addIdentities, addSoftether]
  show (Dict.adjustAll _ _ _ []).get? userId = _
  rw [Dict.adjustAll, List.foldl_nil, Dict.get?_adjustAll, Dict.get?_adjustAll,
    Dict.get?_mapValues, Option.map_map, Option.map_map]
  congr 1
  funext row
  rw [Function.comp_apply, Function.comp_apply, foldl_softether, foldl_identities]
  rfl

theorem mem_all {e : (String × String) × Identity} :
    e ∈ m.all ↔ e.1.1 ∈ m.listed ∧
      ∃ found, m.identities e.1.1 = some found ∧ found.get? e.1.2 = some e.2 := by
  obtain ⟨⟨core, account⟩, identity⟩ := e
  rw [CoreMap.all, List.mem_flatMap]
  constructor
  · rintro ⟨core', hListed, hMem⟩
    cases hFound : m.identities core' with
    | none =>
      rw [hFound] at hMem
      cases hMem
    | some found =>
      rw [hFound] at hMem
      obtain ⟨e, hEntry, hEq⟩ := List.mem_map.mp hMem
      obtain ⟨⟨rfl, rfl⟩, rfl⟩ : (core' = core ∧ e.1 = account) ∧ e.2 = identity := by
        simpa using hEq
      exact ⟨hListed, found, hFound, Dict.mem_entries_iff.mp hEntry⟩
  · rintro ⟨hListed, found, hFound, hGet⟩
    refine ⟨core, hListed, ?_⟩
    rw [hFound]
    exact List.mem_map.mpr ⟨(account, identity), Dict.mem_entries_iff.mpr hGet, rfl⟩

/-- The node finds the identity of an account where the panel does. -/
theorem identity?_kernel {account : String × String} {identity : Identity} :
    (m.kernel k).identity? account = some identity ↔ (account, identity) ∈ m.all := by
  rw [mem_all, Kernel.identity?]
  show (if account.1 ∈ m.listed then (m.identities account.1).getD Dict.empty
    else Dict.empty).get? account.2 = some identity ↔ _
  by_cases hListed : account.1 ∈ m.listed
  · rw [if_pos hListed]
    cases m.identities account.1 with
    | none => simp [hListed]
    | some found => simp [hListed]
  · rw [if_neg hListed]
    simp [hListed]

end PanelRules

-- ---------------------------------------------------------------------------
-- The same limits
-- ---------------------------------------------------------------------------

section Matching

variable {p : Platform} {k : Kernel} {m : CoreMap} {users : Dict Int UserRow} {owners : Owners}
  {userId : Int} {row : UserRow} {spec : Raw}

theorem mem_sourcesOf {account : String × String} {source : String} :
    source ∈ (m.kernel k).sourcesOf account ↔
      ∃ identity, (account, identity) ∈ m.all ∧
        source ∈ identity.innerSources.filterMap k.address := by
  rw [Kernel.sourcesOf]
  cases hIdentity : (m.kernel k).identity? account with
  | none =>
    refine iff_of_false List.not_mem_nil ?_
    rintro ⟨identity, hMem, -⟩
    rw [identity?_kernel.mpr hMem] at hIdentity
    cases hIdentity
  | some identity =>
    constructor
    · intro hSource
      exact ⟨identity, identity?_kernel.mp hIdentity, hSource⟩
    · rintro ⟨identity', hMem, hSource⟩
      obtain rfl := Option.some.inj (hIdentity.symm.trans (identity?_kernel.mpr hMem))
      exact hSource

theorem mem_uidsOf {account : String × String} {uid : Int} :
    uid ∈ (m.kernel k).uidsOf account ↔
      ∃ identity, (account, identity) ∈ m.all ∧ uid ∈ identity.uids := by
  rw [Kernel.uidsOf]
  cases hIdentity : (m.kernel k).identity? account with
  | none =>
    refine iff_of_false List.not_mem_nil ?_
    rintro ⟨identity, hMem, -⟩
    rw [identity?_kernel.mpr hMem] at hIdentity
    cases hIdentity
  | some identity =>
    constructor
    · intro hUid
      exact ⟨identity, identity?_kernel.mp hIdentity, hUid⟩
    · rintro ⟨identity', hMem, hUid⟩
      obtain rfl := Option.some.inj (hIdentity.symm.trans (identity?_kernel.mpr hMem))
      exact hUid

theorem mem_ownedIdentities {e : (String × String) × Identity} :
    e ∈ ownedIdentities m owners userId ↔ e ∈ m.all ∧ owners.get? e.1 = some userId := by
  rw [ownedIdentities, List.mem_filter, decide_eq_true_eq]

/-- The traffic of the listed accounts is that of the owned ones. -/
theorem traffic_eq (h : ListsUser p owners userId row spec) :
    trafficOf p (m.kernel k) spec = (panelLimit k m owners userId row).traffic := by
  -- both sides range over the same accounts: those whose owner is the user
  have hSources : ∀ source,
      source ∈ (listedAccounts p spec).flatMap (m.kernel k).sourcesOf ↔
        source ∈ (panelLimit k m owners userId row).innerSources := by
    intro source
    show _ ↔ source ∈ (ownedIdentities m owners userId).flatMap _
    simp only [List.mem_flatMap, mem_sourcesOf, mem_ownedIdentities, h.accounts]
    constructor
    · rintro ⟨account, hOwned, identity, hMem, hSource⟩
      exact ⟨(account, identity), ⟨hMem, hOwned⟩, hSource⟩
    · rintro ⟨⟨account, identity⟩, ⟨hMem, hOwned⟩, hSource⟩
      exact ⟨account, hOwned, identity, hMem, hSource⟩
  -- the same for the local users of SSH
  have hUids : ∀ uid, uid ∈ (listedAccounts p spec).flatMap (m.kernel k).uidsOf ↔
      uid ∈ (panelLimit k m owners userId row).sshUids := by
    intro uid
    show _ ↔ uid ∈ (ownedIdentities m owners userId).flatMap _
    simp only [List.mem_flatMap, mem_uidsOf, mem_ownedIdentities, h.accounts]
    constructor
    · rintro ⟨account, hOwned, identity, hMem, hUid⟩
      exact ⟨(account, identity), ⟨hMem, hOwned⟩, hUid⟩
    · rintro ⟨⟨account, identity⟩, ⟨hMem, hOwned⟩, hUid⟩
      exact ⟨account, hOwned, identity, hMem, hUid⟩
  rw [trafficOf, UserLimit.traffic, Traffic.mk.injEq]
  constructor
  · ext source
    rw [List.mem_toFinset, List.mem_toFinset, hSources]
  · ext uid
    rw [List.mem_toFinset, List.mem_toFinset, hUids]

theorem softether_eq (h : ListsUser p owners userId row spec) :
    softIn p spec = (panelLimit k m owners userId row).softetherAccounts.toFinset := by
  -- the panel's side: the owners' entries under the core's name
  have hOwned : ∀ account, account ∈ (panelLimit k m owners userId row).softetherAccounts ↔
      owners.get? ("softether", account) = some userId := by
    intro account
    show account ∈ ownedSoftether owners userId ↔ _
    rw [ownedSoftether, List.mem_map]
    constructor
    · rintro ⟨⟨⟨core, id⟩, owner⟩, hEntry, rfl⟩
      rw [List.mem_filter, decide_eq_true_eq] at hEntry
      by_cases hCore : core = "softether"
      · rw [if_pos hCore] at hEntry
        obtain rfl := Option.some.inj hEntry.2
        rw [← hCore]
        exact Dict.mem_entries_iff.mp hEntry.1
      · rw [if_neg hCore] at hEntry
        cases hEntry.2
    · intro hGet
      refine ⟨(("softether", account), userId), ?_, rfl⟩
      rw [List.mem_filter, decide_eq_true_eq, if_pos rfl]
      exact ⟨Dict.mem_entries_iff.mpr hGet, rfl⟩
  -- the payload's side: the accounts its dictionary names under that core
  ext account
  rw [List.mem_toFinset, hOwned, ← h.accounts, softIn, listedAccounts]
  cases accountsOf spec with
  | dict cores =>
    simp only [List.mem_toFinset, softNamed, List.mem_flatMap, List.mem_map, Prod.mk.injEq]
    constructor
    · rintro ⟨e, hEntry, hNamed⟩
      by_cases hCore : e.1 = "softether"
      · rw [if_pos hCore] at hNamed
        exact ⟨e, hEntry, account, hNamed, hCore, rfl⟩
      · rw [if_neg hCore] at hNamed
        cases hNamed
    · rintro ⟨e, hEntry, id, hNamed, hCore, rfl⟩
      exact ⟨e, hEntry, by rwa [if_pos hCore]⟩
  | _ => simp

/-- The limit of an entry that lists a user is the panel's. -/
theorem sameShaping_of_lists {key : String} {limit : UserLimit}
    (h : ListsUser p owners userId row spec)
    (hLimit : userLimit p (m.kernel k) key userId spec = .ok limit) :
    SameShaping limit (panelLimit k m owners userId row) := by
  obtain ⟨-, -, hUpload, hDownload, hSoft⟩ := userLimit_fields hLimit
  rw [h.upload] at hUpload
  rw [h.download] at hDownload
  exact
    { upload    := (Except.ok.inj hUpload).symm
      download  := (Except.ok.inj hDownload).symm
      traffic   := (userLimit_ok p _ hLimit).1.trans (traffic_eq h)
      softether := hSoft.trans (softether_eq h) }

/-- A payload that lists the panel's users makes a rule set, the panel's. -/
theorem desired_of_lists {payload : Payload} (h : ListsUsers p users owners payload) :
    ∃ rules, desired p (m.kernel k) payload.entries = .ok rules ∧
      ∀ userId, Option.Rel SameShaping (rules.get? userId)
        ((panelRules k m users owners Dict.empty).get? userId) := by
  -- every entry under a readable id lists some user, so it makes a limit
  have hReadable : EverySpec (fun id spec => (∃ n, intOfStr id = .ok n) → MakesLimit spec)
      payload.entries := by
    rintro key spec hMem ⟨userId, hId⟩
    obtain ⟨row, -, hLists⟩ := h.entry key spec userId (Dict.mem_entries_iff.mp hMem) hId
    exact ⟨⟨_, hLists.upload⟩, ⟨_, hLists.download⟩, hLists.object⟩
  obtain ⟨rules, hRules⟩ := (desired_ok_iff p (m.kernel k) payload.entries).mpr hReadable
  refine ⟨rules, hRules, fun userId => ?_⟩
  rw [get?_panelRules]
  -- the two sides are compared id by id
  rcases get?_desired p (m.kernel k) hRules userId with
    ⟨hNone, hGet⟩ | ⟨e, limit, hEntry, hGet, hLimit⟩
  · rw [hGet]
    cases hRow : users.get? userId with
    | none => exact Option.Rel.none
    | some row =>
      obtain ⟨key, spec, hSpec, hId⟩ := h.user userId row hRow
      exact absurd hNone (entryFor_ne_none (Dict.mem_entries_iff.mpr hSpec) hId)
  · obtain ⟨hMem, hId⟩ := entryFor_some hEntry
    obtain ⟨row, hRow, hLists⟩ := h.entry e.1 e.2 userId (Dict.mem_entries_iff.mp hMem) hId
    rw [hGet, hRow]
    exact Option.Rel.some (sameShaping_of_lists hLists hLimit)

theorem checkRates_ok_iff {limits : List UserLimit} :
    checkRates limits = .ok () ↔ ∀ limit ∈ limits,
      (0 ≤ limit.uploadMbps ∧ limit.uploadMbps ≤ maxMbit) ∧
        0 ≤ limit.downloadMbps ∧ limit.downloadMbps ≤ maxMbit := by
  induction limits with
  | nil => exact iff_of_true rfl fun _ h => absurd h List.not_mem_nil
  | cons limit rest ih =>
    rw [checkRates, List.forall_mem_cons, ← ih]
    by_cases hUp : 0 ≤ limit.uploadMbps ∧ limit.uploadMbps ≤ maxMbit
    · by_cases hDown : 0 ≤ limit.downloadMbps ∧ limit.downloadMbps ≤ maxMbit
      · simp [hUp, hDown]
      · simp [hUp, hDown]
    · simp [hUp]

/-- The rates of all users are within the panel's range. -/
def InRange (users : Dict Int UserRow) : Prop :=
  ∀ userId row, users.get? userId = some row →
    row.uploadLimitMbps.getD 0 ≤ maxMbit ∧ row.downloadLimitMbps.getD 0 ≤ maxMbit

theorem panel_checks_iff :
    checkRates (panelRules k m users owners Dict.empty).values = .ok () ↔ InRange users := by
  rw [checkRates_ok_iff]
  constructor
  · intro hAll userId row hRow
    have hGet : (panelRules k m users owners Dict.empty).get? userId =
        some (panelLimit k m owners userId row) := by
      rw [get?_panelRules, hRow, Option.map_some]
    obtain ⟨⟨-, hUp⟩, -, hDown⟩ := hAll _
      (List.mem_map.mpr ⟨(userId, _), Dict.mem_entries_iff.mpr hGet, rfl⟩)
    exact ⟨le_trans (le_max_right 0 _) hUp, le_trans (le_max_right 0 _) hDown⟩
  · intro hRange limit hMem
    obtain ⟨⟨userId, limit⟩, hEntry, rfl⟩ := List.mem_map.mp hMem
    have hGet := Dict.mem_entries_iff.mp hEntry
    rw [get?_panelRules, Option.map_eq_some_iff] at hGet
    obtain ⟨row, hRow, rfl⟩ := hGet
    obtain ⟨hUp, hDown⟩ := hRange userId row hRow
    have hMax : (0 : Int) ≤ maxMbit := by decide
    exact ⟨⟨le_max_left 0 _, max_le hMax hUp⟩, le_max_left 0 _, max_le hMax hDown⟩

/--
**Node and panel.** On a payload that lists the panel's users the node matches
the panel exactly if no rate is above the panel's maximum. The panel refuses
such a rate and makes no rule set at all; the node reads any integer and goes
on with it.
-/
theorem node_matches_panel_iff {payload : Payload} (h : ListsUsers p users owners payload) :
    Matches (desired p (m.kernel k) payload.entries)
        (panelDesired k m users owners Dict.empty) ↔ InRange users := by
  obtain ⟨rules, hRules, hSame⟩ := desired_of_lists (k := k) (m := m) h
  rw [← @panel_checks_iff k m users owners, panelDesired]
  cases hCheck : checkRates (panelRules k m users owners Dict.empty).values with
  | error text =>
    refine iff_of_false ?_ (by simp)
    rintro ⟨e, hRaise⟩
    rw [hRules] at hRaise
    cases hRaise
  | ok u => exact iff_of_true ⟨rules, hRules, hSame⟩ rfl

end Matching

-- ---------------------------------------------------------------------------
-- One user with one account
-- ---------------------------------------------------------------------------

def oneRow (upload : Int) : Dict Int UserRow := Dict.ofPairs [(7, ⟨"seven", some upload, none⟩)]

def oneOwner : Owners := Dict.ofPairs [(("pptp", "a"), 7)]

def onePptp : CoreMap where
  listed := ["pptp"]
  identities core :=
    if core = "pptp" then some (Dict.ofPairs [("a", ⟨["10.0.0.2"], []⟩)]) else none

def oneSpec (upload : Int) : Raw :=
  [("upload_mbps", .num upload), ("accounts", .dict [("pptp", .list [.str "a"])])]

def onePayload (upload : Int) : Payload := Dict.ofPairs [("7", .dict (oneSpec upload))]

theorem listsUsers_one (upload : Int) :
    ListsUsers plainPlatform (oneRow upload) oneOwner (onePayload upload) := by
  -- a rate of nought is falsy, and `or` gives the default, which is nought as well
  have hRate : rate (oneSpec upload) "upload_mbps" = .ok upload := by
    show ((Json.num upload).or (.num 0)).int = .ok upload
    by_cases hZero : upload = 0
    · subst hZero
      rfl
    · rw [Json.or, if_pos (by simpa [Json.truthy] using hZero)]
      rfl
  have hLists : ListsUser plainPlatform oneOwner 7 ⟨"seven", some upload, none⟩ (oneSpec upload) :=
    { upload   := hRate
      download := rfl
      object   := rfl
      accounts := by
        intro account
        show account ∈ [("pptp", "a")] ↔
          (if ("pptp", "a") = account then some (7 : Int) else none) = some 7
        by_cases hAccount : ("pptp", "a") = account
        · simp [hAccount]
        · simp [hAccount, Ne.symm hAccount] }
  constructor
  · intro key spec userId hGet hId
    obtain ⟨rfl, hSpec⟩ : key = "7" ∧ Json.dict spec = .dict (oneSpec upload) := by
      have hMem := Dict.mem_entries_iff.mpr hGet
      exact Prod.mk.inj (List.mem_singleton.mp hMem)
    obtain rfl := Json.dict.inj hSpec
    obtain rfl : 7 = userId := Except.ok.inj hId
    exact ⟨_, rfl, hLists⟩
  · intro userId row hRow
    have hMem := Dict.mem_entries_iff.mpr hRow
    obtain ⟨rfl, -⟩ := Prod.mk.inj (List.mem_singleton.mp hMem)
    exact ⟨"7", oneSpec upload, rfl, rfl⟩

/-- One user with a rate of 5 and one PPTP account. -/
theorem node_matches_panel_one :
    Matches (desired plainPlatform (onePptp.kernel bareKernel) (onePayload 5).entries)
      (panelDesired bareKernel onePptp (oneRow 5) oneOwner Dict.empty) := by
  refine (node_matches_panel_iff (listsUsers_one 5)).mpr ?_
  intro userId row hRow
  have hMem := Dict.mem_entries_iff.mpr hRow
  obtain ⟨-, rfl⟩ := Prod.mk.inj (List.mem_singleton.mp hMem)
  decide

/-- A rate above the maximum makes the panel raise and the node go on. -/
theorem node_takes_any_rate :
    ListsUsers plainPlatform (oneRow 100001) oneOwner (onePayload 100001) ∧
      ¬ Matches (desired plainPlatform (onePptp.kernel bareKernel) (onePayload 100001).entries)
        (panelDesired bareKernel onePptp (oneRow 100001) oneOwner Dict.empty) := by
  refine ⟨listsUsers_one 100001, ?_⟩
  have hPanel : ∃ text, panelDesired bareKernel onePptp (oneRow 100001) oneOwner Dict.empty =
      .error text := ⟨_, rfl⟩
  obtain ⟨text, hText⟩ := hPanel
  obtain ⟨rules, hRules, -⟩ :=
    desired_of_lists (k := bareKernel) (m := onePptp) (listsUsers_one 100001)
  rw [hText]
  rintro ⟨e, hRaise⟩
  rw [hRules] at hRaise
  cases hRaise

end ZagrosNode.Bandwidth
