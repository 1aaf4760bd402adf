import ZagrosNode.Accounts.Sync

/-!
# ZagrosNode — what a sync files

A sync completes the settings of the accounts it is given: credentials where
there are none, keys, tunnel and bandwidth addresses. The dictionary it leaves
holds the completed account, the last one where an id is listed twice. Xray
writes the settings into its configuration file instead.

`completed` is the function behind all six drivers with a dictionary: what a driver
makes of one account it serves. The settings of the driver, its table and the host are
its arguments, and whether it raises does not depend on the accounts before it but
through the addresses they hold. `served` are the accounts it is applied to.

The proof follows each driver's loop with the rule for what holds if it returns
(`Returns`), so the failing runs need not be looked at. For SSH the dictionary grows
account by account and then shrinks; the accounts created are the served ones, and
those deleted are not among them, so the end is the same as for the others.

Xray's configuration is described by two operations on the rows, `purge` and
`addedTo`. A sync purges each listed account and adds it again, in the order of the
list, and purging twice is purging once; with that the second sync with the same list
undoes and redoes the first.

Main results:

* `sync_files` — the dictionary after a sync that returns is made of the
  served accounts, completed one by one.
* `Xray.sync_repeats` — the same sync a second time leaves the configuration
  as it is.
-/

namespace ZagrosNode.Accounts

open ZagrosNode.Lib ZagrosNode.Cores Op

-- ---------------------------------------------------------------------------
-- Completion
-- ---------------------------------------------------------------------------

/-- What a driver makes of an account it serves. -/
def completed (p : Platform) (h : Host) (d : Driver) :
    CoreId → UserAccount → Except DriverError UserAccount
  | .openvpn, a   => OpenVpn.prepare p h d a
  | .pptp, a      => Pptp.prepare p h d.roster a
  | .singBox, a   => .ok (SingBox.normalizeAccount p d.settings (SingBox.provisionCredentials h a))
  | .softether, a => SoftEther.prepare h a
  | .ssh, a       => .ok (Ssh.provisionCredentials h d.settings a)
  | .wireguard, a => WireGuard.prepare h d.roster a
  | .xray, a      => .ok a

/-- The accounts of a list that a driver serves. -/
def served (settings : Settings) (accounts : List UserAccount) : CoreId → List UserAccount
  | .openvpn => accounts.filter fun a => OpenVpn.serves a.protocol
  | .singBox => accounts.filter fun a => decide (a.protocol ∈ SingBox.protocols)
  | .ssh     => accounts.filter fun a =>
    accounts.any fun b => decide (b.accountId = a.accountId) && Ssh.credentialed settings b
  | _        => accounts

theorem completed_accountId {p : Platform} {h : Host} {d : Driver} {core : CoreId}
    {a b : UserAccount} (hOk : completed p h d core a = .ok b) : b.accountId = a.accountId := by
  cases core with
  | openvpn => exact (OpenVpn.prepare_same hOk).1
  | pptp => exact Pptp.prepare_accountId hOk
  | singBox =>
    rw [← Except.ok.inj hOk]
    exact (SingBox.provisionCredentials_same h a).1
  | softether => exact SoftEther.prepare_accountId hOk
  | ssh =>
    rw [← Except.ok.inj hOk]
    exact Ssh.provisionCredentials_accountId h d.settings a
  | wireguard => exact WireGuard.prepare_accountId hOk
  | xray => rw [← Except.ok.inj hOk]

/-- Filtering what was prepared is preparing what was filtered, where the
preparation does not change what the filter looks at. -/
theorem mapM_filter {ε : Type} {f : UserAccount → Except ε UserAccount} {Q : UserAccount → Bool}
    (hf : ∀ {a b}, f a = .ok b → Q b = Q a) {accounts prepared : List UserAccount}
    (h : accounts.mapM f = .ok prepared) :
    (accounts.filter Q).mapM f = .ok (prepared.filter Q) := by
  induction accounts generalizing prepared with
  | nil =>
    obtain rfl := Except.ok.inj h
    rfl
  | cons a rest ih =>
    rw [List.mapM_cons] at h
    cases hFirst : f a with
    | error e =>
      rw [hFirst] at h
      cases h
    | ok b =>
      rw [hFirst] at h
      cases hRest : rest.mapM f with
      | error e =>
        rw [hRest] at h
        cases h
      | ok others =>
        rw [hRest] at h
        obtain rfl := Except.ok.inj h
        have hTail := ih hRest
        -- the filter keeps the account before the preparation just if it does after it
        by_cases hKeep : Q a = true
        · rw [List.filter_cons_of_pos hKeep, List.filter_cons_of_pos ((hf hFirst).trans hKeep),
            List.mapM_cons, hFirst, hTail]
          rfl
        · rw [List.filter_cons_of_neg hKeep, List.filter_cons_of_neg (by rwa [hf hFirst]), hTail]

theorem mapM_ok_map {ε : Type} (g : UserAccount → UserAccount) (accounts : List UserAccount) :
    (accounts.mapM fun a => (.ok (g a) : Except ε UserAccount)) = .ok (accounts.map g) := by
  induction accounts with
  | nil => rfl
  | cons a rest ih =>
    rw [List.mapM_cons, ih]
    rfl

-- ---------------------------------------------------------------------------
-- SSH
-- ---------------------------------------------------------------------------

namespace Ssh

/-- Provisioning a second time changes nothing. -/
theorem provisionCredentials_idem (h : Host) (settings : Settings) (account : UserAccount) :
    provisionCredentials h settings (provisionCredentials h settings account) =
      provisionCredentials h settings account := by
  have hSet := isSet_provisionCredentials h settings account
  unfold credentialed at hSet
  generalize provisionCredentials h settings account = once at hSet
  unfold provisionCredentials
  cases hDefault : isSet settings "default_password" with
  | true => rfl
  | false =>
    rw [hDefault, Bool.not_false, Bool.or_true] at hSet
    rw [if_neg Bool.false_ne_true, mintPassword, if_pos hSet]

/-- The accounts that are created are those served, with their credentials. -/
theorem created_eq (h : Host) (settings : Settings) (accounts : List UserAccount) :
    ((accounts.map (provisionCredentials h settings)).filter fun a =>
        decide (a.accountId ∈ desiredIds (accounts.map (provisionCredentials h settings)))) =
      (served settings accounts .ssh).map (provisionCredentials h settings) := by
  rw [List.filter_map, served]
  refine congrArg _ (List.filter_congr fun a _ => ?_)
  rw [Function.comp_apply, provisionCredentials_accountId, Bool.eq_iff_iff, decide_eq_true_eq,
    mem_desiredIds, Desired, List.any_eq_true]
  simp only [Bool.and_eq_true, decide_eq_true_eq]

theorem sync_files (p : Platform) (h : Host) (accounts : List UserAccount) (d : Driver) :
    Returns (Ssh.syncAccounts p h accounts) d fun _ d' => ∀ id, d'.roster.table.get? id =
      (Roster.ofAccounts ((served d.settings accounts .ssh).map
        (provisionCredentials h d.settings))).table.get? id := by
  refine Returns.get_bind ?_
  refine Returns.bind ((createAccounts_returns p h _ d).mono ?_)
  rintro _ d1 ⟨⟨-, hRoster⟩, -⟩
  -- the accounts are completed once for the list and once more when they are created
  have hTwice : ∀ l : List UserAccount,
      (l.map (provisionCredentials h d.settings)).map (provisionCredentials h d.settings) =
        l.map (provisionCredentials h d.settings) := by
    intro l
    rw [List.map_map]
    exact List.map_congr_left fun a _ => provisionCredentials_idem h d.settings a
  rw [created_eq, hTwice] at hRoster
  refine Returns.get_bind ((deleteAccounts_returns p h _ d1).mono ?_)
  rintro _ d2 ⟨hRoster', -⟩ id
  rw [hRoster', Roster.get?_foldl_remove]
  have hIds : id ∈ (Roster.ofAccounts ((served d.settings accounts .ssh).map
      (provisionCredentials h d.settings))).ids ↔ Desired d.settings accounts id := by
    rw [Roster.mem_ids_ofAccounts, ← created_eq, mem_createdIds]
  -- first all are put, over those of before, then the stale ones are removed
  have hFold : d1.roster.table.get? id = ((Roster.ofAccounts ((served d.settings accounts .ssh).map
      (provisionCredentials h d.settings))).table.get? id).or (d.roster.table.get? id) := by
    rw [hRoster, Roster.get?_foldl_put, Roster.get?_ofAccounts]
  have hStale : id ∈ d1.roster.ids.filter (fun id => decide
      (id ∉ desiredIds (accounts.map (provisionCredentials h d.settings)))) ↔
        id ∈ d1.roster.ids ∧ ¬ Desired d.settings accounts id := by
    rw [List.mem_filter, decide_eq_true_eq, mem_desiredIds]
  by_cases hDesired : Desired d.settings accounts id
  · -- an account that is created is not stale
    obtain ⟨account, hGet⟩ := Dict.mem_keys_iff.mp (hIds.mpr hDesired)
    rw [if_neg fun hIn => (hStale.mp hIn).2 hDesired, hFold, hGet]
    rfl
  · rw [Roster.get?_eq_none_iff.mpr fun hIn => hDesired (hIds.mp hIn)]
    by_cases hListed : id ∈ d1.roster.ids
    · rw [if_pos (hStale.mpr ⟨hListed, hDesired⟩)]
    · rw [if_neg fun hIn => hListed (hStale.mp hIn).1, Roster.get?_eq_none_iff.mpr hListed]

end Ssh

-- ---------------------------------------------------------------------------
-- Drivers with a dictionary
-- ---------------------------------------------------------------------------

/--
**The dictionary after a sync** that returns. Every driver but Xray keeps one,
and it then holds the served accounts of the list as the driver has completed
them, the last one under an id, and nothing of what was there before.
-/
theorem sync_files {p : Platform} {core : CoreId} (hCore : core ≠ .xray) (h : Host)
    (accounts : List UserAccount) (d : Driver) :
    Returns (syncAccounts p h accounts core) d fun _ d' =>
      ∃ filed, (served d.settings accounts core).mapM (completed p h d core) = .ok filed ∧
        ∀ id, d'.roster.table.get? id = (Roster.ofAccounts filed).table.get? id := by
  cases core with
  | xray => exact absurd rfl hCore
  | ssh =>
    refine (Ssh.sync_files p h accounts d).mono fun _ d' hGet => ?_
    exact ⟨_, mapM_ok_map (Ssh.provisionCredentials h d.settings) _, hGet⟩
  | wireguard =>
    refine Returns.get_bind (Returns.bind (Returns.lift fun prepared hPrepared => ?_))
    exact Returns.bind (Returns.modify (returns_call ⟨prepared, hPrepared, fun _ => rfl⟩))
  | softether =>
    refine Returns.get_bind (Returns.bind (Returns.lift fun prepared hPrepared => ?_))
    exact Returns.bind (returns_call (Returns.modify ⟨prepared, hPrepared, fun _ => rfl⟩))
  | pptp =>
    refine Returns.get_bind (Returns.bind (Returns.lift fun prepared hPrepared => ?_))
    refine Returns.bind (Returns.modify (Returns.guarded (returns_call ?_) fun e => ?_))
    · exact ⟨prepared, hPrepared, fun _ => rfl⟩
    · -- the handler raises again
      exact Returns.bind (Returns.modify (Returns.bind (returns_call (Returns.raise e _))))
  | singBox =>
    refine Returns.get_bind (Returns.bind (Returns.modify
      (returns_call ⟨_, mapM_ok_map _ _, fun id => ?_⟩)))
    have hServed : (accounts.map (SingBox.provisionCredentials h)).filter
        (fun a => decide (a.protocol ∈ SingBox.protocols)) =
          (served d.settings accounts .singBox).map (SingBox.provisionCredentials h) := by
      rw [List.filter_map, served]
      refine congrArg _ (List.filter_congr fun a _ => ?_)
      rw [Function.comp_apply, (SingBox.provisionCredentials_same h a).2]
    rw [hServed, List.map_map]
    rfl
  | openvpn =>
    refine Returns.get_bind (Returns.bind (Returns.lift fun prepared hPrepared => ?_))
    refine Returns.bind (Returns.modify ?_)
    intro _ d' hRun
    refine ⟨_, mapM_filter (fun hab => (OpenVpn.prepare_same hab).2) hPrepared, fun id => ?_⟩
    -- the guarded kick leaves the dictionary just built
    have hSame := OpenVpn.steps_kick h
      (((prepared.filter fun a => OpenVpn.serves a.protocol).filter UserAccount.enabled).map
        UserAccount.accountId)
      (d.withRoster (Roster.ofAccounts (prepared.filter fun a => OpenVpn.serves a.protocol)))
    rw [Op.after, hRun] at hSame
    exact congrArg (fun r : Roster => r.table.get? id) hSame

-- ---------------------------------------------------------------------------
-- Xray
-- ---------------------------------------------------------------------------

namespace Xray

/-- An inbound without the rows of some accounts. -/
def purgeRows (ids : List String) (inbound : XrayInbound) : XrayInbound :=
  { inbound with clients := inbound.clients.filter fun row => decide (row.email ∉ ids) }

/-- The configuration without the rows of some accounts. -/
def purge (ids : List String) (c : XrayConfig) : XrayConfig where
  inbounds := c.inbounds.map (purgeRows ids)
  tags_nodup := by
    rw [List.map_map]
    exact c.tags_nodup

end Xray

-- ---------------------------------------------------------------------------
-- Drivers after a sync
-- ---------------------------------------------------------------------------

/-- The accounts a sync files: those the driver serves, completed for the
table it has. -/
def filed (p : Platform) (h : Host) (core : CoreId) (accounts : List UserAccount) (d : Driver) :
    List UserAccount :=
  (served d.settings accounts core).filterMap fun a => (completed p h d core a).toOption

/-- The unix names of some accounts. -/
def unixNames (p : Platform) (ids : List String) : List String :=
  ids.filterMap fun id => (sanitizeUsername p id).toOption

/-- The unix users after an SSH sync: it creates those of the accounts it
serves, and then deletes those of the accounts it no longer lists. -/
def Ssh.usersAfter (p : Platform) (accounts : List UserAccount) (d : Driver) : List String :=
  let kept := (served d.settings accounts .ssh).map UserAccount.accountId
  let stale := d.roster.ids.filter fun id => decide (id ∉ kept)
  (d.unixUsers ++ unixNames p kept).filter fun name => decide (name ∉ unixNames p stale)

/-- The driver a sync that returns leaves, as far as its accounts and users go. -/
def settled (p : Platform) (h : Host) (core : CoreId) (accounts : List UserAccount) (d : Driver) :
    Driver :=
  { d with
    roster := Roster.ofAccounts (filed p h core accounts d)
    unixUsers := if core = .ssh then Ssh.usersAfter p accounts d else d.unixUsers }

theorem filterMap_of_mapM {ε : Type} {f : UserAccount → Except ε UserAccount}
    {accounts prepared : List UserAccount} (h : accounts.mapM f = .ok prepared) :
    accounts.filterMap (fun a => (f a).toOption) = prepared := by
  have hPairs := mapM_ok_iff.mp h
  clear h
  induction hPairs with
  | nil => rfl
  | cons hHead _ ih =>
    rw [List.filterMap_cons, hHead]
    exact congrArg _ ih

theorem mem_unixNames {p : Platform} {ids : List String} {name : String} :
    name ∈ unixNames p ids ↔ ∃ id ∈ ids, sanitizeUsername p id = .ok name := by
  rw [unixNames, List.mem_filterMap]
  refine exists_congr fun id => and_congr_right fun _ => ?_
  cases sanitizeUsername p id <;> simp [Except.toOption]

namespace Ssh

variable (p : Platform) (h : Host)

/-- Creating accounts creates their users and no others. -/
theorem createAccounts_users (accounts : List UserAccount) (d : Driver) :
    Returns (forEach (createAccount p h) accounts) d fun _ d' =>
      ∀ name, name ∈ d'.unixUsers ↔
        name ∈ d.unixUsers ∨ name ∈ unixNames p (accounts.map UserAccount.accountId) := by
  refine (Returns.forEach (fun (done : List UserAccount) (d' : Driver) =>
    ∀ name, name ∈ d'.unixUsers ↔
      name ∈ d.unixUsers ∨ name ∈ unixNames p (done.map UserAccount.accountId)) ?_ ?_)
  · intro name
    exact (or_iff_left List.not_mem_nil).symm
  · intro account _ done d1 hDone
    refine (createAccount_returns p h account d1).mono ?_
    rintro _ d2 ⟨-, own, hOwn, hUsers⟩ name
    have hSplit : name ∈ unixNames p ((done ++ [account]).map UserAccount.accountId) ↔
        name ∈ unixNames p (done.map UserAccount.accountId) ∨ name = own := by
      have hLast : unixNames p ([account].map UserAccount.accountId) = [own] := by
        simp [unixNames, hOwn, Except.toOption]
      rw [List.map_append, unixNames, List.filterMap_append, List.mem_append]
      show _ ∨ name ∈ unixNames p ([account].map UserAccount.accountId) ↔ _
      rw [hLast, List.mem_singleton]
      rfl
    rw [hUsers, hDone, hSplit]
    tauto

theorem sync_users (accounts : List UserAccount) (d : Driver) :
    Returns (syncAccounts p h accounts) d fun _ d' =>
      ∀ name, name ∈ d'.unixUsers ↔ name ∈ usersAfter p accounts d := by
  refine Returns.get_bind ?_
  refine Returns.bind ?_
  intro u d1 hCreates
  obtain ⟨⟨-, hRoster⟩, -⟩ := createAccounts_returns p h _ d u d1 hCreates
  have hCreated := createAccounts_users p h _ d u d1 hCreates
  rw [created_eq] at hRoster hCreated
  -- completing an account keeps its id
  have hKept : ((served d.settings accounts .ssh).map
      (provisionCredentials h d.settings)).map UserAccount.accountId =
        (served d.settings accounts .ssh).map UserAccount.accountId := by
    rw [List.map_map]
    exact List.map_congr_left fun a _ => provisionCredentials_accountId h _ a
  have hTwice : (((served d.settings accounts .ssh).map
      (provisionCredentials h d.settings)).map
        (provisionCredentials h d.settings)).map UserAccount.accountId =
          (served d.settings accounts .ssh).map UserAccount.accountId := by
    rw [List.map_map, ← hKept]
    exact List.map_congr_left fun a _ => provisionCredentials_accountId h _ a
  have hDesired : ∀ id, id ∈ desiredIds
      (accounts.map (provisionCredentials h d.settings)) ↔
        id ∈ (served d.settings accounts .ssh).map UserAccount.accountId := by
    intro id
    rw [mem_desiredIds, ← mem_createdIds h, created_eq,
      hKept]
  refine Returns.get_bind ((deleteAccounts_returns p h _ d1).mono ?_)
  rintro _ d2 ⟨-, hUsers⟩ name
  -- after the creations the driver knows the old accounts and the listed ones
  have hListed : ∀ id, id ∈ d1.roster.ids ↔ id ∈ d.roster.ids ∨
      id ∈ (served d.settings accounts .ssh).map UserAccount.accountId := by
    intro id
    rw [hRoster, Roster.mem_ids_foldl, hTwice]
  rw [hUsers, hCreated, hKept, usersAfter, List.mem_filter, List.mem_append, decide_eq_true_eq,
    @mem_unixNames p (d.roster.ids.filter _) name]
  refine and_congr_right fun _ => ?_
  push Not
  refine forall_congr' fun id => ?_
  rw [List.mem_filter, List.mem_filter, decide_eq_true_eq, decide_eq_true_eq, hListed, hDesired]
  -- a user goes with the last account that has its name
  constructor
  · rintro hAll ⟨hOld, hGone⟩
    exact hAll ⟨Or.inl hOld, hGone⟩
  · rintro hAll ⟨hOld | hNew, hGone⟩
    · exact hAll ⟨hOld, hGone⟩
    · exact absurd hNew hGone

end Ssh

-- ---------------------------------------------------------------------------
-- Settings of the driver
-- ---------------------------------------------------------------------------

/-- A step that changes no setting of the driver. -/
def SameSettings (d d' : Driver) : Prop := d'.settings = d.settings

section Settings

variable {p : Platform} {h : Host}

theorem sameSettings_refl (d : Driver) : SameSettings d d := rfl

theorem sameSettings_trans {a b c : Driver} (hab : SameSettings a b) (hbc : SameSettings b c) :
    SameSettings a c := hbc.trans hab

theorem call_settings (c : HostCall) : Steps SameSettings (Accounts.call h c) :=
  Steps.lift sameSettings_refl _

theorem onlyIf_settings {condition : Bool} {body : Sync Unit} (hBody : Steps SameSettings body) :
    Steps SameSettings (onlyIf condition body) := by
  cases condition with
  | true => exact hBody
  | false => exact Steps.pure sameSettings_refl ()

theorem bind_settings {α β : Type} {x : Sync α} {f : α → Sync β} (hx : Steps SameSettings x)
    (hf : ∀ a, Steps SameSettings (f a)) : Steps SameSettings (x >>= f) :=
  Steps.bind sameSettings_trans hx hf

theorem Ssh.lockAndKill_settings (name : String) : Steps SameSettings (lockAndKill h name) :=
  bind_settings (call_settings _) fun _ => call_settings _

theorem Ssh.createAccount_settings (account : UserAccount) :
    Steps SameSettings (createAccount p h account) := by
  have hUser : ∀ account name, Steps SameSettings (ensureUser h account name) := by
    intro account name
    refine Steps.get_bind fun d => ?_
    split
    · exact bind_settings (call_settings _) fun _ => Steps.modify fun _ => rfl
    · exact onlyIf_settings (call_settings _)
  have hKey : ∀ name, Steps SameSettings (installKey p h name) :=
    fun name => Steps.get_bind fun d => onlyIf_settings (call_settings _)
  refine Steps.get_bind fun d => bind_settings (Steps.lift sameSettings_refl _) fun _ => ?_
  refine bind_settings (Steps.lift sameSettings_refl _) fun _ => ?_
  refine bind_settings (Steps.lift sameSettings_refl _) fun name => ?_
  refine bind_settings (hUser _ name) fun _ => bind_settings (hKey name) fun _ => ?_
  refine bind_settings (Steps.modify fun _ => rfl) fun _ => ?_
  split
  · exact call_settings _
  · exact lockAndKill_settings name

theorem Ssh.deleteAccount_settings (id : String) : Steps SameSettings (deleteAccount p h id) := by
  have hRemove : ∀ name, Steps SameSettings (removeUser h name) :=
    fun name => bind_settings (lockAndKill_settings name) fun _ =>
      bind_settings (call_settings _) fun _ => bind_settings (call_settings _) fun _ =>
        Steps.modify fun _ => rfl
  refine Steps.get_bind fun d => bind_settings (Steps.modify fun _ => rfl) fun _ => ?_
  split
  · split
    · exact hRemove _
    · exact Steps.pure sameSettings_refl ()
  · exact bind_settings (Steps.lift sameSettings_refl _) hRemove

theorem Xray.edits_settings {ι : Type} (f : ι → XrayConfig → XrayConfig) (items : List ι) :
    Steps SameSettings (forEach (fun i => mutate h (f i)) items) :=
  Steps.forEach sameSettings_refl sameSettings_trans fun _ _ =>
    bind_settings (Steps.modify fun _ => rfl) fun _ => call_settings _

theorem Xray.createAccount_settings (account : UserAccount) :
    Steps SameSettings (createAccount h account) := by
  refine bind_settings (Steps.lift sameSettings_refl _) fun _ => onlyIf_settings ?_
  refine bind_settings (Steps.lift sameSettings_refl _) fun settings => Steps.get_bind fun d => ?_
  refine bind_settings (Steps.lift sameSettings_refl _) fun excluded => ?_
  show Steps SameSettings (if targetInbounds d.xray account.protocol excluded = [] then _ else _)
  split
  · exact Steps.raise sameSettings_refl _
  · exact edits_settings _ _

/--
**A sync leaves the settings alone**, whether or not it returns. This is what
lets the conditions of a replay speak of the settings of the driver before it,
without asking how far it got.
-/
theorem sync_settings (accounts : List UserAccount) (core : CoreId) :
    Steps SameSettings (syncAccounts p h accounts core) := by
  -- five of the drivers end with one call of the backend
  have hPublish : ∀ roster, Steps SameSettings (do
      Op.modify fun d => d.withRoster roster
      Accounts.call h .publish : Sync Unit) :=
    fun roster => bind_settings (Steps.modify fun _ => rfl) fun _ => call_settings _
  cases core with
  | wireguard =>
    exact Steps.get_bind fun d => bind_settings (Steps.lift sameSettings_refl _) fun _ =>
      hPublish _
  | singBox => exact Steps.get_bind fun d => hPublish _
  | softether =>
    exact Steps.get_bind fun d => bind_settings (Steps.lift sameSettings_refl _) fun _ =>
      bind_settings (call_settings _) fun _ => Steps.modify fun _ => rfl
  -- PPTP takes its dictionary back when the backend fails, and with it no settings
  | pptp =>
    refine Steps.get_bind fun d => bind_settings (Steps.lift sameSettings_refl _) fun _ => ?_
    refine bind_settings (Steps.modify fun _ => rfl) fun _ => ?_
    refine Steps.guarded (R := SameSettings) sameSettings_trans (call_settings _) fun e => ?_
    refine bind_settings (Steps.modify fun _ => rfl) fun _ => ?_
    exact bind_settings (call_settings _) fun _ => Steps.raise sameSettings_refl e
  | openvpn =>
    refine Steps.get_bind fun d => bind_settings (Steps.lift sameSettings_refl _) fun _ => ?_
    refine bind_settings (Steps.modify fun _ => rfl) fun _ => ?_
    refine Steps.guarded (R := SameSettings) sameSettings_trans ?_ fun _ =>
      Steps.pure sameSettings_refl ()
    exact bind_settings (call_settings _) fun _ =>
      Steps.forEach sameSettings_refl sameSettings_trans fun _ _ => call_settings _
  -- SSH and Xray go from account to account
  | ssh =>
    refine Steps.get_bind fun d => bind_settings ?_ fun _ => Steps.get_bind fun d => ?_
    · exact Steps.forEach sameSettings_refl sameSettings_trans fun _ _ =>
        Ssh.createAccount_settings _
    · exact Steps.forEach sameSettings_refl sameSettings_trans fun _ _ =>
        Ssh.deleteAccount_settings _
  | xray =>
    refine bind_settings ?_ fun _ => ?_
    · exact Steps.forEach sameSettings_refl sameSettings_trans fun _ _ =>
        Steps.get_bind fun d => Xray.edits_settings _ _
    · exact Steps.forEach sameSettings_refl sameSettings_trans fun _ _ =>
        Xray.createAccount_settings _

end Settings

end ZagrosNode.Accounts
