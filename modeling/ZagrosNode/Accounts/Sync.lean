import ZagrosNode.Accounts.Drivers

/-!
# ZagrosNode — what a sync leaves behind

The six drivers with a dictionary replace the whole set on every sync; Xray
removes and re-adds the accounts it is given and leaves all others alone.
Which of the given accounts stay differs too: OpenVPN and sing-box pass over
accounts of protocols they do not serve, Xray does not create disabled ones,
and SSH passes over accounts without a password when a default password is
set. When two SSH accounts share a unix name, deleting the stale one removes
the user of the other.

For every driver: what the dictionary has after a sync that returned. `Returns` carries
the accounts through the loops, and a call to the host drops out, since it changes
nothing of the driver. Five of the drivers assign the dictionary once; the ids are those
of the prepared list, and preparing keeps ids.

SSH works on accounts one after the other and holds an account only while its unix user
exists. Its lemmas are about two sets, the ids of the dictionary and the unix names. A
name may belong to two accounts, so deleting the stale one of the two takes the user of
the other; where that happens the account is listed and not held, and `Kept` says so
of SSH.

Xray edits inbounds. What an account has there is a row in some inbound, and a sync
removes the listed accounts everywhere and adds those that are enabled to the inbounds
that are for them.

Main results:

* `sync_holds` — whatever the core, the accounts held after a sync that
  returns are those it keeps of the list, and, for Xray alone, those outside
  the list that were held before.
-/

namespace ZagrosNode.Accounts

open ZagrosNode.Lib ZagrosNode.Cores Op

/-- The driver does not touch accounts it is not given. -/
def additive : CoreId → Bool
  | .xray => true
  | _     => false

/-- The core serves the account. -/
def Driver.Holds (p : Platform) (core : CoreId) (d : Driver) (id : String) : Prop :=
  match core with
  | .xray => ∃ tag, d.xray.Serves tag id
  | .ssh  => id ∈ d.roster.ids ∧ ∃ name, sanitizeUsername p id = .ok name ∧ name ∈ d.unixUsers
  | _     => id ∈ d.roster.ids

/-- SSH keeps the given accounts that have a password. -/
def Ssh.Desired (settings : Settings) (accounts : List UserAccount) (id : String) : Prop :=
  ∃ account ∈ accounts, account.accountId = id ∧ credentialed settings account = true

/-- A stale SSH account: listed by the driver, but no longer desired. -/
def Ssh.Stale (d : Driver) (accounts : List UserAccount) (id : String) : Prop :=
  id ∈ d.roster.ids ∧ ¬ Desired d.settings accounts id

/-- The driver keeps the given account. -/
def Kept (p : Platform) (core : CoreId) (d : Driver) (accounts : List UserAccount)
    (id : String) : Prop :=
  match core with
  | .openvpn =>
    ∃ account ∈ accounts, account.accountId = id ∧ OpenVpn.serves account.protocol = true
  | .singBox => ∃ account ∈ accounts, account.accountId = id ∧ account.protocol ∈ SingBox.protocols
  | .ssh =>
    Ssh.Desired d.settings accounts id ∧
      ∀ stale, Ssh.Stale d accounts stale → sanitizeUsername p stale ≠ sanitizeUsername p id
  | .xray    => ∃ account ∈ accounts, account.accountId = id ∧ account.enabled = true
  | _        => ∃ account ∈ accounts, account.accountId = id

-- ---------------------------------------------------------------------------
-- Preparing a list of accounts
-- ---------------------------------------------------------------------------

theorem ids_mapM {f : UserAccount → Except DriverError UserAccount} {Q : UserAccount → Bool}
    (hf : ∀ {a b}, f a = .ok b → b.accountId = a.accountId ∧ Q b = Q a)
    {accounts prepared : List UserAccount} (h : accounts.mapM f = .ok prepared) {id : String} :
    id ∈ (prepared.filter Q).map UserAccount.accountId ↔
      ∃ account ∈ accounts, account.accountId = id ∧ Q account = true := by
  induction accounts generalizing prepared with
  | nil =>
    obtain rfl := Except.ok.inj h
    simp
  | cons account rest ih =>
    rw [List.mapM_cons] at h
    cases hFirst : f account with
    | error e =>
      rw [hFirst] at h
      cases h
    | ok first =>
      rw [hFirst] at h
      cases hRest : rest.mapM f with
      | error e =>
        rw [hRest] at h
        cases h
      | ok others =>
        rw [hRest] at h
        obtain rfl := Except.ok.inj h
        obtain ⟨hId, hQ⟩ := hf hFirst
        have hOthers := ih hRest
        -- the filter asks the same of the account and of what is made of it
        by_cases hKeep : Q account = true
        · rw [List.filter_cons_of_pos (hQ.trans hKeep), List.map_cons, List.mem_cons, hOthers, hId,
            List.exists_mem_cons_iff, and_iff_left hKeep]
          exact or_congr_left eq_comm
        · rw [List.filter_cons_of_neg (by rwa [hQ]), hOthers, List.exists_mem_cons_iff]
          exact (or_iff_right fun hBoth => hKeep hBoth.2).symm

/-- The same when nothing is filtered out afterwards. -/
theorem ids_mapM_all {f : UserAccount → Except DriverError UserAccount}
    (hf : ∀ {a b}, f a = .ok b → b.accountId = a.accountId)
    {accounts prepared : List UserAccount} (h : accounts.mapM f = .ok prepared) {id : String} :
    id ∈ prepared.map UserAccount.accountId ↔ ∃ account ∈ accounts, account.accountId = id := by
  have hAll : id ∈ (prepared.filter fun _ => true).map UserAccount.accountId ↔
      ∃ account ∈ accounts, account.accountId = id ∧ true = true :=
    ids_mapM (fun hab => ⟨hf hab, rfl⟩) h
  simpa using hAll

theorem mintPassword_accountId (h : Host) (account : UserAccount) :
    (mintPassword h account).accountId = account.accountId := by
  unfold mintPassword
  split <;> rfl

theorem mintPassword_protocol (h : Host) (account : UserAccount) :
    (mintPassword h account).protocol = account.protocol := by
  unfold mintPassword
  split <;> rfl

theorem returns_call {h : Host} {c : HostCall} {d : Driver} {Q : Unit → Driver → Prop}
    (hQ : Q () d) : Returns (Accounts.call h c) d Q :=
  Returns.lift fun _ _ => hQ

theorem returns_onlyIf {condition : Bool} {body : Sync Unit} {d : Driver}
    {Q : Unit → Driver → Prop} (hBody : condition = true → Returns body d Q)
    (hSkip : condition = false → Q () d) : Returns (onlyIf condition body) d Q := by
  cases condition with
  | true => exact hBody rfl
  | false => exact Returns.pure (hSkip rfl)

-- ---------------------------------------------------------------------------
-- Drivers that rebuild their dictionary
-- ---------------------------------------------------------------------------

/-- A driver that has just rebuilt its dictionary from `accounts`. -/
theorem mem_ids_withRoster (d : Driver) (accounts : List UserAccount) (id : String) :
    id ∈ (d.withRoster (Roster.ofAccounts accounts)).roster.ids ↔
      id ∈ accounts.map UserAccount.accountId :=
  Roster.mem_ids_ofAccounts

theorem WireGuard.prepare_accountId {h : Host} {roster : Roster} {a b : UserAccount}
    (hOk : prepare h roster a = .ok b) : b.accountId = a.accountId := by
  unfold prepare at hOk
  simp only [bind, Except.bind] at hOk
  split at hOk
  · cases hOk
  split at hOk
  · cases hOk
  rw [← Except.ok.inj hOk]

theorem WireGuard.sync_ids (h : Host) (accounts : List UserAccount) (d : Driver) :
    Returns (WireGuard.syncAccounts h accounts) d fun _ d' =>
      ∀ id, id ∈ d'.roster.ids ↔ ∃ account ∈ accounts, account.accountId = id := by
  refine Returns.get_bind (Returns.bind (Returns.lift fun prepared hPrepared => ?_))
  refine Returns.bind (Returns.modify (returns_call fun id => ?_))
  rw [mem_ids_withRoster, ids_mapM_all WireGuard.prepare_accountId hPrepared]

theorem SoftEther.prepare_accountId {h : Host} {a b : UserAccount} (hOk : prepare h a = .ok b) :
    b.accountId = a.accountId := by
  unfold prepare at hOk
  simp only [bind, Except.bind] at hOk
  split at hOk
  · cases hOk
  rw [← Except.ok.inj hOk, mintPassword_accountId]

theorem SoftEther.sync_ids (h : Host) (accounts : List UserAccount) (d : Driver) :
    Returns (SoftEther.syncAccounts h accounts) d fun _ d' =>
      ∀ id, id ∈ d'.roster.ids ↔ ∃ account ∈ accounts, account.accountId = id := by
  refine Returns.get_bind (Returns.bind (Returns.lift fun prepared hPrepared => ?_))
  refine Returns.bind (returns_call (Returns.modify fun id => ?_))
  rw [mem_ids_withRoster, ids_mapM_all SoftEther.prepare_accountId hPrepared]

theorem Pptp.prepare_accountId {p : Platform} {h : Host} {roster : Roster} {a b : UserAccount}
    (hOk : prepare p h roster a = .ok b) : b.accountId = a.accountId := by
  unfold prepare at hOk
  simp only [bind, Except.bind] at hOk
  split at hOk
  · cases hOk
  split at hOk
  · cases hOk
  rw [← Except.ok.inj hOk]
  exact mintPassword_accountId h a

theorem Pptp.sync_ids (p : Platform) (h : Host) (accounts : List UserAccount) (d : Driver) :
    Returns (Pptp.syncAccounts p h accounts) d fun _ d' =>
      ∀ id, id ∈ d'.roster.ids ↔ ∃ account ∈ accounts, account.accountId = id := by
  refine Returns.get_bind (Returns.bind (Returns.lift fun prepared hPrepared => ?_))
  refine Returns.bind (Returns.modify (Returns.guarded (returns_call fun id => ?_) fun e => ?_))
  · rw [mem_ids_withRoster, ids_mapM_all Pptp.prepare_accountId hPrepared]
  · -- the handler restores the old dictionary and raises again
    exact Returns.bind (Returns.modify (Returns.bind (returns_call (Returns.raise e _))))

theorem SingBox.provisionCredentials_same (h : Host) (account : UserAccount) :
    (provisionCredentials h account).accountId = account.accountId ∧
      (provisionCredentials h account).protocol = account.protocol := by
  unfold provisionCredentials
  split
  · split <;> exact ⟨rfl, rfl⟩
  split
  · rw [mintPassword_accountId, mintPassword_protocol, withUuid]
    split <;> exact ⟨rfl, rfl⟩
  split
  · exact ⟨mintPassword_accountId h account, mintPassword_protocol h account⟩
  split
  · rw [mintPassword_accountId, mintPassword_protocol, withUsername]
    split <;> exact ⟨rfl, rfl⟩
  · exact ⟨rfl, rfl⟩

theorem SingBox.sync_ids (p : Platform) (h : Host) (accounts : List UserAccount) (d : Driver) :
    Returns (SingBox.syncAccounts p h accounts) d fun _ d' =>
      ∀ id, id ∈ d'.roster.ids ↔
        ∃ account ∈ accounts, account.accountId = id ∧ account.protocol ∈ SingBox.protocols := by
  refine Returns.get_bind (Returns.bind (Returns.modify (returns_call fun id => ?_)))
  rw [mem_ids_withRoster]
  simp only [List.map_map, List.mem_map, List.mem_filter, decide_eq_true_eq, Function.comp_apply,
    SingBox.normalizeAccount]
  constructor
  · rintro ⟨_, ⟨⟨account, hMem, rfl⟩, hServed⟩, rfl⟩
    obtain ⟨hId, hProtocol⟩ := SingBox.provisionCredentials_same h account
    exact ⟨account, hMem, hId.symm, by rwa [← hProtocol]⟩
  · rintro ⟨account, hMem, rfl, hServed⟩
    obtain ⟨hId, hProtocol⟩ := SingBox.provisionCredentials_same h account
    exact ⟨_, ⟨⟨account, hMem, rfl⟩, by rwa [hProtocol]⟩, hId⟩

theorem OpenVpn.prepare_same {p : Platform} {h : Host} {d : Driver} {a b : UserAccount}
    (hOk : prepare p h d a = .ok b) :
    b.accountId = a.accountId ∧ serves b.protocol = serves a.protocol := by
  unfold prepare at hOk
  by_cases hServed : serves a.protocol = true
  · rw [if_pos hServed] at hOk
    simp only [bind, Except.bind] at hOk
    split at hOk
    · cases hOk
    split at hOk
    · cases hOk
    rw [← Except.ok.inj hOk]
    have hProvision : ∀ settings, (provisionCredentials p h settings a).accountId = a.accountId ∧
        (provisionCredentials p h settings a).protocol = a.protocol := by
      intro settings
      unfold provisionCredentials
      split
      · exact ⟨rfl, rfl⟩
      · exact ⟨mintPassword_accountId h a, mintPassword_protocol h a⟩
    exact ⟨(hProvision d.settings).1, congrArg serves (hProvision d.settings).2⟩
  · rw [if_neg hServed] at hOk
    rw [← Except.ok.inj hOk]
    exact ⟨rfl, rfl⟩

/-- A step that changes no entry of the dictionary. -/
def SameRoster (d d' : Driver) : Prop := d'.roster = d.roster

theorem sameRoster_refl (d : Driver) : SameRoster d d := rfl

theorem sameRoster_trans {a b c : Driver} (hab : SameRoster a b) (hbc : SameRoster b c) :
    SameRoster a c := hbc.trans hab

/-- Kicking clients changes no account, whether or not the daemon answers. -/
theorem OpenVpn.steps_kick (h : Host) (live : List String) :
    Steps SameRoster
      (guarded DriverError.isCore (killStrangers h live) fun _ => pure () : Sync Unit) := by
  have hCall : ∀ c, Steps SameRoster (Accounts.call h c) := fun c d => rfl
  have hLoop : Steps SameRoster (killStrangers h live) :=
    Steps.bind sameRoster_trans (hCall _) fun _ =>
      Steps.forEach sameRoster_refl sameRoster_trans fun _ _ => hCall _
  exact Steps.guarded (R := SameRoster) sameRoster_trans hLoop fun _ => Steps.pure sameRoster_refl ()

theorem OpenVpn.sync_ids (p : Platform) (h : Host) (accounts : List UserAccount) (d : Driver) :
    Returns (OpenVpn.syncAccounts p h accounts) d fun _ d' =>
      ∀ id, id ∈ d'.roster.ids ↔
        ∃ account ∈ accounts, account.accountId = id ∧ OpenVpn.serves account.protocol = true := by
  refine Returns.get_bind (Returns.bind (Returns.lift fun prepared hPrepared => ?_))
  refine Returns.bind (Returns.modify ?_)
  intro _ d' hRun id
  -- the guarded kick leaves the dictionary just built
  have hSame := OpenVpn.steps_kick h
    (((prepared.filter fun a => OpenVpn.serves a.protocol).filter UserAccount.enabled).map
      UserAccount.accountId)
    (d.withRoster (Roster.ofAccounts (prepared.filter fun a => OpenVpn.serves a.protocol)))
  rw [Op.after, hRun] at hSame
  have hIds : id ∈ (prepared.filter fun a => OpenVpn.serves a.protocol).map
      UserAccount.accountId ↔ _ :=
    ids_mapM (fun hab => ⟨(OpenVpn.prepare_same hab).1, (OpenVpn.prepare_same hab).2⟩) hPrepared
  rw [← hIds, ← Roster.mem_ids_ofAccounts]
  exact iff_of_eq (congrArg (fun r => id ∈ Roster.ids r) hSame)

-- ---------------------------------------------------------------------------
-- SSH
-- ---------------------------------------------------------------------------

namespace Ssh

theorem unixName_ok {p : Platform} {account : UserAccount} {name : String}
    (h : unixName p account = .ok name) : sanitizeUsername p account.accountId = .ok name := by
  unfold unixName at h
  cases hName : sanitizeUsername p account.accountId with
  | ok other => rw [hName] at h; rw [Except.ok.inj h]
  | error e => rw [hName] at h; cases h

theorem provisionCredentials_accountId (h : Host) (settings : Settings) (account : UserAccount) :
    (provisionCredentials h settings account).accountId = account.accountId := by
  unfold provisionCredentials
  split
  · rfl
  · exact mintPassword_accountId h account

theorem isSet_provisionCredentials (h : Host) (settings : Settings) (account : UserAccount) :
    isSet (provisionCredentials h settings account).settings "password" =
      credentialed settings account := by
  unfold provisionCredentials credentialed
  cases hDefault : isSet settings "default_password" with
  | true => simp
  | false =>
    unfold mintPassword
    cases hOwn : isSet account.settings "password" with
    | true => simp [hOwn]
    | false => simp [isSet_withSetting account "password" _ (h.secret account).2]

theorem ensureUser_returns (h : Host) (account : UserAccount) (name : String) (d : Driver) :
    Returns (ensureUser h account name) d fun _ d' =>
      d'.settings = d.settings ∧ d'.roster = d.roster ∧
        ∀ n, n ∈ d'.unixUsers ↔ n = name ∨ n ∈ d.unixUsers := by
  refine Returns.get_bind ?_
  by_cases hNew : name ∉ d.unixUsers
  · rw [if_pos hNew]
    refine Returns.bind (returns_call (Returns.modify ⟨rfl, rfl, fun n => ?_⟩))
    simp [Driver.addUnixUser, or_comm]
  · rw [if_neg hNew]
    have hMem : name ∈ d.unixUsers := not_not.mp hNew
    have hSame : ∀ n, n ∈ d.unixUsers ↔ n = name ∨ n ∈ d.unixUsers :=
      fun n => ⟨Or.inr, fun hn => hn.elim (fun hEq => hEq ▸ hMem) id⟩
    exact returns_onlyIf (fun _ => returns_call ⟨rfl, rfl, hSame⟩) fun _ => ⟨rfl, rfl, hSame⟩

/-- Creating an account files it and makes sure of its unix user. -/
theorem createAccount_returns (p : Platform) (h : Host) (account : UserAccount) (d : Driver) :
    Returns (createAccount p h account) d fun _ d' =>
      (d'.settings = d.settings ∧
        d'.roster = d.roster.put (provisionCredentials h d.settings account)) ∧
        ∃ name, sanitizeUsername p account.accountId = .ok name ∧
          ∀ n, n ∈ d'.unixUsers ↔ n = name ∨ n ∈ d.unixUsers := by
  refine Returns.get_bind (Returns.bind (Returns.lift fun _ _ => ?_))
  refine Returns.bind (Returns.lift fun _ _ => Returns.bind (Returns.lift fun name hName => ?_))
  have hUnix := unixName_ok hName
  rw [provisionCredentials_accountId] at hUnix
  refine Returns.bind ((ensureUser_returns h _ name d).mono ?_)
  rintro _ d1 ⟨hSettings, hRoster, hUsers⟩
  have hGoal : ∀ d2 : Driver, d2 = d1.putAccount (provisionCredentials h d.settings account) →
      (d2.settings = d.settings ∧
        d2.roster = d.roster.put (provisionCredentials h d.settings account)) ∧
        ∃ name, sanitizeUsername p account.accountId = .ok name ∧
          ∀ n, n ∈ d2.unixUsers ↔ n = name ∨ n ∈ d.unixUsers := by
    rintro _ rfl
    exact ⟨⟨hSettings, congrArg (Roster.put · _) hRoster⟩, name, hUnix, hUsers⟩
  -- the key, the lock and the unlock only call the host
  refine Returns.bind (Returns.get_bind (returns_onlyIf (fun _ => returns_call ?_) fun _ => ?_))
  all_goals
    refine Returns.bind (Returns.modify ?_)
    split
    · exact returns_call (hGoal _ rfl)
    · exact Returns.bind (returns_call (returns_call (hGoal _ rfl)))

theorem removeUser_returns (h : Host) (name : String) (d : Driver) :
    Returns (removeUser h name) d fun _ d' => d' = d.dropUnixUser name :=
  Returns.bind (Returns.bind (returns_call (returns_call
    (Returns.bind (returns_call (Returns.bind (returns_call (Returns.modify rfl))))))))

theorem mem_dropUnixUser {d : Driver} {name n : String} :
    n ∈ (d.dropUnixUser name).unixUsers ↔ n ≠ name ∧ n ∈ d.unixUsers := by
  simp [Driver.dropUnixUser, and_comm]

/-- Deleting an account unlists it and removes its unix user. -/
theorem deleteAccount_returns (p : Platform) (h : Host) (id : String) (d : Driver) :
    Returns (deleteAccount p h id) d fun _ d' =>
      d'.roster = d.roster.remove id ∧
        ∀ n, n ∈ d'.unixUsers ↔ sanitizeUsername p id ≠ .ok n ∧ n ∈ d.unixUsers := by
  have hRemoved : ∀ name, sanitizeUsername p id = .ok name →
      Returns (removeUser h name) (d.dropAccount id) fun _ d' =>
        d'.roster = d.roster.remove id ∧
          ∀ n, n ∈ d'.unixUsers ↔ sanitizeUsername p id ≠ .ok n ∧ n ∈ d.unixUsers := by
    intro name hName
    refine (removeUser_returns h name _).mono ?_
    rintro _ _ rfl
    refine ⟨rfl, fun n => ?_⟩
    rw [mem_dropUnixUser, hName]
    exact and_congr_left' (not_congr ⟨fun hEq => hEq ▸ rfl, fun hEq => (Except.ok.inj hEq).symm⟩)
  refine Returns.get_bind (Returns.bind (Returns.modify ?_))
  cases hGet : d.roster.table.get? id with
  -- an account the driver does not know has its user removed all the same, if it has a name
  | none =>
    cases hName : sanitizeUsername p id with
    | ok name => simpa only [hName] using hRemoved name hName
    | error e =>
      refine Returns.pure ⟨rfl, fun n => ?_⟩
      exact (and_iff_right (by simp)).symm
  | some account =>
    refine Returns.bind (Returns.lift fun name hUnix => hRemoved name ?_)
    rw [← d.roster.keyed hGet]
    exact unixName_ok hUnix

theorem createAccounts_returns (p : Platform) (h : Host) (accounts : List UserAccount)
    (d : Driver) :
    Returns (forEach (createAccount p h) accounts) d fun _ d' =>
      (d'.settings = d.settings ∧
        d'.roster = (accounts.map (provisionCredentials h d.settings)).foldl Roster.put d.roster) ∧
        ∀ id ∈ accounts.map UserAccount.accountId,
          ∃ name ∈ d'.unixUsers, sanitizeUsername p id = .ok name := by
  -- the invariant: those done so far are listed, and each has its user
  refine Returns.forEach (fun (done : List UserAccount) (d' : Driver) =>
    (d'.settings = d.settings ∧
      d'.roster = (done.map (provisionCredentials h d.settings)).foldl Roster.put d.roster) ∧
      ∀ id ∈ done.map UserAccount.accountId,
        ∃ name ∈ d'.unixUsers, sanitizeUsername p id = .ok name) ⟨⟨rfl, rfl⟩, by simp⟩ ?_
  rintro account - done d1 ⟨⟨hSettings, hRoster⟩, hNamed⟩
  refine (createAccount_returns p h account d1).mono ?_
  rintro _ d2 ⟨⟨hSettings', hRoster'⟩, name, hName, hUsers⟩
  refine ⟨⟨hSettings'.trans hSettings, ?_⟩, ?_⟩
  · rw [hRoster', hRoster, hSettings, List.map_append, List.foldl_append]
    rfl
  · intro id hMem
    rw [List.map_append, List.mem_append, List.map_singleton, List.mem_singleton] at hMem
    rcases hMem with hDone | rfl
    · -- creating one more user removes none
      obtain ⟨other, hOther, hSan⟩ := hNamed id hDone
      exact ⟨other, (hUsers other).mpr (Or.inr hOther), hSan⟩
    · exact ⟨name, (hUsers name).mpr (Or.inl rfl), hName⟩

theorem deleteAccounts_returns (p : Platform) (h : Host) (stale : List String) (d : Driver) :
    Returns (forEach (deleteAccount p h) stale) d fun _ d' =>
      d'.roster = stale.foldl Roster.remove d.roster ∧
        ∀ n, n ∈ d'.unixUsers ↔
          n ∈ d.unixUsers ∧ ∀ id ∈ stale, sanitizeUsername p id ≠ .ok n := by
  refine Returns.forEach (fun (done : List String) (d' : Driver) =>
    d'.roster = done.foldl Roster.remove d.roster ∧
      ∀ n, n ∈ d'.unixUsers ↔ n ∈ d.unixUsers ∧ ∀ id ∈ done, sanitizeUsername p id ≠ .ok n)
    ⟨rfl, by simp⟩ ?_
  rintro id - done d1 ⟨hRoster, hUsers⟩
  refine (deleteAccount_returns p h id d1).mono ?_
  rintro _ d2 ⟨hRoster', hUsers'⟩
  constructor
  · rw [hRoster', hRoster, List.foldl_append]
    rfl
  · intro n
    rw [hUsers', hUsers, List.forall_mem_append, List.forall_mem_singleton]
    tauto

theorem mem_desiredIds (h : Host) (settings : Settings) (accounts : List UserAccount)
    (id : String) :
    id ∈ desiredIds (accounts.map (provisionCredentials h settings)) ↔
      Desired settings accounts id := by
  simp only [desiredIds, List.mem_map, List.mem_filter]
  constructor
  · rintro ⟨_, ⟨⟨account, hMem, rfl⟩, hSet⟩, rfl⟩
    rw [isSet_provisionCredentials] at hSet
    exact ⟨account, hMem, (provisionCredentials_accountId h settings account).symm, hSet⟩
  · rintro ⟨account, hMem, rfl, hCred⟩
    exact ⟨_, ⟨⟨account, hMem, rfl⟩, by rwa [isSet_provisionCredentials]⟩,
      provisionCredentials_accountId h settings account⟩

/-- The accounts that are created are the desired ones. -/
theorem mem_createdIds (h : Host) (settings : Settings) (accounts : List UserAccount)
    (id : String) :
    id ∈ ((accounts.map (provisionCredentials h settings)).filter fun a =>
        decide (a.accountId ∈ desiredIds (accounts.map (provisionCredentials h settings)))).map
          UserAccount.accountId ↔
      Desired settings accounts id := by
  rw [← mem_desiredIds h]
  simp only [List.mem_map, List.mem_filter, decide_eq_true_eq]
  constructor
  · rintro ⟨account, ⟨-, hIn⟩, rfl⟩
    exact List.mem_map.mpr (List.mem_map.mp hIn)
  · intro hIn
    obtain ⟨account, hAccount, rfl, -⟩ := (mem_desiredIds h settings accounts id).mp hIn
    have hId := provisionCredentials_accountId h settings account
    exact ⟨_, ⟨⟨account, hAccount, rfl⟩, by rwa [hId]⟩, hId⟩

theorem sync_holds (p : Platform) (h : Host) (accounts : List UserAccount) (d : Driver) :
    Returns (Ssh.syncAccounts p h accounts) d fun _ d' =>
      ∀ id, d'.Holds p .ssh id ↔ Kept p .ssh d accounts id := by
  refine Returns.get_bind ?_
  refine Returns.bind ((createAccounts_returns p h _ d).mono ?_)
  rintro _ d1 ⟨⟨-, hRoster⟩, hNamed⟩
  -- after the creations: the old accounts and the desired ones
  have hIds : ∀ id, id ∈ d1.roster.ids ↔ id ∈ d.roster.ids ∨ Desired d.settings accounts id := by
    intro id
    rw [hRoster, Roster.mem_ids_foldl, List.map_map, ← mem_createdIds h]
    exact or_congr_right (iff_of_eq (congrArg _ (List.map_congr_left fun a _ =>
      provisionCredentials_accountId h d.settings a)))
  simp only [mem_createdIds] at hNamed
  refine Returns.get_bind ((deleteAccounts_returns p h _ d1).mono ?_)
  rintro _ d2 ⟨hRoster', hUsers⟩ id
  have hIds' : ∀ id, id ∈ d2.roster.ids ↔ id ∈ d1.roster.ids ∧ id ∉ d1.roster.ids.filter fun id =>
      decide (id ∉ desiredIds (accounts.map (provisionCredentials h d.settings))) := by
    intro id
    rw [hRoster', Roster.mem_ids_foldl_remove]
  -- the deletions are of those known and not desired
  have hStale : ∀ other, (other ∈ d1.roster.ids.filter fun id =>
      decide (id ∉ desiredIds (accounts.map (provisionCredentials h d.settings)))) ↔
        Stale d accounts other := by
    intro other
    rw [List.mem_filter, decide_eq_true_eq, hIds, mem_desiredIds, Stale]
    tauto
  have hListed : id ∈ d2.roster.ids ↔ Desired d.settings accounts id := by
    rw [hIds', hStale, Stale, hIds]
    tauto
  show (id ∈ d2.roster.ids ∧ _) ↔ (_ ∧ _)
  rw [hListed]
  -- a desired account has lost its user if a stale one had the same name
  refine and_congr_right fun hIn => ?_
  obtain ⟨name, hName, hSan⟩ := hNamed id hIn
  constructor
  · rintro ⟨other, hOther, hAlive⟩ stale hIsStale hEq
    exact ((hUsers other).mp hAlive).2 stale ((hStale stale).mpr hIsStale) (hEq.trans hOther)
  · intro hApart
    refine ⟨name, hSan, (hUsers name).mpr ⟨hName, fun stale hIn => ?_⟩⟩
    rw [← hSan]
    exact hApart stale ((hStale stale).mp hIn)

end Ssh

-- ---------------------------------------------------------------------------
-- Xray
-- ---------------------------------------------------------------------------

namespace Xray

/-- The core serves the account in some inbound. -/
def Serves (d : Driver) (email : String) : Prop := ∃ tag, d.xray.Serves tag email

theorem mutate_returns (h : Host) (f : XrayConfig → XrayConfig) (d : Driver) :
    Returns (mutate h f) d fun _ d' => d'.xray = f d.xray :=
  Returns.bind (Returns.modify (returns_call rfl))

theorem deleteAccount_returns (h : Host) (id : String) (d : Driver) :
    Returns (deleteAccount h id) d fun _ d' =>
      ∀ email, Serves d' email ↔ Serves d email ∧ email ≠ id := by
  refine Returns.get_bind ((Returns.forEach (fun (done : List String) (d' : Driver) =>
    ∀ tag email, d'.xray.Serves tag email ↔
      d.xray.Serves tag email ∧ ¬ (tag ∈ done ∧ email = id)) (by simp) ?_).mono ?_)
  · intro tag _ done d1 hServes
    refine (mutate_returns h _ d1).mono ?_
    intro _ d2 hEdit other email
    rw [hEdit, XrayConfig.serves_removeUser, hServes, List.mem_append, List.mem_singleton]
    tauto
  · intro _ d' hServes email
    constructor
    · rintro ⟨tag, hTag⟩
      obtain ⟨hBefore, hNot⟩ := (hServes tag email).mp hTag
      -- an inbound that serves the account is one of those visited
      obtain ⟨inbound, hMem, hInbound, hClient⟩ := hBefore
      refine ⟨⟨tag, inbound, hMem, hInbound, hClient⟩, fun hEq => hNot ⟨?_, hEq⟩⟩
      exact List.mem_map.mpr ⟨inbound, hMem, hInbound⟩
    · rintro ⟨⟨tag, hTag⟩, hNe⟩
      exact ⟨tag, (hServes tag email).mpr ⟨hTag, fun hBoth => hNe hBoth.2⟩⟩

theorem addToTargets_returns (h : Host) (client : XrayInbound → XrayClient) (id : String)
    (hClient : ∀ inbound, (client inbound).email = id) (targets : List XrayInbound) (d : Driver)
    (hTargets : ∀ inbound ∈ targets, inbound.tag ∈ d.xray.tags) (hSome : targets ≠ []) :
    Returns (forEach (fun inbound => mutate h fun c => c.addUser inbound.tag (client inbound))
        targets) d fun _ d' =>
      ∀ email, Serves d' email ↔ Serves d email ∨ email = id := by
  -- the invariant: the client is on the inbounds done so far
  refine (Returns.forEach (fun (done : List XrayInbound) (d' : Driver) =>
    d'.xray.tags = d.xray.tags ∧ ∀ tag email, d'.xray.Serves tag email ↔
      d.xray.Serves tag email ∨ (tag ∈ done.map XrayInbound.tag ∧ email = id)) (by simp) ?_).mono ?_
  · rintro inbound hInbound done d1 ⟨hTags, hServes⟩
    refine (mutate_returns h _ d1).mono ?_
    intro _ d2 hEdit
    refine ⟨by rw [hEdit, XrayConfig.addUser, XrayConfig.tags_edit, hTags], ?_⟩
    intro other email
    have hListed : inbound.tag ∈ d1.xray.tags := hTags ▸ hTargets inbound hInbound
    rw [hEdit, XrayConfig.serves_addUser, hServes, List.map_append, List.mem_append,
      List.map_singleton, List.mem_singleton, hClient]
    simp only [hListed, and_true]
    tauto
  · rintro _ d' ⟨-, hServes⟩ email
    constructor
    · rintro ⟨tag, hTag⟩
      rcases (hServes tag email).mp hTag with hBefore | ⟨-, hEq⟩
      · exact Or.inl ⟨tag, hBefore⟩
      · exact Or.inr hEq
    · rintro (⟨tag, hTag⟩ | rfl)
      · exact ⟨tag, (hServes tag email).mpr (Or.inl hTag)⟩
      -- there is an inbound to be on
      · obtain ⟨inbound, hInbound⟩ := List.exists_mem_of_ne_nil targets hSome
        have hTag : inbound.tag ∈ targets.map XrayInbound.tag :=
          List.mem_map.mpr ⟨inbound, hInbound, rfl⟩
        exact ⟨inbound.tag, (hServes inbound.tag email).mpr (Or.inr ⟨hTag, rfl⟩)⟩

theorem createAccount_returns (h : Host) (account : UserAccount) (d : Driver) :
    Returns (createAccount h account) d fun _ d' =>
      ∀ email, Serves d' email ↔
        Serves d email ∨ (account.enabled = true ∧ email = account.accountId) := by
  refine Returns.bind (Returns.lift fun _ _ => returns_onlyIf ?_ ?_)
  · intro hEnabled
    refine Returns.bind (Returns.lift fun settings _ => ?_)
    refine Returns.get_bind (Returns.bind (Returns.lift fun excluded _ => ?_))
    by_cases hNone : targetInbounds d.xray account.protocol excluded = []
    · rw [if_pos hNone]
      exact Returns.raise _ _
    · rw [if_neg hNone]
      refine (addToTargets_returns h _ account.accountId (fun _ => rfl) _ d ?_ hNone).mono ?_
      · intro inbound hInbound
        exact List.mem_map.mpr ⟨inbound, (List.mem_filter.mp hInbound).1, rfl⟩
      · intro _ d' hServes email
        rw [hServes, hEnabled]
        simp
  · intro hDisabled email
    simp [hDisabled]

theorem sync_holds (p : Platform) (h : Host) (accounts : List UserAccount) (d : Driver) :
    Returns (Xray.syncAccounts h accounts) d fun _ d' =>
      ∀ id, d'.Holds p .xray id ↔
        Kept p .xray d accounts id ∨
          (d.Holds p .xray id ∧ ∀ account ∈ accounts, account.accountId ≠ id) := by
  -- first every listed account is deleted, enabled or not
  refine Returns.bind ((Returns.forEach (fun (done : List UserAccount) (d' : Driver) =>
    ∀ email, Serves d' email ↔
      Serves d email ∧ ∀ account ∈ done, account.accountId ≠ email) (by simp) ?_).mono ?_)
  · intro account _ done d1 hServes
    refine (deleteAccount_returns h account.accountId d1).mono ?_
    intro _ d2 hDeleted email
    rw [hDeleted, hServes, List.forall_mem_append, List.forall_mem_singleton, and_assoc,
      ne_comm]
  · intro _ d1 hDeleted
    -- then the enabled ones are created again
    refine (Returns.forEach (fun (done : List UserAccount) (d' : Driver) =>
      ∀ email, Serves d' email ↔ Serves d1 email ∨
        ∃ account ∈ done, account.accountId = email ∧ account.enabled = true) (by simp) ?_).mono ?_
    · intro account _ done d2 hServes
      refine (createAccount_returns h account d2).mono ?_
      intro _ d3 hCreated email
      rw [hCreated, hServes]
      simp only [List.mem_append, List.mem_singleton, or_and_right, exists_or, exists_eq_left,
        or_assoc]
      rw [and_comm (a := account.enabled = true), eq_comm (a := email)]
    · intro _ d2 hCreated id
      show Serves d2 id ↔ _ ∨ (Serves d id ∧ _)
      rw [hCreated, hDeleted]
      exact or_comm

end Xray

/--
**What a sync leaves.** Five drivers hold exactly the served accounts of the
list, SSH those whose user no stale account has taken along, and Xray, which
adds to what it has, also the old accounts that the list does not name.
-/
theorem sync_holds (p : Platform) (core : CoreId) (h : Host) (accounts : List UserAccount)
    (d : Driver) :
    Returns (syncAccounts p h accounts core) d fun _ d' =>
      ∀ id, d'.Holds p core id ↔
        Kept p core d accounts id ∨
          (additive core = true ∧ d.Holds p core id ∧
            ∀ account ∈ accounts, account.accountId ≠ id) := by
  have hReplaces : ∀ {P Q R : Prop}, (P ↔ Q) → (P ↔ Q ∨ (false = true ∧ R)) := by simp
  have hAdds : ∀ {P Q R : Prop}, (P ↔ Q ∨ R) → (P ↔ Q ∨ (true = true ∧ R)) := by simp
  cases core with
  | xray => exact (Xray.sync_holds p h accounts d).mono fun _ _ hHolds id => hAdds (hHolds id)
  | ssh => exact (Ssh.sync_holds p h accounts d).mono fun _ _ hHolds id => hReplaces (hHolds id)
  | openvpn => exact (OpenVpn.sync_ids p h accounts d).mono fun _ _ hIds id => hReplaces (hIds id)
  | singBox => exact (SingBox.sync_ids p h accounts d).mono fun _ _ hIds id => hReplaces (hIds id)
  | wireguard => exact (WireGuard.sync_ids h accounts d).mono fun _ _ hIds id => hReplaces (hIds id)
  | softether => exact (SoftEther.sync_ids h accounts d).mono fun _ _ hIds id => hReplaces (hIds id)
  | pptp => exact (Pptp.sync_ids p h accounts d).mono fun _ _ hIds id => hReplaces (hIds id)

end ZagrosNode.Accounts
