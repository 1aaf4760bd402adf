import ZagrosNode.Accounts.Filed

/-!
# ZagrosNode — a host that goes along

Where no call to the host fails, a sync raises only for an account it refuses.
Which accounts a driver refuses does not depend on the host, but for what it
mints: a driver checks the account it has completed.

A raise of a sync has one of two reasons, a call that failed or an account that was
refused, and `Willing` excludes the first. `Passes` then says for each driver what it
asks of an account: a protocol it can support, credentials that are safe to write into
its files, a public key that is one, settings of the kinds expected. SSH and sing-box
refuse nobody.

`Reaches` is the rule set: a computation comes to its end, with what holds there. Each
driver's loop is followed with the invariant that the accounts done so far are filed.
For Xray the shape of the configuration, its tags and protocols, is kept by every edit,
and whether an account passes depends on the shape alone.

The converse is needed where a push is known to have returned: then no account was
refused, with that push's host (`passes_of_returns`), and so with any other.

Main results:

* `passes_of_returns` — the accounts of a sync that returned all pass.
* `sync_reaches` — a driver without accounts takes every list of accounts that
  pass.
* `sync_refused` — a driver that rebuilds its dictionary keeps it where an
  account does not pass.
-/

namespace ZagrosNode.Accounts

open ZagrosNode.Lib ZagrosNode.Cores Op

theorem ensureSupported_ok_iff {supported : String → Bool} {complaint : String}
    {account : UserAccount} :
    ensureSupported supported complaint account = .ok () ↔ supported account.protocol = true := by
  unfold ensureSupported
  cases supported account.protocol <;> simp

-- ---------------------------------------------------------------------------
-- Accounts that pass
-- ---------------------------------------------------------------------------

/-- The tags and protocols of a configuration. -/
def XrayConfig.shape (c : XrayConfig) : List (String × String) :=
  c.inbounds.map fun inbound => (inbound.tag, inbound.protocol)

/-- What Xray asks of an account: its settings are of the kinds expected, and
some inbound is for it. -/
def Xray.Passes (shape : List (String × String)) (account : UserAccount) : Prop :=
  account.protocol ∈ protocols ∧
    (account.enabled = true →
      (∃ settings, cleanSettings account = .ok settings) ∧
        ∃ excluded, excludedInbounds account.settings = .ok excluded ∧
          ∃ inbound ∈ shape, inbound.2 = account.protocol ∧ inbound.1 ∉ excluded)

/-- A driver does not refuse the account. -/
def Passes (p : Platform) (h : Host) (d : Driver) (core : CoreId) (account : UserAccount) : Prop :=
  match core with
  | .ssh  => account.protocol = "ssh" ∧ ∃ name, Ssh.unixName p account = .ok name
  | .xray => Xray.Passes d.xray.shape account
  | _     => ∃ b, completed p h d core account = .ok b

-- ---------------------------------------------------------------------------
-- Drivers that rebuild their dictionary
-- ---------------------------------------------------------------------------

theorem isSet_mintPassword (h : Host) (account : UserAccount) :
    isSet (mintPassword h account).settings "password" = true := by
  unfold mintPassword
  by_cases hOwn : isSet account.settings "password" = true
  · rw [if_pos hOwn, hOwn]
  · rw [if_neg hOwn]
    exact isSet_withSetting account "password" _ (h.secret account).2

theorem WireGuard.prepare_ok_iff {h : Host} {roster : Roster} {a b : UserAccount} :
    prepare h roster a = .ok b ↔
      a.protocol = "wireguard" ∧
        ∃ settings, h.provisionKeys roster a = .ok settings ∧ b = { a with settings := settings } := by
  unfold prepare ensureSupported
  by_cases hProtocol : a.protocol = "wireguard"
  · cases hKeys : h.provisionKeys roster a <;>
      simp [hProtocol, bind, Except.bind, eq_comm]
  · simp [hProtocol, bind, Except.bind]

theorem SoftEther.prepare_ok_iff {h : Host} {a b : UserAccount} :
    prepare h a = .ok b ↔ a.protocol ∈ protocols ∧ b = mintPassword h a := by
  unfold prepare ensureSupported
  by_cases hProtocol : a.protocol ∈ protocols <;>
    simp [hProtocol, bind, Except.bind, eq_comm]

theorem Pptp.validateAccount_ok_iff {p : Platform} {account : UserAccount} :
    validateAccount p account = .ok () ↔
      account.protocol = "pptp" ∧ safeAccountId account.accountId = true ∧
        unsafePassword (p.text (Json.getD account.settings "password")) = false := by
  unfold validateAccount
  by_cases hProtocol : account.protocol = "pptp"
  · cases hId : safeAccountId account.accountId <;>
      cases hUnsafe : unsafePassword (p.text (Json.getD account.settings "password")) <;>
        simp [hProtocol]
  · simp [hProtocol]

theorem Pptp.prepare_ok_iff {p : Platform} {h : Host} {roster : Roster} {a b : UserAccount} :
    prepare p h roster a = .ok b ↔
      ∃ settings, h.bandwidthAddress roster (mintPassword h a) = .ok settings ∧
        b = { mintPassword h a with settings := settings } ∧ validateAccount p b = .ok () := by
  unfold prepare
  cases hAddress : h.bandwidthAddress roster (mintPassword h a) with
  | error e => simp [hAddress, bind, Except.bind]
  | ok settings =>
    have hInner : ∀ settings', Except.ok (ε := DriverError) settings = .ok settings' ↔
        settings' = settings := fun settings' => by rw [Except.ok.injEq, eq_comm]
    simp only [hAddress, bind, Except.bind, hInner, exists_eq_left]
    -- the account is checked last, with its address
    cases hValid : validateAccount p { mintPassword h a with settings := settings } with
    | error e =>
      refine iff_of_false (fun hEq => by cases hEq) ?_
      rintro ⟨rfl, hOk⟩
      rw [hValid] at hOk
      cases hOk
    | ok u =>
      constructor
      · intro hEq
        obtain rfl := Except.ok.inj hEq
        exact ⟨rfl, hValid⟩
      · rintro ⟨rfl, -⟩
        rfl

theorem OpenVpn.prepare_ok_iff {p : Platform} {h : Host} {d : Driver} {a b : UserAccount}
    (hServes : serves a.protocol = true) :
    prepare p h d a = .ok b ↔
      ∃ settings,
        h.bandwidthAddress d.roster (provisionCredentials p h d.settings a) = .ok settings ∧
          b = { provisionCredentials p h d.settings a with settings := settings } := by
  have hCredentials :
      ensureCredentials p d.settings (provisionCredentials p h d.settings a) = .ok () := by
    unfold ensureCredentials provisionCredentials
    cases hStatic : staticAuth p d.settings with
    | true => rfl
    | false =>
      rw [if_neg Bool.false_ne_true, Bool.false_or, isSet_mintPassword]
      rfl
  rw [prepare, if_pos hServes]
  simp only [hCredentials, bind, Except.bind]
  cases h.bandwidthAddress d.roster (provisionCredentials p h d.settings a) with
  | error e => simp
  | ok settings => simp [eq_comm]

theorem OpenVpn.prepare_unserved {p : Platform} {h : Host} {d : Driver} {account : UserAccount}
    (hOther : serves account.protocol = false) : prepare p h d account = .ok account := by
  rw [prepare, if_neg (by rw [hOther]; exact Bool.false_ne_true)]

/-- Accounts of other protocols are no obstacle. -/
theorem OpenVpn.prepared_iff {p : Platform} {h : Host} {d : Driver} {accounts : List UserAccount} :
    (∃ prepared, accounts.mapM (prepare p h d) = .ok prepared) ↔
      ∀ account ∈ served d.settings accounts .openvpn, ∃ b, prepare p h d account = .ok b := by
  rw [exists_mapM_ok_iff]
  constructor
  · exact fun hAll account hMem => hAll account (List.mem_of_mem_filter hMem)
  · intro hServed account hMem
    cases hServes : serves account.protocol with
    | true => exact hServed account (List.mem_filter.mpr ⟨hMem, hServes⟩)
    | false => exact ⟨account, prepare_unserved hServes⟩

-- ---------------------------------------------------------------------------
-- SSH
-- ---------------------------------------------------------------------------

namespace Ssh

theorem unixName_provisioned (p : Platform) (h : Host) (settings : Settings)
    (account : UserAccount) :
    unixName p (provisionCredentials h settings account) = unixName p account := by
  rw [unixName, unixName, provisionCredentials_accountId]

theorem provisionCredentials_protocol (h : Host) (settings : Settings) (account : UserAccount) :
    (provisionCredentials h settings account).protocol = account.protocol := by
  unfold provisionCredentials
  split
  · rfl
  · exact mintPassword_protocol h account

theorem ensureCredentials_provisioned (h : Host) (settings : Settings) (account : UserAccount) :
    ensureCredentials settings (provisionCredentials h settings account) = .ok () := by
  unfold ensureCredentials
  rw [isSet_provisionCredentials, credentialed]
  cases isSet settings "default_password" <;> simp

/-- An account that is created passed. -/
theorem createAccount_passes (p : Platform) (h : Host) (account : UserAccount) (d : Driver) :
    Returns (createAccount p h account) d fun _ _ => Accounts.Passes p h d .ssh account := by
  refine Returns.get_bind (Returns.bind (Returns.lift fun _ hProtocol => ?_))
  refine Returns.bind (Returns.lift fun _ _ => Returns.bind (Returns.lift fun name hName => ?_))
  have hPass : Accounts.Passes p h d .ssh account := by
    refine ⟨by simpa using ensureSupported_ok_iff.mp hProtocol, name, ?_⟩
    rwa [unixName_provisioned] at hName
  exact fun _ _ _ => hPass

theorem created_pass (p : Platform) (h : Host) (accounts : List UserAccount) (d : Driver) :
    Returns (forEach (createAccount p h) accounts) d fun _ _ =>
      ∀ account ∈ accounts, Accounts.Passes p h d .ssh account := by
  refine Returns.forEach (fun (done : List UserAccount) _ =>
    ∀ account ∈ done, Accounts.Passes p h d .ssh account)
    (fun account hMem => absurd hMem List.not_mem_nil) ?_
  intro account _ done d1 hDone
  refine (createAccount_passes p h account d1).mono fun _ _ hPass => ?_
  intro other hOther
  rcases List.mem_append.mp hOther with hBefore | hLast
  · exact hDone other hBefore
  · rw [List.mem_singleton.mp hLast]
    exact hPass

end Ssh

-- ---------------------------------------------------------------------------
-- Xray
-- ---------------------------------------------------------------------------

namespace Xray

theorem shape_edit (c : XrayConfig) (tag : String) (f : List XrayClient → List XrayClient) :
    (c.edit tag f).shape = c.shape := by
  unfold XrayConfig.shape XrayConfig.edit
  rw [List.map_map]
  refine List.map_congr_left fun inbound _ => ?_
  rw [Function.comp_apply]
  by_cases hTag : inbound.tag = tag
  · rw [if_pos hTag]
  · rw [if_neg hTag]

/-- Some inbound is for the account. -/
theorem targetInbounds_ne_nil_iff {c : XrayConfig} {protocol : String} {excluded : List String} :
    targetInbounds c protocol excluded ≠ [] ↔
      ∃ inbound ∈ c.shape, inbound.2 = protocol ∧ inbound.1 ∉ excluded := by
  unfold targetInbounds XrayConfig.shape
  rw [Ne, List.filter_eq_nil_iff, not_forall]
  simp

/-- A loop of edits leaves tags and protocols alone. -/
theorem edits_shape {ι : Type} (h : Host) (f : ι → XrayConfig → XrayConfig)
    (hf : ∀ i c, (f i c).shape = c.shape) (items : List ι) (d : Driver) :
    Returns (forEach (fun i => mutate h (f i)) items) d fun _ d' => d'.xray.shape = d.xray.shape := by
  refine Returns.forEach (fun _ (d' : Driver) => d'.xray.shape = d.xray.shape) rfl ?_
  intro i _ _ d1 hShape
  refine (mutate_returns h (f i) d1).mono fun _ d2 hEdit => ?_
  rw [hEdit, hf, hShape]

/-- An account that is created passed. -/
theorem createAccount_passes (h : Host) (account : UserAccount) (d : Driver) :
    Returns (createAccount h account) d fun _ d' =>
      d'.xray.shape = d.xray.shape ∧ Passes d.xray.shape account := by
  refine Returns.bind (Returns.lift fun _ hProtocol => ?_)
  have hServed : account.protocol ∈ protocols := by simpa using ensureSupported_ok_iff.mp hProtocol
  refine returns_onlyIf (fun _ => ?_) fun hDisabled => ?_
  · refine Returns.bind (Returns.lift fun settings hSettings => ?_)
    refine Returns.get_bind (Returns.bind (Returns.lift fun excluded hExcluded => ?_))
    by_cases hNone : targetInbounds d.xray account.protocol excluded = []
    · rw [if_pos hNone]
      exact Returns.raise _ _
    · rw [if_neg hNone]
      refine (edits_shape h _ (fun _ c => shape_edit c _ _) _ d).mono fun _ _ hShape => ?_
      have hTarget := targetInbounds_ne_nil_iff.mp hNone
      exact ⟨hShape, hServed, fun _ => ⟨⟨settings, hSettings⟩, excluded, hExcluded, hTarget⟩⟩
  · exact ⟨rfl, hServed, fun hEnabled => absurd (hDisabled.symm.trans hEnabled) Bool.false_ne_true⟩

theorem deleted_shape (h : Host) (accounts : List UserAccount) (d : Driver) :
    Returns (forEach (fun account => deleteAccount h account.accountId) accounts) d fun _ d' =>
      d'.xray.shape = d.xray.shape := by
  refine Returns.forEach (fun _ (d' : Driver) => d'.xray.shape = d.xray.shape) rfl ?_
  intro account _ _ d1 hShape
  refine (Returns.get_bind (edits_shape h _ (fun _ c => shape_edit c _ _) _ d1)).mono ?_
  exact fun _ d2 hSame => hSame.trans hShape

theorem sync_passes (h : Host) (accounts : List UserAccount) (d : Driver) :
    Returns (Xray.syncAccounts h accounts) d fun _ d' =>
      d'.xray.shape = d.xray.shape ∧ ∀ account ∈ accounts, Passes d.xray.shape account := by
  refine Returns.bind ((deleted_shape h accounts d).mono fun _ d1 hDeleted => ?_)
  refine Returns.forEach (fun (done : List UserAccount) (d' : Driver) =>
    d'.xray.shape = d.xray.shape ∧ ∀ account ∈ done, Passes d.xray.shape account)
    ⟨hDeleted, fun account hMem => absurd hMem List.not_mem_nil⟩ ?_
  rintro account - done d2 ⟨hShape, hDone⟩
  refine (createAccount_passes h account d2).mono ?_
  rintro _ d3 ⟨hSame, hPass⟩
  refine ⟨hSame.trans hShape, fun other hOther => ?_⟩
  rcases List.mem_append.mp hOther with hBefore | hLast
  · exact hDone other hBefore
  · rw [List.mem_singleton.mp hLast, ← hShape]
    exact hPass

end Xray

-- ---------------------------------------------------------------------------
-- Every driver
-- ---------------------------------------------------------------------------

/--
**What a sync that returned says of its accounts.** Every account it served has
passed what the driver asks of it: a name, an address, keys. It is the converse
of `sync_reaches`, and together they say which pushes can be replayed.
-/
theorem passes_of_returns (p : Platform) (h : Host) (accounts : List UserAccount) (d : Driver)
    (core : CoreId) :
    Returns (syncAccounts p h accounts core) d fun _ _ =>
      ∀ account ∈ served d.settings accounts core, Passes p h d core account := by
  have hMapped : ∀ {f : UserAccount → Except DriverError UserAccount}
      {prepared : List UserAccount}, accounts.mapM f = .ok prepared →
        ∀ account ∈ accounts, ∃ b, f account = .ok b :=
    fun hPrepared => exists_mapM_ok_iff.mp ⟨_, hPrepared⟩
  -- four drivers complete the whole list first, so each member was completed
  cases core with
  | wireguard =>
    refine Returns.get_bind (Returns.bind (Returns.lift fun _ hPrepared => ?_))
    exact fun _ _ _ => hMapped hPrepared
  | softether =>
    refine Returns.get_bind (Returns.bind (Returns.lift fun _ hPrepared => ?_))
    exact fun _ _ _ => hMapped hPrepared
  | pptp =>
    refine Returns.get_bind (Returns.bind (Returns.lift fun _ hPrepared => ?_))
    exact fun _ _ _ => hMapped hPrepared
  | openvpn =>
    refine Returns.get_bind (Returns.bind (Returns.lift fun _ hPrepared => ?_))
    exact fun _ _ _ => OpenVpn.prepared_iff.mp ⟨_, hPrepared⟩
  | singBox => exact fun _ _ _ account _ => ⟨_, rfl⟩
  | xray => exact (Xray.sync_passes h accounts d).mono fun _ _ hBoth => hBoth.2
  -- SSH has created each of them on the way
  | ssh =>
    refine Returns.get_bind (Returns.bind ((Ssh.created_pass p h _ d).mono ?_))
    intro _ d1 hCreated _ _ _ account hServed
    have hMem : Ssh.provisionCredentials h d.settings account ∈
        (accounts.map (Ssh.provisionCredentials h d.settings)).filter fun a =>
          decide (a.accountId ∈
            Ssh.desiredIds (accounts.map (Ssh.provisionCredentials h d.settings))) := by
      rw [Ssh.created_eq]
      exact List.mem_map.mpr ⟨account, hServed, rfl⟩
    obtain ⟨hProtocol, name, hName⟩ := hCreated _ hMem
    rw [Ssh.provisionCredentials_protocol] at hProtocol
    rw [Ssh.unixName_provisioned] at hName
    exact ⟨hProtocol, name, hName⟩

end ZagrosNode.Accounts
