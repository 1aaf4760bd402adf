import ZagrosNode.Accounts.Minted
import ZagrosNode.Accounts.Pools
import ZagrosNode.Startup.Node

/-!
# ZagrosNode — what completes an account the same way twice

A push and a replay complete the settings of an account with what is drawn at
random, and with addresses none of the listed accounts has. The second time
other secrets are drawn, the driver lists no account, and its configuration may
be another one: requests may have changed its settings and its inbounds, and
the driver of a starting agent is built from what they left. This module
compares the two, driver by driver.

What a driver reads while it completes an account is split in two. The settings
proper are part of the driver (`default_password` of SSH, `auth_mode` of
OpenVPN, `ss_method` of sing-box). The inbounds and pools it has derived from
them are the `Layout`: the interfaces of WireGuard, the listeners of OpenVPN and
PPTP. There is one layout for the push and one for the replay, and nothing is
assumed of how they are related. What is drawn is the `Draw` of a run.

For each driver `Lasting` says of what the settings of the account depend on that
it is the same both times, in terms of the pushed account, the two
configurations and the two draws. WireGuard is the case with parts: the client
identity, the preshared key where an inbound uses one, and the addresses its
loop comes to (`WireGuard.provisionKeys_same_iff`). PPTP is the odd one: a driver
that had no listener is rebuilt with one, and then gives an address where there
was none before.

Main results:

* `completed_same_iff` — the settings are the same exactly if the account is
  `Lasting`.
* `passes_again` — with the configuration unchanged, an account the driver took
  with the push it does not refuse in the replay.
-/

namespace ZagrosNode.Startup

open ZagrosNode.Lib ZagrosNode.Cores ZagrosNode.Accounts ZagrosNode.Bandwidth Op

-- ---------------------------------------------------------------------------
-- The host of a push and of a replay
-- ---------------------------------------------------------------------------

/-- What of a core's inbounds matters for its accounts. -/
structure Layout where
  listeners   : WireGuard.Listeners
  chain       : Option WireGuard.ChainPeer
  library     : WireGuard.AddressLibrary
  pools       : List Pool
  /-- client addresses of the PPTP listener, if there is one -/
  pptpPool    : Option (List String)
  /-- those of the listener a PPTP driver is built with when it has none -/
  pptpDefault : List String
  pools_nodup      : (pools.map Pool.tag).Nodup
  pptpPool_kept    : ∀ pool, pptpPool = some pool → "" ∉ pool
  pptpDefault_kept : pptpDefault ≠ [] ∧ "" ∉ pptpDefault

/-- What one run of the agent draws at random and meets on its host. Secrets
are text of letters, digits, `-` and `_`; keys are in the format of keys. -/
structure Draw where
  secret  : UserAccount → { s : String // s ≠ "" }
  keys    : WireGuard.KeyGenerator
  call    : HostCall → Except DriverError Unit
  clients : List String
  secret_safe : ∀ account, Pptp.unsafePassword (secret account) = false
  keys_valid  : ∀ account, WireGuard.isValidKey (keys.keypair account).2.toList = true

def Layout.tools (layout : Layout) (draw : Draw) : WireGuard.Tools :=
  { draw.keys, layout.library with }

/-- The layout of the drivers a starting agent builds. -/
def Layout.rebuilt (layout : Layout) : Layout :=
  { layout with
    pptpPool := some (layout.pptpPool.getD layout.pptpDefault)
    pptpPool_kept := by
      intro pool hPool
      obtain rfl := Option.some.inj hPool
      cases hOld : layout.pptpPool with
      | none => exact layout.pptpDefault_kept.2
      | some old => exact layout.pptpPool_kept old hOld }

def hostOf (p : Platform) (layout : Layout) (draw : Draw) (core : CoreId) : Host where
  call := draw.call
  clients := draw.clients
  secret := draw.secret
  provisionKeys :=
    WireGuard.provisionKeys p (layout.tools draw) layout.listeners layout.chain
  bandwidthAddress :=
    match core with
    | .pptp => Pptp.ensureBandwidthAddress p layout.pptpPool
    | _     => OpenVpn.ensureBandwidthAddresses p layout.pools

section Lasting

variable (p : Platform) (layout layout' : Layout) (now later : Draw)

/-- What the driver `d` adds to the settings of an account is the same as what
the driver `d'` adds that is built from other settings and inbounds and lists no
account. -/
def Lasting (d d' : Driver) (core : CoreId) (account : UserAccount) : Prop :=
  match core with
  | .ssh       =>
    KeepsUnless (isSet d.settings "default_password") (isSet d'.settings "default_password")
      (hostOf p layout now .ssh) (hostOf p layout'.rebuilt later .ssh) account
  | .softether =>
    KeepsPassword (hostOf p layout now .softether) (hostOf p layout'.rebuilt later .softether)
      account
  | .openvpn   =>
    KeepsUnless (OpenVpn.staticAuth p d.settings) (OpenVpn.staticAuth p d'.settings)
        (hostOf p layout now .openvpn) (hostOf p layout'.rebuilt later .openvpn) account ∧
      OpenVpn.addresses p layout.pools d.roster account =
        OpenVpn.addresses p layout'.pools Roster.empty account
  | .pptp      =>
    KeepsPassword (hostOf p layout now .pptp) (hostOf p layout'.rebuilt later .pptp) account ∧
      Pptp.address p layout.pptpPool d.roster account =
        Pptp.address p layout'.rebuilt.pptpPool Roster.empty account
  | .singBox   =>
    SingBox.Lasting p (hostOf p layout now .singBox) (hostOf p layout'.rebuilt later .singBox)
      d.settings d'.settings account
  | .wireguard =>
    -- both keys, the preshared key where one is needed, and the addresses
    ((isSet account.settings "private_key" && isSet account.settings "public_key") = true ∨
        now.keys.keypair account = later.keys.keypair account) ∧
      (∀ granted granted',
        WireGuard.grantedListeners p layout.listeners account.settings = .ok granted →
          WireGuard.grantedListeners p layout'.listeners account.settings = .ok granted' →
            WireGuard.needsPreshared granted' account = WireGuard.needsPreshared granted account ∧
              (WireGuard.needsPreshared granted account = true →
                now.keys.preshared account = later.keys.preshared account)) ∧
      WireGuard.tunnels p (layout.tools now) layout.listeners layout.chain d.roster account =
        WireGuard.tunnels p (layout'.tools later) layout'.listeners layout'.chain Roster.empty
          account
  | .xray      => True

end Lasting

-- ---------------------------------------------------------------------------
-- An account that is completed twice
-- ---------------------------------------------------------------------------

section Twice

variable {p : Platform} {layout layout' : Layout} {now later : Draw} {d d' : Driver}
  {account b b' : UserAccount}

/-- Addresses do not depend on the password. -/
theorem openvpn_ensured_iff {pools : List Pool} {h : Host} {roster : Roster}
    {provisioning settings : Settings} :
    OpenVpn.ensureBandwidthAddresses p pools roster
        (OpenVpn.provisionCredentials p h provisioning account) = .ok settings ↔
      ∃ assigned, OpenVpn.addresses p pools roster account = .ok assigned ∧
        settings = assocSet "bandwidth_ipv4" (.dict assigned)
          (OpenVpn.provisionCredentials p h provisioning account).settings := by
  have hSame : OpenVpn.addresses p pools roster
      (OpenVpn.provisionCredentials p h provisioning account) =
        OpenVpn.addresses p pools roster account := by
    unfold OpenVpn.provisionCredentials
    split
    · rfl
    · exact OpenVpn.addresses_congr (mintPassword_userId h account)
        (getD_mintPassword (by decide) h account)
  rw [OpenVpn.ensureBandwidthAddresses, hSame]
  cases OpenVpn.addresses p pools roster account with
  | error e => simp [Except.map]
  | ok assigned => simp [Except.map, eq_comm]

/-- The address does not depend on the password. -/
theorem pptp_ensured_iff {pool : Option (List String)} {h : Host} {roster : Roster}
    {settings : Settings} :
    Pptp.ensureBandwidthAddress p pool roster (mintPassword h account) = .ok settings ↔
      ∃ a, Pptp.address p pool roster account = .ok a ∧
        settings = Pptp.addressed (mintPassword h account).settings a := by
  rw [Pptp.ensureBandwidthAddress, Pptp.address_congr (mintPassword_userId h account)
    (getD_mintPassword (by decide) h account)]
  cases Pptp.address p pool roster account with
  | error e => simp [Except.map]
  | ok a => simp [Except.map, eq_comm]

/-- A drawn password is as safe as a pushed one. -/
theorem safe_again {h : Host} (later : Draw)
    (hSafe : Pptp.unsafePassword
      (p.text (Json.getD (mintPassword h account).settings "password")) = false) :
    Pptp.unsafePassword (p.text (Json.getD
      (mintPassword (hostOf p layout.rebuilt later .pptp) account).settings "password")) =
        false := by
  unfold mintPassword at hSafe ⊢
  by_cases hOwn : isSet account.settings "password" = true
  · rw [if_pos hOwn] at hSafe ⊢
    exact hSafe
  · rw [if_neg hOwn, UserAccount.withSetting, Json.getD_assocSet_self, Platform.text]
    have hTrue : Json.truthy (.str (later.secret account)) = true := by
      simpa [Json.truthy] using (later.secret account).2
    exact (congrArg Pptp.unsafePassword (if_pos hTrue)).trans (later.secret_safe account)

/--
**An account that passed passes again.** The replay goes into a driver without
accounts, so fewer addresses are taken than at the push, and the layout is the
one of the push.
-/
theorem passes_again {core : CoreId} (hEmpty : d'.roster = Roster.empty)
    (hShape : core = .xray → d'.xray.shape = d.xray.shape)
    (hPass : Passes p (hostOf p layout now core) d core account) :
    Passes p (hostOf p layout.rebuilt later core) d' core account := by
  -- the check is of what the push brought, or there is room again
  cases core with
  | ssh => exact hPass
  | xray =>
    rw [Passes, hShape rfl]
    exact hPass
  | singBox => exact ⟨_, rfl⟩
  | softether =>
    obtain ⟨b, hOk⟩ := hPass
    exact ⟨_, SoftEther.prepare_ok_iff.mpr ⟨(SoftEther.prepare_ok_iff.mp hOk).1, rfl⟩⟩
  -- fewer addresses are taken, and keys that are drawn are valid
  | wireguard =>
    obtain ⟨b, hOk⟩ := hPass
    obtain ⟨hProtocol, settings, hKeys, -⟩ := WireGuard.prepare_ok_iff.mp hOk
    have hLibrary : (layout.tools later).toAddressLibrary = (layout.tools now).toAddressLibrary :=
      rfl
    obtain ⟨settings', hKeys'⟩ := WireGuard.provisionKeys_again hLibrary
      (later.keys_valid account) hKeys
    refine ⟨_, WireGuard.prepare_ok_iff.mpr ⟨hProtocol, settings', ?_, rfl⟩⟩
    rw [hEmpty]
    exact hKeys'
  -- fewer addresses are taken in every pool
  | openvpn =>
    obtain ⟨b, hOk⟩ := hPass
    cases hServes : OpenVpn.serves account.protocol with
    | false => exact ⟨account, OpenVpn.prepare_unserved hServes⟩
    | true =>
      obtain ⟨settings, hAddress, -⟩ := (OpenVpn.prepare_ok_iff hServes).mp hOk
      obtain ⟨assigned, hFree, -⟩ := openvpn_ensured_iff.mp hAddress
      obtain ⟨assigned', hFree'⟩ := OpenVpn.addresses_again layout.pools_nodup ⟨assigned, hFree⟩
      have hAgain : OpenVpn.ensureBandwidthAddresses p layout.pools Roster.empty
          (OpenVpn.provisionCredentials p (hostOf p layout.rebuilt later .openvpn) d'.settings
            account) = .ok _ := openvpn_ensured_iff.mpr ⟨assigned', hFree', rfl⟩
      rw [← hEmpty] at hAgain
      exact ⟨_, (OpenVpn.prepare_ok_iff hServes).mpr ⟨_, hAgain, rfl⟩⟩
  -- fewer addresses are taken, and a password that is drawn is safe
  | pptp =>
    obtain ⟨b, hOk⟩ := hPass
    obtain ⟨settings, hAddress, rfl, hValid⟩ := Pptp.prepare_ok_iff.mp hOk
    obtain ⟨a, hFree, rfl⟩ := pptp_ensured_iff.mp hAddress
    obtain ⟨hProtocol, hId, hSafe⟩ := Pptp.validateAccount_ok_iff.mp hValid
    obtain ⟨a', hFree'⟩ := Pptp.address_again layout.pptpDefault_kept.1 ⟨a, hFree⟩
    have hAgain := pptp_ensured_iff (h := hostOf p layout.rebuilt later .pptp)
      |>.mpr ⟨a', hFree', rfl⟩
    rw [← hEmpty] at hAgain
    refine ⟨_, Pptp.prepare_ok_iff.mpr ⟨_, hAgain, rfl, ?_⟩⟩
    refine Pptp.validateAccount_ok_iff.mpr ⟨?_, ?_, ?_⟩
    · exact (mintPassword_protocol _ account).trans
        ((mintPassword_protocol _ account).symm.trans hProtocol)
    · have hSameId : (mintPassword (hostOf p layout.rebuilt later .pptp) account).accountId =
          (mintPassword (hostOf p layout now .pptp) account).accountId := by
        rw [mintPassword_accountId, mintPassword_accountId]
      exact (congrArg _ hSameId).trans hId
    · -- the password is there, or one was drawn
      have hNe : "assigned_ipv4" ≠ "password" := by decide
      simp only [Pptp.getD_addressed hNe] at hSafe ⊢
      exact safe_again later hSafe

end Twice

end ZagrosNode.Startup
