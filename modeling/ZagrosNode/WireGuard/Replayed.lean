import ZagrosNode.WireGuard.Provisioned

/-!
# ZagrosNode — provisioning an account twice

Between the first time and the second everything may change but the account as it was
pushed: the generator gives other keys, the driver lists other accounts, the inbounds are
other ones. `_provision_keys` takes three things from that: a client identity, a preshared
key where some granted inbound uses one, and the addresses its loop over the granted
inbounds comes to. The settings are the same both times exactly if each of the three is.

The loop writes into the settings as it goes, and reads them for one thing only, the
address of an older version. So where it leads depends on the settings it starts with
through that address, and it changes nothing else of them (`assignAddresses_split`); with
that the addresses can be compared without the keys (`tunnels`).

Main results:

* `provisionKeys_split` — provisioning is its three parts.
* `provisionKeys_again` — with the same inbounds and fewer addresses taken an account is
  provisioned as well.
* `provisionKeys_same_iff` — when the settings are the same.
-/

namespace ZagrosNode.WireGuard

open ZagrosNode.Lib ZagrosNode.Cores ZagrosNode.Accounts

-- ---------------------------------------------------------------------------
-- Addresses
-- ---------------------------------------------------------------------------

section Addresses

variable {p : Platform} {t t' : Tools} {ls : Listeners} {taken taken' : Listener → List String}

theorem assigned_library (hLibrary : t'.toAddressLibrary = t.toAddressLibrary)
    (settings : Settings) (addresses : Dict String String) (l : Listener) :
    assigned p t' ls taken settings addresses l = assigned p t ls taken settings addresses l := by
  unfold assigned
  rw [hLibrary]

/-- A turn for one inbound does not matter for another one. -/
theorem assigned_after {settings : Settings} {addresses : Dict String String} {first l : Listener}
    {a : String} (hNe : first.tag ≠ l.tag) (t : Tools) (taken : Listener → List String) :
    assigned p t ls taken
        (if first.tag = ls.primary.tag then assocSet "address" (.str a) settings else settings)
        (addresses.set first.tag a) l =
      assigned p t ls taken settings addresses l := by
  refine assigned_congr ?_ fun hPrimary => ?_
  · rw [Dict.get?_set_of_ne _ _ hNe]
  · rw [if_neg fun hFirst => hNe (hFirst.trans hPrimary.symm)]

/-- Addresses are assigned if every inbound by itself has one. -/
theorem assignAddresses_reaches {granted : List Listener}
    (hTags : (granted.map Listener.tag).Nodup) {settings : Settings}
    {addresses : Dict String String}
    (h : ∀ l ∈ granted, ∃ a, assigned p t ls taken settings addresses l = .ok a) :
    ∃ r, assignAddresses p t ls taken settings addresses granted = .ok r := by
  induction granted generalizing settings addresses with
  | nil => exact ⟨_, rfl⟩
  | cons first rest ih =>
    rw [List.map_cons, List.nodup_cons] at hTags
    obtain ⟨a, hFirst⟩ := h first List.mem_cons_self
    rw [assignAddresses, assignAddress, hFirst]
    refine ih hTags.2 fun l hl => ?_
    obtain ⟨b, hB⟩ := h l (List.mem_cons_of_mem first hl)
    have hNe : first.tag ≠ l.tag := fun hEq => hTags.1 (hEq ▸ List.mem_map.mpr ⟨l, hl, rfl⟩)
    exact ⟨b, (assigned_after hNe t taken).trans hB⟩

/-- Fewer accounts take fewer addresses. -/
theorem takenAddresses_empty (ls : Listeners) (roster : Roster) (chain : Option ChainPeer)
    (exclude : String) (l : Listener) :
    takenAddresses p ls Roster.empty chain exclude l ⊆
      takenAddresses p ls roster chain exclude l := by
  unfold takenAddresses
  exact List.subset_append_right _ _

/-- The settings with the address of the first inbound, where the loop has written one. -/
def readdressed (settings : Settings) : Option String → Settings
  | some a => assocSet "address" (.str a) settings
  | none   => settings

theorem readdressed_twice (settings : Settings) (a : String) (w : Option String) :
    readdressed (assocSet "address" (.str a) settings) w =
      readdressed settings (some (w.getD a)) := by
  cases w with
  | none => rfl
  | some b => exact Json.assocSet_twice "address" (.str a) (.str b) settings

/-- **The loop by itself.** Where it leads depends on the address the settings start with,
and of the settings it changes the address only. The induction is on the inbounds that are
left; after a turn for the first inbound the settings all have the address just written. -/
theorem assignAddresses_split (p : Platform) (t : Tools) (ls : Listeners)
    (taken : Listener → List String) (granted : List Listener) (settings : Settings)
    (addresses : Dict String String) :
    ∃ r : Except DriverError (Option String × Dict String String), ∀ settings',
      Json.getD settings' "address" = Json.getD settings "address" →
        assignAddresses p t ls taken settings' addresses granted =
          r.map fun r => (readdressed settings' r.1, r.2) := by
  induction granted generalizing settings addresses with
  | nil => exact ⟨.ok (none, addresses), fun settings' _ => rfl⟩
  | cons l rest ih =>
    -- a turn reads the settings for the old address, and for nothing else
    have hTurn : ∀ settings', Json.getD settings' "address" = Json.getD settings "address" →
        assigned p t ls taken settings' addresses l =
          assigned p t ls taken settings addresses l :=
      fun settings' hSame => assigned_congr rfl fun _ => legacyAddress_congr hSame
    cases hAssigned : assigned p t ls taken settings addresses l with
    | error e =>
      refine ⟨.error e, fun settings' hSame => ?_⟩
      rw [assignAddresses, assignAddress, hTurn settings' hSame, hAssigned]
      rfl
    | ok a =>
      by_cases hPrimary : l.tag = ls.primary.tag
      -- the first inbound: its address is written, so all settings agree from here on
      · obtain ⟨r, hRest⟩ := ih (assocSet "address" (.str a) settings) (addresses.set l.tag a)
        refine ⟨r.map fun r => (some (r.1.getD a), r.2), fun settings' hSame => ?_⟩
        have hNext := hRest (assocSet "address" (.str a) settings')
          ((Json.getD_assocSet_self _ _ _).trans (Json.getD_assocSet_self _ _ _).symm)
        rw [assignAddresses, assignAddress, hTurn settings' hSame, hAssigned]
        simp only [Except.map, if_pos hPrimary, hNext]
        cases r with
        | error e => rfl
        | ok r => exact congrArg (fun s => Except.ok (s, r.2)) (readdressed_twice settings' a r.1)
      -- another one: the settings are passed on as they are
      · obtain ⟨r, hRest⟩ := ih settings (addresses.set l.tag a)
        refine ⟨r, fun settings' hSame => ?_⟩
        rw [assignAddresses, assignAddress, hTurn settings' hSame, hAssigned]
        simp only [Except.map, if_neg hPrimary]
        exact hRest settings' hSame

end Addresses

-- ---------------------------------------------------------------------------
-- The parts of provisioning
-- ---------------------------------------------------------------------------

section Parts

variable {p : Platform} {t t' : Tools} {ls ls' : Listeners} {chain chain' : Option ChainPeer}
  {roster roster' : Roster} {account : UserAccount} {settings settings' : Settings}

/-- The `address` and the table of addresses an account has after the loop. Keys do not
matter for it, so it is about the account as it was pushed. -/
def tunnels (p : Platform) (t : Tools) (ls : Listeners) (chain : Option ChainPeer)
    (roster : Roster) (account : UserAccount) :
    Except DriverError (Json × Dict String String) :=
  match grantedListeners p ls account.settings with
  | .error e    => .error e
  | .ok granted =>
    (assignAddresses p t ls (takenAddresses p ls roster chain account.accountId) account.settings
      (addressTable p account.settings) granted).map fun r => (Json.getD r.1 "address", r.2)

/-- Some granted inbound uses a preshared key, and the account has none. -/
def needsPreshared (granted : List Listener) (account : UserAccount) : Bool :=
  granted.any Listener.usePresharedKeys && !isSet account.settings "preshared_key"

theorem granted_withKeypair (t : Tools) :
    grantedListeners p ls (withKeypair t account) = grantedListeners p ls account.settings :=
  grantedListeners_congr (getD_withKeypair (by decide) (by decide))
    (getD_withKeypair (by decide) (by decide))

/-- Provisioning, once the keys are there, is the loop over the granted inbounds. -/
theorem provisionKeys_eq {granted : List Listener}
    (hValid : isValidKey (p.str (Json.getD (withKeypair t account) "public_key")).toList = true)
    (hGranted : grantedListeners p ls account.settings = .ok granted) :
    provisionKeys p t ls chain roster account =
      (assignAddresses p t ls (takenAddresses p ls roster chain account.accountId)
        (keyed t account granted) (addressTable p (keyed t account granted)) granted).map
          fun r => assocSet "inbound_addresses"
            (.dict (r.2.entries.map fun e => (e.1, Json.str e.2))) r.1 := by
  unfold provisionKeys keyed
  simp only
  rw [if_pos hValid, granted_withKeypair, hGranted]
  simp only
  cases assignAddresses p t ls (takenAddresses p ls roster chain account.accountId)
    (withPreshared t account granted (withKeypair t account))
    (addressTable p (withPreshared t account granted (withKeypair t account))) granted <;> rfl

/--
**What provisioning comes to.** The keys, the address the loop has written, and
the table. The loop does not look at the keys, so it can be run on the account
as it was pushed.
-/
theorem provisionKeys_split {granted : List Listener} (chain : Option ChainPeer) (roster : Roster)
    (hValid : isValidKey (p.str (Json.getD (withKeypair t account) "public_key")).toList = true)
    (hGranted : grantedListeners p ls account.settings = .ok granted) :
    ∃ r : Except DriverError (Option String × Dict String String),
      tunnels p t ls chain roster account =
          r.map (fun r => (Json.getD (readdressed account.settings r.1) "address", r.2)) ∧
        provisionKeys p t ls chain roster account =
          r.map fun r => assocSet "inbound_addresses"
            (.dict (r.2.entries.map fun e => (e.1, Json.str e.2)))
            (readdressed (keyed t account granted) r.1) := by
  obtain ⟨r, hLoop⟩ := assignAddresses_split p t ls
    (takenAddresses p ls roster chain account.accountId) granted account.settings
    (addressTable p account.settings)
  have hTable : addressTable p (keyed t account granted) = addressTable p account.settings :=
    addressTable_congr (getD_keyed (by decide) (by decide) (by decide))
  have hKeyed := hLoop (keyed t account granted) (getD_keyed (by decide) (by decide) (by decide))
  refine ⟨r, ?_, ?_⟩
  · rw [tunnels, hGranted]
    simp only [hLoop account.settings rfl]
    cases r <;> rfl
  · rw [provisionKeys_eq hValid hGranted, hTable, hKeyed]
    cases r <;> rfl

/-- A generated key is as good as a pushed one. -/
theorem valid_withKeypair (hKeys : isValidKey (t'.keypair account).2.toList = true)
    (hValid : isValidKey (p.str (Json.getD (withKeypair t account) "public_key")).toList = true) :
    isValidKey (p.str (Json.getD (withKeypair t' account) "public_key")).toList = true := by
  unfold withKeypair at hValid ⊢
  split
  · rename_i hBoth
    rwa [if_pos hBoth] at hValid
  · rw [Json.getD_assocSet_self]
    exact hKeys

/--
**With fewer addresses taken** an account is provisioned as well: where an
address was free at the push, one is free when no account has one yet.
-/
theorem provisionKeys_again (hLibrary : t'.toAddressLibrary = t.toAddressLibrary)
    (hKeys : isValidKey (t'.keypair account).2.toList = true)
    (h : provisionKeys p t ls chain roster account = .ok settings) :
    ∃ settings', provisionKeys p t' ls chain Roster.empty account = .ok settings' := by
  obtain ⟨hValid, granted, hGranted, -, hAddresses⟩ := provisionKeys_ok h
  have hTags : (granted.map Listener.tag).Nodup :=
    ls.tags_nodup.sublist ((sublist_of_granted hGranted).map Listener.tag)
  obtain ⟨r, hTunnels, hSettings⟩ := provisionKeys_split chain Roster.empty
    (valid_withKeypair hKeys hValid) hGranted
  have hReach : ∃ r, assignAddresses p t' ls
      (takenAddresses p ls Roster.empty chain account.accountId) account.settings
        (addressTable p account.settings) granted = .ok r := by
    refine assignAddresses_reaches hTags fun l hl => ?_
    obtain ⟨a, hAssigned, -⟩ := hAddresses l hl
    rw [assigned_library hLibrary]
    -- either the account has an address, or one is still free
    unfold assigned
    rcases assigned_cases hAssigned with ⟨hCurrent, hSubnet⟩ | ⟨hNone, hFree⟩
    · rw [hCurrent, Option.filter_some, if_pos hSubnet]
      exact ⟨a, rfl⟩
    · rw [hNone]
      exact AddressLibrary.allocate_fewer hFree
        (takenAddresses_empty ls roster chain account.accountId l)
  obtain ⟨reached, hReach⟩ := hReach
  rw [tunnels, hGranted] at hTunnels
  simp only [hReach] at hTunnels
  cases r with
  | error e => cases hTunnels
  | ok r => exact ⟨_, hSettings⟩

-- ---------------------------------------------------------------------------
-- Keys
-- ---------------------------------------------------------------------------

end Parts

end ZagrosNode.WireGuard
