import ZagrosNode.WireGuard.Peers

/-!
# ZagrosNode — what provisioning leaves behind

Provisioning writes the keys and the addresses of an account and nothing else,
and what it writes is either what was pushed or what the tools made. After it
every enabled account has exactly one peer on each interface it is granted.

The settings are followed in two steps. `keyed` has the keys and no new addresses; the
loop then writes the table of addresses and the old address. `provisionKeys_ok` puts
these together and says that no other setting is touched, so an account keeps its
inbounds, its comment and whatever else the panel has put there.

`assignedTo` says which address is assigned for each granted inbound, by the table from
before the push. `desiredPeer_provisioned` joins this with what makes a peer: the peer
exists exactly for an enabled account with a grant for the inbound, and its key is the
pushed one or the generated one.

Main results:

* `provisionKeys_ok` — provisioning changes no other setting, and every granted
  inbound has the address assigned to it.
* `desiredPeer_provisioned` — the peer of a provisioned account.
-/

namespace ZagrosNode.WireGuard

open ZagrosNode.Lib ZagrosNode.Cores ZagrosNode.Accounts

variable (p : Platform)

-- ---------------------------------------------------------------------------
-- Settings
-- ---------------------------------------------------------------------------

theorem getD_withKeypair {t : Tools} {account : UserAccount} {key : String}
    (hPrivate : "private_key" ≠ key) (hPublic : "public_key" ≠ key) :
    Json.getD (withKeypair t account) key = Json.getD account.settings key := by
  unfold withKeypair
  split
  · rfl
  · rw [Json.getD_assocSet_of_ne hPublic, Json.getD_assocSet_of_ne hPrivate]

theorem getD_withPreshared {t : Tools} {account : UserAccount} {granted : List Listener}
    {settings : Settings} {key : String} (hKey : "preshared_key" ≠ key) :
    Json.getD (withPreshared t account granted settings) key = Json.getD settings key := by
  unfold withPreshared
  split
  · exact Json.getD_assocSet_of_ne hKey _ _
  · rfl

-- ---------------------------------------------------------------------------
-- Addresses
-- ---------------------------------------------------------------------------

section Addresses

variable {p} {t : Tools} {ls : Listeners} {taken : Listener → List String}
  {settings settings' : Settings} {addresses addresses' : Dict String String}

/-- Where an account's address is looked for depends on its own entry and, for
the first inbound, on the legacy address. -/
theorem assigned_congr {l : Listener} (hEntry : addresses'.get? l.tag = addresses.get? l.tag)
    (hLegacy : l.tag = ls.primary.tag → legacyAddress p settings' = legacyAddress p settings) :
    assigned p t ls taken settings' addresses' l = assigned p t ls taken settings addresses l := by
  have hCurrent : currentAddress p ls settings' addresses' l =
      currentAddress p ls settings addresses l := by
    unfold currentAddress
    rw [hEntry]
    by_cases hPrimary : l.tag = ls.primary.tag
    · rw [if_pos hPrimary, if_pos hPrimary, hLegacy hPrimary]
    · rw [if_neg hPrimary, if_neg hPrimary]
  rw [assigned, assigned, hCurrent]

/-- What one turn does. -/
theorem assignAddress_ok {l : Listener}
    (h : assignAddress p t ls taken settings addresses l = .ok (settings', addresses')) :
    ∃ a, assigned p t ls taken settings addresses l = .ok a ∧ addresses' = addresses.set l.tag a ∧
      settings' = if l.tag = ls.primary.tag then assocSet "address" (.str a) settings
        else settings := by
  unfold assignAddress at h
  cases hAssigned : assigned p t ls taken settings addresses l with
  | error e =>
    rw [hAssigned] at h
    cases h
  | ok a =>
    rw [hAssigned] at h
    obtain ⟨hSettings, hAddresses⟩ := Prod.mk.inj (Except.ok.inj h)
    exact ⟨a, rfl, hAddresses.symm, hSettings.symm⟩

/-- Assigning addresses changes no other setting, and gives every inbound the
address it would get if it were the only one. -/
theorem assignAddresses_ok {granted : List Listener} (hTags : (granted.map Listener.tag).Nodup)
    (h : assignAddresses p t ls taken settings addresses granted = .ok (settings', addresses')) :
    (∀ key, "address" ≠ key → Json.getD settings' key = Json.getD settings key) ∧
      (∀ tag, tag ∉ granted.map Listener.tag → addresses'.get? tag = addresses.get? tag) ∧
      ∀ l ∈ granted, ∃ a, assigned p t ls taken settings addresses l = .ok a ∧
        addresses'.get? l.tag = some a := by
  induction granted generalizing settings addresses with
  | nil =>
    obtain ⟨rfl, rfl⟩ := Prod.mk.inj (Except.ok.inj h)
    exact ⟨fun _ _ => rfl, fun _ _ => rfl, fun l hl => absurd hl List.not_mem_nil⟩
  | cons first rest ih =>
    rw [assignAddresses] at h
    cases hHead : assignAddress p t ls taken settings addresses first with
    | error e =>
      rw [hHead] at h
      cases h
    | ok next =>
      rw [hHead] at h
      obtain ⟨settings₁, addresses₁⟩ := next
      rw [List.map_cons, List.nodup_cons] at hTags
      obtain ⟨hSettings, hOthers, hRest⟩ := ih hTags.2 h
      obtain ⟨a, hAssigned, hAddresses₁, hSettings₁⟩ := assignAddress_ok hHead
      refine ⟨fun key hKey => ?_, fun tag hTag => ?_, fun l hl => ?_⟩
      · rw [hSettings key hKey, hSettings₁]
        by_cases hPrimary : first.tag = ls.primary.tag
        · rw [if_pos hPrimary, Json.getD_assocSet_of_ne hKey]
        · rw [if_neg hPrimary]
      · rw [List.map_cons, List.mem_cons, not_or] at hTag
        rw [hOthers tag hTag.2, hAddresses₁, Dict.get?_set_of_ne _ _ (Ne.symm hTag.1)]
      · rcases List.mem_cons.mp hl with rfl | hMem
        · refine ⟨a, hAssigned, ?_⟩
          rw [hOthers l.tag hTags.1, hAddresses₁, Dict.get?_set_self]
        · -- the first turn changed neither the entry nor, for this inbound,
          -- the legacy address
          have hNe : first.tag ≠ l.tag := fun hEq =>
            hTags.1 (hEq ▸ List.mem_map.mpr ⟨l, hMem, rfl⟩)
          obtain ⟨b, hB, hGet⟩ := hRest l hMem
          refine ⟨b, ?_, hGet⟩
          rw [← hB]
          refine (assigned_congr ?_ fun hPrimary => ?_).symm
          · rw [hAddresses₁, Dict.get?_set_of_ne _ _ hNe]
          · rw [hSettings₁, if_neg fun hFirst => hNe (hFirst.trans hPrimary.symm)]

/-- An assigned address is either an address of the account in the subnet or
one that was free. -/
theorem assigned_cases {l : Listener} {a : String}
    (h : assigned p t ls taken settings addresses l = .ok a) :
    (currentAddress p ls settings addresses l = some a ∧ t.inSubnet a l.subnet = true) ∨
      (((currentAddress p ls settings addresses l).filter fun a => t.inSubnet a l.subnet) = none ∧
        t.allocate l.subnet (taken l) = .ok a) := by
  unfold assigned at h
  split at h
  · rename_i b hChecked
    obtain rfl := Except.ok.inj h
    exact Or.inl (Option.filter_eq_some_iff.mp hChecked)
  · rename_i hChecked
    exact Or.inr ⟨hChecked, h⟩

theorem assigned_ne_empty {l : Listener} {a : String}
    (h : assigned p t ls taken settings addresses l = .ok a) : a ≠ "" := by
  rcases assigned_cases h with ⟨-, hSubnet⟩ | ⟨-, hFree⟩
  · rintro rfl
    rw [t.inSubnet_empty] at hSubnet
    cases hSubnet
  · exact (AddressLibrary.allocate_kept hFree).1

end Addresses

-- ---------------------------------------------------------------------------
-- Provisioning
-- ---------------------------------------------------------------------------

section Provisioning

variable {p} {t : Tools} {ls : Listeners} {chain : Option ChainPeer} {roster : Roster}
  {account : UserAccount} {settings : Settings}

theorem grantedListeners_congr {settings settings' : Settings}
    (hTags : Json.getD settings' "inbound_tags" = Json.getD settings "inbound_tags")
    (hExcluded : Json.getD settings' "excluded_inbounds" = Json.getD settings "excluded_inbounds") :
    grantedListeners p ls settings' = grantedListeners p ls settings := by
  rw [grantedListeners, grantedListeners, hTags, hExcluded]

theorem addressTable_congr {settings settings' : Settings}
    (h : Json.getD settings' "inbound_addresses" = Json.getD settings "inbound_addresses") :
    addressTable p settings' = addressTable p settings := by
  rw [addressTable, addressTable, h]

theorem legacyAddress_congr {settings settings' : Settings}
    (h : Json.getD settings' "address" = Json.getD settings "address") :
    legacyAddress p settings' = legacyAddress p settings := by
  rw [legacyAddress, legacyAddress, isSet_of_getD_eq h, h]

theorem sublist_of_granted {settings : Settings} {granted : List Listener}
    (h : grantedListeners p ls settings = .ok granted) : granted.Sublist ls.all := by
  unfold grantedListeners at h
  split at h
  · cases h
  · cases h
  · rw [← Except.ok.inj h]
    exact List.filter_sublist

/-- The settings before addresses are assigned. -/
def keyed (t : Tools) (account : UserAccount) (granted : List Listener) : Settings :=
  withPreshared t account granted (withKeypair t account)

theorem getD_keyed {granted : List Listener} {key : String} (hPrivate : "private_key" ≠ key)
    (hPublic : "public_key" ≠ key) (hPreshared : "preshared_key" ≠ key) :
    Json.getD (keyed t account granted) key = Json.getD account.settings key := by
  rw [keyed, getD_withPreshared hPreshared, getD_withKeypair hPrivate hPublic]

/-- The addresses provisioning assigns to an account. -/
abbrev assignedTo (p : Platform) (t : Tools) (ls : Listeners) (chain : Option ChainPeer)
    (roster : Roster) (account : UserAccount) (l : Listener) : Except DriverError String :=
  assigned p t ls (takenAddresses p ls roster chain account.accountId) account.settings
    (addressTable p account.settings) l

/-- Provisioning leaves the keyed settings alone but for the addresses, and
every granted inbound has the address assigned to it. -/
theorem provisionKeys_ok (h : provisionKeys p t ls chain roster account = .ok settings) :
    isValidKey (p.str (Json.getD (withKeypair t account) "public_key")).toList = true ∧
      ∃ granted, grantedListeners p ls account.settings = .ok granted ∧
        (∀ key, "address" ≠ key → "inbound_addresses" ≠ key →
          Json.getD settings key = Json.getD (keyed t account granted) key) ∧
        ∀ l ∈ granted, ∃ a, assignedTo p t ls chain roster account l = .ok a ∧
          addressFor p ls settings l = some a := by
  unfold provisionKeys at h
  simp only at h
  -- the public key has been checked by now
  split at h
  · rename_i hValid
    refine ⟨hValid, ?_⟩
    split at h
    · cases h
    · rename_i granted hGranted
      split at h
      · cases h
      · rename_i settings₁ addresses hAssign
        obtain rfl := Except.ok.inj h
        -- the inbounds granted do not depend on the keys
        have hSame : grantedListeners p ls (withKeypair t account) =
            grantedListeners p ls account.settings :=
          grantedListeners_congr (getD_withKeypair (by decide) (by decide))
            (getD_withKeypair (by decide) (by decide))
        rw [hSame] at hGranted
        have hTags : (granted.map Listener.tag).Nodup :=
          ls.tags_nodup.sublist ((sublist_of_granted hGranted).map Listener.tag)
        -- two inbounds of one name would overwrite each other's address
        obtain ⟨hSettings, -, hAddresses⟩ := assignAddresses_ok hTags hAssign
        refine ⟨granted, hGranted, fun key hAddress hTable => ?_, fun l hl => ?_⟩
        · rw [Json.getD_assocSet_of_ne hTable, hSettings key hAddress]
          rfl
        · obtain ⟨a, hAssigned, hGet⟩ := hAddresses l hl
          refine ⟨a, ?_, ?_⟩
          · -- keys do not matter for addresses
            rw [← hAssigned]
            have hTable : addressTable p (keyed t account granted) =
                addressTable p account.settings :=
              addressTable_congr (getD_keyed (by decide) (by decide) (by decide))
            have hLegacy : legacyAddress p (keyed t account granted) =
                legacyAddress p account.settings :=
              legacyAddress_congr (getD_keyed (by decide) (by decide) (by decide))
            exact (assigned_congr (congrArg (Dict.get? · l.tag) hTable) fun _ => hLegacy).symm
          -- the table is written last, and a text in it is never the empty one
          · have hListed : Json.get? (addresses.entries.map fun e => (e.1, Json.str e.2)) l.tag =
                some (.str a) := by
              rw [Json.get?_eq_assocGet?, assocGet?_mapValues fun e => Json.str e.2]
              exact congrArg (Option.map _) hGet
            have hTrue : Json.truthy (.str a) = true := by
              simpa [Json.truthy] using assigned_ne_empty hAssigned
            rw [addressFor, Json.getD_assocSet_self]
            simp only [hListed, Option.filter_some, hTrue, if_true]
            rfl
  · cases h

/-- Provisioning writes the table of addresses. -/
theorem provisionKeys_table (h : provisionKeys p t ls chain roster account = .ok settings) :
    ∃ entries, Json.getD settings "inbound_addresses" = .dict entries := by
  unfold provisionKeys at h
  simp only at h
  split at h
  · split at h
    · cases h
    · split at h
      · cases h
      · rw [← Except.ok.inj h]
        exact ⟨_, Json.getD_assocSet_self _ _ _⟩
  · cases h

-- ---------------------------------------------------------------------------
-- Peers of provisioned accounts
-- ---------------------------------------------------------------------------

/-- An enabled account has a peer on each interface it is granted. -/
def hasPeer (p : Platform) (ls : Listeners) (l : Listener) (account : UserAccount) : Bool :=
  account.enabled &&
    match grantedListeners p ls account.settings with
    | .ok granted => (granted.map Listener.tag).contains l.tag
    | .error _    => false

/-- The public key of a provisioned account: the pushed one where the account
came with both keys. -/
def publicKeyOf (p : Platform) (t : Tools) (account : UserAccount) : String :=
  p.str (Json.getD (withKeypair t account) "public_key")

/-- The preshared key a peer of the account has on an interface. -/
def presharedOf (p : Platform) (t : Tools) (l : Listener) (account : UserAccount) : Option String :=
  if l.usePresharedKeys then
    if isSet account.settings "preshared_key" then
      some (p.str (Json.getD account.settings "preshared_key"))
    else some (t.preshared account)
  else none

theorem isSet_publicKey (h : isValidKey (publicKeyOf p t account).toList = true) :
    isSet (withKeypair t account) "public_key" = true := by
  unfold publicKeyOf withKeypair at h
  unfold withKeypair
  split
  · rename_i hBoth
    exact (Bool.and_eq_true_iff.mp hBoth).2
  · rename_i hMissing
    rw [if_neg hMissing, Json.getD_assocSet_self] at h
    rw [isSet, Json.getD_assocSet_self]
    have hNonempty : (t.keypair account).2 ≠ "" := by
      intro hEmpty
      rw [Platform.str, hEmpty] at h
      revert h
      decide
    simpa [Json.truthy] using hNonempty

theorem presharedKey_keyed {granted : List Listener} {l : Listener} (hl : l ∈ granted)
    (hUse : l.usePresharedKeys = true) :
    isSet (keyed t account granted) "preshared_key" = true ∧
      some (p.str (Json.getD (keyed t account granted) "preshared_key")) =
        presharedOf p t l account := by
  have hAny : granted.any Listener.usePresharedKeys = true := List.any_eq_true.mpr ⟨l, hl, hUse⟩
  have hSame : Json.getD (withKeypair t account) "preshared_key" =
      Json.getD account.settings "preshared_key" := getD_withKeypair (by decide) (by decide)
  unfold keyed withPreshared presharedOf
  rw [if_pos hUse, hAny, Bool.true_and, isSet_of_getD_eq hSame]
  cases hSet : isSet account.settings "preshared_key" with
  | true =>
    rw [Bool.not_true, if_neg Bool.false_ne_true, if_pos rfl, hSame]
    exact ⟨(isSet_of_getD_eq hSame).trans hSet, rfl⟩
  | false =>
    rw [Bool.not_false, if_pos rfl, if_neg Bool.false_ne_true, isSet, Json.getD_assocSet_self]
    have hNonempty := (t.preshared_kept account).1
    exact ⟨by simpa [Json.truthy] using hNonempty, rfl⟩

/-- **Peers.** A provisioned account has a peer on an interface exactly if it
is enabled and the interface is granted, with its key, its preshared key and
the address assigned. -/
theorem desiredPeer_provisioned {l : Listener} (hl : l ∈ ls.all)
    (h : provisionKeys p t ls chain roster account = .ok settings) :
    if hasPeer p ls l account then
      ∃ a, assignedTo p t ls chain roster account l = .ok a ∧
        desiredPeer p ls l { account with settings := settings } =
          .ok (some
            { comment := account.accountId
              publicKey := publicKeyOf p t account
              allowedIps := [a]
              presharedKey := presharedOf p t l account })
    else desiredPeer p ls l { account with settings := settings } = .ok none := by
  obtain ⟨hValid, granted, hGranted, hSettings, hAddresses⟩ := provisionKeys_ok h
  have hSame : grantedListeners p ls settings = .ok granted := by
    rw [← hGranted]
    refine grantedListeners_congr ?_ ?_
    · rw [hSettings _ (by decide) (by decide), getD_keyed (by decide) (by decide) (by decide)]
    · rw [hSettings _ (by decide) (by decide), getD_keyed (by decide) (by decide) (by decide)]
  rw [hasPeer, hGranted, desiredPeer]
  simp only
  cases account.enabled with
  | false => rfl
  | true =>
    rw [Bool.true_and, if_pos rfl, hSame]
    simp only
    by_cases hTag : (granted.map Listener.tag).contains l.tag = true
    · rw [if_pos hTag, if_pos hTag]
      -- the tag names the interface
      have hMem : l ∈ granted := by
        obtain ⟨other, hOther, hEq⟩ := List.mem_map.mp (List.contains_iff_mem.mp hTag)
        have hAll := (sublist_of_granted hGranted).subset hOther
        rwa [← Listeners.eq_of_tag hAll hl hEq]
      obtain ⟨a, hAssigned, hAddress⟩ := hAddresses l hMem
      have hPublic : Json.getD settings "public_key" =
          Json.getD (withKeypair t account) "public_key" := by
        rw [hSettings _ (by decide) (by decide), keyed, getD_withPreshared (by decide)]
      have hPreshared := hSettings "preshared_key" (by decide) (by decide)
      refine ⟨a, hAssigned, ?_⟩
      rw [isSet_of_getD_eq hPublic, isSet_publicKey hValid, if_pos rfl, hAddress, hPublic,
        isSet_of_getD_eq hPreshared, hPreshared]
      cases hUse : l.usePresharedKeys with
      | false =>
        rw [presharedOf, hUse]
        rfl
      | true =>
        obtain ⟨hSet, hKey⟩ := presharedKey_keyed (p := p) (t := t) hMem hUse
        rw [hSet, ← hKey]
        rfl
    · rw [if_neg hTag, if_neg hTag]

end Provisioning

end ZagrosNode.WireGuard
