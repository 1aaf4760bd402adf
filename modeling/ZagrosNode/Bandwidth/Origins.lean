import ZagrosNode.Bandwidth.Identities
import ZagrosNode.Startup.Lasting

/-!
# ZagrosNode — where the addresses of an account come from

The limiter knows an account by the addresses in its settings. Some of them
the account brings: they are in the settings it is pushed with, and the driver
keeps them. The others the driver finds: for every inbound or pool that has no
address of the account it takes the first one that is free. Which ones are
free is read from the accounts the driver lists before the push, so both kinds
are known from the pushed settings and from the state before.

The definitions here say which addresses these are, driver by driver, without
running the driver. That the settings a sync files list exactly them is proved
for each driver from its own loop: WireGuard's over the granted inbounds,
OpenVPN's over its pools, PPTP's over its single pool.

* **Brought and found.** `brought` and `found` are defined per driver, from the pushed
  settings, the pools or inbounds, and the addresses of the listed accounts. Neither
  runs a sync. The three drivers differ in what an empty entry means, in which subnet
  an address has to be, and in where the search for a free one begins.
* **The table before.** All accounts of a push are completed against the same table, so
  a definition that looks at one account and the table is enough, and two accounts of
  one push may be found the same address.
* **Accounts that are listed again.** An account of the push that the driver lists
  already is in the table with its own addresses; these count as used for the others
  and not for itself.

SSH and the drivers without identities list no addresses: nothing is brought or found
for their accounts.

Main results:

* `completed_sources` — an account a sync completed is listed with the
  addresses it brings and those that are found for it, and with no others.
-/

namespace ZagrosNode.WireGuard

open ZagrosNode.Lib ZagrosNode.Cores ZagrosNode.Accounts

-- ---------------------------------------------------------------------------
-- WireGuard
-- ---------------------------------------------------------------------------

section Definitions

variable (p : Platform) (library : AddressLibrary) (ls : Listeners)

/-- The address an account comes with for an inbound, if it is one of the
subnet of the inbound. -/
def ownAddress (settings : Settings) (l : Listener) : Option String :=
  (currentAddress p ls settings (addressTable p settings) l).filter fun a =>
    library.inSubnet a l.subnet

/-- What an account brings: its addresses for inbounds it is not granted, which
nobody looks at, its addresses for the granted ones as far as they are in the
subnet, and the address from before there were inbounds, which is overwritten
only where the first inbound is granted. -/
def brought (settings : Settings) (granted : List Listener) : List String :=
  ((addressTable p settings).entries.filter fun e =>
      decide (e.1 ∉ granted.map Listener.tag)).map Prod.snd ++
    granted.filterMap (ownAddress p library ls settings) ++
      if ls.primary.tag ∈ granted.map Listener.tag then [] else (legacyAddress p settings).toList

/-- What is found for an account: in every granted inbound it has no address
in, the first one that none of the listed accounts has. -/
def found (chain : Option ChainPeer) (roster : Roster) (account : UserAccount)
    (granted : List Listener) : List String :=
  (granted.filter fun l => (ownAddress p library ls account.settings l).isNone).filterMap fun l =>
    (library.candidates l.subnet).find? fun a =>
      decide (a ∉ takenAddresses p ls roster chain account.accountId l)

end Definitions

section Assigned

variable {p : Platform} {t : Tools} {ls : Listeners} {taken : Listener → List String}
  {settings settings' : Settings} {addresses addresses' : Dict String String}

/-- The address of the first inbound is written where that is granted, and no
other inbound touches it. -/
theorem assignAddresses_legacy {granted : List Listener}
    (hTags : (granted.map Listener.tag).Nodup)
    (h : assignAddresses p t ls taken settings addresses granted = .ok (settings', addresses')) :
    (ls.primary.tag ∉ granted.map Listener.tag →
        Json.getD settings' "address" = Json.getD settings "address") ∧
      ∀ l ∈ granted, l.tag = ls.primary.tag →
        ∃ a, addresses'.get? l.tag = some a ∧ Json.getD settings' "address" = .str a := by
  -- the loop over the granted inbounds; `settings` and `addresses` grow with every turn
  induction granted generalizing settings addresses with
  | nil =>
    obtain ⟨rfl, rfl⟩ := Prod.mk.inj (Except.ok.inj h)
    exact ⟨fun _ => rfl, fun l hl => absurd hl List.not_mem_nil⟩
  | cons first rest ih =>
    rw [assignAddresses] at h
    cases hHead : assignAddress p t ls taken settings addresses first with
    | error e =>
      rw [hHead] at h
      cases h
    | ok next =>
      rw [hHead] at h
      obtain ⟨settings₁, addresses₁⟩ := next
      rw [List.map_cons, List.nodup_cons] at hTags
      obtain ⟨hKept, hWritten⟩ := ih hTags.2 h
      obtain ⟨a, -, hAddresses₁, hSettings₁⟩ := assignAddress_ok hHead
      -- the first part: no tag on the way is the primary one, so nothing writes the key
      refine ⟨fun hNot => ?_, fun l hl hPrimary => ?_⟩
      · rw [List.map_cons, List.mem_cons, not_or] at hNot
        rw [hKept hNot.2, hSettings₁, if_neg (Ne.symm hNot.1)]
      · rcases List.mem_cons.mp hl with rfl | hMem
        · -- written in this turn; the tags differ, so no later turn writes it
          have hNot : ls.primary.tag ∉ rest.map Listener.tag := hPrimary ▸ hTags.1
          refine ⟨a, ?_, ?_⟩
          · rw [(assignAddresses_ok hTags.2 h).2.1 l.tag hTags.1, hAddresses₁, Dict.get?_set_self]
          · rw [hKept hNot, hSettings₁, if_pos hPrimary, Json.getD_assocSet_self]
        · exact hWritten l hMem hPrimary

/-- An address is assigned if the account comes with it, or else if it is the
first free one. -/
theorem assigned_ok_iff {l : Listener} {a : String} :
    assigned p t ls taken settings (addressTable p settings) l = .ok a ↔
      ownAddress p t.toAddressLibrary ls settings l = some a ∨
        (ownAddress p t.toAddressLibrary ls settings l = none ∧
          (t.candidates l.subnet).find? (fun a => decide (a ∉ taken l)) = some a) := by
  unfold assigned ownAddress
  cases (currentAddress p ls settings (addressTable p settings) l).filter
      fun a => t.inSubnet a l.subnet with
  | some b => simp
  | none => simpa using AddressLibrary.allocate_ok_iff

end Assigned

section Sources

variable {p : Platform} {t : Tools} {ls : Listeners} {chain : Option ChainPeer} {roster : Roster}
  {account : UserAccount} {settings : Settings}

/-- The table of addresses that provisioning writes, and the address beside it. -/
theorem provisionKeys_addresses (h : provisionKeys p t ls chain roster account = .ok settings) :
    ∃ granted, ∃ addresses : Dict String String,
      grantedListeners p ls account.settings = .ok granted ∧
      Json.getD settings "inbound_addresses" =
        .dict (addresses.entries.map fun e => (e.1, Json.str e.2)) ∧
      (∀ tag, tag ∉ granted.map Listener.tag →
        addresses.get? tag = (addressTable p account.settings).get? tag) ∧
      (∀ l ∈ granted, ∃ a, assignedTo p t ls chain roster account l = .ok a ∧
        addresses.get? l.tag = some a) ∧
      (ls.primary.tag ∉ granted.map Listener.tag →
        Json.getD settings "address" = Json.getD account.settings "address") ∧
      ∀ l ∈ granted, l.tag = ls.primary.tag →
        ∃ a, addresses.get? l.tag = some a ∧ Json.getD settings "address" = .str a := by
  unfold provisionKeys at h
  simp only at h
  split at h
  · split at h
    · cases h
    · rename_i granted hGranted
      split at h
      · cases h
      · rename_i settings₁ addresses hAssign
        obtain rfl := Except.ok.inj h
        have hSame : grantedListeners p ls (withKeypair t account) =
            grantedListeners p ls account.settings :=
          grantedListeners_congr (getD_withKeypair (by decide) (by decide))
            (getD_withKeypair (by decide) (by decide))
        rw [hSame] at hGranted
        have hTags : (granted.map Listener.tag).Nodup :=
          ls.tags_nodup.sublist ((sublist_of_granted hGranted).map Listener.tag)
        obtain ⟨-, hOthers, hAddresses⟩ := assignAddresses_ok hTags hAssign
        obtain ⟨hKept, hWritten⟩ := assignAddresses_legacy hTags hAssign
        -- neither the addresses nor the legacy address depend on the keys
        have hTable : addressTable p (keyed t account granted) =
            addressTable p account.settings :=
          addressTable_congr (getD_keyed (by decide) (by decide) (by decide))
        have hLegacy : legacyAddress p (keyed t account granted) =
            legacyAddress p account.settings :=
          legacyAddress_congr (getD_keyed (by decide) (by decide) (by decide))
        have hBeside : Json.getD (assocSet "inbound_addresses"
            (.dict (addresses.entries.map fun e => (e.1, Json.str e.2))) settings₁) "address" =
              Json.getD settings₁ "address" := Json.getD_assocSet_of_ne (by decide) _ _
        refine ⟨granted, addresses, hGranted, Json.getD_assocSet_self _ _ _, fun tag hTag => ?_,
          fun l hl => ?_, fun hNot => ?_, fun l hl hPrimary => ?_⟩
        · exact (hOthers tag hTag).trans (congrArg (Dict.get? · tag) hTable)
        · obtain ⟨a, hAssigned, hGet⟩ := hAddresses l hl
          refine ⟨a, ?_, hGet⟩
          rw [← hAssigned]
          exact (assigned_congr (congrArg (Dict.get? · l.tag) hTable) fun _ => hLegacy).symm
        · rw [hBeside, hKept hNot]
          exact getD_keyed (by decide) (by decide) (by decide)
        · rw [hBeside]
          exact hWritten l hl hPrimary
  · cases h

/-- The addresses WireGuard lists a provisioned account with. -/
theorem mem_listed_iff (h : provisionKeys p t ls chain roster account = .ok settings)
    {granted : List Listener} (hGranted : grantedListeners p ls account.settings = .ok granted)
    {entries : Raw} (hEntries : Json.getD settings "inbound_addresses" = .dict entries)
    (x : String) :
    x ∈ entries.map (fun e => p.str e.2) ++ Bandwidth.valueOf p settings "address" ↔
      x ∈ brought p t.toAddressLibrary ls account.settings granted ++
        found p t.toAddressLibrary ls chain roster account granted := by
  obtain ⟨granted', addresses, hGranted', hTable, hOthers, hAssigned, hKept, hWritten⟩ :=
    provisionKeys_addresses h
  obtain rfl := Except.ok.inj (hGranted'.symm.trans hGranted)
  obtain rfl := Json.dict.inj (hEntries.symm.trans hTable)
  -- the values of the table are those of the tags that are not granted, and
  -- what the granted inbounds assign
  have hValues : x ∈ (addresses.entries.map fun e => (e.1, Json.str e.2)).map
      (fun e => p.str e.2) ↔
        (∃ tag, tag ∉ granted'.map Listener.tag ∧
          (addressTable p account.settings).get? tag = some x) ∨
        ∃ l ∈ granted', assignedTo p t ls chain roster account l = .ok x := by
    rw [List.map_map, List.mem_map]
    constructor
    · rintro ⟨⟨tag, y⟩, hMem, hEq⟩
      obtain rfl : y = x := hEq
      have hGet := Dict.mem_entries_iff.mp hMem
      by_cases hTag : tag ∈ granted'.map Listener.tag
      · obtain ⟨l, hl, rfl⟩ := List.mem_map.mp hTag
        obtain ⟨a, hA, hGetA⟩ := hAssigned l hl
        obtain rfl := Option.some.inj (hGetA.symm.trans hGet)
        exact Or.inr ⟨l, hl, hA⟩
      · exact Or.inl ⟨tag, hTag, (hOthers tag hTag).symm.trans hGet⟩
    · rintro (⟨tag, hTag, hGet⟩ | ⟨l, hl, hA⟩)
      · exact ⟨(tag, x), Dict.mem_entries_iff.mpr ((hOthers tag hTag).trans hGet), rfl⟩
      · obtain ⟨a, hA', hGet⟩ := hAssigned l hl
        obtain rfl := Except.ok.inj (hA'.symm.trans hA)
        exact ⟨(l.tag, a), Dict.mem_entries_iff.mpr hGet, rfl⟩
  -- the address beside the table is the one before, or one that is in it
  have hBeside : x ∈ Bandwidth.valueOf p settings "address" →
      (ls.primary.tag ∉ granted'.map Listener.tag ∧
          legacyAddress p account.settings = some x) ∨
        ∃ l ∈ granted', assignedTo p t ls chain roster account l = .ok x := by
    intro hMem
    unfold Bandwidth.valueOf at hMem
    split at hMem
    · rename_i hSet
      obtain rfl := List.mem_singleton.mp hMem
      by_cases hPrimary : ls.primary.tag ∈ granted'.map Listener.tag
      · obtain ⟨l, hl, hTag⟩ := List.mem_map.mp hPrimary
        obtain ⟨a, hGet, hAddress⟩ := hWritten l hl hTag
        obtain ⟨b, hB, hGetB⟩ := hAssigned l hl
        obtain rfl := Option.some.inj (hGetB.symm.trans hGet)
        rw [hAddress]
        exact Or.inr ⟨l, hl, hB⟩
      · refine Or.inl ⟨hPrimary, ?_⟩
        rw [legacyAddress, ← isSet_of_getD_eq (hKept hPrimary), if_pos hSet, hKept hPrimary]
    · exact absurd hMem List.not_mem_nil
  have hLegacy : ls.primary.tag ∉ granted'.map Listener.tag →
      legacyAddress p account.settings = some x →
        x ∈ Bandwidth.valueOf p settings "address" := by
    intro hPrimary hSome
    unfold legacyAddress at hSome
    split at hSome
    · rename_i hSet
      rw [Bandwidth.valueOf, isSet_of_getD_eq (hKept hPrimary), if_pos hSet, hKept hPrimary]
      exact List.mem_singleton.mpr (Option.some.inj hSome).symm
    · cases hSome
  rw [List.mem_append, hValues]
  unfold brought found
  simp only [List.mem_append, List.mem_map, List.mem_filterMap, List.mem_filter, decide_eq_true_eq]
  constructor
  · rintro ((⟨tag, hTag, hGet⟩ | hInbound) | hMem)
    · exact Or.inl (Or.inl (Or.inl ⟨(tag, x), ⟨Dict.mem_entries_iff.mpr hGet, by
        simpa using hTag⟩, rfl⟩))
    · obtain ⟨l, hl, hA⟩ := hInbound
      rcases assigned_ok_iff.mp hA with hOwn | ⟨hNone, hFree⟩
      · exact Or.inl (Or.inl (Or.inr ⟨l, hl, hOwn⟩))
      · exact Or.inr ⟨l, ⟨hl, by rw [hNone]; rfl⟩, hFree⟩
    · rcases hBeside hMem with ⟨hPrimary, hSome⟩ | ⟨l, hl, hA⟩
      · refine Or.inl (Or.inr ?_)
        rw [if_neg (by simpa using hPrimary), hSome]
        exact List.mem_singleton.mpr rfl
      · rcases assigned_ok_iff.mp hA with hOwn | ⟨hNone, hFree⟩
        · exact Or.inl (Or.inl (Or.inr ⟨l, hl, hOwn⟩))
        · exact Or.inr ⟨l, ⟨hl, by rw [hNone]; rfl⟩, hFree⟩
  · rintro (((⟨⟨tag, y⟩, ⟨hMem, hTag⟩, hEq⟩ | ⟨l, hl, hOwn⟩) | hMem) | ⟨l, ⟨hl, hNone⟩, hFree⟩)
    · obtain rfl : y = x := hEq
      exact Or.inl (Or.inl ⟨tag, by simpa using hTag, Dict.mem_entries_iff.mp hMem⟩)
    · exact Or.inl (Or.inr ⟨l, hl, assigned_ok_iff.mpr (Or.inl hOwn)⟩)
    · split at hMem
      · exact absurd hMem List.not_mem_nil
      · rename_i hPrimary
        exact Or.inr (hLegacy (by simpa using hPrimary) (Option.mem_toList.mp hMem))
    · exact Or.inl (Or.inr ⟨l, hl, assigned_ok_iff.mpr
        (Or.inr ⟨Option.isNone_iff_eq_none.mp hNone, hFree⟩)⟩)

end Sources

end ZagrosNode.WireGuard

namespace ZagrosNode.Accounts

open ZagrosNode.Lib ZagrosNode.Cores

-- ---------------------------------------------------------------------------
-- OpenVPN
-- ---------------------------------------------------------------------------

namespace OpenVpn

/-- The addresses found for an account, each with the pool it is from. An
address the account has in a pool counts as used for the pools after it, and
so does one that has just been found. -/
def foundIn (p : Platform) (userId : Int) (assigned : Raw) :
    List Pool → (used : List String) → List (String × String)
  | [], _ => []
  | pool :: rest, used =>
    match (Json.get? assigned pool.tag).filter Json.truthy with
    | some v => foundIn p userId assigned rest (p.str v :: used)
    | none   =>
      match firstFree pool.candidates (seed userId pool) used with
      | some a => (pool.tag, a) :: foundIn p userId assigned rest (a :: used)
      | none   => []

/-- What an account brings, and what is found for it in the pools. An entry
that is empty is replaced by what is found. -/
def broughtAndFound (p : Platform) (pools : List Pool) (roster : Roster) (account : UserAccount) :
    List String × List String :=
  match assignedAddresses account.settings with
  | .error _     => ([], [])
  | .ok assigned =>
    let found := foundIn p account.userId assigned pools (usedAddresses p roster)
    (((assigned.filter fun e => decide (e.1 ∉ found.map Prod.fst)).map fun e => p.str e.2),
      found.map Prod.snd)

section Pools

variable {p : Platform} {userId : Int}

/-- The search looks at the entries of the pools only. -/
theorem foundIn_congr {assigned assigned' : Raw} {pools : List Pool}
    (hSame : ∀ pool ∈ pools, Json.get? assigned' pool.tag = Json.get? assigned pool.tag)
    (used : List String) : foundIn p userId assigned' pools used =
      foundIn p userId assigned pools used := by
  induction pools generalizing used with
  | nil => rfl
  | cons pool rest ih =>
    have hRest := fun used => ih (fun other hOther => hSame other (List.mem_cons_of_mem _ hOther)) used
    rw [foundIn, foundIn, hSame pool List.mem_cons_self]
    simp only [hRest]

theorem mem_foundIn {assigned : Raw} {pools : List Pool} {used : List String}
    {tag a : String} (h : (tag, a) ∈ foundIn p userId assigned pools used) :
    tag ∈ pools.map Pool.tag := by
  induction pools generalizing used with
  | nil => cases h
  | cons pool rest ih =>
    rw [foundIn] at h
    cases hHas : (Json.get? assigned pool.tag).filter Json.truthy with
    | some v =>
      rw [hHas] at h
      exact List.mem_cons_of_mem _ (ih h)
    | none =>
      rw [hHas] at h
      cases hFree : firstFree pool.candidates (seed userId pool) used with
      | none =>
        rw [hFree] at h
        cases h
      | some b =>
        rw [hFree] at h
        rcases List.mem_cons.mp h with hEq | hMem
        · rw [(Prod.mk.inj hEq).1]
          exact List.mem_cons_self
        · exact List.mem_cons_of_mem _ (ih hMem)

/-- The loop writes what is found over the entries there are, and keeps the
keys apart. -/
theorem assignPools_ok {pools : List Pool} (hTags : (pools.map Pool.tag).Nodup)
    {used : List String} {assigned result : Raw}
    (h : assignPools p userId pools used assigned = .ok result) :
    result = (foundIn p userId assigned pools used).foldl
      (fun entries e => assocSet e.1 (.str e.2) entries) assigned := by
  induction pools generalizing used assigned with
  | nil => exact (Except.ok.inj h).symm
  | cons pool rest ih =>
    rw [List.map_cons, List.nodup_cons] at hTags
    rw [assignPools] at h
    rw [foundIn]
    cases hHas : (Json.get? assigned pool.tag).filter Json.truthy with
    | some v =>
      rw [hHas] at h
      exact ih hTags.2 h
    | none =>
      rw [hHas] at h
      simp only at h ⊢
      split at h
      · cases h
      · cases hFree : firstFree pool.candidates (seed userId pool) used with
        | none =>
          rw [hFree] at h
          cases h
        | some a =>
          rw [hFree] at h
          -- the other pools have other tags, so they do not see the new entry
          have hOthers : ∀ other ∈ rest, Json.get? (assocSet pool.tag (.str a) assigned) other.tag =
              Json.get? assigned other.tag := by
            intro other hOther
            have hNe : pool.tag ≠ other.tag := fun hEq =>
              hTags.1 (hEq ▸ List.mem_map.mpr ⟨other, hOther, rfl⟩)
            rw [Json.get?_assocSet, if_neg hNe]
          rw [ih hTags.2 h, foundIn_congr hOthers]
          rfl

theorem foundIn_nodup {assigned : Raw} {pools : List Pool} (hTags : (pools.map Pool.tag).Nodup)
    (used : List String) : ((foundIn p userId assigned pools used).map Prod.fst).Nodup := by
  induction pools generalizing used with
  | nil => exact List.nodup_nil
  | cons pool rest ih =>
    rw [List.map_cons, List.nodup_cons] at hTags
    rw [foundIn]
    cases (Json.get? assigned pool.tag).filter Json.truthy with
    | some v => exact ih hTags.2 _
    | none =>
      cases firstFree pool.candidates (seed userId pool) used with
      | none => exact List.nodup_nil
      | some a =>
        refine List.nodup_cons.mpr ⟨fun hMem => ?_, ih hTags.2 _⟩
        obtain ⟨⟨tag, b⟩, hIn, hEq⟩ := List.mem_map.mp hMem
        obtain rfl : tag = pool.tag := hEq
        exact hTags.1 (mem_foundIn hIn)

/-- The values after some entries are written: those of the new entries, and
those of the old ones under other keys. -/
theorem mem_values_foldl {entries : List (String × String)}
    (hNodup : (entries.map Prod.fst).Nodup) {assigned : Raw}
    (hKeys : (assigned.map Prod.fst).Nodup) (x : String) :
    x ∈ (entries.foldl (fun acc e => assocSet e.1 (Json.str e.2) acc) assigned).map
        (fun e => p.str e.2) ↔
      x ∈ (assigned.filter fun e => decide (e.1 ∉ entries.map Prod.fst)).map
          (fun e => p.str e.2) ∨ x ∈ entries.map Prod.snd := by
  induction entries generalizing assigned with
  | nil => simp
  | cons e rest ih =>
    obtain ⟨key, a⟩ := e
    rw [List.map_cons, List.nodup_cons] at hNodup
    rw [List.foldl_cons, ih hNodup.2 (assocSet_nodup hKeys)]
    -- one write: the new entry stands under its key, the others are as they were
    have hWritten : ∀ e', e' ∈ assocSet key (Json.str a) assigned ↔
        e' = (key, Json.str a) ∨ (e' ∈ assigned ∧ e'.1 ≠ key) := by
      rintro ⟨key', v⟩
      have hGet : (key', v) ∈ assocSet key (Json.str a) assigned ↔
          assocGet? key' (assocSet key (Json.str a) assigned) = some v :=
        ⟨assocGet?_of_mem (assocSet_nodup hKeys), assocGet?_mem⟩
      have hOld : (key', v) ∈ assigned ↔ assocGet? key' assigned = some v :=
        ⟨assocGet?_of_mem hKeys, assocGet?_mem⟩
      rw [hGet, assocGet?_set, hOld]
      by_cases hKey : key = key'
      · subst hKey
        simp [eq_comm]
      · simp [hKey, Ne.symm hKey]
    simp only [List.mem_map, List.mem_filter, decide_eq_true_eq, hWritten, List.map_cons,
      List.mem_cons, not_or]
    constructor
    · rintro (⟨e', ⟨rfl | ⟨hMem, hNe⟩, hNot⟩, rfl⟩ | hNew)
      · exact Or.inr (Or.inl rfl)
      · exact Or.inl ⟨e', ⟨hMem, hNe, hNot⟩, rfl⟩
      · exact Or.inr (Or.inr hNew)
    · rintro (⟨e', ⟨hMem, hNe, hNot⟩, rfl⟩ | rfl | hNew)
      · exact Or.inl ⟨e', ⟨Or.inr ⟨hMem, hNe⟩, hNot⟩, rfl⟩
      -- the entry just written survives, because its key is not among the later ones
      · refine Or.inl ⟨(key, .str x), ⟨Or.inl rfl, fun hIn => hNodup.1 ?_⟩, rfl⟩
        obtain ⟨e', hIn, hEq⟩ := hIn
        exact List.mem_map.mpr ⟨e', hIn, hEq⟩
      · exact Or.inr hNew

theorem assignedAddresses_nodup {settings : Settings} {assigned : Raw}
    (h : assignedAddresses settings = .ok assigned) : (assigned.map Prod.fst).Nodup := by
  unfold assignedAddresses at h
  split at h
  · rw [← Except.ok.inj h]
    exact (Dict.ofPairs _).nodup
  · rename_i xs _
    cases hPairs : xs.mapM pairOf with
    | error e =>
      rw [hPairs] at h
      cases h
    | ok pairs =>
      rw [hPairs] at h
      rw [← Except.ok.inj h]
      exact (Dict.ofPairs _).nodup
  · cases h

/-- The addresses OpenVPN gives an account. -/
theorem mem_addresses_iff {pools : List Pool} (hTags : (pools.map Pool.tag).Nodup)
    {roster : Roster} {account : UserAccount} {result : Raw}
    (h : addresses p pools roster account = .ok result) (x : String) :
    x ∈ result.map (fun e => p.str e.2) ↔
      x ∈ (broughtAndFound p pools roster account).1 ++
        (broughtAndFound p pools roster account).2 := by
  unfold addresses at h
  unfold broughtAndFound
  cases hAssigned : assignedAddresses account.settings with
  | error e =>
    rw [hAssigned] at h
    cases h
  | ok assigned =>
    rw [hAssigned] at h
    rw [assignPools_ok hTags h, mem_values_foldl (foundIn_nodup hTags _)
      (assignedAddresses_nodup hAssigned), List.mem_append]

end Pools

end OpenVpn

end ZagrosNode.Accounts

namespace ZagrosNode.Bandwidth

open ZagrosNode.Lib ZagrosNode.Cores ZagrosNode.Accounts ZagrosNode.Startup Op

-- ---------------------------------------------------------------------------
-- All drivers
-- ---------------------------------------------------------------------------

section Origins

variable (p : Platform) (layout : Layout) (d : Driver) (core : CoreId) (account : UserAccount)

/-- The addresses an account brings. -/
def brought : List String :=
  match core with
  | .wireguard =>
    match WireGuard.grantedListeners p layout.listeners account.settings with
    | .ok granted => WireGuard.brought p layout.library layout.listeners account.settings granted
    | .error _    => []
  | .openvpn   => (OpenVpn.broughtAndFound p layout.pools d.roster account).1
  | .pptp      => valueOf p account.settings "assigned_ipv4"
  | _          => []

/-- The addresses that are found for an account: the first free ones, as the
driver lists its accounts before the push. -/
def found : List String :=
  match core with
  | .wireguard =>
    match WireGuard.grantedListeners p layout.listeners account.settings with
    | .ok granted =>
      WireGuard.found p layout.library layout.listeners layout.chain d.roster account granted
    | .error _    => []
  | .openvpn   => (OpenVpn.broughtAndFound p layout.pools d.roster account).2
  | .pptp      =>
    match Pptp.address p layout.pptpPool d.roster account with
    | .ok a    => a.toList
    | .error _ => []
  | _          => []

end Origins

theorem valuesOf_dict {p : Platform} {settings : Settings} {key : String} {entries : Raw}
    (h : Json.getD settings key = .dict entries) :
    valuesOf p settings key = .ok (entries.map fun e => p.str e.2) := by
  rw [valuesOf, h]
  cases entries <;> rfl

section Completed

variable {p : Platform} {layout : Layout} {draw : Draw} {core : CoreId} {d : Driver}
  {accounts : List UserAccount} {a b : UserAccount}

/--
**What an account is listed with.** A driver lists a completed account with the
addresses it brings and with those that are found for it; which they are is
settled before the account is filed, by the accounts that are filed already.
Four of the drivers list none.
-/
theorem completed_sources (hServed : a ∈ served d.settings accounts core)
    (hOk : completed p (hostOf p layout draw core) d core a = .ok b) :
    ∃ sources, innerSources p core b.settings = .ok sources ∧
      ∀ x, x ∈ sources ↔ x ∈ brought p layout d core a ++ found p layout d core a := by
  cases core with
  -- the assigned addresses are the values of one dictionary
  | openvpn =>
    have hServes : OpenVpn.serves a.protocol = true := (List.mem_filter.mp hServed).2
    obtain ⟨settings, hAddress, rfl⟩ := (OpenVpn.prepare_ok_iff hServes).mp hOk
    obtain ⟨assigned, hAssigned, rfl⟩ := openvpn_ensured_iff.mp hAddress
    exact ⟨_, valuesOf_dict (Json.getD_assocSet_self _ _ _),
      OpenVpn.mem_addresses_iff layout.pools_nodup hAssigned⟩
  -- the table of the inbounds, with the granted ones written into it
  | wireguard =>
    obtain ⟨-, settings, hKeys, rfl⟩ := WireGuard.prepare_ok_iff.mp hOk
    obtain ⟨entries, hTable⟩ := WireGuard.provisionKeys_table hKeys
    obtain ⟨-, granted, hGranted, -, -⟩ := WireGuard.provisionKeys_ok hKeys
    refine ⟨_, by rw [innerSources, valuesOf_dict hTable]; rfl, fun x => ?_⟩
    rw [brought, found, hGranted]
    exact WireGuard.mem_listed_iff hKeys hGranted hTable x
  -- one address, and the password minted before it does not touch it
  | pptp =>
    obtain ⟨settings, hAddress, rfl, -⟩ := Pptp.prepare_ok_iff.mp hOk
    obtain ⟨free, hFree, rfl⟩ := pptp_ensured_iff.mp hAddress
    refine ⟨_, rfl, fun x => ?_⟩
    rw [brought, found, hFree]
    have hOwn : Json.getD (mintPassword (hostOf p layout draw .pptp) a).settings "assigned_ipv4" =
        Json.getD a.settings "assigned_ipv4" := getD_mintPassword (by decide) _ a
    rcases Pptp.address_ok hFree with ⟨rfl, -⟩ | ⟨hMissing, pool, hPool, y, hy, rfl⟩
    · -- no address was looked for
      show x ∈ valueOf p (mintPassword _ a).settings "assigned_ipv4" ↔ _
      rw [valueOf, valueOf, isSet_of_getD_eq hOwn, hOwn]
      simp only [Option.toList_none, List.append_nil]
    -- a free address is never the empty text, so the driver lists it
    · have hNonempty : y ≠ "" := fun hEmpty => layout.pptpPool_kept pool hPool (hEmpty ▸ hy)
      have hSet : isSet (Pptp.addressed (mintPassword (hostOf p layout draw .pptp) a).settings
          (some y)) "assigned_ipv4" = true := by
        rw [isSet, Pptp.addressed, Json.getD_assocSet_self]
        simpa [Json.truthy] using hNonempty
      rw [valueOf, if_pos hSet, valueOf, if_neg (by rw [hMissing]; decide), Pptp.addressed,
        Json.getD_assocSet_self]
      rfl
  -- the other drivers list no inner address
  | _ => exact ⟨[], rfl, fun x => Iff.rfl⟩

end Completed

end ZagrosNode.Bandwidth
