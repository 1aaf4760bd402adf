import Mathlib.Data.List.Rotate
import ZagrosNode.Accounts.Drivers

/-!
# ZagrosNode — addresses for the limiter

OpenVPN and PPTP give an account a tunnel address, by which the limiter knows
its traffic: the first address of the pool no other account has, counted from
a place that depends on the user. An account that comes with an address keeps
it.

Whose addresses count as taken are the accounts the driver lists at that time.

`firstFree` is the search of both drivers: from the place that belongs to the user, once
around the pool. What it finds depends on the addresses that count as used, so an
account gets another address when other accounts are listed.

In a replay no account is listed, and fewer addresses are used. A search that found one
then finds one now (`firstFree_fewer`), perhaps another one; that is what
`addresses_again` and `address_again` say for the two drivers. What the addresses are,
and that they are the same under equal conditions, are the `congr` lemmas.

OpenVPN has an address for every listener, kept in one object; PPTP has one listener and
one address.

Main results:

* `OpenVpn.addresses_again` / `Pptp.address_again` — a driver that lists no
  account has an address wherever one that lists some has.
-/

namespace ZagrosNode.Accounts

open ZagrosNode.Lib ZagrosNode.Cores

/-- A listener with the client addresses of its subnet. -/
structure Pool where
  tag        : String
  candidates : List String

/-- The first candidate that is not used, counted from `start`. -/
def firstFree (candidates : List String) (start : Nat) (used : List String) : Option String :=
  (candidates.rotate start).find? fun a => decide (a ∉ used)

/-- With fewer addresses used there is a free one as well; it is another one
only where that was used. -/
theorem firstFree_fewer {candidates : List String} {start : Nat} {used used' : List String}
    {a : String} (hFewer : used' ⊆ used) (h : firstFree candidates start used = some a) :
    ∃ b, firstFree candidates start used' = some b ∧ (b = a ∨ b ∈ used) := by
  unfold firstFree at h ⊢
  generalize candidates.rotate start = order at h ⊢
  induction order with
  | nil => cases h
  | cons x rest ih =>
    by_cases hUsed' : x ∈ used'
    · -- skipped both times
      rw [List.find?_cons_of_neg (by simpa using hUsed')]
      rw [List.find?_cons_of_neg (by simpa using hFewer hUsed')] at h
      exact ih h
    · refine ⟨x, List.find?_cons_of_pos (by simpa using hUsed'), ?_⟩
      by_cases hUsed : x ∈ used
      · exact Or.inr hUsed
      · rw [List.find?_cons_of_pos (by simpa using hUsed)] at h
        exact Or.inl (Option.some.inj h)

-- ---------------------------------------------------------------------------
-- OpenVPN
-- ---------------------------------------------------------------------------

namespace OpenVpn

/-- One element of a list that is turned into a dictionary. -/
def pairOf : Json → Except DriverError (String × Json)
  | .list [.str key, v] => .ok (key, v)
  | .str s =>
    match s.toList with
    | [a, b] => .ok (a.toString, .str b.toString)
    | _      => .error (.other "dictionary update sequence element has the wrong length")
  | _ => .error (.other "cannot convert dictionary update sequence element")

/-- `dict(settings.get("bandwidth_ipv4") or {})`. An object has no key twice,
so making a dictionary of its entries leaves them as they are. -/
def assignedAddresses (settings : Settings) : Except DriverError Raw :=
  match (Json.getD settings "bandwidth_ipv4").or (.dict []) with
  | .dict entries => .ok (Dict.ofPairs entries).entries
  | .list xs      => (xs.mapM pairOf).map fun pairs => (Dict.ofPairs pairs).entries
  | _             => .error (.other "object is not iterable")

/-- The addresses of all listed accounts. -/
def usedAddresses (p : Platform) (roster : Roster) : List String :=
  roster.table.values.flatMap fun other =>
    match Json.getD other.settings "bandwidth_ipv4" with
    | .dict entries => entries.map fun e => p.str e.2
    | _             => []

/-- Where the search in a pool starts. -/
def seed (userId : Int) (pool : Pool) : Nat :=
  ((userId * 131 + ((pool.tag.toUTF8.toList.map UInt8.toNat).sum : Nat)) %
    (pool.candidates.length : Int)).toNat

/-- The loop over the listeners. -/
def assignPools (p : Platform) (userId : Int) :
    List Pool → (used : List String) → (assigned : Raw) → Except DriverError Raw
  | [], _, assigned => .ok assigned
  | pool :: rest, used, assigned =>
    match (Json.get? assigned pool.tag).filter Json.truthy with
    | some v => assignPools p userId rest (p.str v :: used) assigned
    | none   =>
      if pool.candidates.isEmpty then
        .error (.core s!"OpenVPN listener '{pool.tag}' has no client address slots")
      else
        match firstFree pool.candidates (seed userId pool) used with
        | some a => assignPools p userId rest (a :: used) (assocSet pool.tag (.str a) assigned)
        | none   => .error (.core s!"OpenVPN listener '{pool.tag}' address pool exhausted")

/-- The addresses an account gets. -/
def addresses (p : Platform) (pools : List Pool) (roster : Roster) (account : UserAccount) :
    Except DriverError Raw :=
  match assignedAddresses account.settings with
  | .error e     => .error e
  | .ok assigned => assignPools p account.userId pools (usedAddresses p roster) assigned

/-- `_ensure_bandwidth_addresses` -/
def ensureBandwidthAddresses (p : Platform) (pools : List Pool) (roster : Roster)
    (account : UserAccount) : Except DriverError Settings :=
  (addresses p pools roster account).map fun assigned =>
    assocSet "bandwidth_ipv4" (.dict assigned) account.settings

theorem assignPools_fewer {p : Platform} {userId : Int} {pools : List Pool}
    (hTags : (pools.map Pool.tag).Nodup) {used used' : List String} (hFewer : used' ⊆ used)
    {assigned assigned' : Raw}
    (hSame : ∀ pool ∈ pools, Json.get? assigned' pool.tag = Json.get? assigned pool.tag)
    (h : ∃ r, assignPools p userId pools used assigned = .ok r) :
    ∃ r, assignPools p userId pools used' assigned' = .ok r := by
  induction pools generalizing used used' assigned assigned' with
  | nil => exact ⟨assigned', rfl⟩
  | cons pool rest ih =>
    rw [List.map_cons, List.nodup_cons] at hTags
    have hRest : ∀ other ∈ rest,
        Json.get? assigned' other.tag = Json.get? assigned other.tag :=
      fun other hOther => hSame other (List.mem_cons_of_mem pool hOther)
    rw [assignPools] at h ⊢
    rw [hSame pool List.mem_cons_self]
    -- an assigned address is kept, and is one more in use on both sides
    cases hHas : (Json.get? assigned pool.tag).filter Json.truthy with
    | some v =>
      rw [hHas] at h
      exact ih hTags.2 (List.cons_subset_cons (p.str v) hFewer) hRest h
    | none =>
      rw [hHas] at h
      simp only at h ⊢
      by_cases hEmpty : pool.candidates.isEmpty = true
      · rw [if_pos hEmpty] at h
        obtain ⟨r, hError⟩ := h
        cases hError
      · rw [if_neg hEmpty] at h ⊢
        cases hFree : firstFree pool.candidates (seed userId pool) used with
        | none =>
          rw [hFree] at h
          obtain ⟨r, hError⟩ := h
          cases hError
        | some a =>
          rw [hFree] at h
          obtain ⟨b, hFree', hEither⟩ := firstFree_fewer hFewer hFree
          rw [hFree']
          refine ih hTags.2 ?_ (fun other hOther => ?_) h
          · intro x hx
            rcases List.mem_cons.mp hx with rfl | hOld
            · exact hEither.elim (fun hEq => hEq ▸ List.mem_cons_self) (List.mem_cons_of_mem a)
            · exact List.mem_cons_of_mem a (hFewer hOld)
          · -- the other pools have other tags
            have hNe : pool.tag ≠ other.tag := fun hEq =>
              hTags.1 (hEq ▸ List.mem_map.mpr ⟨other, hOther, rfl⟩)
            rw [Json.get?_assocSet, Json.get?_assocSet, if_neg hNe, if_neg hNe, hRest other hOther]

theorem addresses_again {p : Platform} {pools : List Pool} (hTags : (pools.map Pool.tag).Nodup)
    {roster : Roster} {account : UserAccount}
    (h : ∃ r, addresses p pools roster account = .ok r) :
    ∃ r, addresses p pools Roster.empty account = .ok r := by
  unfold addresses at h ⊢
  cases hOwn : assignedAddresses account.settings with
  | error e =>
    rw [hOwn] at h
    obtain ⟨r, hError⟩ := h
    cases hError
  | ok assigned =>
    rw [hOwn] at h
    have hNone : usedAddresses p Roster.empty = [] := rfl
    rw [hNone]
    exact assignPools_fewer hTags (List.nil_subset _) (fun _ _ => rfl) h

/-- A password does not matter for the addresses. -/
theorem addresses_congr {p : Platform} {pools : List Pool} {roster : Roster}
    {a b : UserAccount} (hUser : b.userId = a.userId)
    (hOwn : Json.getD b.settings "bandwidth_ipv4" = Json.getD a.settings "bandwidth_ipv4") :
    addresses p pools roster b = addresses p pools roster a := by
  rw [addresses, addresses, assignedAddresses, assignedAddresses, hOwn, hUser]

end OpenVpn

-- ---------------------------------------------------------------------------
-- PPTP
-- ---------------------------------------------------------------------------

namespace Pptp

/-- The addresses of all listed accounts. -/
def usedAddresses (p : Platform) (roster : Roster) : List String :=
  (roster.table.values.filter fun other => isSet other.settings "assigned_ipv4").map fun other =>
    p.str (Json.getD other.settings "assigned_ipv4")

/-- The address an account gets from the pool of the listener, if there is a
listener and the account has no address. -/
def address (p : Platform) (pool : Option (List String)) (roster : Roster)
    (account : UserAccount) : Except DriverError (Option String) :=
  if isSet account.settings "assigned_ipv4" then .ok none
  else
    match pool with
    | none            => .ok none
    | some candidates =>
      if candidates.isEmpty then
        .error (.core "PPTP subnet has no address available for bandwidth identity")
      else
        let start := ((max 1 account.userId - 1) % (candidates.length : Int)).toNat
        match firstFree candidates start (usedAddresses p roster) with
        | some a => .ok (some a)
        | none   => .error (.core "PPTP address pool exhausted")

/-- The settings with the address, if there is a new one. -/
def addressed (settings : Settings) : Option String → Settings
  | some a => assocSet "assigned_ipv4" (.str a) settings
  | none   => settings

/-- `_ensure_bandwidth_address` -/
def ensureBandwidthAddress (p : Platform) (pool : Option (List String)) (roster : Roster)
    (account : UserAccount) : Except DriverError Settings :=
  (address p pool roster account).map (addressed account.settings)

theorem getD_addressed {key : String} (hKey : "assigned_ipv4" ≠ key) (settings : Settings)
    (a : Option String) : Json.getD (addressed settings a) key = Json.getD settings key := by
  cases a with
  | none => rfl
  | some a => exact Json.getD_assocSet_of_ne hKey _ _

/-- An address is given only where there is none, and only from the pool. -/
theorem address_ok {p : Platform} {pool : Option (List String)} {roster : Roster}
    {account : UserAccount} {a : Option String} (h : address p pool roster account = .ok a) :
    (a = none ∧ (isSet account.settings "assigned_ipv4" = true ∨ pool = none)) ∨
      (isSet account.settings "assigned_ipv4" = false ∧
        ∃ candidates, pool = some candidates ∧ ∃ x ∈ candidates, a = some x) := by
  unfold address at h
  cases hOwn : isSet account.settings "assigned_ipv4" with
  | true =>
    rw [hOwn, if_pos rfl] at h
    exact Or.inl ⟨(Except.ok.inj h).symm, Or.inl rfl⟩
  | false =>
    rw [hOwn, if_neg Bool.false_ne_true] at h
    cases pool with
    | none => exact Or.inl ⟨(Except.ok.inj h).symm, Or.inr rfl⟩
    | some candidates =>
      simp only at h
      split at h
      · cases h
      · split at h
        · rename_i x hFree
          have hMem := List.mem_rotate.mp (List.mem_of_find?_eq_some hFree)
          exact Or.inr ⟨rfl, candidates, rfl, x, hMem, (Except.ok.inj h).symm⟩
        · cases h

theorem address_again {p : Platform} {pool : Option (List String)} {fallback : List String}
    (hFallback : fallback ≠ []) {roster : Roster} {account : UserAccount}
    (h : ∃ r, address p pool roster account = .ok r) :
    ∃ r, address p (some (pool.getD fallback)) Roster.empty account = .ok r := by
  -- with nothing in use the first candidate is free
  have hFree : ∀ {candidates : List String} (start : Nat), candidates ≠ [] →
      ∃ a, firstFree candidates start [] = some a := by
    intro candidates start hSome
    unfold firstFree
    cases hList : candidates.rotate start with
    | nil => exact absurd (List.rotate_eq_nil_iff.mp hList) hSome
    | cons x rest => exact ⟨x, List.find?_cons_of_pos (by simp)⟩
  have hUsed : usedAddresses p Roster.empty = [] := rfl
  unfold address at h ⊢
  cases hOwn : isSet account.settings "assigned_ipv4" with
  | true => exact ⟨none, rfl⟩
  | false =>
    rw [if_neg Bool.false_ne_true, hUsed]
    -- a pool that has given an address is not empty
    have hSome : pool.getD fallback ≠ [] := by
      cases pool with
      | none => exact hFallback
      | some candidates =>
        rintro rfl
        rw [hOwn] at h
        obtain ⟨r, hError⟩ := h
        cases hError
    obtain ⟨a, hA⟩ := hFree (((max 1 account.userId - 1) %
      ((pool.getD fallback).length : Int)).toNat) hSome
    simp only [List.isEmpty_eq_false_iff.mpr hSome, hA]
    exact ⟨some a, rfl⟩

/-- A password does not matter for the address. -/
theorem address_congr {p : Platform} {pool : Option (List String)} {roster : Roster}
    {a b : UserAccount} (hUser : b.userId = a.userId)
    (hOwn : Json.getD b.settings "assigned_ipv4" = Json.getD a.settings "assigned_ipv4") :
    address p pool roster b = address p pool roster a := by
  unfold address
  rw [isSet_of_getD_eq hOwn, hUser]

end Pptp

end ZagrosNode.Accounts
