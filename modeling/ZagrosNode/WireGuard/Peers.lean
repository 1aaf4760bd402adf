import ZagrosNode.Accounts.Sync
import ZagrosNode.Lib.Ini

/-!
# ZagrosNode — WireGuard accounts as peers

`_provision_keys` completes the settings of an account: a key pair and a
preshared key where there are none, and for every inbound the account is
granted a tunnel address, the one it has if that is in the inbound's subnet.
`_desired_peers` makes peers of the accounts for one interface. The public key
is checked; the preshared key and the account's id are taken as they are.

The key generator and the address library are parameters, and so is the key
pair of the peer the driver keeps for itself. A free address is the first host
of the subnet that nobody has, after the one the server takes.

What provisioning leaves behind is in `WireGuard/Provisioned.lean`.

* **Keys.** The pair is made if one of the two is missing, so an account that came with
  a private key only gets another one. The preshared key is made if some granted inbound
  asks for it and there is none.
* **Addresses.** They are in a table by the tag of the inbound, and the address of the
  first inbound also stands where an older version had the only one. `addressFor` reads
  the one and then the other. What counts as taken is read from all listed accounts, the
  account itself excepted.
* **Choice.** `allocate` is the search of `allocate_address`: the hosts in their order,
  without the first, which the server has. The library gives the hosts of a subnet, and
  their texts are distinct.
* **Peers.** An account is on an interface if it is enabled, granted the inbound and has
  an address and a public key. Its allowed address is the table's.
-/

namespace ZagrosNode.WireGuard

open ZagrosNode.Lib ZagrosNode.Cores ZagrosNode.Accounts

-- ---------------------------------------------------------------------------
-- Data
-- ---------------------------------------------------------------------------

/-- An inbound: one kernel interface. -/
structure Listener where
  tag              : String
  subnet           : String
  port             : Nat
  usePresharedKeys : Bool
  enableNat        : Bool

/-- `_listeners()`. `_validate_listener_set` refuses an empty set and two
inbounds of one name; the first one is the primary. -/
structure Listeners where
  primary    : Listener
  others     : List Listener
  tags_nodup : ((primary :: others).map Listener.tag).Nodup

def Listeners.all (ls : Listeners) : List Listener := ls.primary :: ls.others

theorem Listeners.eq_of_tag {ls : Listeners} {a b : Listener} (hA : a ∈ ls.all) (hB : b ∈ ls.all)
    (h : a.tag = b.tag) : a = b := List.inj_on_of_nodup_map ls.tags_nodup hA hB h

/-- Panel-desired state of one peer. -/
structure DesiredPeer where
  comment      : String
  publicKey    : String
  allowedIps   : List String
  presharedKey : Option String

/-- The peer of the driver itself, which only the first inbound has. Its key
comes from the key generator and its address from the pool. -/
structure ChainPeer where
  publicKey       : String
  allowedIps      : List String
  publicKey_kept  : Ini.Kept publicKey.toList
  allowedIps_kept : allowedIps ≠ [] ∧ ∀ a ∈ allowedIps, Ini.KeptInList a.toList

def ChainPeer.peer (c : ChainPeer) : DesiredPeer :=
  { comment := "_zg-chain", publicKey := c.publicKey, allowedIps := c.allowedIps,
    presharedKey := none }

/-- `wg genkey` and `wg genpsk`. Keys are base64 text. -/
structure KeyGenerator where
  keypair   : UserAccount → String × String
  preshared : UserAccount → String
  keypair_oneLine : ∀ account, '\n' ∉ (keypair account).2.toList
  preshared_kept  : ∀ account, preshared account ≠ "" ∧ Ini.Kept (preshared account).toList

/-- `ip_network(subnet, strict=False)`: the texts of its hosts in their order,
and the length of the prefix of a single address. -/
structure Network where
  hosts        : List String
  maxPrefixlen : Nat

/-- The functions of the address library. The text of an address has neither
blanks nor commas in it. -/
structure AddressLibrary where
  /-- `ip_interface(current).ip in ip_network(subnet, strict=False)` -/
  inSubnet : (current subnet : String) → Bool
  /-- `ip_network(subnet, strict=False)`, or what it raises -/
  network  : (subnet : String) → Except DriverError Network
  inSubnet_empty : ∀ subnet, inSubnet "" subnet = false
  hosts_plain    : ∀ {subnet net}, network subnet = .ok net →
    ∀ host ∈ net.hosts, ∀ c ∈ host.toList, isSpace c = false ∧ c ≠ ','

/-- `f"{host}/{network.max_prefixlen}"` -/
def Network.candidate (net : Network) (host : String) : String :=
  host ++ "/" ++ toString net.maxPrefixlen

/-- `allocate_address`: the first host that is not taken, after the one of the
server. -/
def AddressLibrary.allocate (lib : AddressLibrary) (subnet : String) (taken : List String) :
    Except DriverError String :=
  match lib.network subnet with
  | .error e => .error e
  | .ok net  =>
    match net.hosts with
    | []        => .error (.other s!"subnet {subnet} has no usable host addresses")
    | _ :: rest =>
      match (rest.map net.candidate).find? fun a => decide (a ∉ taken) with
      | some a => .ok a
      | none   => .error (.other s!"subnet {subnet} exhausted — no free peer addresses")

/-- The addresses `allocate_address` chooses from, in their order. -/
def AddressLibrary.candidates (lib : AddressLibrary) (subnet : String) : List String :=
  match lib.network subnet with
  | .ok net  => net.hosts.tail.map net.candidate
  | .error _ => []

/-- What it gives is the first candidate that is not taken. -/
theorem AddressLibrary.allocate_ok_iff {lib : AddressLibrary} {subnet : String}
    {taken : List String} {a : String} :
    lib.allocate subnet taken = .ok a ↔
      (lib.candidates subnet).find? (fun a => decide (a ∉ taken)) = some a := by
  unfold allocate candidates
  cases lib.network subnet with
  | error e => exact iff_of_false (fun h => by cases h) (fun h => by cases h)
  | ok net =>
    obtain ⟨hosts, maxPrefixlen⟩ := net
    cases hosts with
    | nil => exact iff_of_false (fun h => by cases h) (fun h => by cases h)
    | cons server rest =>
      simp only [List.tail_cons]
      cases (rest.map (Network.candidate ⟨server :: rest, maxPrefixlen⟩)).find?
          fun a => decide (a ∉ taken) with
      | none => exact iff_of_false (fun h => by cases h) (fun h => by cases h)
      | some b => exact ⟨fun h => congrArg some (Except.ok.inj h),
          fun h => congrArg Except.ok (Option.some.inj h)⟩

/-- The text of a candidate is in one piece. -/
theorem Network.candidate_kept {net : Network} {host : String}
    (h : ∀ c ∈ host.toList, isSpace c = false ∧ c ≠ ',') :
    net.candidate host ≠ "" ∧ Ini.KeptInList (net.candidate host).toList := by
  have hChars : ∀ c ∈ (net.candidate host).toList, isSpace c = false ∧ c ≠ ',' := by
    intro c hc
    rw [candidate, String.toList_append, String.toList_append, List.mem_append,
      List.mem_append] at hc
    rcases hc with (hHost | hSlash) | hDigit
    · exact h c hHost
    · rw [List.mem_singleton.mp hSlash]
      decide
    · have hDigit := isDigit_of_mem_toString hDigit
      refine ⟨isSpace_of_isDigit hDigit, ?_⟩
      rintro rfl
      cases hDigit
  refine ⟨fun hEmpty => ?_, Ini.kept_of_noSpace fun c hc => (hChars c hc).1,
    fun hComma => (hChars _ hComma).2 rfl⟩
  have hLength := congrArg (fun s => s.toList.length) hEmpty
  simp [candidate] at hLength

theorem AddressLibrary.allocate_kept {lib : AddressLibrary} {subnet : String}
    {taken : List String} {a : String} (h : lib.allocate subnet taken = .ok a) :
    a ≠ "" ∧ Ini.KeptInList a.toList := by
  have hMem := List.mem_of_find?_eq_some (allocate_ok_iff.mp h)
  unfold candidates at hMem
  cases hNet : lib.network subnet with
  | error e =>
    rw [hNet] at hMem
    cases hMem
  | ok net =>
    rw [hNet] at hMem
    obtain ⟨host, hHost, rfl⟩ := List.mem_map.mp hMem
    exact Network.candidate_kept (lib.hosts_plain hNet host (List.mem_of_mem_tail hHost))

/-- With fewer addresses taken there is a free one as well. -/
theorem AddressLibrary.allocate_fewer {lib : AddressLibrary} {subnet : String}
    {taken taken' : List String} {a : String} (h : lib.allocate subnet taken = .ok a)
    (hFewer : taken' ⊆ taken) : ∃ b, lib.allocate subnet taken' = .ok b := by
  have hFree := allocate_ok_iff.mp h
  have hNot : a ∉ taken := by simpa using List.find?_some hFree
  have hSome : ((lib.candidates subnet).find? fun a => decide (a ∉ taken')).isSome = true := by
    rw [List.find?_isSome]
    exact ⟨a, List.mem_of_find?_eq_some hFree, decide_eq_true fun hIn => hNot (hFewer hIn)⟩
  obtain ⟨b, hB⟩ := Option.isSome_iff_exists.mp hSome
  exact ⟨b, allocate_ok_iff.mpr hB⟩

structure Tools extends KeyGenerator, AddressLibrary

def keyChar (c : Char) : Bool := c.isAlphanum || c == '+' || c == '/'

/-- `is_valid_key`: the pattern's end also matches before a line break at the
end of the text. -/
def isValidKey (key : List Char) : Bool :=
  decide ((key.take 43).length = 43) && (key.take 43).all keyChar &&
    (decide (key.drop 43 = ['=']) || decide (key.drop 43 = ['=', '\n']))

variable (p : Platform)

-- ---------------------------------------------------------------------------
-- Grants and addresses
-- ---------------------------------------------------------------------------

/-- `{str(tag) for tag in value or []}` -/
def tagSet (value : Json) : Except DriverError (List String) :=
  if value.truthy then
    match value with
    | .list xs      => .ok (xs.map p.str)
    | .str s        => .ok (s.toList.map Char.toString)
    | .dict entries => .ok (entries.map Prod.fst)
    | _             => .error (.other "object is not iterable")
  else .ok []

/-- `_granted_listeners` -/
def grantedListeners (ls : Listeners) (settings : Settings) : Except DriverError (List Listener) :=
  match tagSet p (Json.getD settings "inbound_tags"),
    tagSet p (Json.getD settings "excluded_inbounds") with
  | .error e, _              => .error e
  | _, .error e              => .error e
  | .ok wanted, .ok excluded =>
    .ok (ls.all.filter fun l =>
      (wanted.isEmpty || wanted.contains l.tag) && !excluded.contains l.tag)

/-- `{str(key): str(value) for key, value in addresses.items() if value}` -/
def addressTable (settings : Settings) : Dict String String :=
  match Json.getD settings "inbound_addresses" with
  | .dict entries =>
    Dict.ofPairs ((entries.filter fun e => e.2.truthy).map fun e => (e.1, p.str e.2))
  | _             => Dict.empty

/-- The account's address from before there were inbounds. -/
def legacyAddress (settings : Settings) : Option String :=
  if isSet settings "address" then some (p.str (Json.getD settings "address")) else none

/-- `_address_for` -/
def addressFor (ls : Listeners) (settings : Settings) (l : Listener) : Option String :=
  let listed :=
    match Json.getD settings "inbound_addresses" with
    | .dict entries => (Json.get? entries l.tag).filter Json.truthy
    | _             => none
  match listed with
  | some value => some (p.str value)
  | none       => if l.tag = ls.primary.tag then legacyAddress p settings else none

/-- `_taken_addresses` -/
def takenAddresses (ls : Listeners) (roster : Roster) (chain : Option ChainPeer)
    (exclude : String) (l : Listener) : List String :=
  let accounts := roster.table.values.filter fun account => decide (account.accountId ≠ exclude)
  accounts.filterMap (fun account => addressFor p ls account.settings l) ++
    if l.tag = ls.primary.tag then (chain.map ChainPeer.allowedIps).getD [] else []

-- ---------------------------------------------------------------------------
-- Provisioning
-- ---------------------------------------------------------------------------

/-- A client identity where there is none. -/
def withKeypair (t : Tools) (account : UserAccount) : Settings :=
  if isSet account.settings "private_key" && isSet account.settings "public_key" then
    account.settings
  else
    assocSet "public_key" (.str (t.keypair account).2)
      (assocSet "private_key" (.str (t.keypair account).1) account.settings)

/-- A preshared key where an inbound asks for one. -/
def withPreshared (t : Tools) (account : UserAccount) (granted : List Listener)
    (settings : Settings) : Settings :=
  if granted.any Listener.usePresharedKeys && !isSet settings "preshared_key" then
    assocSet "preshared_key" (.str (t.preshared account)) settings
  else settings

/-- The address an account has for an inbound before it is checked. -/
def currentAddress (ls : Listeners) (settings : Settings) (addresses : Dict String String)
    (l : Listener) : Option String :=
  match (addresses.get? l.tag).filter fun a => decide (a ≠ "") with
  | some a => some a
  | none   => if l.tag = ls.primary.tag then legacyAddress p settings else none

/-- The address an account gets for an inbound: the one it has if that is in
the subnet, otherwise a free one. -/
def assigned (t : Tools) (ls : Listeners) (taken : Listener → List String) (settings : Settings)
    (addresses : Dict String String) (l : Listener) : Except DriverError String :=
  match (currentAddress p ls settings addresses l).filter fun a => t.inSubnet a l.subnet with
  | some a => .ok a
  | none   => t.allocate l.subnet (taken l)

/-- One turn of the loop over the granted inbounds. -/
def assignAddress (t : Tools) (ls : Listeners) (taken : Listener → List String)
    (settings : Settings) (addresses : Dict String String) (l : Listener) :
    Except DriverError (Settings × Dict String String) :=
  (assigned p t ls taken settings addresses l).map fun address =>
    (if l.tag = ls.primary.tag then assocSet "address" (.str address) settings else settings,
      addresses.set l.tag address)

def assignAddresses (t : Tools) (ls : Listeners) (taken : Listener → List String) :
    Settings → Dict String String → List Listener →
      Except DriverError (Settings × Dict String String)
  | settings, addresses, []        => .ok (settings, addresses)
  | settings, addresses, l :: rest =>
    match assignAddress p t ls taken settings addresses l with
    | .error e               => .error e
    | .ok (settings, addresses) => assignAddresses t ls taken settings addresses rest

/-- `_provision_keys` -/
def provisionKeys (t : Tools) (ls : Listeners) (chain : Option ChainPeer) (roster : Roster)
    (account : UserAccount) : Except DriverError Settings :=
  let settings := withKeypair t account
  if isValidKey (p.str (Json.getD settings "public_key")).toList then
    match grantedListeners p ls settings with
    | .error e    => .error e
    | .ok granted =>
      let settings := withPreshared t account granted settings
      let taken := takenAddresses p ls roster chain account.accountId
      match assignAddresses p t ls taken settings (addressTable p settings) granted with
      | .error e                  => .error e
      | .ok (settings, addresses) =>
        let entries := addresses.entries.map fun e => (e.1, Json.str e.2)
        .ok (assocSet "inbound_addresses" (.dict entries) settings)
  else .error (.core s!"invalid wireguard public key for '{account.accountId}'.")

-- ---------------------------------------------------------------------------
-- Peers
-- ---------------------------------------------------------------------------

/-- The peer of an account on an interface, if it has one. -/
def desiredPeer (ls : Listeners) (l : Listener) (account : UserAccount) :
    Except DriverError (Option DesiredPeer) :=
  if account.enabled then
    match grantedListeners p ls account.settings with
    | .error e    => .error e
    | .ok granted =>
      if (granted.map Listener.tag).contains l.tag then
        if isSet account.settings "public_key" then
          .ok ((addressFor p ls account.settings l).map fun address =>
            { comment := account.accountId
              publicKey := p.str (Json.getD account.settings "public_key")
              allowedIps := [address]
              presharedKey :=
                if l.usePresharedKeys && isSet account.settings "preshared_key" then
                  some (p.str (Json.getD account.settings "preshared_key"))
                else none })
        else .ok none
      else .ok none
  else .ok none

def desiredPeersOf (ls : Listeners) (l : Listener) :
    List UserAccount → Except DriverError (List DesiredPeer)
  | []              => .ok []
  | account :: rest =>
    match desiredPeer p ls l account with
    | .error e => .error e
    | .ok peer => (desiredPeersOf ls l rest).map (peer.toList ++ ·)

/-- `_desired_peers` -/
def desiredPeers (ls : Listeners) (chain : Option ChainPeer) (roster : Roster) (l : Listener) :
    Except DriverError (List DesiredPeer) :=
  (desiredPeersOf p ls l roster.table.values).map fun peers =>
    peers ++ if l.tag = ls.primary.tag then (chain.map ChainPeer.peer).toList else []

end ZagrosNode.WireGuard
