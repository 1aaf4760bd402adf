import ZagrosNode.Bandwidth.Origins
import ZagrosNode.Bandwidth.PushOrder
import ZagrosNode.Startup.Fidelity

/-!
# ZagrosNode — identities of two accounts

The accounts of a list get their addresses one by one, but always against the
table the driver had before: what one account of the list has just been given
does not count as taken for the next. And SSH tells accounts apart by a unix
name of which two accounts can have the same.

So whether two accounts of a push share an address or a uid is settled before
the sync runs: by the addresses each brings, by those each finds first, and by
the names SSH makes of the ids. This module compares that with what the driver
reports afterwards, and with the limits that are built from the reports of all
drivers. Limits may list accounts of several cores, and nothing keeps the
addresses of two cores apart either, so the accounts of the other drivers are
part of the condition: those are as they were, the push does not touch them.

* `Apart` — no address and no uid belongs to two accounts of one core, `AllApart` to two
  accounts of any.
* `expected` — by what an account of the push will be known, computed from the push and
  the state before it: `brought` and `found` of `Bandwidth/Origins.lean`, and the uid of the
  unix user SSH names after it, unless the same sync deletes that user.
* `OthersApart` — what the push does not touch: the accounts of the other drivers.

`limits_apart_iff` is about limits and knows nothing of pushes. One direction takes two
accounts that share an address and gives each a user; the other goes through the fold
that collects a user's identities.

Main results:

* `limits_apart_iff` — limits that list every account for one user share no
  address and no uid exactly if the accounts of all drivers share none.
* `identities_apart_iff` — after a push neither the accounts nor such limits
  share one exactly if what the accounts bring and find is apart, and apart
  from what the other drivers report.
* `fresh_addresses_collide` — two accounts new to WireGuard that come without
  an address are given the same one.
-/

namespace ZagrosNode.Bandwidth

open ZagrosNode.Lib ZagrosNode.Cores ZagrosNode.Security ZagrosNode.Accounts ZagrosNode.Startup Op

-- ---------------------------------------------------------------------------
-- Sharing
-- ---------------------------------------------------------------------------

/-- No address and no uid in both identities. -/
def Separate (r : Resolver) (i j : Identity) : Prop :=
  List.Disjoint (i.innerSources.filterMap r.address) (j.innerSources.filterMap r.address) ∧
    List.Disjoint i.uids j.uids

/-- No address and no uid belongs to two accounts. -/
def Apart (r : Resolver) (found : Dict String Identity) : Prop :=
  ∀ a b i j, a ≠ b → found.get? a = some i → found.get? b = some j → Separate r i j

/-- No address and no uid belongs to two accounts, of one core or of two. -/
def AllApart (p : Platform) (r : Resolver) (drivers : CoreId → Option Driver) : Prop :=
  ∀ core core' a b i j, (core, a) ≠ (core', b) →
    (reported p r core (drivers core)).get? a = some i →
      (reported p r core' (drivers core')).get? b = some j → Separate r i j

/-- Limits that list every account for one user at most. -/
def Fair (p : Platform) (limits : Limits) : Prop :=
  ∀ userId other e e', userId ≠ other → entryFor userId limits = some e →
    entryFor other limits = some e' → List.Disjoint (listedAccounts p e.2) (listedAccounts p e'.2)

/-- No address and no uid in the limits of two users. -/
def LimitsApart (rules : Dict Int UserLimit) : Prop :=
  ∀ userId other limit limit', userId ≠ other → rules.get? userId = some limit →
    rules.get? other = some limit' →
      Disjoint limit.traffic.sources limit'.traffic.sources ∧
        Disjoint limit.traffic.uids limit'.traffic.uids

theorem Separate.symm {r : Resolver} {i j : Identity} (h : Separate r i j) : Separate r j i :=
  ⟨h.1.symm, h.2.symm⟩

/-- Only the addresses and uids themselves matter. -/
theorem separate_congr {r : Resolver} {i i' j j' : Identity}
    (hI : ∀ x, x ∈ i'.innerSources ↔ x ∈ i.innerSources) (hUids : ∀ uid, uid ∈ i'.uids ↔ uid ∈ i.uids)
    (hJ : ∀ x, x ∈ j'.innerSources ↔ x ∈ j.innerSources)
    (hUids' : ∀ uid, uid ∈ j'.uids ↔ uid ∈ j.uids) : Separate r i' j' ↔ Separate r i j := by
  unfold Separate List.Disjoint
  simp only [List.mem_filterMap, hI, hUids, hJ, hUids']

-- ---------------------------------------------------------------------------
-- What an account is known by after a push
-- ---------------------------------------------------------------------------

section Expected

variable (p : Platform) (r : Resolver) (layout : Layout) (d : Driver) (core : CoreId)
  (accounts : List UserAccount)

/-- The unix users an SSH sync deletes: those of the accounts it lists and no
longer serves. -/
def goneNames : List String :=
  unixNames p (d.roster.ids.filter fun id =>
    decide (id ∉ (served d.settings accounts .ssh).map UserAccount.accountId))

/-- The uid of the unix user SSH names after an account, unless the same sync
deletes it. -/
def expectedUids (account : UserAccount) : List Int :=
  match core with
  | .ssh =>
    match sanitizeUsername p account.accountId with
    | .ok name => if name ∈ goneNames p d accounts then [] else [r.uid name]
    | .error _ => []
  | _    => []

/-- By what an account of a push will be known, as far as the push and the
state before it tell: the addresses it brings and finds, and its unix user. -/
def expected (account : UserAccount) : Identity where
  innerSources := brought p layout d core account ++ found p layout d core account
  uids := expectedUids p r d core accounts account

end Expected

/-- The accounts of the other drivers are apart from those of the push, and
from one another. -/
def OthersApart (p : Platform) (r : Resolver) (layout : Layout) (d : Driver) (core : CoreId)
    (accounts : List UserAccount) (drivers : CoreId → Option Driver) : Prop :=
  ∀ other, other ≠ core → ∀ id i, (reported p r other (drivers other)).get? id = some i →
    (∀ a ∈ served d.settings accounts core,
        Separate r (expected p r layout d core accounts a) i) ∧
      ∀ other', other' ≠ core → ∀ id' j, (other, id) ≠ (other', id') →
        (reported p r other' (drivers other')).get? id' = some j → Separate r i j

-- ---------------------------------------------------------------------------
-- The identities after a push
-- ---------------------------------------------------------------------------

section Filed

variable {p : Platform} {layout : Layout} {draw : Draw} {core : CoreId} {d d' : Driver}
  {accounts : List UserAccount}

theorem served_sublist (settings : Settings) (accounts : List UserAccount) (core : CoreId) :
    (served settings accounts core).Sublist accounts := by
  cases core with
  | openvpn | singBox | ssh => exact List.filter_sublist
  | pptp | softether | wireguard | xray => exact List.Sublist.refl _

theorem mem_filed {h : Host} {a : UserAccount} :
    a ∈ filed p h core accounts d ↔
      ∃ b ∈ served d.settings accounts core, completed p h d core b = .ok a := by
  rw [filed, List.mem_filterMap]
  refine exists_congr fun b => and_congr_right fun _ => ?_
  cases completed p h d core b <;> simp [Except.toOption]

/-- After the sync the unix user of a served account is there, unless it was
deleted under the name of another. -/
theorem mem_usersAfter {a : UserAccount} (hServed : a ∈ served d.settings accounts .ssh)
    {name : String} (hName : sanitizeUsername p a.accountId = .ok name) :
    name ∈ Ssh.usersAfter p accounts d ↔ name ∉ goneNames p d accounts := by
  have hKept : name ∈ unixNames p ((served d.settings accounts .ssh).map UserAccount.accountId) :=
    mem_unixNames.mpr ⟨a.accountId, List.mem_map.mpr ⟨a, hServed, rfl⟩, hName⟩
  rw [Ssh.usersAfter, List.mem_filter, List.mem_append, decide_eq_true_eq, goneNames]
  exact and_iff_right (Or.inr hKept)

/--
**The identity of an account after a sync** is the one that was to be expected,
up to the order of its addresses: those it brings, those that are found for it,
and the uid its user resolves to once the sync has made that user.
-/
theorem identityOf_completed (r : Resolver) {a b : UserAccount}
    (hServed : a ∈ served d.settings accounts core)
    (hOk : completed p (hostOf p layout draw core) d core a = .ok b)
    (hName : core = .ssh → ∃ name, sanitizeUsername p a.accountId = .ok name) :
    ∃ identity,
      identityOf p r core (settled p (hostOf p layout draw core) core accounts d).unixUsers b =
          .ok identity ∧
        (∀ x, x ∈ identity.innerSources ↔
          x ∈ (expected p r layout d core accounts a).innerSources) ∧
        ∀ uid, uid ∈ identity.uids ↔ uid ∈ (expected p r layout d core accounts a).uids := by
  obtain ⟨sources, hSources, hMem⟩ := completed_sources hServed hOk
  have hUids : unixUids p r core
      (settled p (hostOf p layout draw core) core accounts d).unixUsers b.accountId =
        .ok (expectedUids p r d core accounts a) := by
    rw [completed_accountId hOk]
    -- only SSH reports local users; the sync has made the account's own one
    cases core with
    | ssh =>
      obtain ⟨name, hName⟩ := hName rfl
      rw [unixUids, expectedUids, settled, if_pos rfl]
      simp only [hName, mem_usersAfter hServed hName, ite_not]
    | _ => rfl
  refine ⟨⟨sources.eraseDups, _⟩, by rw [identityOf, hSources, hUids]; rfl, fun x => ?_,
    fun uid => Iff.rfl⟩
  rw [List.mem_eraseDups]
  exact hMem x

theorem completed_of_passes {h : Host} {a : UserAccount} (hPasses : Passes p h d core a) :
    ∃ b, completed p h d core a = .ok b := by
  cases core with
  | ssh | xray => exact ⟨_, rfl⟩
  | _ => exact hPasses

/-- The accounts filed have ids of their own if those of the list do. -/
theorem filed_nodup {h : Host} (hDistinct : (accounts.map UserAccount.accountId).Nodup) :
    ((filed p h core accounts d).map UserAccount.accountId).Nodup := by
  have hKept := ((served_sublist d.settings accounts core).map UserAccount.accountId).nodup
    hDistinct
  have hIds : ∀ l : List UserAccount,
      ((l.filterMap fun a => (completed p h d core a).toOption).map UserAccount.accountId).Sublist
        (l.map UserAccount.accountId) := by
    intro l
    induction l with
    | nil => exact List.Sublist.slnil
    | cons a rest ih =>
      rw [List.filterMap_cons, List.map_cons]
      cases hOk : completed p h d core a with
      | error e => exact ih.cons _
      | ok b =>
        show (b.accountId :: _).Sublist _
        rw [completed_accountId hOk]
        exact ih.cons_cons _
  exact (hIds _).nodup hKept

/-- With ids of their own all accounts of a list are in the table made of it. -/
theorem get?_ofAccounts_nodup {l : List UserAccount}
    (hDistinct : (l.map UserAccount.accountId).Nodup) {id : String} {account : UserAccount} :
    (Roster.ofAccounts l).table.get? id = some account ↔ account ∈ l ∧ account.accountId = id := by
  constructor
  · intro hGet
    have hId := (Roster.ofAccounts l).keyed hGet
    exact ⟨Roster.mem_of_mem_ofAccounts (Roster.mem_values_iff.mpr (hId ▸ hGet)), hId⟩
  · rintro ⟨hMem, rfl⟩
    have hListed : account.accountId ∈ (Roster.ofAccounts l).ids :=
      Roster.mem_ids_ofAccounts.mpr (List.mem_map.mpr ⟨account, hMem, rfl⟩)
    obtain ⟨found, hGet⟩ := Dict.mem_keys_iff.mp hListed
    have hFound := Roster.mem_of_mem_ofAccounts
      (Roster.mem_values_iff.mpr ((Roster.ofAccounts l).keyed hGet ▸ hGet))
    rw [hGet, List.inj_on_of_nodup_map hDistinct hFound hMem ((Roster.ofAccounts l).keyed hGet)]

/-- What the driver reports after a sync: one identity for every account it
serves, the expected one. -/
theorem get?_identities_after (r : Resolver)
    (hRun : (syncAccounts p (hostOf p layout draw core) accounts core).run d = (.ok (), d'))
    (hDistinct : (accounts.map UserAccount.accountId).Nodup) (hReports : reports core = true) :
    (∀ id i, (identities p r core d').get? id = some i →
      ∃ a ∈ served d.settings accounts core, a.accountId = id ∧
        (∀ x, x ∈ i.innerSources ↔ x ∈ (expected p r layout d core accounts a).innerSources) ∧
        ∀ uid, uid ∈ i.uids ↔ uid ∈ (expected p r layout d core accounts a).uids) ∧
      ∀ a ∈ served d.settings accounts core,
        ∃ i, (identities p r core d').get? a.accountId = some i := by
  have hNodup : ((filed p (hostOf p layout draw core) core accounts d).map
      UserAccount.accountId).Nodup := filed_nodup hDistinct
  have hPasses := passes_of_returns p (hostOf p layout draw core) accounts d core () d' hRun
  have hName : ∀ a ∈ served d.settings accounts core,
      core = .ssh → ∃ name, sanitizeUsername p a.accountId = .ok name := by
    rintro a hServed rfl
    obtain ⟨-, name, hUnix⟩ := hPasses a hServed
    exact ⟨name, Ssh.unixName_ok hUnix⟩
  -- every account the sync files has an identity, so the driver reports at all
  have hAll : AllIdentified p r core
      (settled p (hostOf p layout draw core) core accounts d) := by
    intro id b hListed
    obtain ⟨a, hServed, hOk⟩ := mem_filed.mp ((get?_ofAccounts_nodup hNodup).mp hListed).1
    obtain ⟨identity, hIdentity, -⟩ := identityOf_completed r hServed hOk (hName a hServed)
    exact ⟨identity, hIdentity⟩
  have hGet : ∀ id, (identities p r core d').get? id =
      ((settled p (hostOf p layout draw core) core accounts d).roster.table.get? id).bind
        fun b => (identityOf p r core
          (settled p (hostOf p layout draw core) core accounts d).unixUsers b).toOption := by
    intro id
    rw [sync_identities p r core (hostOf p layout draw core) accounts d () d' hRun,
      get?_identities, if_pos ⟨hReports, hAll⟩]
  refine ⟨fun id i hI => ?_, fun a hServed => ?_⟩
  · rw [hGet, Option.bind_eq_some_iff] at hI
    obtain ⟨b, hListed, hI⟩ := hI
    obtain ⟨hFiled, rfl⟩ := (get?_ofAccounts_nodup hNodup).mp hListed
    obtain ⟨a, hServed, hOk⟩ := mem_filed.mp hFiled
    obtain ⟨identity, hIdentity, hSources, hUids⟩ :=
      identityOf_completed r hServed hOk (hName a hServed)
    rw [hIdentity] at hI
    obtain rfl := Option.some.inj hI
    exact ⟨a, hServed, (completed_accountId hOk).symm, hSources, hUids⟩
  · obtain ⟨b, hOk⟩ := completed_of_passes (hPasses a hServed)
    obtain ⟨identity, hIdentity, -⟩ := identityOf_completed r hServed hOk (hName a hServed)
    have hListed : (settled p (hostOf p layout draw core) core accounts d).roster.table.get?
        a.accountId = some b :=
      (get?_ofAccounts_nodup hNodup).mpr
        ⟨mem_filed.mpr ⟨a, hServed, hOk⟩, completed_accountId hOk⟩
    refine ⟨identity, ?_⟩
    rw [hGet, hListed, Option.bind_some, hIdentity]
    rfl

/-- Accounts of one list with one id are one. -/
theorem eq_of_served (hDistinct : (accounts.map UserAccount.accountId).Nodup) {a b : UserAccount}
    (hA : a ∈ served d.settings accounts core) (hB : b ∈ served d.settings accounts core)
    (hId : a.accountId = b.accountId) : a = b :=
  List.inj_on_of_nodup_map hDistinct ((served_sublist d.settings accounts core).subset hA)
    ((served_sublist d.settings accounts core).subset hB) hId

/-- Drivers without identities give nothing to expect. -/
theorem expected_of_silent {p : Platform} {r : Resolver} {layout : Layout}
    (hSilent : reports core ≠ true) (a : UserAccount) :
    expected p r layout d core accounts a = ⟨[], []⟩ := by
  cases core with
  | openvpn | pptp | ssh | wireguard => exact absurd rfl hSilent
  | singBox | softether | xray => rfl

end Filed

-- ---------------------------------------------------------------------------
-- Limits of two users
-- ---------------------------------------------------------------------------

theorem coreNamed_name (core : CoreId) : coreNamed core.name = some core := by
  cases core <;> decide

theorem name_inj {core core' : CoreId} (h : core.name = core'.name) : core = core' :=
  Option.some.inj ((coreNamed_name core).symm.trans
    ((congrArg coreNamed h).trans (coreNamed_name core')))

section Limits

variable {p : Platform} {shaper : Shaper} {drivers : CoreId → Option Driver}

/-- The limiter knows an account by what the driver of its core reports. -/
theorem identity?_iff {account : String × String} {i : Identity} :
    (kernelOf p shaper drivers).identity? account = some i ↔
      ∃ core, account.1 = core.name ∧
        (reported p shaper.toResolver core (drivers core)).get? account.2 = some i := by
  obtain ⟨name, id⟩ := account
  unfold Kernel.identity? kernelOf
  dsimp only
  constructor
  · intro hGet
    cases hNamed : coreNamed name with
    | none =>
      rw [hNamed] at hGet
      cases hGet
    | some core =>
      rw [hNamed] at hGet
      unfold coreNamed at hNamed
      have hName := List.find?_some hNamed
      exact ⟨core, (of_decide_eq_true hName).symm, hGet⟩
  · rintro ⟨core, rfl, hGet⟩
    rw [coreNamed_name]
    exact hGet

/-- Where all accounts are apart, so are the limits that list every account
for one user. -/
theorem limitsApart_of_allApart (hApart : AllApart p shaper.toResolver drivers) {limits : Limits}
    {rules : Dict Int UserLimit} (hFair : Fair p limits)
    (hDesired : desired p (kernelOf p shaper drivers) limits = .ok rules) : LimitsApart rules := by
  intro userId other limit limit' hNe hGet hGet'
  rcases get?_desired p _ hDesired userId with ⟨-, hNone⟩ | ⟨e, found, hEntry, hFound, hLimit⟩
  · rw [hGet] at hNone
    cases hNone
  rcases get?_desired p _ hDesired other with
    ⟨-, hNone⟩ | ⟨e', found', hEntry', hFound', hLimit'⟩
  · rw [hGet'] at hNone
    cases hNone
  rw [hGet] at hFound
  rw [hGet'] at hFound'
  obtain rfl := Option.some.inj hFound
  obtain rfl := Option.some.inj hFound'
  rw [(userLimit_ok p _ hLimit).1, (userLimit_ok p _ hLimit').1]
  have hLists := hFair userId other e e' hNe hEntry hEntry'
  -- an account of one list is reported by a driver, and is not in the other list
  have hBoth : ∀ account ∈ listedAccounts p e.2, ∀ account' ∈ listedAccounts p e'.2, ∀ i j,
      (kernelOf p shaper drivers).identity? account = some i →
        (kernelOf p shaper drivers).identity? account' = some j →
          Separate shaper.toResolver i j := by
    rintro ⟨name, id⟩ hIn ⟨name', id'⟩ hIn' i j hI hJ
    obtain ⟨core, hCore, hI⟩ := identity?_iff.mp hI
    obtain ⟨core', hCore', hJ⟩ := identity?_iff.mp hJ
    obtain rfl : name = core.name := hCore
    obtain rfl : name' = core'.name := hCore'
    refine hApart core core' id id' i j (fun hEq => ?_) hI hJ
    obtain ⟨rfl, rfl⟩ := Prod.mk.inj hEq
    exact hLists hIn hIn'
  constructor
  · rw [Finset.disjoint_left]
    intro address hIn hAlso
    rw [trafficOf, List.mem_toFinset, List.mem_flatMap] at hIn hAlso
    obtain ⟨account, hMem, hSource⟩ := hIn
    obtain ⟨account', hMem', hSource'⟩ := hAlso
    unfold Kernel.sourcesOf at hSource hSource'
    cases hI : (kernelOf p shaper drivers).identity? account with
    | none =>
      rw [hI] at hSource
      cases hSource
    | some i =>
      cases hJ : (kernelOf p shaper drivers).identity? account' with
      | none =>
        rw [hJ] at hSource'
        cases hSource'
      | some j =>
        rw [hI] at hSource
        rw [hJ] at hSource'
        exact (hBoth account hMem account' hMem' i j hI hJ).1 hSource hSource'
  · rw [Finset.disjoint_left]
    intro uid hIn hAlso
    rw [trafficOf, List.mem_toFinset, List.mem_flatMap] at hIn hAlso
    obtain ⟨account, hMem, hUid⟩ := hIn
    obtain ⟨account', hMem', hUid'⟩ := hAlso
    unfold Kernel.uidsOf at hUid hUid'
    cases hI : (kernelOf p shaper drivers).identity? account with
    | none =>
      rw [hI] at hUid
      cases hUid
    | some i =>
      cases hJ : (kernelOf p shaper drivers).identity? account' with
      | none =>
        rw [hJ] at hUid'
        cases hUid'
      | some j =>
        rw [hI] at hUid
        rw [hJ] at hUid'
        exact (hBoth account hMem account' hMem' i j hI hJ).2 hUid hUid'

/-- An entry that lists one account and sets no rate. -/
def listing (core : CoreId) (id : String) : Raw :=
  [("accounts", .dict [(core.name, .list [.str id])])]

/-- Limits of two users, one account each. -/
def listingTwo (core core' : CoreId) (a b : String) : Limits :=
  [("1", .dict (listing core a)), ("2", .dict (listing core' b))]

theorem entryFor_listingTwo {core core' : CoreId} {a b : String} {userId : Int}
    {e : String × Raw} (h : entryFor userId (listingTwo core core' a b) = some e) :
    (userId = 1 ∧ e = ("1", listing core a)) ∨ (userId = 2 ∧ e = ("2", listing core' b)) := by
  have hOne : intOfStr "1" = .ok 1 := rfl
  have hTwo : intOfStr "2" = .ok 2 := rfl
  simp only [listingTwo, entryFor, hOne, hTwo, Option.none_or] at h
  by_cases hIs : (2 : Int) = userId
  · rw [if_pos hIs, Option.some_or] at h
    exact Or.inr ⟨hIs.symm, (Option.some.inj h).symm⟩
  · rw [if_neg hIs, Option.none_or] at h
    split at h
    · rename_i hFirst
      exact Or.inl ⟨hFirst.symm, (Option.some.inj h).symm⟩
    · cases h

/-- The limits the two entries make are the traffic of the two accounts. -/
theorem separate_of_limitsApart {core core' : CoreId} {a b : String} {i j : Identity}
    (hI : (reported p shaper.toResolver core (drivers core)).get? a = some i)
    (hJ : (reported p shaper.toResolver core' (drivers core')).get? b = some j)
    {rules : Dict Int UserLimit}
    (hDesired : desired p (kernelOf p shaper drivers) (listingTwo core core' a b) = .ok rules)
    (hApart : LimitsApart rules) : Separate shaper.toResolver i j := by
  have hFirst : (kernelOf p shaper drivers).identity? (core.name, a) = some i :=
    identity?_iff.mpr ⟨core, rfl, hI⟩
  have hSecond : (kernelOf p shaper drivers).identity? (core'.name, b) = some j :=
    identity?_iff.mpr ⟨core', rfl, hJ⟩
  -- an entry that lists one account has the traffic of that account
  have hTraffic : ∀ (c : CoreId) (id : String) (k : Identity),
      (kernelOf p shaper drivers).identity? (c.name, id) = some k →
        trafficOf p (kernelOf p shaper drivers) (listing c id) =
          ⟨(k.innerSources.filterMap shaper.address).toFinset, k.uids.toFinset⟩ := by
    intro c id k hKnown
    have hListed : listedAccounts p (listing c id) = [(c.name, id)] := rfl
    rw [trafficOf, hListed, List.flatMap_singleton, List.flatMap_singleton, Kernel.sourcesOf,
      Kernel.uidsOf, hKnown]
    rfl
  have hEntries : ∀ userId e, (userId = 1 ∧ e = ("1", listing core a)) ∨
      (userId = 2 ∧ e = ("2", listing core' b)) →
        entryFor userId (listingTwo core core' a b) = some e := by
    rintro userId e (⟨rfl, rfl⟩ | ⟨rfl, rfl⟩) <;> rfl
  -- the limits of the two entries stand under 1 and 2
  have hFound : ∀ userId e, entryFor userId (listingTwo core core' a b) = some e →
      ∃ limit, rules.get? userId = some limit ∧
        limit.traffic = trafficOf p (kernelOf p shaper drivers) e.2 := by
    intro userId e hEntry
    rcases get?_desired p _ hDesired userId with ⟨hNone, -⟩ | ⟨e', limit, hEntry', hGet, hLimit⟩
    · rw [hEntry] at hNone
      cases hNone
    · rw [hEntry] at hEntry'
      obtain rfl := Option.some.inj hEntry'
      exact ⟨limit, hGet, (userLimit_ok p _ hLimit).1⟩
  obtain ⟨limit, hGet, hIs⟩ := hFound 1 _ (hEntries 1 _ (Or.inl ⟨rfl, rfl⟩))
  obtain ⟨limit', hGet', hIs'⟩ := hFound 2 _ (hEntries 2 _ (Or.inr ⟨rfl, rfl⟩))
  have hBoth := hApart 1 2 limit limit' (by decide) hGet hGet'
  rw [hIs, hIs', hTraffic core a i hFirst, hTraffic core' b j hSecond] at hBoth
  exact ⟨List.disjoint_toFinset_iff_disjoint.mp hBoth.1,
    List.disjoint_toFinset_iff_disjoint.mp hBoth.2⟩

/--
**Limits of two users.** Limits that list every account for one user share no
address and no uid exactly if no two accounts do. Conversely two accounts that
share something are shared by the two limits that list one of them each.
-/
theorem limits_apart_iff :
    (∀ limits rules, Fair p limits → desired p (kernelOf p shaper drivers) limits = .ok rules →
        LimitsApart rules) ↔ AllApart p shaper.toResolver drivers := by
  refine ⟨fun hAll core core' a b i j hNe hI hJ => ?_,
    fun hApart limits rules hFair hDesired => limitsApart_of_allApart hApart hFair hDesired⟩
  have hMakes : ∀ c id, MakesLimit (listing c id) := fun c id => ⟨⟨0, rfl⟩, ⟨0, rfl⟩, rfl⟩
  have hReads : ∃ rules,
      desired p (kernelOf p shaper drivers) (listingTwo core core' a b) = .ok rules := by
    refine (desired_ok_iff p _ _).mpr ?_
    rintro id spec hMem hReadable
    rcases List.mem_cons.mp hMem with hEq | hMem
    · rw [Json.dict.inj (Prod.mk.inj hEq).2]
      exact hMakes core a
    · rw [Json.dict.inj (Prod.mk.inj (List.mem_singleton.mp hMem)).2]
      exact hMakes core' b
  obtain ⟨rules, hDesired⟩ := hReads
  refine separate_of_limitsApart hI hJ hDesired (hAll _ rules ?_ hDesired)
  -- the two accounts are two, so no user has the account of the other
  have hDisjoint : List.Disjoint [(core.name, a)] [(core'.name, b)] := by
    intro account hIn hAlso
    have hEq := (List.mem_singleton.mp hIn).symm.trans (List.mem_singleton.mp hAlso)
    obtain ⟨hName, rfl⟩ := Prod.mk.inj hEq
    exact hNe (by rw [name_inj hName])
  intro userId other e e' hOther hEntry hEntry'
  rcases entryFor_listingTwo hEntry with ⟨rfl, rfl⟩ | ⟨rfl, rfl⟩ <;>
    rcases entryFor_listingTwo hEntry' with ⟨rfl, rfl⟩ | ⟨rfl, rfl⟩
  · exact absurd rfl hOther
  · exact hDisjoint
  · exact hDisjoint.symm
  · exact absurd rfl hOther

end Limits

-- ---------------------------------------------------------------------------
-- A push
-- ---------------------------------------------------------------------------

section Push

variable {p : Platform} {layout : Layout} {draw : Draw} {core : CoreId} {d d' : Driver}
  {accounts : List UserAccount}

/-- The accounts of the driver are apart exactly if the expected identities are. -/
theorem apart_iff
    (hRun : (syncAccounts p (hostOf p layout draw core) accounts core).run d = (.ok (), d'))
    (hDistinct : (accounts.map UserAccount.accountId).Nodup) (r : Resolver) :
    Apart r (identities p r core d') ↔
      ∀ a ∈ served d.settings accounts core, ∀ b ∈ served d.settings accounts core,
        a.accountId ≠ b.accountId →
          Separate r (expected p r layout d core accounts a)
            (expected p r layout d core accounts b) := by
  by_cases hReports : reports core = true
  -- the listed identities are those of the served accounts, and the other way round
  · obtain ⟨hFrom, hOf⟩ := get?_identities_after r hRun hDistinct hReports
    constructor
    · intro hApart a hA b hB hNe
      obtain ⟨i, hI⟩ := hOf a hA
      obtain ⟨j, hJ⟩ := hOf b hB
      obtain ⟨a', hA', hId, hSources, hUids⟩ := hFrom _ i hI
      obtain ⟨b', hB', hId', hSources', hUids'⟩ := hFrom _ j hJ
      obtain rfl := eq_of_served hDistinct hA' hA hId
      obtain rfl := eq_of_served hDistinct hB' hB hId'
      exact (separate_congr hSources hUids hSources' hUids').mp (hApart _ _ i j hNe hI hJ)
    · intro hSeparate id id' i j hNe hI hJ
      obtain ⟨a, hA, rfl, hSources, hUids⟩ := hFrom id i hI
      obtain ⟨b, hB, rfl, hSources', hUids'⟩ := hFrom id' j hJ
      exact (separate_congr hSources hUids hSources' hUids').mpr (hSeparate a hA b hB hNe)
  · -- a driver that reports nothing has nothing to share
    refine iff_of_true (fun a b i j _ hI _ => ?_) fun a _ b _ _ => ?_
    · rw [get?_identities, if_neg fun hIs => hReports hIs.1] at hI
      cases hI
    · rw [expected_of_silent hReports]
      exact ⟨fun _ hIn => absurd hIn List.not_mem_nil, fun _ hIn => absurd hIn List.not_mem_nil⟩

/-- All accounts are apart exactly if those of the push are, and the others are
apart from them and from one another. -/
theorem allApart_iff
    (hRun : (syncAccounts p (hostOf p layout draw core) accounts core).run d = (.ok (), d'))
    (hDistinct : (accounts.map UserAccount.accountId).Nodup) (r : Resolver)
    {drivers : CoreId → Option Driver} (hDriver : drivers core = some d') :
    AllApart p r drivers ↔
      Apart r (identities p r core d') ∧ OthersApart p r layout d core accounts drivers := by
  have hOwn : reported p r core (drivers core) = identities p r core d' := by rw [hDriver]; rfl
  constructor
  · intro hAll
    refine ⟨fun a b i j hNe hI hJ => ?_, fun other hOther id i hI => ⟨fun a hA => ?_,
      fun other' _ id' j hNe hJ => hAll other other' id id' i j hNe hI hJ⟩⟩
    · rw [← hOwn] at hI hJ
      exact hAll core core a b i j (fun hEq => hNe (Prod.mk.inj hEq).2) hI hJ
    · by_cases hReports : reports core = true
      · obtain ⟨hFrom, hOf⟩ := get?_identities_after r hRun hDistinct hReports
        obtain ⟨j, hJ⟩ := hOf a hA
        obtain ⟨a', hA', hId, hSources, hUids⟩ := hFrom _ j hJ
        obtain rfl := eq_of_served hDistinct hA' hA hId
        rw [← hOwn] at hJ
        exact (separate_congr hSources hUids (fun _ => Iff.rfl) fun _ => Iff.rfl).mp
          (hAll core other _ id j i (fun hEq => hOther (Prod.mk.inj hEq).1.symm) hJ hI)
      · rw [expected_of_silent hReports]
        exact ⟨fun _ hIn => absurd hIn List.not_mem_nil,
          fun _ hIn => absurd hIn List.not_mem_nil⟩
  · rintro ⟨hApart, hOthers⟩ c c' id id' i j hNe hI hJ
    -- an account of the push against one of another driver
    have hMixed : ∀ other, other ≠ core → ∀ a b i j,
        (reported p r core (drivers core)).get? a = some i →
          (reported p r other (drivers other)).get? b = some j → Separate r i j := by
      intro other hOther a b i j hI hJ
      have hReports : reports core = true := by
        rw [hOwn, get?_identities] at hI
        split at hI
        · rename_i hBoth
          exact hBoth.1
        · cases hI
      rw [hOwn] at hI
      obtain ⟨x, hX, -, hSources, hUids⟩ :=
        (get?_identities_after r hRun hDistinct hReports).1 a i hI
      exact (separate_congr hSources hUids (fun _ => Iff.rfl) fun _ => Iff.rfl).mpr
        ((hOthers other hOther b j hJ).1 x hX)
    by_cases hCore : c = core
    · subst hCore
      by_cases hCore' : c' = c
      · subst hCore'
        rw [hOwn] at hI hJ
        exact hApart id id' i j (fun hEq => hNe (by rw [hEq])) hI hJ
      · exact hMixed c' hCore' id id' i j hI hJ
    · by_cases hCore' : c' = core
      · subst hCore'
        exact (hMixed c hCore id' id j i hJ hI).symm
      · exact (hOthers c hCore id i hI).2 c' hCore' id' j hNe hJ

end Push

/--
**Identities of two accounts.** After a sync that returns no address and no
uid belongs to two accounts of the core, and none to the limits of two users
wherever the limits list every account, of whichever core, for one of them,
**if and only if** the accounts of the list bring and find different addresses
and are named after different unix users, and all of that is apart from what
the other drivers report, whose accounts are apart from one another.
-/
theorem identities_apart_iff {p : Platform} {layout : Layout} {draw : Draw} {core : CoreId}
    {d d' : Driver} {accounts : List UserAccount} (shaper : Shaper)
    {drivers : CoreId → Option Driver} (hDriver : drivers core = some d')
    (hDistinct : (accounts.map UserAccount.accountId).Nodup)
    (hRun : (syncAccounts p (hostOf p layout draw core) accounts core).run d = (.ok (), d')) :
    (Apart shaper.toResolver (identities p shaper.toResolver core d') ∧
        ∀ limits rules, Fair p limits →
          desired p (kernelOf p shaper drivers) limits = .ok rules → LimitsApart rules) ↔
      (∀ a ∈ served d.settings accounts core, ∀ b ∈ served d.settings accounts core,
          a.accountId ≠ b.accountId →
            Separate shaper.toResolver (expected p shaper.toResolver layout d core accounts a)
              (expected p shaper.toResolver layout d core accounts b)) ∧
        OthersApart p shaper.toResolver layout d core accounts drivers := by
  rw [limits_apart_iff, allApart_iff hRun hDistinct _ hDriver, ← apart_iff hRun hDistinct]
  exact and_self_left

-- ---------------------------------------------------------------------------
-- New WireGuard accounts
-- ---------------------------------------------------------------------------

section Fresh

variable {p : Platform} {layout : Layout} {d : Driver} {r : Resolver}
  {accounts : List UserAccount}

/-- For an account the driver does not list, every listed address is taken. -/
theorem takenAddresses_new {ls : WireGuard.Listeners} {chain : Option WireGuard.ChainPeer}
    {roster : Roster} {id : String} (hNew : id ∉ roster.ids) (l : WireGuard.Listener) :
    WireGuard.takenAddresses p ls roster chain id l =
      roster.table.values.filterMap (fun account => WireGuard.addressFor p ls account.settings l) ++
        if l.tag = ls.primary.tag then (chain.map WireGuard.ChainPeer.allowedIps).getD [] else [] := by
  have hAll : roster.table.values.filter (fun account => decide (account.accountId ≠ id)) =
      roster.table.values := by
    refine List.filter_eq_self.mpr fun account hMem => ?_
    rw [decide_eq_true_eq]
    rintro rfl
    exact hNew (Dict.mem_keys_iff.mpr ⟨account, Roster.mem_values_iff.mp hMem⟩)
  rw [WireGuard.takenAddresses, hAll]

/-- An account without an address for a granted inbound is found the first
one that is free there. -/
theorem mem_found_of_none {account : UserAccount} {l : WireGuard.Listener}
    {granted : List WireGuard.Listener}
    (hGranted : WireGuard.grantedListeners p layout.listeners account.settings = .ok granted)
    (hIn : l ∈ granted)
    (hNone : WireGuard.currentAddress p layout.listeners account.settings
      (WireGuard.addressTable p account.settings) l = none) {x : String}
    (hFree : (layout.library.candidates l.subnet).find? (fun a => decide (a ∉
      WireGuard.takenAddresses p layout.listeners d.roster layout.chain account.accountId l)) =
        some x) :
    x ∈ found p layout d .wireguard account := by
  have hOwn : WireGuard.ownAddress p layout.library layout.listeners account.settings l = none := by
    rw [WireGuard.ownAddress, hNone]
    rfl
  rw [found, hGranted]
  exact List.mem_filterMap.mpr ⟨l, List.mem_filter.mpr ⟨hIn, by rw [hOwn]; rfl⟩, hFree⟩

/--
**New accounts without an address collide**, whatever subnet they are granted
and however large it is, as long as it has a free address. A list is completed
against the accounts filed before it, and neither of the two is among them, so
both are found the first free address.
-/
theorem fresh_addresses_collide {a b : UserAccount}
    (hNewA : a.accountId ∉ d.roster.ids) (hNewB : b.accountId ∉ d.roster.ids)
    {l : WireGuard.Listener} {grantedA grantedB : List WireGuard.Listener}
    (hGrantA : WireGuard.grantedListeners p layout.listeners a.settings = .ok grantedA)
    (hGrantB : WireGuard.grantedListeners p layout.listeners b.settings = .ok grantedB)
    (hInA : l ∈ grantedA) (hInB : l ∈ grantedB)
    (hNoneA : WireGuard.currentAddress p layout.listeners a.settings
      (WireGuard.addressTable p a.settings) l = none)
    (hNoneB : WireGuard.currentAddress p layout.listeners b.settings
      (WireGuard.addressTable p b.settings) l = none) {x ip : String}
    (hFree : layout.library.allocate l.subnet (WireGuard.takenAddresses p layout.listeners
      d.roster layout.chain a.accountId l) = .ok x) (hReads : r.address x = some ip) :
    ¬ Separate r (expected p r layout d .wireguard accounts a)
      (expected p r layout d .wireguard accounts b) := by
  -- both look for a free address with the same ones taken
  have hFreeA := WireGuard.AddressLibrary.allocate_ok_iff.mp hFree
  have hFreeB := hFreeA
  rw [takenAddresses_new hNewA, ← takenAddresses_new hNewB] at hFreeB
  have hFoundA := mem_found_of_none (d := d) hGrantA hInA hNoneA hFreeA
  have hFoundB := mem_found_of_none (d := d) hGrantB hInB hNoneB hFreeB
  intro hSeparate
  exact hSeparate.1
    (List.mem_filterMap.mpr ⟨x, List.mem_append_right _ hFoundA, hReads⟩)
    (List.mem_filterMap.mpr ⟨x, List.mem_append_right _ hFoundB, hReads⟩)

end Fresh

-- ---------------------------------------------------------------------------
-- Two accounts of one push
-- ---------------------------------------------------------------------------

/-- The driver after a push of some new accounts without addresses. -/
def wireguardWith (ids : List String) : Driver :=
  (syncAccounts plainPlatform (hostOf plainPlatform sampleLayout firstDraw .wireguard)
    (ids.map WireGuard.decodedAccount) .wireguard).after freshSite.driver

/-- An account that brings its address. -/
def addressedAccount (id address : String) : UserAccount :=
  { WireGuard.decodedAccount id with settings := [("address", .str address)] }

/-- A new account without an address and one that brings another than the
first free one. -/
def twoAccounts : List UserAccount :=
  [WireGuard.decodedAccount "a", addressedAccount "b" "10.66.66.3/32"]

/-- The driver after a push of the two. -/
def wireguardWithTwo : Driver :=
  (syncAccounts plainPlatform (hostOf plainPlatform sampleLayout firstDraw .wireguard)
    twoAccounts .wireguard).after freshSite.driver

/-- WireGuard is the only core. -/
def onlyWireguard (d : Driver) (core : CoreId) : Option Driver :=
  if core = .wireguard then some d else none

/--
Two accounts of one push to WireGuard: `a` brings no address and is found the
first free one, `b` brings the next. Limits that list each for a user of its
own are apart.
-/
theorem identities_apart_iff_twoAccounts :
    Apart plainShaper.toResolver
        (identities plainPlatform plainShaper.toResolver .wireguard wireguardWithTwo) ∧
      ∀ limits rules, Fair plainPlatform limits →
        desired plainPlatform (kernelOf plainPlatform plainShaper
          (onlyWireguard wireguardWithTwo)) limits = .ok rules → LimitsApart rules := by
  have hRun : (syncAccounts plainPlatform (hostOf plainPlatform sampleLayout firstDraw .wireguard)
      twoAccounts .wireguard).run freshSite.driver = (.ok (), wireguardWithTwo) := rfl
  refine (identities_apart_iff plainShaper rfl (by decide) hRun).mpr ⟨?_, ?_⟩
  -- `a` brings no address and is given the first free one, `b` brings the next
  · have hA : expected plainPlatform plainShaper.toResolver sampleLayout freshSite.driver
        .wireguard twoAccounts (WireGuard.decodedAccount "a") = ⟨["10.66.66.2/32"], []⟩ := rfl
    have hB : expected plainPlatform plainShaper.toResolver sampleLayout freshSite.driver
        .wireguard twoAccounts (addressedAccount "b" "10.66.66.3/32") =
          ⟨["10.66.66.3/32"], []⟩ := rfl
    have hSeparate : Separate plainShaper.toResolver ⟨["10.66.66.2/32"], []⟩
        ⟨["10.66.66.3/32"], []⟩ :=
      ⟨List.disjoint_singleton.mpr (by decide), List.disjoint_nil_left _⟩
    intro a hMemA b hMemB hNe
    -- the two accounts in either order, and each with itself
    rcases List.mem_cons.mp hMemA with rfl | hMemA <;> rcases List.mem_cons.mp hMemB with rfl | hMemB
    · exact absurd rfl hNe
    · rw [List.mem_singleton.mp hMemB, hA, hB]
      exact hSeparate
    · rw [List.mem_singleton.mp hMemA, hA, hB]
      exact hSeparate.symm
    · rw [List.mem_singleton.mp hMemA, List.mem_singleton.mp hMemB] at hNe
      exact absurd rfl hNe
  · intro other hOther id i hI
    rw [onlyWireguard, if_neg hOther] at hI
    cases hI

/-- Two new accounts of one push are listed with one address. -/
theorem new_accounts_share_address :
    (syncAccounts plainPlatform (hostOf plainPlatform sampleLayout firstDraw .wireguard)
        (["a", "b"].map WireGuard.decodedAccount) .wireguard).run freshSite.driver =
          (.ok (), wireguardWith ["a", "b"]) ∧
      ¬ Apart plainShaper.toResolver
        (identities plainPlatform plainShaper.toResolver .wireguard (wireguardWith ["a", "b"])) := by
  refine ⟨rfl, fun hApart => ?_⟩
  have hSeparate := hApart "a" "b" ⟨["10.66.66.2/32"], []⟩ ⟨["10.66.66.2/32"], []⟩ (by decide)
    (by rfl) (by rfl)
  have hIn : "10.66.66.2/32" ∈ ["10.66.66.2/32"].filterMap plainShaper.address := by decide
  exact hSeparate.1 hIn hIn

end ZagrosNode.Bandwidth
