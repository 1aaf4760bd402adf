import ZagrosNode.Accounts.Sync
import ZagrosNode.Lib.Machine

/-!
# ZagrosNode — pushes of accounts and the snapshot

`core_accounts` hands the pushed list to the driver and then files it in the
snapshot. The replace flag reaches the snapshot only: the driver is asked to
sync in either mode, and whether that replaces the set or adds to it depends
on the driver.

A `Site` is a driver and a snapshot, and a push changes both or only the first: the
snapshot is filed after the driver has returned. The answers the host gives during a
push are a part of the push, so they may be other ones each time.

With `sync_holds` of `Accounts/Sync.lean` the accounts after a push are known for every
driver, as a set: those it keeps of the list and, for the one additive driver, those it
had outside the list. With `mem_accountIds_store` so are those of the snapshot, for
either flag. The condition is what makes the two sets equal to each other and to what
the flag asks for, and it splits into a part about the pushed accounts (`kept`) and a
part about the others (`covered`).

The run is the induction over pushes, from any site in which the two agree.

Main results:

* `converged_iff` — one successful push leaves driver and snapshot with the
  accounts the flag asks for exactly if the driver keeps every pushed account
  and no account outside the list is on the wrong side of the driver's mode.
* `converges_iff` — the same for every sequence of successful pushes.
* `incremental_push_drops_account` — an incremental push after which WireGuard
  has lost an account the snapshot still lists.
-/

namespace ZagrosNode.Accounts

open ZagrosNode.Lib ZagrosNode.Cores ZagrosNode.Security Op

/-- One installed core as far as its accounts go. -/
structure Site where
  driver   : Driver
  snapshot : Snapshot

/-- One account request, with what its awaits meet. -/
structure Push where
  accounts : List Raw
  replace  : Bool
  host     : Host
  writable : Bool

/-- How the handler reports what the driver raised. -/
def DriverError.failure (core : CoreId) : DriverError → Failure
  | .timeout             => .http 504 "account sync timed out"
  | .notImplemented text => .http 409 s!"core '{core.name}' cannot manage accounts ({text})"
  | .core text           => .http 409 text
  | .other text          => .http 409 text

/-- The records of the pushed objects. -/
def decodeAll (p : Platform) (raws : List Raw) : Except Failure (List UserAccount) :=
  raws.mapM fun raw => toUserAccount p (.dict raw)

/-- `PUT /v1/cores/{core_id}/accounts` on an installed core; answers the number
of accounts. -/
def coreAccounts (p : Platform) (core : CoreId) (s : Site) (push : Push) :
    Site × Except Failure Nat :=
  match decodeAll p push.accounts with
  | .error e     => (s, .error e)
  | .ok accounts =>
    match (syncAccounts p push.host accounts core).run s.driver with
    | (.error e, driver) => ({ s with driver := driver }, .error (e.failure core))
    | (.ok (), driver)   =>
      ({ driver := driver
         snapshot := s.snapshot.store p push.accounts push.replace push.writable },
        .ok accounts.length)

def accountsMachine (p : Platform) (core : CoreId) : Machine Site Push (Except Failure Nat) where
  step := coreAccounts p core

/-- The request is answered with success. -/
def Accepted (answer : Except Failure Nat) : Prop := answer.toBool = true

instance (answer : Except Failure Nat) : Decidable (Accepted answer) :=
  inferInstanceAs (Decidable (answer.toBool = true))

-- ---------------------------------------------------------------------------
-- What the requests ask for
-- ---------------------------------------------------------------------------

section Convergence

variable (p : Platform) (core : CoreId)

/-- The core serves the account. -/
def Site.Holds (s : Site) (id : String) : Prop := s.driver.Holds p core id

/-- The request is about the account. -/
def Push.Lists (push : Push) (id : String) : Prop := id ∈ accountIds p push.accounts

/-- The core serves exactly the accounts of the snapshot. -/
def Site.Agrees (s : Site) : Prop :=
  ∀ id, s.Holds p core id ↔ id ∈ accountIds p s.snapshot.load

/-- After the push driver and snapshot agree, and the accounts served are the
pushed ones, with those served before unless the push replaces them. -/
def Converged (s : Site) (push : Push) (s' : Site) : Prop :=
  s'.Agrees p core ∧
    ∀ id, s'.Holds p core id ↔ push.Lists p id ∨ (push.replace = false ∧ s.Holds p core id)

/-- What a push must meet.

* `kept`: the driver keeps every pushed account.
* `covered`: a driver that replaces the set gets the whole set even when the
  push is incremental, and one that only adds gets it when the push replaces.
* `saved`: the snapshot is written, or lists the right accounts already. -/
structure Convergent (s : Site) (push : Push) : Prop where
  kept : ∀ accounts, decodeAll p push.accounts = .ok accounts →
    ∀ id, push.Lists p id → Kept p core s.driver accounts id
  covered : push.replace = additive core → ∀ id, s.Holds p core id → push.Lists p id
  saved : push.writable = true ∨
    ((∀ id, push.Lists p id → s.Holds p core id) ∧
      (push.replace = true → ∀ id, s.Holds p core id → push.Lists p id))

-- ---------------------------------------------------------------------------
-- One push
-- ---------------------------------------------------------------------------

/-- The records of a decoded list are filed under the ids of its objects. -/
theorem mem_accountIds_decodeAll {raws : List Raw} {accounts : List UserAccount}
    (h : decodeAll p raws = .ok accounts) (id : String) :
    id ∈ accountIds p raws ↔ ∃ account ∈ accounts, account.accountId = id := by
  induction raws generalizing accounts with
  | nil =>
    obtain rfl := Except.ok.inj h
    simp [accountIds]
  | cons raw rest ih =>
    unfold decodeAll at h ih
    rw [List.mapM_cons] at h
    cases hFirst : toUserAccount p (.dict raw) with
    | error e =>
      rw [hFirst] at h
      cases h
    | ok first =>
      rw [hFirst] at h
      cases hRest : rest.mapM fun raw => toUserAccount p (.dict raw) with
      | error e =>
        rw [hRest] at h
        cases h
      | ok others =>
        rw [hRest] at h
        obtain rfl := Except.ok.inj h
        -- a decoded object has an id, so its record is filed under it
        obtain ⟨hId, hNonempty⟩ := toUserAccount_accountId hFirst
        have hCons : accountIds p (raw :: rest) = accountKey p raw :: accountIds p rest := by
          simp [accountIds, hNonempty]
        rw [hCons, List.mem_cons, ih hRest, List.exists_mem_cons_iff, hId]
        exact or_congr_left eq_comm

/-- The driver keeps accounts of the list only. -/
theorem kept_listed {d : Driver} {accounts : List UserAccount} {id : String}
    (h : Kept p core d accounts id) : ∃ account ∈ accounts, account.accountId = id := by
  cases core with
  | ssh =>
    obtain ⟨⟨account, hMem, hId, -⟩, -⟩ := h
    exact ⟨account, hMem, hId⟩
  | openvpn | singBox | xray =>
    obtain ⟨account, hMem, hId, -⟩ := h
    exact ⟨account, hMem, hId⟩
  | wireguard | softether | pptp => exact h

/-- What a successful push does to the driver and to the snapshot. -/
theorem coreAccounts_accepted {s : Site} {push : Push}
    (h : Accepted (coreAccounts p core s push).2) :
    ∃ accounts, decodeAll p push.accounts = .ok accounts ∧
      (∀ id, (coreAccounts p core s push).1.Holds p core id ↔
        Kept p core s.driver accounts id ∨
          (additive core = true ∧ s.Holds p core id ∧ ¬ push.Lists p id)) ∧
      (coreAccounts p core s push).1.snapshot =
        s.snapshot.store p push.accounts push.replace push.writable := by
  unfold coreAccounts at h ⊢
  -- an object that is not decoded, or a driver that fails, is no accepted push
  cases hDecoded : decodeAll p push.accounts with
  | error e =>
    rw [hDecoded] at h
    cases h
  | ok accounts =>
    rw [hDecoded] at h
    cases hSync : (syncAccounts p push.host accounts core).run s.driver with
    | mk result driver =>
      simp only [hSync] at h ⊢
      cases result with
      | error e => cases h
      | ok u =>
        refine ⟨accounts, rfl, fun id => ?_, rfl⟩
        have hHolds := sync_holds p core push.host accounts s.driver u driver hSync id
        have hLists : (∀ account ∈ accounts, account.accountId ≠ id) ↔ ¬ push.Lists p id := by
          rw [Push.Lists, mem_accountIds_decodeAll p hDecoded]
          simp
        rwa [hLists] at hHolds

/--
**One push.** From agreement, a successful push converges exactly if it meets
the condition: what the driver then holds is given by `coreAccounts_accepted`,
what the snapshot lists by `mem_accountIds_store`, and the condition is that
the two are the same set of ids.
-/
theorem converged_iff {s : Site} {push : Push} (hAgrees : s.Agrees p core)
    (hAccepted : Accepted (coreAccounts p core s push).2) :
    Converged p core s push (coreAccounts p core s push).1 ↔ Convergent p core s push := by
  obtain ⟨accounts, hDecoded, hHolds, hSnapshot⟩ := coreAccounts_accepted p core hAccepted
  generalize (coreAccounts p core s push).1 = s' at hHolds hSnapshot ⊢
  have hListed : ∀ id, Kept p core s.driver accounts id → push.Lists p id := by
    intro id hKept
    rw [Push.Lists, mem_accountIds_decodeAll p hDecoded]
    exact kept_listed p core hKept
  have hStored : ∀ id, id ∈ accountIds p s'.snapshot.load ↔
      if push.writable then
        if push.replace then push.Lists p id else s.Holds p core id ∨ push.Lists p id
      else s.Holds p core id := by
    intro id
    rw [hSnapshot, mem_accountIds_store, hAgrees id]
    rfl
  constructor
  · rintro ⟨hAgrees', hAsked⟩
    constructor
    · intro accounts' hDecoded' id hLists
      obtain rfl := Except.ok.inj (hDecoded.symm.trans hDecoded')
      -- a pushed account is served afterwards, and not because it was left alone
      rcases (hHolds id).mp ((hAsked id).mpr (Or.inl hLists)) with hKept | ⟨-, -, hNot⟩
      · exact hKept
      · exact absurd hLists hNot
    · intro hMode id hHeld
      by_contra hNot
      cases hReplace : push.replace with
      | true =>
        -- the driver only adds: the account outlives a push that replaces
        have hHeld' := (hHolds id).mpr (Or.inr ⟨hMode ▸ hReplace, hHeld, hNot⟩)
        rcases (hAsked id).mp hHeld' with hLists | ⟨hFalse, -⟩
        · exact hNot hLists
        · rw [hReplace] at hFalse
          cases hFalse
      | false =>
        -- the driver replaces: the account does not outlive an incremental push
        have hHeld' := (hAsked id).mpr (Or.inr ⟨hReplace, hHeld⟩)
        rcases (hHolds id).mp hHeld' with hKept | ⟨hAdds, -, -⟩
        · exact hNot (hListed id hKept)
        · rw [← hMode, hReplace] at hAdds
          cases hAdds
    · cases hWritable : push.writable with
      | true => exact Or.inl rfl
      | false =>
        have hSame : ∀ id, s'.Holds p core id ↔ s.Holds p core id := by
          intro id
          rw [hAgrees' id, hStored id, hWritable]
          simp
        refine Or.inr ⟨fun id hLists => ?_, fun hReplace id hHeld => ?_⟩
        · exact (hSame id).mp ((hAsked id).mpr (Or.inl hLists))
        · rcases (hAsked id).mp ((hSame id).mpr hHeld) with hLists | ⟨hFalse, -⟩
          · exact hLists
          · rw [hReplace] at hFalse
            cases hFalse
  · intro hMet
    have hAsked : ∀ id, s'.Holds p core id ↔
        push.Lists p id ∨ (push.replace = false ∧ s.Holds p core id) := by
      intro id
      rw [hHolds]
      constructor
      · rintro (hKept | ⟨hAdds, hHeld, hNot⟩)
        · exact Or.inl (hListed id hKept)
        · cases hReplace : push.replace with
          | true => exact absurd (hMet.covered (hReplace.trans hAdds.symm) id hHeld) hNot
          | false => exact Or.inr ⟨rfl, hHeld⟩
      · rintro (hLists | ⟨hMerge, hHeld⟩)
        · exact Or.inl (hMet.kept accounts hDecoded id hLists)
        · by_cases hLists : push.Lists p id
          · exact Or.inl (hMet.kept accounts hDecoded id hLists)
          · cases hMode : additive core with
            | true => exact Or.inr ⟨rfl, hHeld, hLists⟩
            | false => exact absurd (hMet.covered (hMerge.trans hMode.symm) id hHeld) hLists
    refine ⟨fun id => ?_, hAsked⟩
    show s'.Holds p core id ↔ _
    rw [hAsked, hStored]
    cases hWritable : push.writable with
    | true => cases hReplace : push.replace <;> simp [or_comm]
    | false =>
      rcases hMet.saved with hTrue | ⟨hKnown, hNone⟩
      · rw [hWritable] at hTrue
        cases hTrue
      · cases hReplace : push.replace with
        | true => simpa using ⟨hKnown id, hNone hReplace id⟩
        | false => simpa using hKnown id

-- ---------------------------------------------------------------------------
-- Every sequence of pushes
-- ---------------------------------------------------------------------------

/--
**Convergence of accounts.** Along every sequence of successful pushes the
core and its snapshot start in agreement and every push converges **if and
only if** they start in agreement and every push meets the condition, taken at
the state it meets.
-/
theorem converges_iff (s : Site) (pushes : List Push)
    (hAccepted : ∀ answer ∈ (accountsMachine p core).log s pushes, Accepted answer) :
    (s.Agrees p core ∧ (accountsMachine p core).Along
        (fun _ s push => Converged p core s push ((accountsMachine p core).next s push))
        [] s pushes) ↔
      s.Agrees p core ∧ (accountsMachine p core).Along
        (fun _ s push => Convergent p core s push) [] s pushes := by
  refine and_congr_right fun hAgrees => ?_
  exact (accountsMachine p core).along_iff_along (Site.Agrees p core)
    (fun s push hAgrees hOk => converged_iff p core hAgrees hOk)
    (fun s push _ hGood => hGood.1) hAgrees hAccepted []

end Convergence

-- ---------------------------------------------------------------------------
-- An incremental push that loses an account
-- ---------------------------------------------------------------------------

/-- ASCII text only, no constraints on the optional fields, and a digest that no account
below comes to. -/
def plainPlatform : Platform where
  repr _       := ""
  lower s      := String.ofList (s.toList.map Char.toLower)
  validate _ _ := .ok ()
  sha256 bytes := (bytes ++ List.replicate 32 0).take 32
  sha256_length bytes := by simp

/-- Every call succeeds, no client is connected, and accounts bring their own
keys and addresses. -/
def willingHost : Host where
  call _               := .ok ()
  clients              := []
  secret _             := ⟨"secret", by decide⟩
  provisionKeys _ a    := .ok a.settings
  bandwidthAddress _ a := .ok a.settings

/-- A core without accounts and without a snapshot. -/
def freshSite : Site where
  driver   := ⟨[], Roster.empty, [], ⟨[], List.nodup_nil⟩⟩
  snapshot := none

def wireguardAccount (id : String) : Raw :=
  [("user_id", .num 1), ("username", .str id), ("account_id", .str id),
    ("protocol", .str "wireguard")]

/-- A full push of one account, then an incremental push of another. -/
def fullThenIncremental : List Push :=
  [⟨[wireguardAccount "a"], true, willingHost, true⟩,
    ⟨[wireguardAccount "b"], false, willingHost, true⟩]

/-- The condition along a full push of `a` and an incremental one of `b`. -/
theorem converges_iff_fullThenIncremental :
    (freshSite.Agrees plainPlatform .wireguard ∧
        (accountsMachine plainPlatform .wireguard).Along
          (fun _ s push => Converged plainPlatform .wireguard s push
            ((accountsMachine plainPlatform .wireguard).next s push))
          [] freshSite fullThenIncremental) ↔
      freshSite.Agrees plainPlatform .wireguard ∧
        (accountsMachine plainPlatform .wireguard).Along
          (fun _ s push => Convergent plainPlatform .wireguard s push)
          [] freshSite fullThenIncremental :=
  converges_iff plainPlatform .wireguard freshSite fullThenIncremental (by decide)

/--
A full push of `a`, then `b` with `replace` false. Both are accepted; the
snapshot lists the two, and WireGuard's driver, which has rebuilt its
dictionary from the second list, only `b`.
-/
theorem incremental_push_drops_account :
    (∀ answer ∈ (accountsMachine plainPlatform .wireguard).log freshSite fullThenIncremental,
        Accepted answer) ∧
      freshSite.Agrees plainPlatform .wireguard ∧
      ¬ (accountsMachine plainPlatform .wireguard).Along
        (fun _ s push => Converged plainPlatform .wireguard s push
          ((accountsMachine plainPlatform .wireguard).next s push))
        [] freshSite fullThenIncremental := by
  refine ⟨by decide, fun _ => Iff.rfl, ?_⟩
  rintro ⟨-, ⟨-, hAsked⟩, -⟩
  have hServed : "a" ∈ ((accountsMachine plainPlatform .wireguard).exec freshSite
      (fullThenIncremental.take 1)).driver.roster.ids := by
    decide
  have hLost : "a" ∉ ((accountsMachine plainPlatform .wireguard).exec freshSite
      fullThenIncremental).driver.roster.ids := by
    decide
  exact hLost ((hAsked "a").mpr (Or.inr ⟨rfl, hServed⟩))

end ZagrosNode.Accounts
