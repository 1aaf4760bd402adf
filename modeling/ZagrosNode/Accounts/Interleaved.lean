import ZagrosNode.Accounts.Awaits
import ZagrosNode.Accounts.Sync

/-!
# ZagrosNode — what an interrupted sync does to the set of accounts

Whatever runs at the awaits of a sync, the sync does to the set of accounts
what it does alone: a driver that rebuilds its dictionary puts the whole set
in place in one step and leaves it alone afterwards; SSH and Xray see to one
account after the other, and are done with an account for good once they have
seen to it. Other requests change neither the settings nor the inbounds a sync
reads, so nothing else of the driver's state matters.

`Keeps` and `Settles` of the coroutine library are instantiated with one account: the
property is that the set has it or has it not. A driver that assigns a whole dictionary
settles every account in one turn. SSH and Xray settle an account when its own turn of
the loop is over, and keep it from then on, since no later turn is about it.

What the others may do meanwhile is only what pushes for the same core do, and these
change accounts; what they leave is `Frame`, the settings and the tags of the inbounds.
So a lemma about a coroutine's parts is a lemma for any state with that property, found
at any await.

Two things can stop a coroutine from settling an account: an exception, which it can
have from any call, and an account the driver passes over (an SSH account without a
password, a disabled one at Xray). The first is in the definitions (`Doomed`), the
second a condition (`suits`).

Main results:

* `sync_waits` — up to its mark a sync only reads; from there it sees to every
  account, or leaves it alone where Xray was not given it.
-/

namespace ZagrosNode.Accounts

open ZagrosNode.Lib ZagrosNode.Cores Co

/-- The driver lists the account. -/
def Driver.Lists (core : CoreId) (d : Driver) (id : String) : Prop :=
  match core with
  | .xray => ∃ tag, d.xray.Serves tag id
  | _     => id ∈ d.roster.ids

/-- As far as the account goes, the driver lists what `ids` lists. -/
def Meets (core : CoreId) (ids : List String) (id : String) (d : Driver) : Prop :=
  d.Lists core id ↔ id ∈ ids

/-- Settings and inbounds are those of `d0`. -/
def Frame (d0 d : Driver) : Prop := d.settings = d0.settings ∧ d.xray.tags = d0.xray.tags

/-- The driver works on its set account by account. -/
def stepwise : CoreId → Bool
  | .ssh | .xray => true
  | _            => false

/-- The driver does not pass over the account. -/
def suits (settings : Settings) (account : UserAccount) : CoreId → Bool
  | .openvpn => OpenVpn.serves account.protocol
  | .singBox => decide (account.protocol ∈ SingBox.protocols)
  | .ssh     => Ssh.credentialed settings account
  | .xray    => account.enabled
  | _        => true

namespace Suspended

/-- What holds of a sync for `ids` from its mark. -/
def Begun (core : CoreId) (d0 : Driver) (ids : List String) (k : Sync Unit) : Prop :=
  if stepwise core then
    ∀ id, k.Settles (Frame d0) (Meets core ids id) ∨
      (core = .xray ∧ id ∉ ids) ∧ k.Keeps (Frame d0) (Meets core ids id)
  else
    ∀ d, Frame d0 d →
      (Frame d0 (k.settle d).2 ∧ ∀ id, Meets core ids id (k.settle d).2) ∧
        ∀ P, (k.settle d).1.Keeps (Frame d0) P

theorem begun_of_stepwise {core : CoreId} (hStepwise : stepwise core = true) {d0 : Driver}
    {ids : List String} {k : Sync Unit}
    (hk : ∀ id, k.Settles (Frame d0) (Meets core ids id) ∨
      (core = .xray ∧ id ∉ ids) ∧ k.Keeps (Frame d0) (Meets core ids id)) :
    Begun core d0 ids k := by
  rwa [Begun, if_pos hStepwise]

-- ---------------------------------------------------------------------------
-- Drivers that rebuild their dictionary
-- ---------------------------------------------------------------------------

section Rebuild

variable {p : Platform} {h : Host} {d0 : Driver}

/-- A driver that puts its new dictionary in place and changes nothing more. -/
theorem begun_rebuild {core : CoreId} (hStepwise : stepwise core = false)
    {prepared : List UserAccount} {ids : List String}
    (hIds : ∀ id, id ∈ prepared.map UserAccount.accountId ↔ id ∈ ids) {rest : Sync Unit}
    (hRest : ∀ P, rest.Keeps (Frame d0) P) :
    Begun core d0 ids
      (modify (fun d => d.withRoster (Roster.ofAccounts prepared)) >>= fun _ => rest) := by
  rw [Begun, hStepwise, if_neg Bool.false_ne_true]
  intro d hFrame
  have hFrame' : Frame d0 (d.withRoster (Roster.ofAccounts prepared)) := hFrame
  have hStep := fun P => (hRest P).of_settle hFrame'
  -- what follows keeps every property, so it keeps the state
  have hSame : (rest.settle (d.withRoster (Roster.ofAccounts prepared))).2 =
      d.withRoster (Roster.ofAccounts prepared) :=
    (hStep (· = d.withRoster (Roster.ofAccounts prepared))).1.2 rfl
  refine ⟨⟨(hStep fun _ => True).1.1, fun id => ?_⟩, fun P => (hStep P).2⟩
  show (rest.settle (d.withRoster (Roster.ofAccounts prepared))).2.Lists core id ↔ id ∈ ids
  rw [hSame, ← hIds, ← mem_ids_withRoster d]
  cases core with
  | xray => cases hStepwise
  | openvpn | pptp | singBox | softether | ssh | wireguard => exact Iff.rfl

theorem WireGuard.provision_reads (account : UserAccount) :
    (provision h account).Reads fun prepared => prepared.accountId = account.accountId := by
  refine (Reads.lift _).bind fun _ _ => (Reads.await _).bind fun _ _ => ?_
  exact Reads.get.bind fun d _ => (Reads.lift _).bind fun settings _ => rfl

theorem WireGuard.sync_waits (accounts : List UserAccount) :
    (syncAccounts h accounts).Waits (Begun .wireguard d0 (accounts.map UserAccount.accountId)) := by
  refine Waits.bind (Reads.mapList WireGuard.provision_reads accounts) fun prepared hPrepared => ?_
  refine begun_rebuild rfl (fun id => ?_) fun P => Keeps.await _
  have hIds : prepared.map UserAccount.accountId = accounts.map UserAccount.accountId := by
    induction hPrepared with
    | nil => rfl
    | cons hFirst _ ih => rw [List.map_cons, List.map_cons, hFirst, ih]
  rw [hIds]

theorem OpenVpn.killStrangers_reads (live : List String) :
    (killStrangers h live).Reads fun _ => True :=
  (Reads.await _).bind fun _ _ => Reads.forEach (fun _ => Reads.await _) _

theorem OpenVpn.sync_waits {accounts : List UserAccount}
    (hSuits : ∀ account ∈ accounts, OpenVpn.serves account.protocol = true) :
    (syncAccounts p h accounts).Waits
      (Begun .openvpn d0 (accounts.map UserAccount.accountId)) := by
  refine Waits.bind Reads.get fun d _ => Waits.bind (Reads.lift _) fun prepared hPrepared => ?_
  refine begun_rebuild rfl (fun id => ?_) fun P =>
    (OpenVpn.killStrangers_reads _).guarded_keeps fun _ => trivial
  rw [ids_mapM (fun hab => ⟨(OpenVpn.prepare_same hab).1, (OpenVpn.prepare_same hab).2⟩) hPrepared,
    List.mem_map]
  exact exists_congr fun account => and_congr_right fun hMem => and_iff_left (hSuits account hMem)

theorem SingBox.sync_waits {accounts : List UserAccount}
    (hSuits : ∀ account ∈ accounts, account.protocol ∈ SingBox.protocols) :
    (syncAccounts p h accounts).Waits (Begun .singBox d0 (accounts.map UserAccount.accountId)) := by
  refine Waits.bind Reads.get fun d _ => ?_
  refine begun_rebuild rfl (fun id => ?_) fun P => Keeps.await _
  have hAll : (accounts.map (SingBox.provisionCredentials h)).filter
      (fun a => decide (a.protocol ∈ SingBox.protocols)) =
        accounts.map (SingBox.provisionCredentials h) := by
    rw [List.filter_eq_self]
    intro account hMem
    obtain ⟨original, hOriginal, rfl⟩ := List.mem_map.mp hMem
    rw [decide_eq_true_eq, (SingBox.provisionCredentials_same h original).2]
    exact hSuits original hOriginal
  have hIds : (accounts.map (SingBox.provisionCredentials h)).map
      (UserAccount.accountId ∘ SingBox.normalizeAccount p d.settings) =
        accounts.map UserAccount.accountId := by
    rw [List.map_map]
    exact List.map_congr_left fun account _ => (SingBox.provisionCredentials_same h account).1
  rw [hAll, List.map_map, hIds]

theorem SoftEther.sync_waits (accounts : List UserAccount) :
    (syncAccounts h accounts).Waits (Begun .softether d0 (accounts.map UserAccount.accountId)) := by
  refine Waits.bind Reads.get fun d _ => Waits.bind (Reads.lift _) fun prepared hPrepared => ?_
  refine Waits.bind (Reads.await _) fun _ _ => ?_
  refine @begun_rebuild _ _ rfl _ _ (fun id => ?_) (pure ()) fun P => trivial
  rw [ids_mapM_all SoftEther.prepare_accountId hPrepared, List.mem_map]

/-- The handler of a failed publication raises again in the end. -/
theorem Pptp.rollBack_doomed (previous : Roster) (e : DriverError) :
    (rollBack previous e).Doomed := by
  intro d r
  cases r <;> trivial

theorem Pptp.sync_waits (accounts : List UserAccount) :
    (syncAccounts p h accounts).Waits (Begun .pptp d0 (accounts.map UserAccount.accountId)) := by
  refine Waits.bind Reads.get fun d _ => Waits.bind (Reads.lift _) fun prepared hPrepared => ?_
  refine begun_rebuild rfl (fun id => ?_) fun P r => ?_
  · rw [ids_mapM_all Pptp.prepare_accountId hPrepared, List.mem_map]
  · cases r with
    | ok u => exact Or.inr trivial
    | error e =>
      show (if e.isException then rollBack d.roster e else .done (.error e) : Sync Unit).Doomed ∨ _
      split
      · exact Or.inl (Pptp.rollBack_doomed _ e)
      · exact Or.inl trivial

end Rebuild

-- ---------------------------------------------------------------------------
-- SSH
-- ---------------------------------------------------------------------------

namespace Ssh

variable {p : Platform} {h : Host} {d0 : Driver} {P : Driver → Prop}

/-- A property of the set of accounts alone. -/
def OfRoster (P : Driver → Prop) : Prop := ∀ d d' : Driver, d'.roster = d.roster → P d → P d'

theorem ofRoster_meets (ids : List String) (id : String) : OfRoster (Meets .ssh ids id) :=
  fun _ _ hSame hMeets => (iff_of_eq (congrArg (fun r => id ∈ Roster.ids r) hSame)).trans hMeets

theorem onlyIf_keeps {condition : Bool} {body : Sync Unit} (hBody : body.Keeps (Frame d0) P) :
    (onlyIf condition body).Keeps (Frame d0) P := by
  cases condition with
  | true => exact hBody
  | false => trivial

theorem ensureUser_keeps (hP : OfRoster P) (account : UserAccount) (name : String) :
    (ensureUser account name).Keeps (Frame d0) P := by
  refine (Keeps.await _).bind fun _ => Keeps.get_bind fun d _ => ?_
  split
  · exact (Keeps.await _).bind fun _ =>
      Keeps.modify (fun _ hFrame => hFrame) fun d _ hd => hP d _ rfl hd
  · exact onlyIf_keeps (Keeps.await _)

theorem lockAndKill_keeps (name : String) : (lockAndKill name).Keeps (Frame d0) P :=
  (Keeps.await _).bind fun _ => Keeps.await _

/-- What remains of a creation once the account is listed. -/
theorem unlock_keeps (account : UserAccount) (name : String) :
    (if account.enabled then call (.unlockUser name) else lockAndKill name : Sync Unit).Keeps
      (Frame d0) P := by
  split
  · exact Keeps.await _
  · exact lockAndKill_keeps name

theorem createAccount_keeps (hP : OfRoster P) {account : UserAccount}
    (hPut : ∀ (d : Driver) (a : UserAccount), a.accountId = account.accountId → P d →
      P (d.putAccount a)) : (createAccount p h account).Keeps (Frame d0) P := by
  refine Keeps.get_bind fun d _ => Keeps.bind trivial fun _ => Keeps.bind trivial fun _ => ?_
  refine Keeps.bind trivial fun name => (ensureUser_keeps hP _ name).bind fun _ => ?_
  refine Keeps.bind (Keeps.get_bind fun d _ => onlyIf_keeps (Keeps.await _)) fun _ => ?_
  refine Keeps.bind ?_ fun _ => unlock_keeps _ name
  exact Keeps.modify (fun _ hFrame => hFrame) fun d' _ hd =>
    hPut d' _ (Ssh.provisionCredentials_accountId h d.settings account) hd

theorem createAccount_settles (hP : OfRoster P) {account : UserAccount}
    (hPut : ∀ (d : Driver) (a : UserAccount), a.accountId = account.accountId →
      P (d.putAccount a)) : (createAccount p h account).Settles (Frame d0) P := by
  refine Settles.get_bind fun d _ => Or.inr (Settles.lift_bind fun _ _ => ?_)
  refine Settles.lift_bind fun _ _ => Settles.lift_bind fun name _ => ?_
  refine Settles.bind_right P (ensureUser_keeps hP _ name) fun _ => ?_
  refine Settles.bind_right P
    (Keeps.get_bind fun d _ => onlyIf_keeps (Keeps.await _)) fun _ d' hFrame => ?_
  refine ⟨hFrame, Or.inl ⟨?_, unlock_keeps _ name⟩⟩
  exact hPut d' _ (Ssh.provisionCredentials_accountId h d.settings account)

theorem removeUser_keeps (hP : OfRoster P) (name : String) :
    (removeUser name).Keeps (Frame d0) P := by
  refine (Keeps.await _).bind fun _ => (lockAndKill_keeps name).bind fun _ => ?_
  refine (Keeps.await _).bind fun _ => (Keeps.await _).bind fun _ => ?_
  refine Keeps.modify (fun _ hFrame => hFrame) fun d _ hd => ?_
  exact hP d _ rfl hd

/-- What remains of a deletion once the account is no longer listed. -/
theorem unlisted_keeps (hP : OfRoster P) (id : String) (found : Option UserAccount) :
    (match found with
      | none =>
        match sanitizeUsername p id with
        | .ok name => removeUser name
        | .error _ => pure ()
      | some account => lift (Ssh.unixName p account) >>= removeUser : Sync Unit).Keeps
      (Frame d0) P := by
  cases found with
  | none =>
    cases sanitizeUsername p id with
    | ok name => exact removeUser_keeps hP name
    | error e => trivial
  | some account => exact Keeps.bind trivial fun name => removeUser_keeps hP name

theorem deleteAccount_keeps (hP : OfRoster P) {id : String}
    (hDrop : ∀ d : Driver, P d → P (d.dropAccount id)) :
    (deleteAccount p id).Keeps (Frame d0) P := by
  refine Keeps.get_bind fun d _ => Keeps.bind ?_ fun _ => unlisted_keeps hP id _
  exact Keeps.modify (fun _ hFrame => hFrame) fun d' _ hd => hDrop d' hd

theorem deleteAccount_settles (hP : OfRoster P) {id : String}
    (hDrop : ∀ d : Driver, P (d.dropAccount id)) :
    (deleteAccount p id).Settles (Frame d0) P :=
  Settles.get_bind fun _ _ => Or.inr fun d' hFrame =>
    ⟨hFrame, Or.inl ⟨hDrop d', unlisted_keeps hP id _⟩⟩

theorem sync_waits {accounts : List UserAccount}
    (hSuits : ∀ account ∈ accounts, Ssh.credentialed d0.settings account = true) :
    (syncAccounts p h accounts).Waits (Begun .ssh d0 (accounts.map UserAccount.accountId)) := by
  refine @begun_of_stepwise .ssh rfl _ _ _ fun id => ?_
  refine Or.inl (Settles.get_bind fun d hFrame => Or.inr ?_)
  have hDesired : ∀ other, other ∈ Ssh.desiredIds
      (accounts.map (Ssh.provisionCredentials h d.settings)) ↔
        other ∈ accounts.map UserAccount.accountId := by
    intro other
    rw [Ssh.mem_desiredIds, Ssh.Desired, hFrame.1, List.mem_map]
    exact exists_congr fun account => and_congr_right fun hMem =>
      and_iff_left (hSuits account hMem)
  have hP := ofRoster_meets (accounts.map UserAccount.accountId) id
  -- every account that is created is one of the list
  have hCreated : ∀ account ∈ (accounts.map (Ssh.provisionCredentials h d.settings)).filter
      (fun a => decide (a.accountId ∈ Ssh.desiredIds
        (accounts.map (Ssh.provisionCredentials h d.settings)))),
      (createAccount p h account).Keeps (Frame d0)
        (Meets .ssh (accounts.map UserAccount.accountId) id) := by
    intro account hMem
    rw [List.mem_filter, decide_eq_true_eq, hDesired] at hMem
    refine createAccount_keeps hP fun d' a hId hMeets => ?_
    show id ∈ (d'.roster.put a).ids ↔ _
    have hAlready : id = account.accountId → id ∈ d'.roster.ids :=
      fun hEq => hMeets.mpr (hEq ▸ hMem.2)
    rw [Roster.mem_ids_put, hId, or_iff_right_of_imp hAlready]
    exact hMeets
  have hStale : ∀ (d' : Driver), ∀ stale ∈ d'.roster.ids.filter (fun other =>
      decide (other ∉ Ssh.desiredIds (accounts.map (Ssh.provisionCredentials h d.settings)))),
      (deleteAccount p stale).Keeps (Frame d0)
        (Meets .ssh (accounts.map UserAccount.accountId) id) := by
    intro d' stale hMem
    rw [List.mem_filter, decide_eq_true_eq, hDesired] at hMem
    refine deleteAccount_keeps hP fun d'' hMeets => ?_
    show id ∈ (d''.roster.remove stale).ids ↔ _
    have hOther : id ∈ d''.roster.ids → id ≠ stale :=
      fun hIn hEq => hMem.2 (hEq ▸ hMeets.mp hIn)
    rw [Roster.mem_ids_remove, and_iff_right_of_imp hOther]
    exact hMeets
  by_cases hListed : id ∈ accounts.map UserAccount.accountId
  · -- a listed account is created, and no listed account is deleted
    obtain ⟨account, hMem, hId⟩ := List.mem_map.mp
      (show id ∈ ((accounts.map (Ssh.provisionCredentials h d.settings)).filter fun a =>
        decide (a.accountId ∈ Ssh.desiredIds
          (accounts.map (Ssh.provisionCredentials h d.settings)))).map UserAccount.accountId from by
        rw [Ssh.mem_createdIds, ← Ssh.mem_desiredIds h, hDesired]
        exact hListed)
    refine Settles.bind_left (Settles.forEach hCreated hMem ?_) fun _ =>
      Keeps.get_bind fun d' _ => Keeps.forEach (hStale d')
    refine createAccount_settles hP fun d' a hPut => ?_
    show id ∈ (d'.roster.put a).ids ↔ _
    rw [Roster.mem_ids_put, hPut, hId]
    exact iff_of_true (Or.inl rfl) hListed
  · -- any other account is deleted if it is listed when the creations are done
    refine Settles.bind_right _ (Keeps.forEach hCreated) fun _ => Settles.get_bind fun d' _ => ?_
    by_cases hHeld : id ∈ d'.roster.ids
    · have hMem : id ∈ d'.roster.ids.filter (fun other => decide (other ∉ Ssh.desiredIds
          (accounts.map (Ssh.provisionCredentials h d.settings)))) := by
        rw [List.mem_filter, decide_eq_true_eq, hDesired]
        exact ⟨hHeld, hListed⟩
      refine Or.inr (Settles.forEach (hStale d') hMem (deleteAccount_settles hP fun d'' => ?_))
      show id ∈ (d''.roster.remove id).ids ↔ _
      rw [Roster.mem_ids_remove]
      exact iff_of_false (fun hBoth => hBoth.1 rfl) hListed
    · exact Or.inl ⟨iff_of_false hHeld hListed, Keeps.forEach (hStale d')⟩

end Ssh

-- ---------------------------------------------------------------------------
-- Xray
-- ---------------------------------------------------------------------------

namespace Xray

variable {d0 : Driver} {P : Driver → Prop}

theorem mutate_keeps {f : XrayConfig → XrayConfig} (hTags : ∀ c, (f c).tags = c.tags)
    (hP : ∀ d, P d → P (d.withXray (f d.xray))) : (mutate f).Keeps (Frame d0) P := by
  refine (Keeps.modify (fun d hFrame => ?_) fun d _ hd => hP d hd).bind fun _ => Keeps.await _
  exact ⟨hFrame.1, (hTags d.xray).trans hFrame.2⟩

theorem mutate_settles {f : XrayConfig → XrayConfig} (hTags : ∀ c, (f c).tags = c.tags)
    (hP : ∀ d, Frame d0 d → P (d.withXray (f d.xray))) : (mutate f).Settles (Frame d0) P :=
  fun d hFrame => ⟨⟨hFrame.1, (hTags d.xray).trans hFrame.2⟩, Or.inl ⟨hP d hFrame, Keeps.await _⟩⟩

theorem deleteAccount_keeps {id : String}
    (hP : ∀ tag d, P d → P (d.withXray (d.xray.removeUser tag id))) :
    (deleteAccount id).Keeps (Frame d0) P :=
  (Keeps.await _).bind fun _ => Keeps.get_bind fun _ _ => Keeps.forEach fun tag _ =>
    mutate_keeps (fun c => XrayConfig.tags_edit c tag _) (hP tag)

theorem onlyIf_keeps {condition : Bool} {body : Sync Unit} (hBody : body.Keeps (Frame d0) P) :
    (onlyIf condition body).Keeps (Frame d0) P := by
  cases condition with
  | true => exact hBody
  | false => trivial

theorem createAccount_keeps {account : UserAccount}
    (hP : ∀ tag client d, client.email = account.accountId → P d →
      P (d.withXray (d.xray.addUser tag client))) : (createAccount account).Keeps (Frame d0) P := by
  refine Keeps.bind trivial fun _ => onlyIf_keeps (Keeps.bind trivial fun settings => ?_)
  refine (Keeps.await _).bind fun _ => Keeps.get_bind fun d _ => Keeps.bind trivial fun _ => ?_
  dsimp only
  split
  · trivial
  · exact Keeps.forEach fun inbound _ =>
      mutate_keeps (fun c => XrayConfig.tags_edit c inbound.tag _) fun d hd =>
        hP inbound.tag _ d rfl hd

/-- An enabled account is served by the first of its inbounds on. -/
theorem createAccount_settles {account : UserAccount} (hEnabled : account.enabled = true)
    (hKeeps : ∀ tag client d, client.email = account.accountId → P d →
      P (d.withXray (d.xray.addUser tag client)))
    (hP : ∀ (tag : String) (client : XrayClient) (d : Driver),
      client.email = account.accountId → tag ∈ d.xray.tags → P (d.withXray (d.xray.addUser tag client))) :
    (createAccount account).Settles (Frame d0) P := by
  refine Settles.lift_bind fun _ _ => ?_
  rw [hEnabled]
  refine Settles.lift_bind fun settings _ => Settles.await_bind _ (Settles.get_bind fun d hFrame =>
    Or.inr (Settles.lift_bind fun excluded _ => ?_))
  dsimp only
  split
  · trivial
  · rename_i hSome
    obtain ⟨inbound, hMem⟩ := List.exists_mem_of_ne_nil _ hSome
    refine Settles.forEach (fun other _ => ?_) hMem ?_
    · exact mutate_keeps (fun c => XrayConfig.tags_edit c other.tag _) fun d hd =>
        hKeeps other.tag _ d rfl hd
    · refine mutate_settles (fun c => XrayConfig.tags_edit c inbound.tag _) fun d' hFrame' => ?_
      refine hP inbound.tag _ d' rfl ?_
      rw [hFrame'.2, ← hFrame.2]
      exact List.mem_map.mpr ⟨inbound, (List.mem_filter.mp hMem).1, rfl⟩

theorem sync_waits {accounts : List UserAccount}
    (hSuits : ∀ account ∈ accounts, account.enabled = true) :
    (syncAccounts accounts).Waits (Begun .xray d0 (accounts.map UserAccount.accountId)) := by
  refine @begun_of_stepwise .xray rfl _ _ _ fun id => ?_
  -- adding a listed account's client is right for every account
  have hAdds : ∀ account ∈ accounts, ∀ tag (client : XrayClient) (d : Driver),
      client.email = account.accountId →
        Meets .xray (accounts.map UserAccount.accountId) id d →
          Meets .xray (accounts.map UserAccount.accountId) id
            (d.withXray (d.xray.addUser tag client)) := by
    intro account hMem tag client d hEmail hMeets
    constructor
    · rintro ⟨other, hServes⟩
      rcases XrayConfig.serves_addUser.mp hServes with hBefore | ⟨-, hEq, -⟩
      · exact hMeets.mp ⟨other, hBefore⟩
      · rw [hEq, hEmail]
        exact List.mem_map.mpr ⟨account, hMem, rfl⟩
    · intro hListed
      obtain ⟨other, hServes⟩ := hMeets.mpr hListed
      exact ⟨other, XrayConfig.serves_addUser.mpr (Or.inl hServes)⟩
  by_cases hListed : id ∈ accounts.map UserAccount.accountId
  · -- a listed account is created again after the deletions
    obtain ⟨account, hMem, hId⟩ := List.mem_map.mp hListed
    have hDeleted : (forEach (fun account : UserAccount => deleteAccount account.accountId)
        accounts).Keeps (Frame d0) fun _ => True :=
      Keeps.forEach fun _ _ => deleteAccount_keeps fun _ _ _ => trivial
    refine Or.inl ?_
    show Settles _ _ (forEach _ accounts >>= fun _ => forEach createAccount accounts)
    refine Settles.bind_right _ hDeleted fun _ => ?_
    refine Settles.forEach (fun other hOther => createAccount_keeps (hAdds other hOther)) hMem
      (createAccount_settles (hSuits account hMem) (hAdds account hMem) ?_)
    intro tag client d hEmail hTag
    exact iff_of_true ⟨tag, XrayConfig.serves_addUser.mpr
      (Or.inr ⟨rfl, hId.symm.trans hEmail.symm, hTag⟩)⟩ hListed
  · -- any other account is left alone
    refine Or.inr ⟨⟨rfl, hListed⟩, (Keeps.forEach fun other _ => deleteAccount_keeps ?_).bind
      fun _ => Keeps.forEach fun other hOther => createAccount_keeps (hAdds other hOther)⟩
    -- deleting a listed account does not touch one that is not listed
    intro tag d hMeets
    refine iff_of_false ?_ hListed
    rintro ⟨other, hServes⟩
    exact hListed (hMeets.mp ⟨other, (XrayConfig.serves_removeUser.mp hServes).1⟩)

end Xray

/--
**Every sync** reads only up to its mark, and sees to its accounts from there.
The mark is the first write of the driver, so a push that has not reached it
can be taken for one that starts later; from the mark on, each account is
settled by some step still to come or is kept as it is.
-/
theorem sync_waits (p : Platform) (h : Host) (d0 : Driver) {accounts : List UserAccount}
    {core : CoreId} (hSuits : ∀ account ∈ accounts, suits d0.settings account core = true) :
    (syncAccounts p h accounts core).Waits
      (Begun core d0 (accounts.map UserAccount.accountId)) := by
  cases core with
  | openvpn => exact OpenVpn.sync_waits hSuits
  | pptp => exact Pptp.sync_waits accounts
  | singBox => exact SingBox.sync_waits fun account hMem => of_decide_eq_true (hSuits account hMem)
  | softether => exact SoftEther.sync_waits accounts
  | ssh => exact Ssh.sync_waits hSuits
  | wireguard => exact WireGuard.sync_waits accounts
  | xray => exact Xray.sync_waits hSuits

end Suspended

end ZagrosNode.Accounts
