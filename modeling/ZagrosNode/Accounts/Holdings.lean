import Mathlib.Data.List.Forall2
import Mathlib.Data.List.Induction
import ZagrosNode.Accounts.UserAccount
import ZagrosNode.Lib.Object
import ZagrosNode.Lib.Outcome

/-!
# ZagrosNode — where drivers keep accounts

Six drivers keep the accounts they serve in the dictionary `_accounts`. Xray
keeps no dictionary: its accounts are the client rows of the inbounds in its
configuration file. Both tables carry their invariant: an account is filed
under its own id, and no two inbounds share a tag.

A `Roster` is a dictionary in which every account is under its own id. The source never
writes `_accounts[k] = a` with another `k`, and the field of the structure says so, so
that an entry of the table and an account of a list can be identified by the id alone.
`ofAccounts` is the comprehension `{a.account_id: a for a in accounts}`; the last of two
accounts with one id stays, in the place of the first.

`XrayConfig` is a list of inbounds with distinct tags, since the writer validates that.
An edit changes the clients of one inbound. Rows are compared by their `email` column
only, and a row without one is nobody's.

`isSet` is the test `settings.get(key)` as a condition, which an empty text or a zero
does not pass.

Main results:

* `Roster.mem_ids_ofAccounts` — the ids of a rebuilt `_accounts`.
* `Roster.mem_values_ofAccounts_mapM` — its accounts, where each was prepared.
* `XrayConfig.serves_removeUser` / `XrayConfig.serves_addUser` — which inbound
  serves which account after a change of one inbound.
-/

namespace ZagrosNode.Accounts

open ZagrosNode.Lib ZagrosNode.Cores Op

-- ---------------------------------------------------------------------------
-- Settings
-- ---------------------------------------------------------------------------

/-- `settings.get(key)` is a true value. -/
def isSet (settings : Settings) (key : String) : Bool := (Json.getD settings key).truthy

def UserAccount.withSetting (account : UserAccount) (key : String) (v : Json) : UserAccount :=
  { account with settings := assocSet key v account.settings }

@[simp] theorem withSetting_accountId (account : UserAccount) (key : String) (v : Json) :
    (account.withSetting key v).accountId = account.accountId := rfl

theorem isSet_of_getD_eq {settings settings' : Settings} {key : String}
    (h : Json.getD settings' key = Json.getD settings key) :
    isSet settings' key = isSet settings key := by
  rw [isSet, isSet, h]

/-- A setting given a non-empty text is set. -/
theorem isSet_withSetting (account : UserAccount) (key text : String) (h : text ≠ "") :
    isSet (account.withSetting key (.str text)).settings key = true := by
  rw [isSet, UserAccount.withSetting, Json.getD_assocSet_self]
  simp [Json.truthy, h]

-- ---------------------------------------------------------------------------
-- The account table
-- ---------------------------------------------------------------------------

/-- `_accounts`: accounts filed under their own ids. -/
structure Roster where
  table : Dict String UserAccount
  keyed : ∀ {id account}, table.get? id = some account → account.accountId = id

namespace Roster

def empty : Roster := ⟨Dict.empty, fun h => by cases h⟩

def ids (r : Roster) : List String := r.table.keys

/-- `self._accounts[account.account_id] = account` -/
def put (r : Roster) (account : UserAccount) : Roster where
  table := r.table.set account.accountId account
  keyed := by
    intro id found hGet
    rw [Dict.get?_set] at hGet
    by_cases hId : account.accountId = id
    · rw [if_pos hId] at hGet
      rw [← Option.some.inj hGet, hId]
    · rw [if_neg hId] at hGet
      exact r.keyed hGet

/-- `self._accounts.pop(account_id, None)` -/
def remove (r : Roster) (id : String) : Roster where
  table := r.table.pop id
  keyed := by
    intro other found hGet
    rw [Dict.get?_pop] at hGet
    by_cases hId : other = id
    · rw [if_pos hId] at hGet
      cases hGet
    · rw [if_neg hId] at hGet
      exact r.keyed hGet

/-- `{a.account_id: a for a in accounts}` -/
def ofAccounts (accounts : List UserAccount) : Roster := accounts.foldl put empty

theorem mem_ids_put {r : Roster} {account : UserAccount} {id : String} :
    id ∈ (r.put account).ids ↔ id = account.accountId ∨ id ∈ r.ids :=
  Dict.mem_keys_set

theorem mem_ids_remove {r : Roster} {id other : String} :
    other ∈ (r.remove id).ids ↔ other ≠ id ∧ other ∈ r.ids := by
  unfold ids remove
  rw [Dict.mem_keys_iff, Dict.mem_keys_iff, Dict.get?_pop]
  by_cases hId : other = id <;> simp [hId]

theorem mem_ids_foldl {r : Roster} {accounts : List UserAccount} {id : String} :
    id ∈ (accounts.foldl put r).ids ↔ id ∈ r.ids ∨ id ∈ accounts.map UserAccount.accountId := by
  induction accounts generalizing r with
  | nil => simp
  | cons account rest ih =>
    rw [List.foldl_cons, ih, mem_ids_put, List.map_cons, List.mem_cons]
    tauto

theorem get?_foldl_remove {r : Roster} {stale : List String} {id : String} :
    (stale.foldl remove r).table.get? id = if id ∈ stale then none else r.table.get? id := by
  induction stale generalizing r with
  | nil => simp
  | cons first rest ih =>
    rw [List.foldl_cons, ih, remove, Dict.get?_pop]
    by_cases hRest : id ∈ rest
    · simp [hRest]
    · by_cases hFirst : id = first <;> simp [hRest, hFirst]

theorem mem_ids_foldl_remove {r : Roster} {stale : List String} {id : String} :
    id ∈ (stale.foldl remove r).ids ↔ id ∈ r.ids ∧ id ∉ stale := by
  unfold ids
  rw [Dict.mem_keys_iff, Dict.mem_keys_iff, get?_foldl_remove]
  by_cases hStale : id ∈ stale <;> simp [hStale]

theorem mem_ids_ofAccounts {accounts : List UserAccount} {id : String} :
    id ∈ (ofAccounts accounts).ids ↔ id ∈ accounts.map UserAccount.accountId := by
  rw [ofAccounts, mem_ids_foldl]
  simp [empty, ids]

/-- The last account of an id replaces the others. -/
theorem get?_foldl_put (r : Roster) (accounts : List UserAccount) (id : String) :
    (accounts.foldl put r).table.get? id =
      (accounts.reverse.find? fun account => decide (account.accountId = id)).or
        (r.table.get? id) := by
  induction accounts using List.reverseRecOn with
  | nil => rfl
  | append_singleton before last ih =>
    have hFold : (before ++ [last]).foldl put r = (before.foldl put r).put last := by
      rw [List.foldl_append]
      rfl
    rw [hFold, put, Dict.get?_set, ih, List.reverse_append, List.reverse_singleton,
      List.singleton_append, List.find?_cons]
    by_cases hId : last.accountId = id <;> simp [hId]

theorem get?_ofAccounts (accounts : List UserAccount) (id : String) :
    (ofAccounts accounts).table.get? id =
      accounts.reverse.find? fun account => decide (account.accountId = id) :=
  (get?_foldl_put empty accounts id).trans Option.or_none

theorem get?_eq_none_iff {r : Roster} {id : String} : r.table.get? id = none ↔ id ∉ r.ids := by
  rw [ids, Dict.mem_keys_iff, Option.eq_none_iff_forall_ne_some]
  exact not_exists.symm

theorem mem_values_iff {r : Roster} {account : UserAccount} :
    account ∈ r.table.values ↔ r.table.get? account.accountId = some account := by
  constructor
  · intro hMem
    obtain ⟨⟨id, found⟩, hEntry, rfl⟩ := List.mem_map.mp hMem
    have hGet := Dict.mem_entries_iff.mp hEntry
    rwa [r.keyed hGet]
  · intro hGet
    exact List.mem_map.mpr ⟨_, Dict.mem_entries_iff.mpr hGet, rfl⟩

theorem mem_of_mem_ofAccounts {accounts : List UserAccount} {account : UserAccount}
    (h : account ∈ (ofAccounts accounts).table.values) : account ∈ accounts := by
  rw [mem_values_iff, get?_ofAccounts] at h
  exact List.mem_reverse.mp (List.mem_of_find?_eq_some h)

/-- The last accounts of a list whose members were prepared one by one are the
last ones of the original list, prepared. -/
theorem mem_values_ofAccounts_mapM {ε : Type} {f : UserAccount → Except ε UserAccount}
    (hf : ∀ {a b}, f a = .ok b → b.accountId = a.accountId)
    {accounts prepared : List UserAccount} (h : accounts.mapM f = .ok prepared)
    {account : UserAccount} :
    account ∈ (ofAccounts prepared).table.values ↔
      ∃ original ∈ (ofAccounts accounts).table.values, f original = .ok account := by
  have hFind : ∀ {l m : List UserAccount}, List.Forall₂ (fun a b => f a = .ok b) l m → ∀ id,
      m.find? (fun b => decide (b.accountId = id)) = some account ↔
        ∃ a, l.find? (fun a => decide (a.accountId = id)) = some a ∧ f a = .ok account := by
    intro l m hRel id
    -- the two lists are walked in step; ids agree, so the same member is found
    induction hRel with
    | nil => simp
    | @cons a b l m hHead _ ih =>
      rw [List.find?_cons, List.find?_cons, hf hHead]
      by_cases hId : a.accountId = id
      · simp only [hId, decide_true, Option.some.injEq]
        constructor
        · rintro rfl
          exact ⟨a, rfl, hHead⟩
        · rintro ⟨_, rfl, hOk⟩
          exact Except.ok.inj (hHead.symm.trans hOk)
      · simpa only [hId, decide_false] using ih
  rw [mem_values_iff, get?_ofAccounts, hFind (List.rel_reverse (mapM_ok_iff.mp h))]
  constructor
  · rintro ⟨original, hOriginal, hOk⟩
    refine ⟨original, ?_, hOk⟩
    rw [mem_values_iff, get?_ofAccounts, ← hf hOk]
    exact hOriginal
  · rintro ⟨original, hMem, hOk⟩
    rw [mem_values_iff, get?_ofAccounts] at hMem
    exact ⟨original, by rwa [hf hOk], hOk⟩

end Roster

-- ---------------------------------------------------------------------------
-- The Xray configuration
-- ---------------------------------------------------------------------------

/-- A row of `settings.clients`: the `email` column and the others. -/
structure XrayClient where
  email    : String
  settings : Settings

structure XrayInbound where
  tag      : String
  protocol : String
  /-- `streamSettings.network` and `streamSettings.security` -/
  network  : String
  tls      : String
  clients  : List XrayClient

/-- The inbounds of the configuration file. `_validate` refuses to write a
document in which two inbounds share a tag. -/
@[ext] structure XrayConfig where
  inbounds    : List XrayInbound
  tags_nodup  : (inbounds.map XrayInbound.tag).Nodup

namespace XrayConfig

def tags (c : XrayConfig) : List String := c.inbounds.map XrayInbound.tag

/-- Change the clients of the inbound with this tag. -/
def edit (c : XrayConfig) (tag : String) (f : List XrayClient → List XrayClient) :
    XrayConfig where
  inbounds := c.inbounds.map fun inbound =>
    if inbound.tag = tag then { inbound with clients := f inbound.clients } else inbound
  tags_nodup := by
    rw [List.map_map]
    convert c.tags_nodup using 2
    funext inbound
    by_cases hTag : inbound.tag = tag <;> simp [hTag]

/-- `[row for row in clients if row.get("email") != email]` -/
def without (email : String) (clients : List XrayClient) : List XrayClient :=
  clients.filter fun other => decide (other.email ≠ email)

def removeUser (c : XrayConfig) (tag email : String) : XrayConfig := c.edit tag (without email)

def addUser (c : XrayConfig) (tag : String) (client : XrayClient) : XrayConfig :=
  c.edit tag fun clients => without client.email clients ++ [client]

/-- The inbound serves the account. -/
def Serves (c : XrayConfig) (tag email : String) : Prop :=
  ∃ inbound ∈ c.inbounds, inbound.tag = tag ∧ ∃ client ∈ inbound.clients, client.email = email

theorem tags_edit (c : XrayConfig) (tag : String) (f : List XrayClient → List XrayClient) :
    (c.edit tag f).tags = c.tags := by
  unfold tags edit
  rw [List.map_map]
  apply List.map_congr_left
  intro inbound _
  by_cases hTag : inbound.tag = tag <;> simp [hTag]

theorem serves_edit {c : XrayConfig} {tag other email : String}
    {f : List XrayClient → List XrayClient} :
    (c.edit tag f).Serves other email ↔
      ∃ inbound ∈ c.inbounds, inbound.tag = other ∧
        ∃ client ∈ if other = tag then f inbound.clients else inbound.clients,
          client.email = email := by
  unfold Serves edit
  simp only [List.mem_map]
  constructor
  · rintro ⟨_, ⟨inbound, hMem, rfl⟩, hTag, hClient⟩
    by_cases hEq : inbound.tag = tag
    · rw [if_pos hEq] at hTag hClient
      exact ⟨inbound, hMem, hTag, by rwa [if_pos (hTag.symm.trans hEq)]⟩
    · rw [if_neg hEq] at hTag hClient
      exact ⟨inbound, hMem, hTag, by rwa [if_neg fun h => hEq (hTag.trans h)]⟩
  · rintro ⟨inbound, hMem, rfl, hClient⟩
    refine ⟨_, ⟨inbound, hMem, rfl⟩, ?_⟩
    by_cases hEq : inbound.tag = tag
    · rw [if_pos hEq] at hClient ⊢
      exact ⟨rfl, hClient⟩
    · rw [if_neg hEq] at hClient ⊢
      exact ⟨rfl, hClient⟩

theorem exists_mem_without {email removed : String} {clients : List XrayClient} :
    (∃ client ∈ without removed clients, client.email = email) ↔
      (∃ client ∈ clients, client.email = email) ∧ email ≠ removed := by
  simp only [without, List.mem_filter, decide_eq_true_eq]
  constructor
  · rintro ⟨client, ⟨hMem, hNe⟩, rfl⟩
    exact ⟨⟨client, hMem, rfl⟩, hNe⟩
  · rintro ⟨⟨client, hMem, rfl⟩, hNe⟩
    exact ⟨client, ⟨hMem, hNe⟩, rfl⟩

theorem serves_removeUser {c : XrayConfig} {tag other removed email : String} :
    (c.removeUser tag removed).Serves other email ↔
      c.Serves other email ∧ ¬ (other = tag ∧ email = removed) := by
  rw [removeUser, serves_edit]
  by_cases hTag : other = tag
  · simp only [hTag, if_true, exists_mem_without, true_and, Serves]
    constructor
    · rintro ⟨inbound, hMem, hEq, hClient, hNe⟩
      exact ⟨⟨inbound, hMem, hEq, hClient⟩, hNe⟩
    · rintro ⟨⟨inbound, hMem, hEq, hClient⟩, hNe⟩
      exact ⟨inbound, hMem, hEq, hClient, hNe⟩
  · simp [hTag, Serves]

theorem serves_addUser {c : XrayConfig} {tag other email : String} {added : XrayClient} :
    (c.addUser tag added).Serves other email ↔
      c.Serves other email ∨ (other = tag ∧ email = added.email ∧ tag ∈ c.tags) := by
  rw [addUser, serves_edit]
  by_cases hTag : other = tag
  · subst hTag
    have hRows : ∀ clients : List XrayClient,
        (∃ client ∈ without added.email clients ++ [added], client.email = email) ↔
          (∃ client ∈ clients, client.email = email) ∨ email = added.email := by
      intro clients
      simp only [List.mem_append, or_and_right, exists_or, exists_mem_without,
        List.mem_singleton, exists_eq_left]
      by_cases hNew : email = added.email <;> simp [hNew, eq_comm]
    simp only [if_true, hRows, true_and, Serves, tags, List.mem_map]
    constructor
    · rintro ⟨inbound, hMem, hEq, hClient | hAdded⟩
      · exact Or.inl ⟨inbound, hMem, hEq, hClient⟩
      · exact Or.inr ⟨hAdded, inbound, hMem, hEq⟩
    · rintro (⟨inbound, hMem, hEq, hClient⟩ | ⟨hAdded, inbound, hMem, hEq⟩)
      · exact ⟨inbound, hMem, hEq, Or.inl hClient⟩
      · exact ⟨inbound, hMem, hEq, Or.inr hAdded⟩
  · simp [hTag, Serves]

end XrayConfig

end ZagrosNode.Accounts
