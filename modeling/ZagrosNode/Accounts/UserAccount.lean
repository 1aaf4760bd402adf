import ZagrosNode.Cores.Manager
import ZagrosNode.Security.Identity

/-!
# ZagrosNode — user accounts and their snapshot

The panel pushes accounts as JSON objects. `toUserAccount` checks one and
turns it into the record the drivers work with; `AccountsStore` keeps the
objects themselves in one file per core, so that a restarted agent can replay
them.

What the checks take from the interpreter and from the validation library is
a parameter: the text of a value that is not a string, lower-casing, which
texts are Unicode, and the validation of the two optional fields.

`toUserAccount` checks in the order of `_to_user_account`, and its errors carry the
texts of the source: the order decides which of two faults is reported. After the
checks that are written out the record is built, and building validates: the texts and
the keys of the settings are to be Unicode, which a text with half a surrogate pair is
not, and the two optional fields must convert. What the validation raises is no 422.

`Platform.text` is `str(v or "")` for any value. For a text it is the text; of other
values the model knows only that they have one.

The store keeps objects, not records. It reads the id again with the same expression, so
the id of a record and the key of its object agree; an object without one is kept in a
full snapshot and dropped by a merge.

Main results:

* `toUserAccount_accountId` — the record's account id is the key the store
  files the object under, and is never empty.
* `mem_accountIds_store` — which accounts the snapshot lists after a push.
-/

namespace ZagrosNode.Accounts

open ZagrosNode.Lib ZagrosNode.Cores ZagrosNode.Security

/-- The entries of a JSON object. -/
abbrev Raw := List (String × Json)

/-- What the interpreter and the validation library contribute. -/
structure Platform where
  /-- `str(v)` of a value that is not a string -/
  repr     : Json → String
  /-- `s.lower()` -/
  lower    : String → String
  /-- The validation of `expire_at` and `data_limit_bytes`. -/
  validate : (expireAt dataLimitBytes : Json) → Except PyErr Unit
  /-- The text holds no lone surrogate. `json` decodes an escape such as a
  single `\ud800` into one, so a text here may stand for a text with one. -/
  unicode  : String → Bool := fun _ => true
  /-- `hashlib.sha256(b).digest()` -/
  sha256   : List UInt8 → List UInt8
  sha256_length : ∀ bytes, (sha256 bytes).length = 32

/-- `str(v)` -/
def Platform.str (p : Platform) : Json → String
  | .str s => s
  | v      => p.repr v

/-- `str(v or "")` -/
def Platform.text (p : Platform) (v : Json) : String := if v.truthy then p.str v else ""

/-- A user's account on one core. -/
structure UserAccount where
  userId         : Int
  username       : String
  accountId      : String
  protocol       : String
  enabled        : Bool
  expireAt       : Json
  dataLimitBytes : Json
  settings       : Settings

-- ---------------------------------------------------------------------------
-- Reading one pushed object
-- ---------------------------------------------------------------------------

/-- `int(raw["user_id"])`, as the request handler reports its failures. -/
def userIdOf (raw : Raw) : Except Failure Int :=
  let bad : Failure := .http 422 "account is missing a numeric 'user_id'"
  match Json.get? raw "user_id" with
  | none   => .error bad
  | some v =>
    match v.int with
    | .ok n    => .ok n
    | .error e => if e.isValueError || e.kind == .type then .error bad else .error (.py e)

/-- `raw.get("settings") or {}` -/
def settingsOf (raw : Raw) : Except Failure Settings :=
  match (Json.getD raw "settings").or (.dict []) with
  | .dict settings => .ok settings
  | _              => .error (.http 422 "account 'settings' must be an object")

/-- `raw.get("enabled", True)` -/
def enabledOf (raw : Raw) : Bool := ((Json.get? raw "enabled").getD (.bool true)).truthy

/-- A text field with a length between 1 and `bound`. -/
def checkedText (p : Platform) (raw : Raw) (field : String) (bound : Nat) (complaint : String) :
    Except Failure String :=
  let text := p.text (Json.getD raw field)
  if 1 ≤ text.length ∧ text.length ≤ bound then .ok text else .error (.http 422 complaint)

def notUnicode : PyErr :=
  ⟨.value, "Input should be a valid string, unable to parse raw data as a unicode string"⟩

/-- What the model validates when the record is built: its texts and the keys
of its settings are to be Unicode, then the two optional fields are converted.
The values of the settings may be anything. -/
def Platform.validateRecord (p : Platform) (username accountId protocol : String)
    (settings : Settings) (expireAt dataLimitBytes : Json) : Except PyErr Unit :=
  if p.unicode username && p.unicode accountId && p.unicode protocol
      && settings.all (fun e => p.unicode e.1) then
    p.validate expireAt dataLimitBytes
  else .error notUnicode

/-- Validate one account object. The settings come out of a JSON decoder, so
their round trip through `json` gives them back. -/
def toUserAccount (p : Platform) : Json → Except Failure UserAccount
  | .dict raw => do
    let userId ← userIdOf raw
    let username ← checkedText p raw "username" 128 "account 'username' must be 1–128 characters"
    let accountId ←
      checkedText p raw "account_id" 256 "account 'account_id' must be 1–256 characters"
    let protocol ← checkedText p raw "protocol" 64 "account 'protocol' must be 1–64 characters"
    let settings ← settingsOf raw
    match p.validateRecord username accountId protocol settings (Json.getD raw "expire_at")
      (Json.getD raw "data_limit_bytes") with
    | .error e => .error (.py e)
    | .ok ()   =>
      .ok
        { userId := userId
          username := username
          accountId := accountId
          protocol := protocol
          enabled := enabledOf raw
          expireAt := Json.getD raw "expire_at"
          dataLimitBytes := Json.getD raw "data_limit_bytes"
          settings := settings }
  | _ => .error (.http 422 "each account must be an object")

/-- `str(item.get("account_id") or "")`, the key of an object in the store. -/
def accountKey (p : Platform) (raw : Raw) : String := p.text (Json.getD raw "account_id")

theorem checkedText_ok {p : Platform} {raw : Raw} {field complaint text : String} {bound : Nat}
    (h : checkedText p raw field bound complaint = .ok text) :
    text = p.text (Json.getD raw field) ∧ text ≠ "" := by
  unfold checkedText at h
  simp only at h
  by_cases hLen : 1 ≤ (p.text (Json.getD raw field)).length ∧
      (p.text (Json.getD raw field)).length ≤ bound
  · rw [if_pos hLen] at h
    obtain rfl := Except.ok.inj h
    refine ⟨rfl, ?_⟩
    intro hEmpty
    rw [hEmpty] at hLen
    exact absurd hLen.1 (by decide)
  · rw [if_neg hLen] at h
    cases h

/-- An accepted object carries the id it is filed under. -/
theorem toUserAccount_accountId {p : Platform} {raw : Raw} {account : UserAccount}
    (h : toUserAccount p (.dict raw) = .ok account) :
    account.accountId = accountKey p raw ∧ accountKey p raw ≠ "" := by
  unfold toUserAccount at h
  simp only [bind, Except.bind] at h
  -- each check that fails leaves no account
  split at h
  · cases h
  split at h
  · cases h
  split at h
  · cases h
  rename_i accountId hId
  split at h
  · cases h
  split at h
  · cases h
  split at h
  · cases h
  obtain rfl := Except.ok.inj h
  obtain ⟨hEq, hNonempty⟩ := checkedText_ok hId
  exact ⟨hEq, by rwa [accountKey, ← hEq]⟩

-- ---------------------------------------------------------------------------
-- The store
-- ---------------------------------------------------------------------------

/-- The accounts a list of objects is about. Objects without an id are not
about any account. -/
def accountIds (p : Platform) (raws : List Raw) : List String :=
  (raws.map (accountKey p)).filter fun id => decide (id ≠ "")

/-- `known`: the last object for each id, in order of first occurrence. -/
def known (p : Platform) (raws : List Raw) : Dict String Raw :=
  Dict.ofPairs ((raws.filter fun raw => decide (accountKey p raw ≠ "")).map
    fun raw => (accountKey p raw, raw))

/-- The position of each id, the last one where an id is listed twice. -/
def historicalOrder (p : Platform) (raws : List Raw) : Dict String Nat :=
  Dict.ofPairs (raws.zipIdx.map fun e => (accountKey p e.1, e.2))

/-- The merged snapshot of an incremental push: the historical order, with
brand-new accounts at the end. -/
def mergeAccounts (p : Platform) (stored incoming : List Raw) : List Raw :=
  let order :=
    historicalOrder p (stored ++ incoming.filter fun raw => decide (accountKey p raw = ""))
  let position (raw : Raw) : Nat := (order.get? (accountKey p raw)).getD (10 ^ 6)
  (known p (stored ++ incoming)).values.mergeSort fun a b => decide (position a ≤ position b)

/-- The snapshot file of one core, `none` when there is none that reads. -/
abbrev Snapshot := Option (List Raw)

/-- `AccountsStore.load` -/
def Snapshot.load (snapshot : Snapshot) : List Raw := snapshot.getD []

/-- `AccountsStore.store`; a write that fails with `OSError` is only logged. -/
def Snapshot.store (p : Platform) (snapshot : Snapshot) (incoming : List Raw) (replace : Bool)
    (writable : Bool) : Snapshot :=
  let stored := if replace then incoming else mergeAccounts p snapshot.load incoming
  if writable then some stored else snapshot

theorem mem_accountIds {p : Platform} {raws : List Raw} {id : String} :
    id ∈ accountIds p raws ↔ (∃ raw ∈ raws, accountKey p raw = id) ∧ id ≠ "" := by
  simp [accountIds]

theorem accountKey_of_known {p : Platform} {raws : List Raw} {id : String} {raw : Raw}
    (h : (known p raws).get? id = some raw) : raw ∈ raws ∧ accountKey p raw = id ∧ id ≠ "" := by
  rcases Dict.get?_setAll_cases h with hPair | hEmpty
  · obtain ⟨raw', hMem, hPair⟩ := List.mem_map.mp hPair
    obtain ⟨rfl, rfl⟩ := Prod.mk.inj hPair
    rw [List.mem_filter, decide_eq_true_eq] at hMem
    exact ⟨hMem.1, rfl, hMem.2⟩
  · cases hEmpty

theorem mem_keys_known {p : Platform} {raws : List Raw} {id : String} :
    id ∈ (known p raws).keys ↔ id ∈ accountIds p raws := by
  rw [known, Dict.ofPairs, Dict.mem_keys_setAll, mem_accountIds]
  simp only [Dict.keys_empty, List.not_mem_nil, false_or, List.map_map, List.mem_map,
    List.mem_filter, decide_eq_true_eq, Function.comp_apply]
  constructor
  · rintro ⟨raw, ⟨hMem, hNonempty⟩, rfl⟩
    exact ⟨⟨raw, hMem, rfl⟩, hNonempty⟩
  · rintro ⟨⟨raw, hMem, rfl⟩, hNonempty⟩
    exact ⟨raw, ⟨hMem, hNonempty⟩, rfl⟩

/-- An incremental push keeps the accounts of the snapshot and adds the pushed
ones. -/
theorem mem_accountIds_merge {p : Platform} {stored incoming : List Raw} {id : String} :
    id ∈ accountIds p (mergeAccounts p stored incoming) ↔
      id ∈ accountIds p stored ∨ id ∈ accountIds p incoming := by
  have hAppend : id ∈ accountIds p (stored ++ incoming) ↔
      id ∈ accountIds p stored ∨ id ∈ accountIds p incoming := by
    simp [accountIds]
  rw [← hAppend, mem_accountIds, ← mem_keys_known]
  constructor
  · rintro ⟨⟨raw, hMem, rfl⟩, -⟩
    -- sorting only reorders the values of `known`
    have hValue : raw ∈ (known p (stored ++ incoming)).values :=
      (List.mergeSort_perm _ _).mem_iff.mp hMem
    obtain ⟨⟨id, raw'⟩, hEntry, rfl⟩ := List.mem_map.mp hValue
    have hGet := Dict.mem_entries_iff.mp hEntry
    have hKey := (accountKey_of_known hGet).2.1
    exact Dict.mem_keys_iff.mpr ⟨raw', by rwa [hKey]⟩
  · intro hKey
    obtain ⟨raw, hGet⟩ := Dict.mem_keys_iff.mp hKey
    obtain ⟨-, hId, hNonempty⟩ := accountKey_of_known hGet
    have hValue : raw ∈ (known p (stored ++ incoming)).values :=
      List.mem_map.mpr ⟨(id, raw), Dict.mem_entries_iff.mpr hGet, rfl⟩
    exact ⟨⟨raw, (List.mergeSort_perm _ _).mem_iff.mpr hValue, hId⟩, hNonempty⟩

/--
**The snapshot after a push.** A full push leaves the pushed accounts, an
incremental one adds them; a write that fails changes nothing. The failure is
swallowed, so the driver has the push by then and the snapshot has not.
-/
theorem mem_accountIds_store {p : Platform} {snapshot : Snapshot} {incoming : List Raw}
    {replace writable : Bool} {id : String} :
    id ∈ accountIds p (snapshot.store p incoming replace writable).load ↔
      if writable then
        if replace then id ∈ accountIds p incoming
        else id ∈ accountIds p snapshot.load ∨ id ∈ accountIds p incoming
      else id ∈ accountIds p snapshot.load := by
  unfold Snapshot.store
  cases writable with
  | false => rfl
  | true =>
    cases replace with
    | true => rfl
    | false => exact mem_accountIds_merge

end ZagrosNode.Accounts
