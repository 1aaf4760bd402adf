import ZagrosNode.Accounts.Holdings
import ZagrosNode.Lib.Decimal
import ZagrosNode.Usage.Baselines
import ZagrosNode.Usage.SoftEther

/-!
# ZagrosNode — the cursors of the seven drivers

Each driver says which cursors are to be saved and takes saved cursors back.
What it saves is filed under account ids, but its tracker may be keyed
otherwise: WireGuard's by public key, Xray's by process and e-mail, OpenVPN's
by session. SoftEther saves three more rows beside each cursor.

Two operations are asked of every driver: a snapshot, which is saved, and a restore,
which is handed what was saved. A cursor that goes through a restart has to come out
of the second and the first again, and on its way it changes its key twice. For each
driver this module has the two operations and what a fresh tracker has after the
restore.

* **Tracker keyed by account** — the keys are the same and nothing can be lost.
* **WireGuard** — accounts are looked up by id to find the public key, and one that is
  not listed yet has none.
* **Xray** — the key of a process is the e-mail with `::node::` and a number behind it,
  split at the last such marker; an e-mail may end like that by itself.
* **OpenVPN** — a row with zeros for every account, and over it the counters of the
  session that is open for it.
* **SoftEther** — see `Usage/SoftEther.lean`.

`Trackers` has all of them as components, and a driver uses the one of its kind.

Main results:

* `Xray.trackerKey_persistenceKey` — a key written for a process reads back.
* `WireGuard.restore_empty` — a driver without accounts takes no cursor back.
* `OpenVpn.restored_get?`, `Xray.restored_get?` — what a fresh tracker that
  took saved cursors back has for an account.
-/

namespace ZagrosNode.Usage

open ZagrosNode.Lib ZagrosNode.Cores ZagrosNode.Accounts

-- ---------------------------------------------------------------------------
-- WireGuard
-- ---------------------------------------------------------------------------

namespace WireGuard

/-- The key of the account's counter in the tracker; a value that is not text
is in no tracker. -/
def publicKey (account : UserAccount) : Option String :=
  match Json.getD account.settings "public_key" with
  | .str s => some s
  | _      => none

/-- `usage_tracker_snapshot`: the cursor of each account's public key. Looking
up a value that cannot be a key raises. -/
def snapshot (roster : Roster) (t : DeltaTracker String) : Except PyErr (Dict String Totals) :=
  if roster.table.values.all fun account =>
      (Json.getD account.settings "public_key").hashable then
    .ok (Dict.ofPairs (roster.table.entries.filterMap fun e =>
      ((publicKey e.2).bind fun key => t.get? key).map fun totals => (e.1, totals)))
  else .error ⟨.type, "unhashable type"⟩

/-- `restore_usage_baselines`: cursors of accounts the driver does not list are
dropped. -/
def restore (p : Platform) (roster : Roster) (t : DeltaTracker String)
    (baselines : Dict String Totals) : DeltaTracker String :=
  t.restore (Dict.ofPairs (baselines.entries.filterMap fun e =>
    (roster.table.get? e.1).bind fun account =>
      let key := Json.getD account.settings "public_key"
      if key.truthy then some (p.str key, e.2) else none))

/-- A driver that lists no account drops every cursor. -/
theorem restore_empty (p : Platform) (t : DeltaTracker String) (baselines : Dict String Totals) :
    restore p Roster.empty t baselines = t := by
  have hNone : (baselines.entries.filterMap fun e =>
      (Roster.empty.table.get? e.1).bind fun account =>
        let key := Json.getD account.settings "public_key"
        if key.truthy then some (p.str key, e.2) else none) = [] :=
    List.filterMap_eq_nil_iff.mpr fun e _ => rfl
  unfold restore
  rw [hNone]
  rfl

/-- A snapshot has cursors of the tracker only. -/
theorem get?_of_snapshot {roster : Roster} {t : DeltaTracker String}
    {baselines : Dict String Totals} (h : snapshot roster t = .ok baselines) {account : String}
    {totals : Totals} (hGet : baselines.get? account = some totals) :
    ∃ key, t.get? key = some totals := by
  unfold snapshot at h
  split at h
  · obtain rfl := Except.ok.inj h
    rcases Dict.get?_setAll_cases hGet with hPair | hEmpty
    · obtain ⟨e, -, hEntry⟩ := List.mem_filterMap.mp hPair
      obtain ⟨found, hFound, hEq⟩ := Option.map_eq_some_iff.mp hEntry
      obtain ⟨key, -, hKey⟩ := Option.bind_eq_some_iff.mp hFound
      obtain ⟨-, rfl⟩ := Prod.mk.inj hEq
      exact ⟨key, hKey⟩
    · cases hEmpty
  · cases h

end WireGuard

-- ---------------------------------------------------------------------------
-- OpenVPN
-- ---------------------------------------------------------------------------

namespace OpenVpn

abbrev Sessions := SessionTracker (String × String)

/-- `usage_tracker_snapshot`: a zero tombstone for every account, and the
counters of the open wildcard sessions over them. -/
def snapshot (roster : Roster) (t : Sessions) : Dict String Totals :=
  (Dict.ofPairs (roster.ids.map fun id => (id, (0, 0)))).setAll
    ((t.entries.filter fun e => decide (e.1.2 = "*")).map fun e => (e.1.1, e.2))

def restore (t : Sessions) (baselines : Dict String Totals) : Sessions :=
  t.update (Dict.ofPairs (baselines.entries.map fun e => ((e.1, "*"), e.2)))

theorem restored_get? (baselines : Dict String Totals) (account : String) :
    (restore Dict.empty baselines).get? (account, "*") = baselines.get? account := by
  have hOnly : ∀ k ∈ baselines.entries.map Prod.fst, (k, "*") = (account, "*") → k = account :=
    fun k _ hEq => (Prod.mk.inj hEq).1
  rw [restore, Dict.get?_update, Dict.get?_empty, Option.or_none, Dict.ofPairs,
    Dict.get?_setAll_rename (fun k => (k, "*")) baselines.nodup hOnly]
  exact Option.or_none

theorem snapshot_get? (roster : Roster) (t : Sessions) {account : String} {totals : Totals}
    (h : t.get? (account, "*") = some totals) : (snapshot roster t).get? account = some totals := by
  have hMem : ((account, "*"), totals) ∈ t.entries.filter fun e => decide (e.1.2 = "*") :=
    List.mem_filter.mpr ⟨Dict.mem_entries_iff.mpr h, decide_eq_true rfl⟩
  -- among the wildcard sessions the account names the session
  have hNodup : (((t.entries.filter fun e => decide (e.1.2 = "*")).map
      fun e => (e.1.1, e.2)).map Prod.fst).Nodup := by
    rw [List.map_map]
    have hSub := (List.filter_sublist (p := fun e => decide (e.1.2 = "*")) (l := t.entries)).map
      Prod.fst
    have hKeys := hSub.nodup t.nodup
    rw [List.nodup_iff_pairwise_ne, List.pairwise_map] at hKeys ⊢
    refine hKeys.imp_of_mem ?_
    intro a b ha hb hNe hEq
    have hStarA := of_decide_eq_true (List.mem_filter.mp ha).2
    have hStarB := of_decide_eq_true (List.mem_filter.mp hb).2
    exact hNe (Prod.ext hEq (hStarA.trans hStarB.symm))
  unfold snapshot
  rw [Dict.get?_setAll_of_nodup hNodup,
    assocGet?_of_mem hNodup (List.mem_map.mpr ⟨_, hMem, rfl⟩)]
  rfl

end OpenVpn

-- ---------------------------------------------------------------------------
-- Xray
-- ---------------------------------------------------------------------------

namespace Xray

/-- The process of a counter (none for the node's own) and its e-mail. -/
abbrev Key := Option Int × String

def marker : List Char := "::node::".toList

/-- What stands before and after the last occurrence of the marker. -/
def rsplit : List Char → Option (List Char × List Char)
  | []      => none
  | c :: cs =>
    match rsplit cs with
    | some (before, after) => some (c :: before, after)
    | none =>
      if marker.isPrefixOf (c :: cs) then some ([], (c :: cs).drop marker.length) else none

/-- `_usage_tracker_key` -/
def trackerKey (value : String) : Key :=
  match rsplit value.toList with
  | none => (none, value)
  | some (email, rawNode) =>
    match intOfChars rawNode with
    | .ok n    => (some n, String.ofList email)
    | .error _ => (none, value)

/-- `_usage_persistence_key` -/
def persistenceKey : Key → String
  | (none, email)   => email
  | (some n, email) => String.ofList (email.toList ++ marker ++ intChars n)

def snapshot (t : DeltaTracker Key) : Dict String Totals :=
  Dict.ofPairs (t.entries.map fun e => (persistenceKey e.1, e.2))

def restore (t : DeltaTracker Key) (baselines : Dict String Totals) : DeltaTracker Key :=
  t.restore (Dict.ofPairs (baselines.entries.map fun e => (trackerKey e.1, e.2)))

/-- The characters of a written integer occur nowhere in the marker but as
themselves. -/
theorem intChars_apart (n : Int) : ∀ c ∈ intChars n, c ≠ ':' ∧ c ≠ 'n' := by
  have hNat : ∀ m : Nat, ∀ c ∈ natChars m, c ≠ ':' ∧ c ≠ 'n' := by
    intro m c hc
    rw [natChars_eq] at hc
    obtain ⟨d, hd, rfl⟩ := List.mem_map.mp hc
    obtain ⟨-, -, -, -, -, hColon, hN⟩ := digitChar_spec (natDigits_lt hd)
    exact ⟨hColon, hN⟩
  intro c hc
  cases n with
  | ofNat m => exact hNat m c hc
  | negSucc m =>
    rcases List.mem_cons.mp hc with rfl | hRest
    · decide
    · exact hNat (m + 1) c hRest

/-- A text that starts with the marker starts with two colons and an `n`. -/
theorem not_marker {cs : List Char} (h : cs.take 3 ≠ [':', ':', 'n']) :
    marker.isPrefixOf cs = false := by
  rw [← Bool.not_eq_true, List.isPrefixOf_iff_prefix]
  rintro ⟨rest, rfl⟩
  exact h rfl

theorem rsplit_cons_none {c : Char} {cs : List Char} (h : rsplit cs = none)
    (hTake : (c :: cs).take 3 ≠ [':', ':', 'n']) : rsplit (c :: cs) = none := by
  simp only [rsplit, h, not_marker hTake, Bool.false_eq_true, if_false]

theorem rsplit_cons_some {cs before after : List Char} (h : rsplit cs = some (before, after))
    (c : Char) : rsplit (c :: cs) = some (c :: before, after) := by
  simp only [rsplit, h]

theorem rsplit_eq_none {cs : List Char} (h : ':' ∉ cs) : rsplit cs = none := by
  induction cs with
  | nil => rfl
  | cons c cs ih =>
    rw [List.mem_cons, not_or] at h
    exact rsplit_cons_none (ih h.2) fun hTake => h.1 (List.cons.inj hTake).1.symm

/-- Nothing behind the start of the marker reads as another one. -/
theorem rsplit_marker {digits : List Char} (h : ∀ c ∈ digits, c ≠ ':' ∧ c ≠ 'n') :
    rsplit (marker ++ digits) = some ([], digits) := by
  -- character by character from the end: the marker starts at none of them
  have hNone : rsplit digits = none := rsplit_eq_none fun hMem => (h _ hMem).1 rfl
  have hColon : rsplit (':' :: digits) = none := by
    refine rsplit_cons_none hNone fun hTake => ?_
    cases digits with
    | nil => exact absurd hTake (by decide)
    | cons c cs => exact (h c List.mem_cons_self).1 (List.cons.inj (List.cons.inj hTake).2).1
  have hColons : rsplit (':' :: ':' :: digits) = none := by
    refine rsplit_cons_none hColon fun hTake => ?_
    cases digits with
    | nil => exact absurd hTake (by decide)
    | cons c cs =>
      have hThird := (List.cons.inj (List.cons.inj (List.cons.inj hTake).2).2).1
      exact (h c List.mem_cons_self).2 hThird
  -- the word between its colons has neither a colon nor the end of a marker
  have hWord : rsplit ('n' :: 'o' :: 'd' :: 'e' :: ':' :: ':' :: digits) = none := by
    have hE : rsplit ('e' :: ':' :: ':' :: digits) = none := rsplit_cons_none hColons (by simp)
    have hDe := rsplit_cons_none (c := 'd') hE (by simp)
    have hOde := rsplit_cons_none (c := 'o') hDe (by simp)
    exact rsplit_cons_none hOde (by simp)
  -- and so it starts behind its first colon nowhere
  have hRest : rsplit (':' :: 'n' :: 'o' :: 'd' :: 'e' :: ':' :: ':' :: digits) = none :=
    rsplit_cons_none hWord (by simp)
  have hPrefix : marker.isPrefixOf
      (':' :: ':' :: 'n' :: 'o' :: 'd' :: 'e' :: ':' :: ':' :: digits) = true :=
    List.isPrefixOf_iff_prefix.mpr ⟨digits, rfl⟩
  show rsplit (':' :: ':' :: 'n' :: 'o' :: 'd' :: 'e' :: ':' :: ':' :: digits) = _
  rw [rsplit, hRest]
  simp only [hPrefix, if_true]
  rfl

theorem rsplit_append {digits : List Char} (h : ∀ c ∈ digits, c ≠ ':' ∧ c ≠ 'n')
    (email : List Char) : rsplit (email ++ (marker ++ digits)) = some (email, digits) := by
  induction email with
  | nil => exact rsplit_marker h
  | cons c cs ih => exact rsplit_cons_some ih c

/--
**A written key reads back**, when its number is one `int()` can return. The
number stands behind the last separator, so an account's own name may contain
the separator as well.
-/
theorem trackerKey_persistenceKey (n : Int) (email : String)
    (h : n.natAbs < 10 ^ maxStrDigits) :
    trackerKey (persistenceKey (some n, email)) = (some n, email) := by
  have hChars : (persistenceKey (some n, email)).toList = email.toList ++ (marker ++ intChars n) := by
    simp [persistenceKey]
  unfold trackerKey
  rw [hChars, rsplit_append (intChars_apart n)]
  simp only [intOfChars_intChars h, String.ofList_toList]

/-- A text that names no process is the e-mail itself. -/
theorem trackerKey_none {value email : String} (h : trackerKey value = (none, email)) :
    email = value := by
  unfold trackerKey at h
  split at h
  · exact (Prod.mk.inj h).2.symm
  · split at h
    · exact absurd (Prod.mk.inj h).1 (by simp)
    · exact (Prod.mk.inj h).2.symm

/-- A process key does not pass for an e-mail: what `int()` read is written
back as a text that reads the same. -/
theorem trackerKey_small {value : String} {n : Int} {email : String}
    (h : trackerKey value = (some n, email)) : n.natAbs < 10 ^ maxStrDigits := by
  unfold trackerKey at h
  split at h
  · exact absurd (Prod.mk.inj h).1 (by simp)
  · split at h
    · rename_i m hInt
      obtain rfl := Option.some.inj (Prod.mk.inj h).1
      exact natAbs_lt_of_intOfChars hInt
    · exact absurd (Prod.mk.inj h).1 (by simp)

/-- The node's own process gets back exactly the cursors of the ids that name
no process. -/
theorem restored_get? (baselines : Dict String Totals) (account : String) :
    (restore Dict.empty baselines).get? (none, account) =
      if trackerKey account = (none, account) then baselines.get? account else none := by
  unfold restore DeltaTracker.restore
  rw [Dict.get?_update, Dict.get?_empty, Option.or_none, Dict.ofPairs]
  have hOnly : ∀ k, trackerKey k = (none, account) → k = account :=
    fun k hKey => (trackerKey_none hKey).symm
  by_cases hPlain : trackerKey account = (none, account)
  · rw [if_pos hPlain, ← hPlain, Dict.get?_setAll_rename trackerKey baselines.nodup
      fun k _ hEq => hOnly k (hEq.trans hPlain)]
    exact Option.or_none
  · rw [if_neg hPlain]
    refine (Dict.get?_setAll_of_not_mem fun hMem => ?_).trans rfl
    obtain ⟨e, he, hKey⟩ := List.mem_map.mp hMem
    obtain ⟨entry, -, rfl⟩ := List.mem_map.mp he
    exact hPlain (hOnly entry.1 hKey ▸ hKey)

/-- Every key of a fresh tracker that took cursors back was read from a text. -/
theorem restored_keys {baselines : Dict String Totals} {key : Key} {totals : Totals}
    (h : (restore Dict.empty baselines).get? key = some totals) :
    ∃ value, trackerKey value = key := by
  rcases Dict.get?_setAll_cases h with hEntry | hEmpty
  · have hGet := Dict.mem_entries_iff.mp hEntry
    rcases Dict.get?_setAll_cases hGet with hPair | hNone
    · obtain ⟨entry, -, hEq⟩ := List.mem_map.mp hPair
      exact ⟨entry.1, (Prod.mk.inj hEq).1⟩
    · cases hNone
  · cases hEmpty

/-- The snapshot files the node's own counter of an account under its id. -/
theorem snapshot_get? {t : DeltaTracker Key}
    (hKeys : ∀ {key totals}, t.get? key = some totals → ∃ value, trackerKey value = key)
    {account : String} (hPlain : trackerKey account = (none, account)) {totals : Totals}
    (h : t.get? (none, account) = some totals) : (snapshot t).get? account = some totals := by
  have hMem : ((none, account), totals) ∈ t.entries := Dict.mem_entries_iff.mpr h
  refine Dict.get?_setAll_const (List.mem_map.mpr ⟨_, hMem, rfl⟩) ?_
  intro other hOther
  obtain ⟨⟨⟨process, email⟩, value⟩, hEntry, hEq⟩ := List.mem_map.mp hOther
  obtain ⟨hName, rfl⟩ := Prod.mk.inj hEq
  cases process with
  | none =>
    obtain rfl : email = account := hName
    have hSame := Dict.mem_entries_iff.mp hEntry
    exact Option.some.inj (hSame.symm.trans h)
  | some n =>
    -- the id of an account that reads as a process key is not plain
    obtain ⟨text, hText⟩ := hKeys (Dict.mem_entries_iff.mp hEntry)
    have hBack := trackerKey_persistenceKey n email (trackerKey_small hText)
    rw [hName, hPlain] at hBack
    exact absurd (Prod.mk.inj hBack).1 (by simp)

end Xray

-- ---------------------------------------------------------------------------
-- The driver's tracker
-- ---------------------------------------------------------------------------

/-- `_usage`: a driver uses the component its kind calls for. -/
structure Trackers where
  /-- SSH, sing-box and PPTP -/
  byAccount : DeltaTracker String
  /-- WireGuard -/
  byKey     : DeltaTracker String
  /-- Xray -/
  byProcess : DeltaTracker Xray.Key
  /-- OpenVPN -/
  sessions  : OpenVpn.Sessions
  softether : SoftEther.Tracker

/-- One reading that `get_usage` hands to the tracker. -/
inductive Reading
  /-- of an account (SSH, sing-box, PPTP), or of a public key (WireGuard) -/
  | counter (key : String) (totals : Totals)
  | process (key : Xray.Key) (totals : Totals)
  | interim (name : String) (totals : Totals)
  | final (name : String) (totals : Totals)
  | user (account : String) (completed : Totals) (live : Dict String Totals) (logins : Int)

namespace Trackers

def empty : Trackers :=
  ⟨Dict.empty, Dict.empty, Dict.empty, Dict.empty, SoftEther.Tracker.empty⟩

variable (t : Trackers)

/-- Hand a reading to the tracker; readings of another kind of driver do not
occur. -/
def observe (core : CoreId) (reading : Reading) : Totals × Trackers :=
  match core, reading with
  | .wireguard, .counter key totals =>
    let observed := t.byKey.observe key totals
    (observed.1, { t with byKey := observed.2 })
  | .xray, .process key totals =>
    let observed := t.byProcess.observe key totals
    (observed.1, { t with byProcess := observed.2 })
  | .openvpn, .interim name totals =>
    let observed := SessionTracker.poll t.sessions (name, "*") totals
    (observed.1, { t with sessions := observed.2 })
  | .openvpn, .final name totals =>
    let observed := SessionTracker.close t.sessions (name, "*") totals
    (observed.1, { t with sessions := observed.2 })
  | .softether, .user account completed live logins =>
    let observed := t.softether.observe account completed live logins
    (observed.1, { t with softether := observed.2 })
  | .ssh, .counter account totals | .singBox, .counter account totals
  | .pptp, .counter account totals =>
    let observed := t.byAccount.observe account totals
    (observed.1, { t with byAccount := observed.2 })
  | _, _ => ((0, 0), t)

/-- `usage_tracker_snapshot(None)` -/
def snapshot (core : CoreId) (roster : Roster) : Except PyErr (Dict String Totals) :=
  match core with
  | .wireguard            => WireGuard.snapshot roster t.byKey
  | .xray                 => .ok (Xray.snapshot t.byProcess)
  | .openvpn              => .ok (OpenVpn.snapshot roster t.sessions)
  | .softether            => .ok (t.softether.stateSnapshot roster.ids)
  | .ssh | .singBox | .pptp => .ok t.byAccount

/-- `restore_usage_baselines(baselines)` -/
def restore (p : Platform) (core : CoreId) (roster : Roster) (baselines : Dict String Totals) :
    Trackers :=
  match core with
  | .wireguard => { t with byKey := WireGuard.restore p roster t.byKey baselines }
  | .xray      => { t with byProcess := Xray.restore t.byProcess baselines }
  | .openvpn   => { t with sessions := OpenVpn.restore t.sessions baselines }
  | .softether => { t with softether := t.softether.restoreState baselines }
  | .ssh | .singBox | .pptp => { t with byAccount := t.byAccount.restore baselines }

/-- The position from which the next poll counts the growth of an account. -/
def position (core : CoreId) (roster : Roster) (account : String) : Option Totals :=
  match core with
  | .wireguard =>
    ((roster.table.get? account).bind WireGuard.publicKey).bind fun key => t.byKey.get? key
  | .xray      => t.byProcess.get? (none, account)
  | .openvpn   => t.sessions.get? (account, "*")
  | .softether => t.softether.billed.get? account
  | .ssh | .singBox | .pptp => t.byAccount.get? account

end Trackers

end ZagrosNode.Usage
