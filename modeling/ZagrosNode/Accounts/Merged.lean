import ZagrosNode.Lib.Arrival
import ZagrosNode.Accounts.Convergence

/-!
# ZagrosNode — what an incremental push leaves

An incremental push collects the objects of the snapshot and the pushed ones
in a dictionary and sorts its values by the position their account had in the
snapshot. An account without a position is sorted as if it stood at `10 ** 6`,
so behind the snapshot's accounts only as long as those stand at or before it.

`store` is given objects as the panel sent them and merges by id. The code sorts with a
key function that looks the id up in `historical_order` and takes `10**6` for one that
is not there; the sort is stable. The model keeps the number, since a history that is
longer makes a newcomer come before old accounts.

With `Lib/Arrival.lean` the sort of the merged list is known: the rank of an old account
is its last position in the history, which increases along the history without its
earlier repetitions, and the newcomers keep their order behind it. The properties asked
of the merged snapshot are then about three lists: the last object for each id, the old
ids in their order, and the new ones behind them.

The equivalence asks what the two lists must meet, and the run at the end has a history
with more than a million accounts without building it: what matters is its length.

Main results:

* `mergeAccounts_again` — pushing the same objects again changes nothing.
* `store_merged_iff` — the snapshot is the merged one exactly if no account is
  brand-new or none of the snapshot's stands behind the first 1000001 objects.
* `newcomer_overtakes` — in a larger snapshot a new account is not the last.
-/

namespace ZagrosNode.Accounts

open ZagrosNode.Lib ZagrosNode.Cores ZagrosNode.Security

-- ---------------------------------------------------------------------------
-- What an incremental push is to leave
-- ---------------------------------------------------------------------------

/-- The last object listed for an account. -/
def lastObject (p : Platform) (raws : List Raw) (id : String) : Option Raw :=
  raws.reverse.find? fun raw => decide (accountKey p raw = id)

/-- The accounts only the pushed objects are about, in order of arrival. -/
def arrivals (p : Platform) (stored incoming : List Raw) : List String :=
  ((accountIds p incoming).filter fun id => decide (id ∉ accountIds p stored)).eraseDups

/-- The snapshot after an incremental push: every account once, with its last
object, the accounts of before in the order of those objects and the new ones
behind them. -/
structure Merged (p : Platform) (stored incoming result : List Raw) : Prop where
  once   : (result.map (accountKey p)).Nodup
  ids    : ∀ id, id ∈ result.map (accountKey p) ↔
             id ∈ accountIds p stored ∨ id ∈ accountIds p incoming
  object : ∀ raw ∈ result, (lastObject p incoming (accountKey p raw)).or
             (lastObject p stored (accountKey p raw)) = some raw
  order  : result.map (accountKey p) = (accountIds p stored).dedup ++ arrivals p stored incoming

-- ---------------------------------------------------------------------------
-- The dictionary of the objects
-- ---------------------------------------------------------------------------

section Known

variable {p : Platform} {raws stored incoming : List Raw} {id : String}

theorem lastObject_key {raw : Raw} (h : lastObject p raws id = some raw) :
    raw ∈ raws ∧ accountKey p raw = id := by
  have hMem := List.mem_of_find?_eq_some h
  have hKey := List.find?_some h
  exact ⟨List.mem_reverse.mp hMem, of_decide_eq_true hKey⟩

theorem lastObject_append (a b : List Raw) :
    lastObject p (a ++ b) id = (lastObject p b id).or (lastObject p a id) := by
  rw [lastObject, List.reverse_append, List.find?_append]
  rfl

theorem keys_known (p : Platform) (raws : List Raw) :
    (known p raws).keys = (accountIds p raws).eraseDups := by
  rw [known, Dict.keys_ofPairs, accountIds, List.filter_map, List.map_map]
  rfl

theorem assocGet?_keyed (l : List Raw) :
    assocGet? id (l.map fun raw => (accountKey p raw, raw)) =
      l.find? fun raw => decide (accountKey p raw = id) := by
  induction l with
  | nil => rfl
  | cons raw rest ih =>
    by_cases hKey : accountKey p raw = id
    · simp [assocGet?, hKey]
    · simp [assocGet?, hKey, ih]

theorem get?_known (hId : id ≠ "") : (known p raws).get? id = lastObject p raws id := by
  rw [known, Dict.get?_ofPairs, ← List.map_reverse, assocGet?_keyed, ← List.filter_reverse,
    List.find?_filter, lastObject]
  congr 1
  funext raw
  by_cases hKey : accountKey p raw = id
  · simp [hKey, hId]
  · simp [hKey]

theorem map_accountKey_values (p : Platform) (raws : List Raw) :
    (known p raws).values.map (accountKey p) = (known p raws).keys := by
  rw [Dict.values, Dict.keys, List.map_map]
  apply List.map_congr_left
  rintro ⟨id, raw⟩ hEntry
  exact (accountKey_of_known (Dict.mem_entries_iff.mp hEntry)).2.1

theorem keys_append (p : Platform) (stored incoming : List Raw) :
    (accountIds p (stored ++ incoming)).eraseDups =
      (accountIds p stored).eraseDups ++ arrivals p stored incoming := by
  have hAppend : accountIds p (stored ++ incoming) = accountIds p stored ++ accountIds p incoming := by
    simp [accountIds]
  rw [hAppend, List.eraseDups_append, arrivals, List.removeAll]
  congr 2
  apply List.filter_congr
  intro id _
  simp

theorem mem_arrivals :
    id ∈ arrivals p stored incoming ↔ id ∈ accountIds p incoming ∧ id ∉ accountIds p stored := by
  simp [arrivals]

end Known

-- ---------------------------------------------------------------------------
-- The positions
-- ---------------------------------------------------------------------------

/-- The number an account is sorted by. -/
def place (p : Platform) (stored incoming : List Raw) (id : String) : Nat :=
  ((historicalOrder p (stored ++ incoming.filter fun raw => decide (accountKey p raw = ""))).get?
    id).getD (10 ^ 6)

section Places

variable {p : Platform} {stored incoming : List Raw} {id : String}

theorem historicalOrder_eq (p : Platform) (raws : List Raw) :
    historicalOrder p raws = positions (raws.map (accountKey p)) 0 := by
  rw [historicalOrder, positions, List.zipIdx_map]
  rfl

/-- Pushed objects without an id take no other account's position. -/
theorem place_eq (hId : id ≠ "") :
    place p stored incoming id =
      ((positions (stored.map (accountKey p)) 0).get? id).getD (10 ^ 6) := by
  rw [place, historicalOrder_eq, List.map_append, get?_positions_append]
  intro hMem
  obtain ⟨raw, hRaw, hKey⟩ := List.mem_map.mp hMem
  have hEmpty := of_decide_eq_true (List.mem_filter.mp hRaw).2
  exact hId (hKey.symm.trans hEmpty)

theorem place_new (hId : id ≠ "") (hNew : id ∉ accountIds p stored) :
    place p stored incoming id = 10 ^ 6 := by
  rw [place_eq hId, get?_positions_of_not_mem, Option.getD_none]
  intro hMem
  obtain ⟨raw, hRaw, hKey⟩ := List.mem_map.mp hMem
  exact hNew (mem_accountIds.mpr ⟨⟨raw, hRaw, hKey⟩, hId⟩)

/-- The accounts of the snapshot stand in the order of their positions. -/
theorem place_lt (p : Platform) (stored incoming : List Raw) :
    (accountIds p stored).dedup.Pairwise fun a b =>
      place p stored incoming a < place p stored incoming b := by
  -- dropping the empty ids first or last makes no difference to the order
  have hSub : List.Sublist (accountIds p stored).dedup (stored.map (accountKey p)).dedup := by
    rw [accountIds]
    generalize stored.map (accountKey p) = ids
    induction ids with
    | nil => exact List.Sublist.refl _
    | cons id rest ih =>
      have hKept : id ∈ rest.filter (fun id => decide (id ≠ "")) ↔ id ∈ rest ∧ id ≠ "" := by
        rw [List.mem_filter, decide_eq_true_eq]
      by_cases hId : id = ""
      · rw [List.filter_cons_of_neg (by simp [hId])]
        by_cases hMem : id ∈ rest
        · rwa [List.dedup_cons_of_mem hMem]
        · rw [List.dedup_cons_of_notMem hMem]
          exact ih.cons id
      · rw [List.filter_cons_of_pos (by simp [hId])]
        by_cases hMem : id ∈ rest
        · rwa [List.dedup_cons_of_mem hMem, List.dedup_cons_of_mem (hKept.mpr ⟨hMem, hId⟩)]
        · rw [List.dedup_cons_of_notMem hMem,
            List.dedup_cons_of_notMem fun h => hMem (hKept.mp h).1]
          exact ih.cons_cons id
  refine List.Pairwise.imp_of_mem ?_ ((position_lt (stored.map (accountKey p)) 0).sublist hSub)
  rintro a b ha hb ⟨i, j, hi, hj, hLt⟩
  rw [List.mem_dedup] at ha hb
  rw [place_eq (mem_accountIds.mp ha).2, place_eq (mem_accountIds.mp hb).2, hi, hj,
    Option.getD_some, Option.getD_some]
  exact hLt

/-- No account of the snapshot is sorted behind a new one exactly if its first
1000001 objects are about all of them. -/
theorem place_le_iff :
    (∀ id ∈ accountIds p stored, place p stored incoming id ≤ 10 ^ 6) ↔
      accountIds p (stored.drop (10 ^ 6 + 1)) = [] := by
  constructor
  · intro hLe
    rw [List.eq_nil_iff_forall_not_mem]
    intro id hMem
    obtain ⟨⟨raw, hRaw, hKey⟩, hId⟩ := mem_accountIds.mp hMem
    obtain ⟨n, hn⟩ := List.getElem?_of_mem hRaw
    rw [List.getElem?_drop] at hn
    have hListed : id ∈ accountIds p stored :=
      mem_accountIds.mpr ⟨⟨raw, List.mem_of_getElem? hn, hKey⟩, hId⟩
    -- an account behind the first 1000001 objects has one of their positions, or a later one
    have hAt : (stored.map (accountKey p))[10 ^ 6 + 1 + n]? = some id := by
      rw [List.getElem?_map, hn, Option.map_some, hKey]
    obtain ⟨i, hGet, hGe⟩ := position_last hAt 0
    have hPlace := hLe id hListed
    rw [place_eq hId, hGet, Option.getD_some] at hPlace
    omega
  · intro hNone id hListed
    have hId := (mem_accountIds.mp hListed).2
    rw [place_eq hId]
    cases hGet : (positions (stored.map (accountKey p)) 0).get? id with
    | none => rw [Option.getD_none]
    | some i =>
      -- conversely a position beyond the number is that of an object that was dropped
      by_contra hGt
      rw [Option.getD_some] at hGt
      have hAt := position_mem hGet
      rw [List.getElem?_map, Option.map_eq_some_iff] at hAt
      obtain ⟨raw, hRaw, hKey⟩ := hAt
      have hDropped : (stored.drop (10 ^ 6 + 1))[i - (10 ^ 6 + 1)]? = some raw := by
        have hIndex : 10 ^ 6 + 1 + (i - (10 ^ 6 + 1)) = i - 0 := by omega
        rw [List.getElem?_drop, hIndex, hRaw]
      have hMem : id ∈ accountIds p (stored.drop (10 ^ 6 + 1)) :=
        mem_accountIds.mpr ⟨⟨raw, List.mem_of_getElem? hDropped, hKey⟩, hId⟩
      rw [hNone] at hMem
      cases hMem

end Places

-- ---------------------------------------------------------------------------
-- The merged snapshot
-- ---------------------------------------------------------------------------

section Merge

variable {p : Platform} {stored incoming : List Raw}

theorem mem_mergeAccounts {raw : Raw} :
    raw ∈ mergeAccounts p stored incoming ↔ raw ∈ (known p (stored ++ incoming)).values :=
  (List.mergeSort_perm _ _).mem_iff

/-- The accounts of the result are the keys of the dictionary, sorted. -/
theorem map_accountKey_merge (p : Platform) (stored incoming : List Raw) :
    (mergeAccounts p stored incoming).map (accountKey p) =
      ((accountIds p stored).eraseDups ++ arrivals p stored incoming).mergeSort
        (ranked (place p stored incoming)) := by
  rw [← keys_append, ← keys_known, ← map_accountKey_values, mergeAccounts]
  exact List.map_mergeSort fun _ _ _ _ => rfl

theorem keys_merge_nodup (p : Platform) (stored incoming : List Raw) :
    ((accountIds p stored).eraseDups ++ arrivals p stored incoming).Nodup := by
  rw [← keys_append, ← keys_known]
  exact (known p (stored ++ incoming)).nodup

theorem merge_once : ((mergeAccounts p stored incoming).map (accountKey p)).Nodup := by
  rw [map_accountKey_merge]
  exact (List.mergeSort_perm _ _).nodup_iff.mpr (keys_merge_nodup p stored incoming)

theorem merge_object {raw : Raw} (h : raw ∈ mergeAccounts p stored incoming) :
    accountKey p raw ≠ "" ∧
      (lastObject p incoming (accountKey p raw)).or (lastObject p stored (accountKey p raw)) =
        some raw := by
  obtain ⟨⟨id, raw⟩, hEntry, rfl⟩ := List.mem_map.mp (mem_mergeAccounts.mp h)
  have hGet := Dict.mem_entries_iff.mp hEntry
  obtain ⟨-, hKey, hId⟩ := accountKey_of_known hGet
  rw [get?_known hId, lastObject_append] at hGet
  have hKey : accountKey p raw = id := hKey
  rw [hKey]
  exact ⟨hId, hGet⟩

theorem mem_map_merge {id : String} :
    id ∈ (mergeAccounts p stored incoming).map (accountKey p) ↔
      id ∈ accountIds p stored ∨ id ∈ accountIds p incoming := by
  rw [map_accountKey_merge, (List.mergeSort_perm _ _).mem_iff, List.mem_append,
    List.mem_eraseDups, mem_arrivals]
  tauto

/-- The order is the historical one with the new accounts behind it exactly if
the number they are sorted by is not smaller than a position. -/
theorem merge_order_iff :
    (mergeAccounts p stored incoming).map (accountKey p) =
        (accountIds p stored).dedup ++ arrivals p stored incoming ↔
      arrivals p stored incoming = [] ∨ accountIds p (stored.drop (10 ^ 6 + 1)) = [] := by
  rw [map_accountKey_merge, ← @place_le_iff p stored incoming]
  -- all new accounts are sorted by one number
  have hNewPlace : ∀ id ∈ arrivals p stored incoming, place p stored incoming id = 10 ^ 6 := by
    intro id hMem
    obtain ⟨hIncoming, hNew⟩ := mem_arrivals.mp hMem
    exact place_new (mem_accountIds.mp hIncoming).2 hNew
  constructor
  · intro hEq
    by_cases hNone : arrivals p stored incoming = []
    · exact Or.inl hNone
    · right
      intro id hListed
      -- a single new account compares with all old ones
      obtain ⟨new, hNew⟩ := List.exists_mem_of_ne_nil _ hNone
      have hSorted := pairwise_ranked (place p stored incoming)
        ((accountIds p stored).eraseDups ++ arrivals p stored incoming)
      rw [hEq, List.pairwise_append] at hSorted
      have hLe := hSorted.2.2 id (List.mem_dedup.mpr hListed) new hNew
      rwa [hNewPlace new hNew] at hLe
  · intro hPlaces
    have hNodup := keys_merge_nodup p stored incoming
    -- sorting is stable, so it is enough that the expected list is sorted
    apply mergeSort_eq _ hNodup
    · refine List.Perm.append_right _ ?_
      refine (List.perm_ext_iff_of_nodup (List.nodup_dedup _)
        (List.nodup_append.mp hNodup).1).mpr ?_
      intro id
      rw [List.mem_dedup, List.mem_eraseDups]
    · rw [List.pairwise_append]
      refine ⟨(place_lt p stored incoming).imp fun h => Or.inl h, ?_, ?_⟩
      · -- new accounts are sorted by one number and keep their order
        rw [List.pairwise_iff_forall_sublist]
        intro a b hPair
        obtain ⟨ha, hb⟩ := mem_of_pair_sublist hPair
        refine Or.inr ⟨(hNewPlace a ha).trans (hNewPlace b hb).symm, ?_⟩
        exact hPair.trans (List.sublist_append_right _ _)
      · intro id hId new hNew
        have hListed : id ∈ accountIds p stored := List.mem_dedup.mp hId
        rcases hPlaces with hNone | hLe
        · rw [hNone] at hNew
          cases hNew
        · have hPlace := hLe id hListed
          have hNewEq := hNewPlace new hNew
          by_cases hSame : place p stored incoming id = 10 ^ 6
          · refine Or.inr ⟨hSame.trans hNewEq.symm, ?_⟩
            have hLeft : List.Sublist [id] (accountIds p stored).eraseDups :=
              List.singleton_sublist.mpr (List.mem_eraseDups.mpr hListed)
            exact hLeft.append (List.singleton_sublist.mpr hNew)
          · exact Or.inl (by omega)

/--
**An incremental push**: it leaves the merged snapshot exactly if no pushed
account is new to it or its accounts are all among the first 1000001 objects.
Accounts that are new are sorted under the number 1000000, so they stand behind
every position up to it and before every later one.
-/
theorem mergeAccounts_merged_iff :
    Merged p stored incoming (mergeAccounts p stored incoming) ↔
      (∀ id ∈ accountIds p incoming, id ∈ accountIds p stored) ∨
        accountIds p (stored.drop (10 ^ 6 + 1)) = [] := by
  have hNone : arrivals p stored incoming = [] ↔
      ∀ id ∈ accountIds p incoming, id ∈ accountIds p stored := by
    rw [List.eq_nil_iff_forall_not_mem]
    simp only [mem_arrivals, not_and, not_not]
  rw [← hNone, ← merge_order_iff]
  constructor
  · intro h
    exact h.order
  · intro hOrder
    exact
      { once   := merge_once
        ids    := fun _ => mem_map_merge
        object := fun _ hRaw => (merge_object hRaw).2
        order  := hOrder }

end Merge

-- ---------------------------------------------------------------------------
-- The same push again
-- ---------------------------------------------------------------------------

section Again

variable {p : Platform} {stored incoming : List Raw}

theorem accountIds_of_nonempty {raws : List Raw} (h : ∀ raw ∈ raws, accountKey p raw ≠ "") :
    accountIds p raws = raws.map (accountKey p) := by
  rw [accountIds, List.filter_eq_self]
  intro id hMem
  obtain ⟨raw, hRaw, rfl⟩ := List.mem_map.mp hMem
  exact decide_eq_true (h raw hRaw)

theorem lastObject_of_nodup {raws : List Raw} {raw : Raw}
    (hNodup : (raws.map (accountKey p)).Nodup) (hMem : raw ∈ raws) :
    lastObject p raws (accountKey p raw) = some raw := by
  have hFound : (lastObject p raws (accountKey p raw)).isSome := by
    rw [lastObject, List.find?_isSome]
    exact ⟨raw, List.mem_reverse.mpr hMem, decide_eq_true rfl⟩
  obtain ⟨raw', hRaw'⟩ := Option.isSome_iff_exists.mp hFound
  obtain ⟨hMem', hKey⟩ := lastObject_key hRaw'
  rw [hRaw', List.inj_on_of_nodup_map hNodup hMem' hMem hKey]

theorem eraseDups_of_nodup {ids : List String} (h : ids.Nodup) : ids.eraseDups = ids := by
  induction ids with
  | nil => rfl
  | cons id rest ih =>
    rw [List.nodup_cons] at h
    have hKept : rest.filter (fun other => !other == id) = rest := by
      rw [List.filter_eq_self]
      intro other hOther
      have hNe : other ≠ id := fun hEq => h.1 (hEq ▸ hOther)
      simpa using hNe
    rw [List.eraseDups_cons, hKept, ih h.2]

/-- A list that has every pushed object as the one of its account is left as it
is. -/
theorem mergeAccounts_settled {result : List Raw}
    (hNodup : (result.map (accountKey p)).Nodup) (hIds : ∀ raw ∈ result, accountKey p raw ≠ "")
    (hHas : ∀ id raw, id ≠ "" → lastObject p incoming id = some raw → raw ∈ result) :
    mergeAccounts p result incoming = result := by
  have hAll : accountIds p result = result.map (accountKey p) := accountIds_of_nonempty hIds
  -- every pushed account is in the list already
  have hNoArrivals : arrivals p result incoming = [] := by
    rw [List.eq_nil_iff_forall_not_mem]
    intro id hMem
    obtain ⟨hIncoming, hNew⟩ := mem_arrivals.mp hMem
    obtain ⟨⟨raw, hRaw, hKey⟩, hId⟩ := mem_accountIds.mp hIncoming
    have hFound : (lastObject p incoming id).isSome := by
      rw [lastObject, List.find?_isSome]
      exact ⟨raw, List.mem_reverse.mpr hRaw, decide_eq_true hKey⟩
    obtain ⟨raw', hRaw'⟩ := Option.isSome_iff_exists.mp hFound
    have hMem' := hHas id raw' hId hRaw'
    exact hNew (mem_accountIds.mpr ⟨⟨raw', hMem', (lastObject_key hRaw').2⟩, hId⟩)
  -- and its object there is the pushed one, so no value changes
  have hValues : (known p (result ++ incoming)).values = result := by
    apply List.map_injective_iff.mpr (Option.some_injective Raw)
    rw [Dict.values_eq, keys_known, keys_append, hNoArrivals, List.append_nil, hAll,
      eraseDups_of_nodup hNodup, List.map_map]
    apply List.map_congr_left
    intro raw hRaw
    rw [Function.comp_apply, get?_known (hIds raw hRaw), lastObject_append,
      lastObject_of_nodup hNodup hRaw]
    cases hLast : lastObject p incoming (accountKey p raw) with
    | none => rfl
    | some raw' =>
      have hRaw' := hHas _ raw' (hIds raw hRaw) hLast
      have hKey := (lastObject_key hLast).2
      rw [List.inj_on_of_nodup_map hNodup hRaw' hRaw hKey]
      rfl
  have hSorted : result.Pairwise fun a b =>
      place p result incoming (accountKey p a) ≤ place p result incoming (accountKey p b) := by
    have hPlaces := place_lt p result incoming
    rw [hAll, hNodup.dedup, List.pairwise_map] at hPlaces
    exact hPlaces.imp fun h => Nat.le_of_lt h
  calc mergeAccounts p result incoming
      = result.mergeSort (ranked fun raw => place p result incoming (accountKey p raw)) := by
        rw [mergeAccounts, hValues]
        rfl
    _ = result := mergeSort_sorted _ hSorted

/--
**The same push again** leaves the snapshot as it is, also where the first push
has filed a new account between old ones: by then it is an old one too, and has
that position.
-/
theorem mergeAccounts_again (p : Platform) (stored incoming : List Raw) :
    mergeAccounts p (mergeAccounts p stored incoming) incoming =
      mergeAccounts p stored incoming := by
  apply mergeAccounts_settled merge_once
  · intro raw hRaw
    exact (merge_object hRaw).1
  · intro id raw hId hLast
    obtain ⟨hMem, hKey⟩ := lastObject_key hLast
    have hListed : id ∈ (mergeAccounts p stored incoming).map (accountKey p) :=
      mem_map_merge.mpr (Or.inr (mem_accountIds.mpr ⟨⟨raw, hMem, hKey⟩, hId⟩))
    obtain ⟨raw', hRaw', hKey'⟩ := List.mem_map.mp hListed
    have hObject := (merge_object hRaw').2
    rw [hKey', hLast, Option.some_or] at hObject
    rw [Option.some.inj hObject]
    exact hRaw'

end Again

-- ---------------------------------------------------------------------------
-- Through the store
-- ---------------------------------------------------------------------------

/-- **An incremental push through the store.** A file that takes the write has
the merged snapshot, which the same push leaves as it is, exactly if no account
is new or the snapshot lists none behind its first 1000001 objects. -/
theorem store_merged_iff {p : Platform} {snapshot : Snapshot} {incoming : List Raw} :
    (Merged p snapshot.load incoming (snapshot.store p incoming false true).load ∧
        (snapshot.store p incoming false true).store p incoming false true =
          snapshot.store p incoming false true) ↔
      (∀ id ∈ accountIds p incoming, id ∈ accountIds p snapshot.load) ∨
        accountIds p (snapshot.load.drop (10 ^ 6 + 1)) = [] := by
  have hAgain : (snapshot.store p incoming false true).store p incoming false true =
      snapshot.store p incoming false true :=
    congrArg some (mergeAccounts_again p snapshot.load incoming)
  rw [← mergeAccounts_merged_iff]
  constructor
  · intro h
    exact h.1
  · intro h
    exact ⟨h, hAgain⟩

/-- A snapshot with two accounts more than a million, one object each. -/
def crowd : List Raw :=
  (List.range (10 ^ 6 + 2)).map fun n => [("account_id", .str ("u" ++ toString n))]

theorem user_ne_empty (n : Nat) : "u" ++ toString n ≠ "" := by
  intro h
  have hChars := congrArg String.toList h
  rw [String.toList_append] at hChars
  cases hChars

theorem accountKey_user (n : Nat) :
    accountKey plainPlatform [("account_id", .str ("u" ++ toString n))] = "u" ++ toString n := by
  have hTruthy : (Json.str ("u" ++ toString n)).truthy = true := by
    rw [Json.truthy, bne_iff_ne]
    exact user_ne_empty n
  calc accountKey plainPlatform [("account_id", .str ("u" ++ toString n))]
      = if (Json.str ("u" ++ toString n)).truthy then "u" ++ toString n else "" := rfl
    _ = "u" ++ toString n := if_pos hTruthy

/-- With more than a million accounts in the snapshot, a new one is filed before
the last of them. -/
theorem newcomer_overtakes :
    ¬ Merged plainPlatform crowd [[("account_id", .str "v")]]
      (Snapshot.store plainPlatform (some crowd) [[("account_id", .str "v")]] false true).load := by
  have hIncoming : accountIds plainPlatform [[("account_id", .str "v")]] = ["v"] := by decide
  have hStore (snapshot : List Raw) (incoming : List Raw) :
      (Snapshot.store plainPlatform (some snapshot) incoming false true).load =
        mergeAccounts plainPlatform snapshot incoming := rfl
  rw [hStore, mergeAccounts_merged_iff]
  -- either `v` was known, or fewer objects were there: neither is so
  rintro (hKnown | hFew)
  · have hMem : "v" ∈ accountIds plainPlatform crowd := by
      apply hKnown
      rw [hIncoming]
      exact List.mem_singleton_self "v"
    obtain ⟨⟨raw, hRaw, hKey⟩, -⟩ := mem_accountIds.mp hMem
    obtain ⟨n, -, rfl⟩ := List.mem_map.mp hRaw
    rw [accountKey_user] at hKey
    have hChars := congrArg String.toList hKey
    rw [String.toList_append] at hChars
    cases hChars
  · have hLast : (crowd.drop (10 ^ 6 + 1))[0]? =
        some [("account_id", Json.str ("u" ++ toString (10 ^ 6 + 1)))] := by
      rw [List.getElem?_drop, crowd, List.getElem?_map, List.getElem?_range (by omega)]
      rfl
    have hMem : "u" ++ toString (10 ^ 6 + 1) ∈
        accountIds plainPlatform (crowd.drop (10 ^ 6 + 1)) :=
      mem_accountIds.mpr
        ⟨⟨_, List.mem_of_getElem? hLast, accountKey_user _⟩, user_ne_empty _⟩
    rw [hFew] at hMem
    cases hMem

end ZagrosNode.Accounts
