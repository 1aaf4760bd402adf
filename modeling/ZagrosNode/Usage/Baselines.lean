import ZagrosNode.Cores.Manager
import ZagrosNode.Usage.Trackers

/-!
# ZagrosNode — the file of usage baselines

`usage-baselines.json` maps `core:account` to the pair of counters a tracker
had when the deltas were handed over. A poll merges what it collected over
the file; a starting agent splits every key at its first colon and hands each
driver its part.

A key is `f"{core_id}:{account_id}"`, and it is taken apart with `partition(":")`, at
the first colon. No core has a colon in its name, so the account id comes back with
every colon it has. The model keeps the file as a dictionary of pairs of core and
account, and `toJson` is what is written; that this loses nothing is
`baselineKey_inj`.

Reading is a loop over the stored items whose body may raise: a value may be no pair,
or hold something `int` refuses. `readBaselines_toJson` says that on a file the agent
wrote it comes through, and that `by_core` has for every core the cursors filed under
it and no others. Merging is `update`, so a later poll's cursor for an account
replaces the earlier one, and the cursors of other accounts stay.

Main results:

* `partition_baselineKey` — no character of an account id, a colon included,
  is lost in the key.
* `readBaselines_toJson` — what the agent wrote reads back without an
  exception, and every core gets exactly its own cursors.
-/

namespace ZagrosNode.Usage

open ZagrosNode.Lib ZagrosNode.Cores

-- ---------------------------------------------------------------------------
-- Keys
-- ---------------------------------------------------------------------------

/-- `f"{core_id}:{account_id}"` -/
def baselineKey (core account : String) : String := core ++ ":" ++ account

/-- `key.partition(":")`, without the separator it found. -/
def partition (key : String) : String × String :=
  let cs := key.toList
  (String.ofList (cs.takeWhile fun c => decide (c ≠ ':')),
    String.ofList ((cs.dropWhile fun c => decide (c ≠ ':')).drop 1))

/-- The text holds no colon. -/
def Colonless (s : String) : Prop := ':' ∉ s.toList

theorem colonless_name (core : CoreId) : Colonless core.name := by
  cases core <;> unfold Colonless <;> decide

theorem partition_baselineKey {core : String} (h : Colonless core) (account : String) :
    partition (baselineKey core account) = (core, account) := by
  have hAll : ∀ c ∈ core.toList, decide (c ≠ ':') = true := by
    intro c hc
    rw [decide_eq_true_eq]
    rintro rfl
    exact h hc
  unfold partition baselineKey
  have hChars : (core ++ ":" ++ account).toList = core.toList ++ ':' :: account.toList := by
    simp
  simp only [hChars]
  rw [List.takeWhile_append_of_pos hAll, List.dropWhile_append_of_pos hAll]
  simp

theorem baselineKey_inj {core core' account account' : String} (h : Colonless core)
    (h' : Colonless core') :
    baselineKey core account = baselineKey core' account' ↔ core = core' ∧ account = account' := by
  constructor
  · intro hEq
    have hParts := congrArg partition hEq
    rw [partition_baselineKey h, partition_baselineKey h'] at hParts
    exact Prod.mk.inj hParts
  · rintro ⟨rfl, rfl⟩
    rfl

-- ---------------------------------------------------------------------------
-- The file
-- ---------------------------------------------------------------------------

/-- The contents of the file: every key was made from a core and an account. -/
structure BaselineFile where
  entries : Dict String Totals
  keyed   : ∀ key ∈ entries.keys, ∃ (core : CoreId) (account : String),
    key = baselineKey core.name account

namespace BaselineFile

def empty : BaselineFile := ⟨Dict.empty, by simp⟩

/-- The cursor saved for an account of a core. -/
def cursor (f : BaselineFile) (core : CoreId) (account : String) : Option Totals :=
  f.entries.get? (baselineKey core.name account)

/-- `merged.update(baselines)` -/
def save (f baselines : BaselineFile) : BaselineFile where
  entries := f.entries.update baselines.entries
  keyed := by
    intro key hKey
    rw [Dict.update, Dict.mem_keys_setAll] at hKey
    rcases hKey with hOld | hNew
    · exact f.keyed key hOld
    · exact baselines.keyed key hNew

/-- `baselines[f"{core_id}:{account_id}"] = totals`, for each entry of a
snapshot. -/
def collect (f : BaselineFile) (core : CoreId) (snapshot : List (String × Totals)) :
    BaselineFile where
  entries := f.entries.setAll (snapshot.map fun e => (baselineKey core.name e.1, e.2))
  keyed := by
    intro key hKey
    rw [Dict.mem_keys_setAll] at hKey
    rcases hKey with hOld | hNew
    · exact f.keyed key hOld
    · obtain ⟨e, he, rfl⟩ := List.mem_map.mp hNew
      obtain ⟨entry, -, rfl⟩ := List.mem_map.mp he
      exact ⟨core, entry.1, rfl⟩

theorem cursor_save (f baselines : BaselineFile) (core : CoreId) (account : String) :
    (f.save baselines).cursor core account =
      (baselines.cursor core account).or (f.cursor core account) :=
  Dict.get?_update f.entries baselines.entries _

theorem cursor_collect_of_ne (f : BaselineFile) {core other : CoreId} (h : other ≠ core)
    (snapshot : List (String × Totals)) (account : String) :
    (f.collect core snapshot).cursor other account = f.cursor other account := by
  refine Dict.get?_setAll_of_not_mem ?_
  intro hMem
  obtain ⟨e, he, hKey⟩ := List.mem_map.mp hMem
  obtain ⟨entry, -, rfl⟩ := List.mem_map.mp he
  have hCore := ((baselineKey_inj (colonless_name core) (colonless_name other)).mp hKey).1
  exact h (by cases core <;> cases other <;> first | rfl | exact absurd hCore (by decide))

/-- Collecting a tracker's dictionary files its readings under the core. -/
theorem cursor_collect (f : BaselineFile) (core : CoreId) (snapshot : Dict String Totals)
    (account : String) :
    (f.collect core snapshot.entries).cursor core account =
      (snapshot.get? account).or (f.cursor core account) := by
  -- no two accounts have one key, since the core's name has no colon
  have hKeys : ((snapshot.entries.map fun e => (baselineKey core.name e.1, e.2)).map
      Prod.fst).Nodup := by
    rw [List.map_map]
    have hMap := snapshot.nodup.map (f := baselineKey core.name) fun a b hEq =>
      ((baselineKey_inj (colonless_name core) (colonless_name core)).mp hEq).2
    rwa [List.map_map] at hMap
  -- looking a key up among the filed entries is looking the account up
  have hAssoc : ∀ l : List (String × Totals),
      assocGet? (baselineKey core.name account)
        (l.map fun e => (baselineKey core.name e.1, e.2)) = assocGet? account l := by
    intro l
    induction l with
    | nil => rfl
    | cons e rest ih =>
      have hIff : baselineKey core.name e.1 = baselineKey core.name account ↔
          core.name = core.name ∧ e.1 = account :=
        baselineKey_inj (colonless_name core) (colonless_name core)
      by_cases hEq : e.1 = account
      · simp [assocGet?, hEq]
      · have hNe : ¬ baselineKey core.name e.1 = baselineKey core.name account :=
          fun hKey => hEq (hIff.mp hKey).2
        simp only [List.map_cons, assocGet?, hNe, hEq, if_false]
        exact ih
  unfold collect cursor
  rw [Dict.get?_setAll_of_nodup hKeys, hAssoc]
  rfl

/-- What `json.dumps` writes. -/
def toJson (f : BaselineFile) : Json :=
  .dict (f.entries.entries.map fun e => (e.1, .list [.num e.2.1, .num e.2.2]))

end BaselineFile

-- ---------------------------------------------------------------------------
-- Reading the file at boot
-- ---------------------------------------------------------------------------

/-- `by_core`: the cursors of each core, by account. -/
abbrev ByCore := Dict String (Dict String Totals)

/-- `by_core.get(core, {}).get(account)` -/
def ByCore.cursor (b : ByCore) (core account : String) : Option Totals :=
  (b.get? core).bind fun mapping => mapping.get? account

/-- `by_core.setdefault(core, {})[account] = totals` -/
def ByCore.put (b : ByCore) (core account : String) (totals : Totals) : ByCore :=
  Dict.set b core (((b.get? core).getD Dict.empty).set account totals)

/-- One round of the loop over the stored items. -/
def readEntry (b : ByCore) (key : String) (totals : Json) : Except PyErr ByCore :=
  let parts := partition key
  match totals with
  | .list [first, second] =>
    if parts.1 = "" then .ok b
    else do
      let up ← first.int
      let down ← second.int
      .ok (b.put parts.1 parts.2 (up, down))
  | _ => .ok b

/-- The loop of `restore_usage_baselines`. -/
def readBaselines (stored : Json) : Except PyErr ByCore :=
  match stored.or (.dict []) with
  | .dict items => items.foldlM (fun b e => readEntry b e.1 e.2) Dict.empty
  | _           => .error ⟨.attribute, "object has no attribute 'items'"⟩

theorem cursor_put (b : ByCore) (core account core' account' : String) (totals : Totals) :
    (b.put core account totals).cursor core' account' =
      if core = core' ∧ account = account' then some totals else b.cursor core' account' := by
  unfold ByCore.cursor ByCore.put
  rw [Dict.get?_set]
  by_cases hCore : core = core'
  · subst hCore
    rw [if_pos rfl, Option.bind_some, Dict.get?_set]
    by_cases hAccount : account = account'
    · simp [hAccount]
    · cases hGet : b.get? core <;> simp [hAccount]
  · simp [hCore]

/-- Reading one entry that the agent wrote. -/
theorem readEntry_own (b : ByCore) (core : CoreId) (account : String) (totals : Totals) :
    readEntry b (baselineKey core.name account) (.list [.num totals.1, .num totals.2]) =
      .ok (b.put core.name account totals) := by
  have hName : core.name ≠ "" := by cases core <;> decide
  unfold readEntry
  simp only [partition_baselineKey (colonless_name core), if_neg hName, Json.int_num]
  rfl

theorem foldlM_readEntry (l : List (String × Totals))
    (hKeyed : ∀ e ∈ l, ∃ (core : CoreId) (account : String), e.1 = baselineKey core.name account)
    (hNodup : (l.map Prod.fst).Nodup) (b : ByCore) :
    ∃ b', (l.map fun e => (e.1, Json.list [.num e.2.1, .num e.2.2])).foldlM
        (fun b e => readEntry b e.1 e.2) b = .ok b' ∧
      ∀ (core : CoreId) account, b'.cursor core.name account =
        (assocGet? (baselineKey core.name account) l).or (b.cursor core.name account) := by
  -- on the entries; the table grows, and later entries stand over earlier ones
  induction l generalizing b with
  | nil => exact ⟨b, rfl, fun core account => rfl⟩
  | cons e rest ih =>
    obtain ⟨key, totals⟩ := e
    obtain ⟨owner, name, rfl⟩ := hKeyed _ List.mem_cons_self
    rw [List.map_cons, List.nodup_cons] at hNodup
    obtain ⟨b', hRun, hCursor⟩ := ih (fun e he => hKeyed e (List.mem_cons_of_mem _ he)) hNodup.2
      (b.put owner.name name totals)
    refine ⟨b', ?_, fun core account => ?_⟩
    · rw [List.map_cons, List.foldlM_cons, readEntry_own]
      exact hRun
    · rw [hCursor, cursor_put]
      -- a key is that of one core and one account
      have hIff : baselineKey owner.name name = baselineKey core.name account ↔
          owner.name = core.name ∧ name = account :=
        baselineKey_inj (colonless_name owner) (colonless_name core)
      by_cases hKey : baselineKey owner.name name = baselineKey core.name account
      · -- the key does not occur again, so this entry decides the cursor
        have hRest : assocGet? (baselineKey core.name account) rest = none :=
          assocGet?_eq_none.mpr (hKey ▸ hNodup.1)
        rw [if_pos (hIff.mp hKey), hRest]
        simp [assocGet?, hKey]
      · rw [if_neg fun hBoth => hKey (hIff.mpr hBoth)]
        simp [assocGet?, hKey]

/--
**The file reads back.** What the agent wrote is read without an exception, and
every core gets exactly its own cursors. Nothing in the file is of another
shape, so no entry is passed over.
-/
theorem readBaselines_toJson (f : BaselineFile) :
    ∃ b, readBaselines f.toJson = .ok b ∧
      ∀ (core : CoreId) account, b.cursor core.name account = f.cursor core account := by
  have hKeyed : ∀ e ∈ f.entries.entries, ∃ (core : CoreId) (account : String),
      e.1 = baselineKey core.name account :=
    fun e he => f.keyed e.1 (List.mem_map.mpr ⟨e, he, rfl⟩)
  obtain ⟨b, hRun, hCursor⟩ := foldlM_readEntry f.entries.entries hKeyed f.entries.nodup Dict.empty
  refine ⟨b, ?_, fun core account => ?_⟩
  · have hOr : f.toJson.or (.dict []) = f.toJson := by
      unfold Json.or BaselineFile.toJson
      cases f.entries.entries <;> rfl
    unfold readBaselines
    rw [hOr]
    exact hRun
  · rw [hCursor]
    exact Option.or_none

end ZagrosNode.Usage
