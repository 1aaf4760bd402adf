import ZagrosNode.Bandwidth.Malformed

/-!
# ZagrosNode — marks and filter slots

The traffic of a user is recognised by marks and policed by `tc` filters, both
computed from the user's id: a mark holds the id in its middle bytes, and the
filters take four preferences each for IPv4 and IPv6, 20000 apart. The
quarantine has marks and preferences of its own.

* **Marks.** A mark is the prefix, the id in sixteen bits and a kind; the quarantine's
  marks are made in the same way and are those of id 65024. `markForUser_eq` writes a
  mark as a sum, and then distinctness is arithmetic.
* **Slots.** A filter stands at a preference of a chain, on one side of the interface.
  The four preferences of a user are computed from the id, those for IPv6 20000 further
  on, so that users 5000 apart use the same ones. The kernel takes 16 bits.

`slots_nodup_iff` breaks the distinctness of all slots into that of one user's, of two
users' and of a user's and the quarantine's; each of these is an equivalence about ids.

Main results:

* `markForUser_eq` — a mark as a number.
* `slots_disjoint_iff` — all marks differ and all filters have slots of their
  own within 16 bits exactly if no user behind 11133, no two users 5000 apart
  and, beside a quarantine, none of two further users get filters.
* `users_collide` — the filters of users 1 and 5001 stand in one place.
-/

namespace ZagrosNode.Bandwidth

open ZagrosNode.Lib ZagrosNode.Cores ZagrosNode.Security ZagrosNode.Accounts

-- ---------------------------------------------------------------------------
-- Marks
-- ---------------------------------------------------------------------------

/-- `MARK_PREFIX` -/
def markPrefix : Nat := 0x5A000000

/-- `mark_for_user` -/
def markForUser (userId : Int) : Except String Nat :=
  if userId ≤ 0 ∨ userId > 0xFFFF then
    .error s!"user id {userId} is outside the 16-bit limiter identity range"
  else .ok (markPrefix ||| (userId.toNat <<< 8))

structure Marks where
  base  : Nat
  outer : Nat
  up    : Nat
  down  : Nat

/-- `marks_for_user` -/
def marksForUser (userId : Int) : Except String Marks := do
  let base ← markForUser userId
  .ok { base := base, outer := base ||| 0x40, up := base ||| 0x01, down := base ||| 0x02 }

/-- The connection marks and the packet marks. -/
def Marks.toList (m : Marks) : List Nat := [m.base, m.outer, m.up, m.down]

/-- The marks of the quarantine. -/
def quarantineMarks : Marks :=
  { base := 0x5AFE0000, outer := 0x5AFE0040, up := 0x5AFE0001, down := 0x5AFE0002 }

/-- `action_index` -/
def actionIndex (userId : Int) (down : Bool) : Int :=
  0x5B000000 + userId * 2 + if down then 1 else 0

-- ---------------------------------------------------------------------------
-- Filters
-- ---------------------------------------------------------------------------

inductive Direction
  | ingress | egress
  deriving DecidableEq

inductive Family
  | ip | ipv6
  deriving DecidableEq

/-- A `tc` filter: it hands what carries the mark to a police action, or lets it
pass. -/
structure Filter where
  direction : Direction
  protocol  : Family
  pref      : Int
  chain     : Nat
  handle    : Int
  mark      : Nat
  police    : Option Int

/-- Where the filter stands. -/
def Filter.slot (f : Filter) : Direction × Nat × Int := (f.direction, f.chain, f.pref)

/-- `_replace_ingress_flower`, which matches the connection mark. -/
def ingressFlower (protocol : Family) (pref handle : Int) (ctMark : Nat) (police : Option Int) :
    Filter :=
  { direction := .ingress, protocol := protocol, pref := pref, chain := 901, handle := handle,
    mark := ctMark, police := police }

/-- `_replace_egress_fw`, which matches the packet mark. -/
def egressFw (protocol : Family) (pref : Int) (mark : Nat) (police : Option Int) : Filter :=
  { direction := .egress, protocol := protocol, pref := pref, chain := 0, handle := mark,
    mark := mark, police := police }

/-- The address families with their offsets of preferences and handles. -/
def families : List (Family × Int × Int) := [(.ip, 0, 0), (.ipv6, 20000, 0x10000)]

/-- The filters of one user, once the marks are known. -/
def userFilters (limit : UserLimit) (marks : Marks) : List Filter :=
  let basePref := 1000 + limit.userId * 4
  let baseHandle := 0xC000 + limit.userId * 4
  let down := if limit.downloadMbps ≠ 0 then some (actionIndex limit.userId true) else none
  let up := if limit.uploadMbps ≠ 0 then some (actionIndex limit.userId false) else none
  families.flatMap (fun (protocol, prefOffset, handleOffset) =>
      (if limit.downloadMbps ≠ 0 then
        [ingressFlower protocol (basePref + prefOffset) (baseHandle + handleOffset) marks.base down]
      else []) ++ [egressFw protocol (basePref + 1 + prefOffset) marks.down down]) ++
    families.flatMap fun (protocol, prefOffset, handleOffset) =>
      (if limit.uploadMbps ≠ 0 then
        [egressFw protocol (basePref + 2 + prefOffset) marks.up up]
      else []) ++
        [ingressFlower protocol (basePref + 3 + prefOffset) (baseHandle + 3 + handleOffset)
          marks.outer up]

/-- `_install_user_filters` -/
def installUserFilters (limit : UserLimit) : Except String (List Filter) := do
  let marks ← marksForUser limit.userId
  .ok (userFilters limit marks)

/-- The filters of the quarantine, with its rates. -/
def quarantineFilters : Option (Option Int × Option Int) → List Filter
  | none            => []
  | some (up, down) =>
    (if up.isSome then
      families.flatMap fun (protocol, prefOffset, handleOffset) =>
        [ingressFlower protocol (30000 + prefOffset) (0xCFFE + handleOffset)
            quarantineMarks.outer (some 0x5BFE0000),
          egressFw protocol (30002 + prefOffset) quarantineMarks.up (some 0x5BFE0000)]
    else []) ++
      if down.isSome then
        families.flatMap fun (protocol, prefOffset, handleOffset) =>
          [egressFw protocol (30001 + prefOffset) quarantineMarks.down (some 0x5BFE0001),
            ingressFlower protocol (30003 + prefOffset) (0xCFFD + handleOffset)
              quarantineMarks.base (some 0x5BFE0001)]
      else []

/-- `filter_users`, in the order of the ids. -/
def filterUsers (rules : Dict Int UserLimit) : List UserLimit :=
  (rules.values.filter (filtered rules.values)).mergeSort fun a b =>
    decide (a.userId ≤ b.userId)

/-- The filters `reconcile` installs. -/
def filtersOf (rules : Dict Int UserLimit) : Except String (List Filter) :=
  if rules.values.any UserLimit.limited then do
    let users ← (filterUsers rules).mapM installUserFilters
    .ok (users.flatten ++ quarantineFilters (quarantineOf rules.values))
  else .ok []

-- ---------------------------------------------------------------------------
-- Disjoint resources
-- ---------------------------------------------------------------------------

/-- All users' marks and the marks of the quarantine differ, and the filters
have preferences of 16 bits and one slot each. -/
structure SlotsDisjoint (users : List UserLimit) (filters : List Filter) : Prop where
  marks : users.Pairwise fun a b => ∀ m m', marksForUser a.userId = .ok m →
            marksForUser b.userId = .ok m' → List.Disjoint m.toList m'.toList
  guard : ∀ a ∈ users, ∀ m, marksForUser a.userId = .ok m →
            List.Disjoint m.toList quarantineMarks.toList
  slots : (filters.map Filter.slot).Nodup
  prefs : ∀ f ∈ filters, 1 ≤ f.pref ∧ f.pref ≤ 65535

/-- The users whose filters do not meet: ids up to 11133, no two of them 5000
apart, and with a quarantine for downloads none of 2250 and 7250, with one for
uploads only neither of them with a rate. -/
structure Spaced (rules : Dict Int UserLimit) : Prop where
  range : ∀ a ∈ filterUsers rules, a.userId ≤ 11133
  apart : ∀ a ∈ filterUsers rules, ∀ b ∈ filterUsers rules, a.userId + 5000 ≠ b.userId
  guard : ∀ a ∈ filterUsers rules, a.userId = 2250 ∨ a.userId = 7250 →
            ∀ up down, quarantineOf rules.values = some (up, down) →
              down = none ∧ a.limited = false

section Marks

variable {userId : Int}

theorem markForUser_eq (hPos : 0 < userId) (hLe : userId ≤ 0xFFFF) :
    markForUser userId = .ok (markPrefix + 256 * userId.toNat) := by
  have hShift : userId.toNat <<< 8 < 2 ^ 24 := by
    rw [Nat.shiftLeft_eq]
    omega
  have hOr := Nat.shiftLeft_add_eq_or_of_lt hShift 0x5A
  have hPrefix : 0x5A <<< 24 = markPrefix := by decide
  rw [hPrefix] at hOr
  have hMul : userId.toNat * 2 ^ 8 = 256 * userId.toNat := by omega
  rw [markForUser, if_neg (by omega), ← hOr, Nat.shiftLeft_eq, hMul]

theorem marksForUser_eq (hPos : 0 < userId) (hLe : userId ≤ 0xFFFF) :
    ∃ m, marksForUser userId = .ok m ∧
      m.toList = [markPrefix + 256 * userId.toNat, markPrefix + 256 * userId.toNat + 0x40,
        markPrefix + 256 * userId.toNat + 0x01, markPrefix + 256 * userId.toNat + 0x02] := by
  have hKind {kind : Nat} (hKind : kind < 2 ^ 8) :
      (markPrefix + 256 * userId.toNat) ||| kind = markPrefix + 256 * userId.toNat + kind := by
    have hOr := Nat.shiftLeft_add_eq_or_of_lt hKind (0x5A0000 + userId.toNat)
    have hBase : (0x5A0000 + userId.toNat) <<< 8 = markPrefix + 256 * userId.toNat := by
      rw [Nat.shiftLeft_eq, markPrefix]
      omega
    rw [hBase] at hOr
    exact hOr.symm
  rw [marksForUser, markForUser_eq hPos hLe]
  refine ⟨_, rfl, ?_⟩
  rw [Marks.toList, hKind (by decide), hKind (by decide), hKind (by decide)]

theorem marksForUser_ok {m : Marks} (h : marksForUser userId = .ok m) :
    0 < userId ∧ userId ≤ 0xFFFF := by
  rw [marksForUser, markForUser] at h
  by_cases hRange : userId ≤ 0 ∨ userId > 0xFFFF
  · rw [if_pos hRange] at h
    cases h
  · omega

/-- A mark leads back to its user. -/
theorem mem_marks {m : Marks} {mark : Nat} (h : marksForUser userId = .ok m)
    (hMem : mark ∈ m.toList) : userId = ((mark - markPrefix) / 256 : Nat) ∧ markPrefix ≤ mark := by
  obtain ⟨hPos, hLe⟩ := marksForUser_ok h
  obtain ⟨m', h', hList⟩ := marksForUser_eq hPos hLe
  obtain rfl := Except.ok.inj (h.symm.trans h')
  rw [hList] at hMem
  simp only [List.mem_cons, List.not_mem_nil, or_false] at hMem
  omega

end Marks

-- ---------------------------------------------------------------------------
-- Slots
-- ---------------------------------------------------------------------------

section Slots

variable {limit : UserLimit} {marks : Marks} {s : Direction × Nat × Int}

/-- The four slots of a user in one family, as far as they are taken. -/
theorem mem_userSlots :
    s ∈ (userFilters limit marks).map Filter.slot ↔
      ∃ offset : Int, (offset = 0 ∨ offset = 20000) ∧
        ((limit.downloadMbps ≠ 0 ∧ s = (.ingress, 901, 1000 + limit.userId * 4 + offset)) ∨
          s = (.egress, 0, 1000 + limit.userId * 4 + 1 + offset) ∨
          (limit.uploadMbps ≠ 0 ∧ s = (.egress, 0, 1000 + limit.userId * 4 + 2 + offset)) ∨
          s = (.ingress, 901, 1000 + limit.userId * 4 + 3 + offset)) := by
  unfold userFilters families
  by_cases hDown : limit.downloadMbps = 0
  · by_cases hUp : limit.uploadMbps = 0
    · simp [hDown, hUp, Filter.slot, ingressFlower, egressFw]
      tauto
    · simp [hDown, hUp, Filter.slot, ingressFlower, egressFw]
      tauto
  · by_cases hUp : limit.uploadMbps = 0
    · simp [hDown, hUp, Filter.slot, ingressFlower, egressFw]
      tauto
    · simp [hDown, hUp, Filter.slot, ingressFlower, egressFw]
      tauto

theorem userSlots_nodup : ((userFilters limit marks).map Filter.slot).Nodup := by
  unfold userFilters families
  by_cases hDown : limit.downloadMbps = 0
  · by_cases hUp : limit.uploadMbps = 0
    · simp [hDown, hUp, Filter.slot, ingressFlower, egressFw]
    · simp [hDown, hUp, Filter.slot, ingressFlower, egressFw]
      omega
  · by_cases hUp : limit.uploadMbps = 0
    · simp [hDown, hUp, Filter.slot, ingressFlower, egressFw]
      omega
    · simp [hDown, hUp, Filter.slot, ingressFlower, egressFw]
      omega

theorem mem_quarantineSlots {up down : Option Int} :
    s ∈ (quarantineFilters (some (up, down))).map Filter.slot ↔
      ∃ offset : Int, (offset = 0 ∨ offset = 20000) ∧
        ((up.isSome ∧ s = (.ingress, 901, 30000 + offset)) ∨
          (down.isSome ∧ s = (.egress, 0, 30001 + offset)) ∨
          (up.isSome ∧ s = (.egress, 0, 30002 + offset)) ∨
          (down.isSome ∧ s = (.ingress, 901, 30003 + offset))) := by
  unfold quarantineFilters families
  cases up with
  | none =>
    cases down with
    | none => simp
    | some d =>
      simp [Filter.slot, ingressFlower, egressFw]
      tauto
  | some u =>
    cases down with
    | none =>
      simp [Filter.slot, ingressFlower, egressFw]
      tauto
    | some d =>
      simp [Filter.slot, ingressFlower, egressFw]
      tauto

theorem quarantineSlots_nodup (q : Option (Option Int × Option Int)) :
    ((quarantineFilters q).map Filter.slot).Nodup := by
  rcases q with _ | ⟨up, down⟩
  · exact List.nodup_nil
  · cases up with
    | none =>
      cases down with
      | none => exact List.nodup_nil
      | some d => simp [quarantineFilters, families, Filter.slot, ingressFlower, egressFw]
    | some u =>
      cases down with
      | none => simp [quarantineFilters, families, Filter.slot, ingressFlower, egressFw]
      | some d => simp [quarantineFilters, families, Filter.slot, ingressFlower, egressFw]

end Slots

-- ---------------------------------------------------------------------------
-- The users with filters
-- ---------------------------------------------------------------------------

section Users

variable {p : Platform} {k : Kernel} {limits : Limits} {rules : Dict Int UserLimit}
  {a : UserLimit}

theorem mem_filterUsers :
    a ∈ filterUsers rules ↔ a ∈ rules.values ∧ filtered rules.values a = true := by
  rw [filterUsers, (List.mergeSort_perm _ _).mem_iff, List.mem_filter]

/-- The limits of a payload stand under their own ids, and no rate is
negative. -/
theorem mem_desired (h : desired p k limits = .ok rules) (hMem : a ∈ rules.values) :
    (∃ e, entryFor a.userId limits = some e) ∧ rules.get? a.userId = some a ∧
      0 ≤ a.uploadMbps ∧ 0 ≤ a.downloadMbps := by
  obtain ⟨⟨userId, a⟩, hEntry, rfl⟩ := List.mem_map.mp hMem
  have hGet := Dict.mem_entries_iff.mp hEntry
  rcases get?_desired p k h userId with ⟨-, hNone⟩ | ⟨e, limit, hFor, hSome, hLimit⟩
  · rw [hNone] at hGet
    cases hGet
  · obtain rfl := Option.some.inj (hSome.symm.trans hGet)
    obtain ⟨hId, -, hUpload, hDownload, -⟩ := userLimit_fields hLimit
    refine ⟨⟨e, by rwa [hId]⟩, by rwa [hId], ?_, ?_⟩
    -- the rates are `max 0`, as the limiter's constructor makes them
    · cases hRate : rate e.2 "upload_mbps" with
      | error err =>
        rw [hRate] at hUpload
        cases hUpload
      | ok n =>
        rw [hRate] at hUpload
        rw [← Except.ok.inj hUpload]
        exact le_max_left 0 n
    · cases hRate : rate e.2 "download_mbps" with
      | error err =>
        rw [hRate] at hDownload
        cases hDownload
      | ok n =>
        rw [hRate] at hDownload
        rw [← Except.ok.inj hDownload]
        exact le_max_left 0 n

/-- No two users with filters have one id. -/
theorem filterUsers_pairwise (h : desired p k limits = .ok rules) :
    (filterUsers rules).Pairwise fun a b => a.userId ≠ b.userId := by
  have hIds : rules.values.map UserLimit.userId = rules.keys := by
    rw [Dict.values, Dict.keys, List.map_map]
    apply List.map_congr_left
    rintro ⟨userId, a⟩ hEntry
    have hGet := Dict.mem_entries_iff.mp hEntry
    have hOwn := (mem_desired h (List.mem_map.mpr ⟨_, hEntry, rfl⟩)).2.1
    rcases get?_desired p k h userId with ⟨-, hNone⟩ | ⟨e, limit, -, hSome, hLimit⟩
    · rw [hNone] at hGet
      cases hGet
    · obtain rfl := Option.some.inj (hSome.symm.trans hGet)
      exact (userLimit_fields hLimit).1
  have hNodup : (rules.values.map UserLimit.userId).Nodup := hIds ▸ rules.nodup
  have hPairwise : rules.values.Pairwise fun a b => a.userId ≠ b.userId :=
    List.pairwise_map.mp hNodup
  refine (List.mergeSort_perm _ _).pairwise_iff ?_ |>.mpr (hPairwise.sublist List.filter_sublist)
  intro a b hNe
  exact Ne.symm hNe

/-- Without a limited user nobody gets filters. -/
theorem filterUsers_eq_nil (h : rules.values.any UserLimit.limited = false) :
    filterUsers rules = [] := by
  have hNone : ∀ a ∈ rules.values, a.limited = false := by
    simpa using h
  rw [List.eq_nil_iff_forall_not_mem]
  intro a hMem
  obtain ⟨hValue, hFiltered⟩ := mem_filterUsers.mp hMem
  have hSoft : softLimits rules.values = [] := by
    rw [softLimits, List.filter_eq_nil_iff]
    intro b hb
    simp [hNone b hb]
  rw [filtered, hNone a hValue, hSoft] at hFiltered
  cases hFiltered

/-- A quarantine polices uploads or downloads. -/
theorem quarantineOf_some {up down : Option Int}
    (hRates : ∀ a ∈ rules.values, 0 ≤ a.uploadMbps ∧ 0 ≤ a.downloadMbps)
    (h : quarantineOf rules.values = some (up, down)) : up.isSome ∨ down.isSome := by
  unfold quarantineOf at h
  by_cases hEmpty : (softLimits rules.values).isEmpty = true
  · simp [hEmpty] at h
  · simp only [hEmpty, Bool.false_eq_true, if_false, Option.some.injEq, Prod.mk.injEq] at h
    have hNe : softLimits rules.values ≠ [] := by
      intro hNil
      exact hEmpty (by rw [hNil]; rfl)
    obtain ⟨a, hMem⟩ := List.exists_mem_of_ne_nil _ hNe
    have hSoft := List.mem_filter.mp hMem
    have hLimited : a.limited = true := by
      have hBoth := hSoft.2
      rw [Bool.and_eq_true] at hBoth
      exact hBoth.1
    obtain ⟨hUp, hDown⟩ := hRates a hSoft.1
    -- the least of the rates that are not nought, and this user has such a rate
    have hSome (rate : UserLimit → Int) (hNe : rate a ≠ 0) :
        (((softLimits rules.values).map rate).filter (· ≠ 0)).min?.isSome := by
      rw [List.isSome_min?_iff]
      refine List.ne_nil_of_mem (a := rate a) (List.mem_filter.mpr ⟨?_, decide_eq_true hNe⟩)
      exact List.mem_map.mpr ⟨a, hMem, rfl⟩
    rw [UserLimit.limited, decide_eq_true_eq] at hLimited
    rw [← h.1, ← h.2]
    rcases hLimited with hPos | hPos
    · exact Or.inl (hSome UserLimit.uploadMbps (by omega))
    · exact Or.inr (hSome UserLimit.downloadMbps (by omega))

/-- With all ids within 16 bits every user's filters are built. -/
theorem mapM_installUserFilters {users : List UserLimit}
    (h : ∀ a ∈ users, ∃ m, marksForUser a.userId = .ok m) :
    ∃ filters : UserLimit → List Filter,
      users.mapM installUserFilters = .ok (users.map filters) ∧
        ∀ a ∈ users, ∃ m, marksForUser a.userId = .ok m ∧ filters a = userFilters a m := by
  -- the filters of a user, which are never missing where there are marks
  let filters (a : UserLimit) : List Filter :=
    match installUserFilters a with
    | .ok fs   => fs
    | .error _ => []
  refine ⟨filters, ?_, ?_⟩
  · induction users with
    | nil => rfl
    | cons a rest ih =>
      obtain ⟨m, hm⟩ := h a List.mem_cons_self
      have hFirst : installUserFilters a = .ok (userFilters a m) := by
        rw [installUserFilters, hm]
        rfl
      have hFilters : filters a = userFilters a m := by
        show (match installUserFilters a with | .ok fs => fs | .error _ => []) = _
        rw [hFirst]
      rw [List.mapM_cons, hFirst, ih fun b hb => h b (List.mem_cons_of_mem a hb), List.map_cons,
        hFilters]
      rfl
  · intro a ha
    obtain ⟨m, hm⟩ := h a ha
    refine ⟨m, hm, ?_⟩
    show (match installUserFilters a with | .ok fs => fs | .error _ => []) = _
    rw [installUserFilters, hm]
    rfl

end Users

-- ---------------------------------------------------------------------------
-- When the slots are disjoint
-- ---------------------------------------------------------------------------

section Disjointness

variable {users : List UserLimit} {filters : UserLimit → List Filter}
  {q : Option (Option Int × Option Int)}

/-- The slots of all users and of the quarantine, in one list. -/
theorem slots_nodup_iff
    (hBuilt : ∀ a ∈ users, ∃ m, marksForUser a.userId = .ok m ∧ filters a = userFilters a m) :
    (((users.map filters).flatten ++ quarantineFilters q).map Filter.slot).Nodup ↔
      users.Pairwise (fun a b =>
          List.Disjoint ((filters a).map Filter.slot) ((filters b).map Filter.slot)) ∧
        ∀ a ∈ users,
          List.Disjoint ((filters a).map Filter.slot) ((quarantineFilters q).map Filter.slot) := by
  have hFlat : (users.map filters).flatten.map Filter.slot =
      users.flatMap fun a => (filters a).map Filter.slot := by
    rw [← List.flatMap_def, List.map_flatMap]
  -- the filters of one user never stand in one slot
  have hOwn : ∀ a ∈ users, ((filters a).map Filter.slot).Nodup := by
    intro a ha
    obtain ⟨m, -, hEq⟩ := hBuilt a ha
    rw [hEq]
    exact userSlots_nodup
  rw [List.map_append, hFlat, List.nodup_append', List.nodup_flatMap]
  constructor
  · rintro ⟨⟨-, hUsers⟩, -, hGuard⟩
    refine ⟨hUsers, ?_⟩
    intro a ha s hs hQuarantine
    exact hGuard (List.mem_flatMap.mpr ⟨a, ha, hs⟩) hQuarantine
  · rintro ⟨hUsers, hGuard⟩
    refine ⟨⟨hOwn, hUsers⟩, quarantineSlots_nodup q, ?_⟩
    intro s hs hQuarantine
    obtain ⟨a, ha, hsa⟩ := List.mem_flatMap.mp hs
    exact hGuard a ha hsa hQuarantine

/-- The slots of two users meet exactly if the ids are 5000 apart. -/
theorem userSlots_disjoint_iff {a b : UserLimit} {m m' : Marks} (hNe : a.userId ≠ b.userId) :
    List.Disjoint ((userFilters a m).map Filter.slot) ((userFilters b m').map Filter.slot) ↔
      a.userId + 5000 ≠ b.userId ∧ b.userId + 5000 ≠ a.userId := by
  constructor
  · intro hDisjoint
    constructor
    · intro hFar
      refine hDisjoint (mem_userSlots.mpr ⟨20000, Or.inr rfl, Or.inr (Or.inl rfl)⟩)
        (mem_userSlots.mpr ⟨0, Or.inl rfl, Or.inr (Or.inl ?_)⟩)
      have hPref : 1000 + a.userId * 4 + 1 + 20000 = 1000 + b.userId * 4 + 1 + 0 := by omega
      rw [hPref]
    · intro hFar
      refine hDisjoint (mem_userSlots.mpr ⟨0, Or.inl rfl, Or.inr (Or.inl rfl)⟩)
        (mem_userSlots.mpr ⟨20000, Or.inr rfl, Or.inr (Or.inl ?_)⟩)
      have hPref : 1000 + a.userId * 4 + 1 + 0 = 1000 + b.userId * 4 + 1 + 20000 := by omega
      rw [hPref]
  · rintro ⟨hFar, hFar'⟩ s hs hs'
    obtain ⟨o, ho, hs⟩ := mem_userSlots.mp hs
    obtain ⟨o', ho', hs'⟩ := mem_userSlots.mp hs'
    -- the offset of the role is what remains modulo 4
    rcases hs with ⟨-, rfl⟩ | rfl | ⟨-, rfl⟩ | rfl <;>
      simp only [Prod.mk.injEq, reduceCtorEq, true_and, false_and, and_false, or_false,
        false_or] at hs' <;> omega

/-- The slots of a user and of the quarantine meet exactly for the users 2250
and 7250, and for 12250 whose preferences are out of range. -/
theorem quarantineSlots_disjoint_iff {a : UserLimit} {m : Marks} {up down : Option Int}
    (hRange : a.userId ≤ 11133) (hUp : 0 ≤ a.uploadMbps) (hDown : 0 ≤ a.downloadMbps)
    (hSome : up.isSome ∨ down.isSome) :
    List.Disjoint ((userFilters a m).map Filter.slot)
        ((quarantineFilters (some (up, down))).map Filter.slot) ↔
      (a.userId = 2250 ∨ a.userId = 7250 → down = none ∧ a.limited = false) := by
  constructor
  · intro hDisjoint hId
    -- one of the two families starts at 30000, where the quarantine starts
    obtain ⟨o, ho, hPref⟩ : ∃ o : Int, (o = 0 ∨ o = 20000) ∧
        1000 + a.userId * 4 + o = 30000 := by
      rcases hId with hId | hId
      · exact ⟨20000, Or.inr rfl, by omega⟩
      · exact ⟨0, Or.inl rfl, by omega⟩
    -- with a download rate the quarantine stands where the user's second filter does
    have hNone : down = none := by
      by_contra hGuard
      have hGuard : down.isSome := Option.isSome_iff_ne_none.mpr hGuard
      refine hDisjoint (mem_userSlots.mpr ⟨o, ho, Or.inr (Or.inl rfl)⟩)
        (mem_quarantineSlots.mpr ⟨0, Or.inl rfl, Or.inr (Or.inl ⟨hGuard, ?_⟩)⟩)
      have hEq : 1000 + a.userId * 4 + 1 + o = 30001 + 0 := by omega
      rw [hEq]
    refine ⟨hNone, ?_⟩
    have hGuard : up.isSome := by simpa [hNone] using hSome
    by_contra hLimited
    simp only [UserLimit.limited, Bool.not_eq_false, decide_eq_true_eq] at hLimited
    rcases hLimited with hRate | hRate
    · refine hDisjoint
        (mem_userSlots.mpr ⟨o, ho, Or.inr (Or.inr (Or.inl ⟨by omega, rfl⟩))⟩)
        (mem_quarantineSlots.mpr ⟨0, Or.inl rfl, Or.inr (Or.inr (Or.inl ⟨hGuard, ?_⟩))⟩)
      have hEq : 1000 + a.userId * 4 + 2 + o = 30002 + 0 := by omega
      rw [hEq]
    · refine hDisjoint (mem_userSlots.mpr ⟨o, ho, Or.inl ⟨by omega, rfl⟩⟩)
        (mem_quarantineSlots.mpr ⟨0, Or.inl rfl, Or.inl ⟨hGuard, ?_⟩⟩)
      have hEq : 1000 + a.userId * 4 + o = 30000 + 0 := by omega
      rw [hEq]
  -- conversely four kinds of slots against four: most differ in hook or in parity
  · rintro hFree s hs hs'
    obtain ⟨o, ho, hs⟩ := mem_userSlots.mp hs
    obtain ⟨o', ho', hs'⟩ := mem_quarantineSlots.mp hs'
    have hRates : a.userId = 2250 ∨ a.userId = 7250 →
        down = none ∧ a.uploadMbps = 0 ∧ a.downloadMbps = 0 := by
      intro hId
      obtain ⟨hNone, hFalse⟩ := hFree hId
      rw [UserLimit.limited, decide_eq_false_iff_not] at hFalse
      exact ⟨hNone, by omega, by omega⟩
    rcases hs with ⟨hRate, rfl⟩ | rfl | ⟨hRate, rfl⟩ | rfl <;>
      simp only [Prod.mk.injEq, reduceCtorEq, true_and, false_and, and_false, or_false,
        false_or] at hs'
    · have hId : a.userId = 2250 ∨ a.userId = 7250 := by omega
      exact hRate (hRates hId).2.2
    · have hId : a.userId = 2250 ∨ a.userId = 7250 := by omega
      have hNone := (hRates hId).1
      rcases hs' with ⟨hGuard, hPref⟩ | ⟨hGuard, hPref⟩
      · simp [hNone] at hGuard
      · omega
    · have hId : a.userId = 2250 ∨ a.userId = 7250 := by omega
      exact hRate (hRates hId).2.1
    · have hId : a.userId = 2250 ∨ a.userId = 7250 := by omega
      have hNone := (hRates hId).1
      rcases hs' with ⟨hGuard, hPref⟩ | ⟨hGuard, hPref⟩
      · omega
      · simp [hNone] at hGuard

/-- The marks of two users, and those of the quarantine, differ for ids in
range. -/
theorem marks_disjoint {a b : UserLimit} {m m' : Marks} (hNe : a.userId ≠ b.userId)
    (h : marksForUser a.userId = .ok m) (h' : marksForUser b.userId = .ok m') :
    List.Disjoint m.toList m'.toList := by
  intro mark hMem hMem'
  have hId := (mem_marks h hMem).1
  have hId' := (mem_marks h' hMem').1
  exact hNe (hId.trans hId'.symm)

theorem marks_disjoint_quarantine {a : UserLimit} {m : Marks} (hRange : a.userId ≤ 11133)
    (h : marksForUser a.userId = .ok m) : List.Disjoint m.toList quarantineMarks.toList := by
  intro mark hMem hGuard
  have hId := (mem_marks h hMem).1
  simp only [Marks.toList, quarantineMarks, List.mem_cons, List.not_mem_nil, or_false] at hGuard
  rw [markPrefix] at hId
  omega

end Disjointness

section Payloads

variable {p : Platform} {k : Kernel} {limits : Limits} {rules : Dict Int UserLimit}
  {filters : List Filter} {users : List UserLimit} {built : UserLimit → List Filter}

/-- Among the users with filters, slots meet exactly if two ids are 5000
apart. -/
theorem pairwise_slots_iff (hPairwise : users.Pairwise fun a b => a.userId ≠ b.userId)
    (hBuilt : ∀ a ∈ users, ∃ m, marksForUser a.userId = .ok m ∧ built a = userFilters a m) :
    users.Pairwise (fun a b =>
        List.Disjoint ((built a).map Filter.slot) ((built b).map Filter.slot)) ↔
      ∀ a ∈ users, ∀ b ∈ users, a.userId + 5000 ≠ b.userId := by
  -- two users with different ids meet only 5000 apart, since a family is 20000 away
  have hSlots : ∀ a ∈ users, ∀ b ∈ users, a.userId ≠ b.userId →
      (List.Disjoint ((built a).map Filter.slot) ((built b).map Filter.slot) ↔
        a.userId + 5000 ≠ b.userId ∧ b.userId + 5000 ≠ a.userId) := by
    intro a ha b hb hNe
    obtain ⟨m, -, hEq⟩ := hBuilt a ha
    obtain ⟨m', -, hEq'⟩ := hBuilt b hb
    rw [hEq, hEq']
    exact userSlots_disjoint_iff hNe
  constructor
  · intro hDisjoint a ha b hb hFar
    let Apart (a b : UserLimit) : Prop := a.userId + 5000 ≠ b.userId ∧ b.userId + 5000 ≠ a.userId
    have hSymm : Std.Symm Apart := ⟨fun _ _ h => ⟨h.2, h.1⟩⟩
    have hApart : users.Pairwise Apart := by
      refine List.Pairwise.imp_of_mem ?_ (hPairwise.and hDisjoint)
      rintro a b ha hb ⟨hNe, hMeet⟩
      exact (hSlots a ha b hb hNe).mp hMeet
    have hNe : a ≠ b := by
      rintro rfl
      omega
    exact (hApart.forall ha hb hNe).1 hFar
  · intro hFar
    refine List.Pairwise.imp_of_mem ?_ hPairwise
    intro a b ha hb hNe
    exact (hSlots a ha b hb hNe).mpr ⟨hFar a ha b hb, hFar b hb a ha⟩

/-- The highest preference of a user is always taken. -/
theorem highest_pref {a : UserLimit} {m : Marks} :
    ∃ f ∈ userFilters a m, f.pref = 1000 + a.userId * 4 + 3 + 20000 := by
  have hSlot : (Direction.ingress, 901, 1000 + a.userId * 4 + 3 + 20000) ∈
      (userFilters a m).map Filter.slot :=
    mem_userSlots.mpr ⟨20000, Or.inr rfl, Or.inr (Or.inr (Or.inr rfl))⟩
  obtain ⟨f, hf, hEq⟩ := List.mem_map.mp hSlot
  exact ⟨f, hf, congrArg (fun s => s.2.2) hEq⟩

theorem pref_range {a : UserLimit} {m : Marks} {f : Filter} (hPos : 0 < a.userId)
    (hRange : a.userId ≤ 11133) (h : f ∈ userFilters a m) : 1 ≤ f.pref ∧ f.pref ≤ 65535 := by
  have hSlot : f.slot ∈ (userFilters a m).map Filter.slot := List.mem_map.mpr ⟨f, h, rfl⟩
  obtain ⟨offset, hOffset, hRole⟩ := mem_userSlots.mp hSlot
  simp only [Filter.slot, Prod.mk.injEq] at hRole
  omega

theorem quarantine_pref_range {q : Option (Option Int × Option Int)} {f : Filter}
    (h : f ∈ quarantineFilters q) : 1 ≤ f.pref ∧ f.pref ≤ 65535 := by
  rcases q with _ | ⟨up, down⟩
  · cases h
  · have hSlot : f.slot ∈ (quarantineFilters (some (up, down))).map Filter.slot :=
      List.mem_map.mpr ⟨f, h, rfl⟩
    obtain ⟨offset, hOffset, hRole⟩ := mem_quarantineSlots.mp hSlot
    simp only [Filter.slot, Prod.mk.injEq] at hRole
    omega

/-- The slots of the users stay clear of those of the quarantine. -/
theorem guard_slots_iff (hRange : ∀ a ∈ filterUsers rules, a.userId ≤ 11133)
    (hRates : ∀ a ∈ rules.values, 0 ≤ a.uploadMbps ∧ 0 ≤ a.downloadMbps)
    (hBuilt : ∀ a ∈ filterUsers rules, ∃ m, marksForUser a.userId = .ok m ∧
      built a = userFilters a m) :
    (∀ a ∈ filterUsers rules, List.Disjoint ((built a).map Filter.slot)
        ((quarantineFilters (quarantineOf rules.values)).map Filter.slot)) ↔
      ∀ a ∈ filterUsers rules, a.userId = 2250 ∨ a.userId = 7250 →
        ∀ up down, quarantineOf rules.values = some (up, down) →
          down = none ∧ a.limited = false := by
  refine forall₂_congr fun a ha => ?_
  obtain ⟨m, -, hEq⟩ := hBuilt a ha
  obtain ⟨hUp, hDown⟩ := hRates a (mem_filterUsers.mp ha).1
  rw [hEq]
  cases hQuarantine : quarantineOf rules.values with
  -- without SoftEther's limits there is no quarantine to meet
  | none =>
    refine iff_of_true (List.disjoint_nil_right _) ?_
    rintro - up down hSome
    cases hSome
  | some rates =>
    obtain ⟨up, down⟩ := rates
    rw [quarantineSlots_disjoint_iff (hRange a ha) hUp hDown (quarantineOf_some hRates hQuarantine)]
    constructor
    · rintro hFree hId up' down' hSome
      obtain ⟨rfl, rfl⟩ := Prod.mk.inj (Option.some.inj hSome)
      exact hFree hId
    · intro hFree hId
      exact hFree hId up down rfl

/-- The filters of one rule set. -/
theorem slotsDisjoint_iff (hIds : ∀ a ∈ filterUsers rules, ∃ m, marksForUser a.userId = .ok m)
    (hRules : desired p k limits = .ok rules) (hFilters : filtersOf rules = .ok filters) :
    SlotsDisjoint (filterUsers rules) filters ↔ Spaced rules := by
  by_cases hActive : rules.values.any UserLimit.limited = true
  · obtain ⟨built, hMap, hBuilt⟩ := mapM_installUserFilters hIds
    obtain rfl : ((filterUsers rules).map built).flatten ++
        quarantineFilters (quarantineOf rules.values) = filters := by
      rw [filtersOf, if_pos hActive, hMap] at hFilters
      exact Except.ok.inj hFilters
    have hPairwise := filterUsers_pairwise hRules
    have hRates : ∀ a ∈ rules.values, 0 ≤ a.uploadMbps ∧ 0 ≤ a.downloadMbps := by
      intro a ha
      exact (mem_desired hRules ha).2.2
    constructor
    · intro hDisjoint
      -- the range is read off the highest preference, the rest off the slots
      obtain ⟨hUsers, hGuard⟩ := (slots_nodup_iff hBuilt).mp hDisjoint.slots
      have hRange : ∀ a ∈ filterUsers rules, a.userId ≤ 11133 := by
        intro a ha
        obtain ⟨m, -, hEq⟩ := hBuilt a ha
        obtain ⟨f, hf, hPref⟩ := highest_pref (a := a) (m := m)
        have hMem : f ∈ ((filterUsers rules).map built).flatten :=
          List.mem_flatten.mpr ⟨built a, List.mem_map.mpr ⟨a, ha, rfl⟩, by rwa [hEq]⟩
        have hLe := (hDisjoint.prefs f (List.mem_append_left _ hMem)).2
        omega
      exact
        { range := hRange
          apart := (pairwise_slots_iff hPairwise hBuilt).mp hUsers
          guard := (guard_slots_iff hRange hRates hBuilt).mp hGuard }
    · intro hSpaced
      -- conversely the marks are apart by the ids, and the preferences are small enough
      refine
        { marks := ?_
          guard := ?_
          slots := (slots_nodup_iff hBuilt).mpr
            ⟨(pairwise_slots_iff hPairwise hBuilt).mpr hSpaced.apart,
              (guard_slots_iff hSpaced.range hRates hBuilt).mpr hSpaced.guard⟩
          prefs := ?_ }
      · exact hPairwise.imp fun hNe m m' h h' => marks_disjoint hNe h h'
      · intro a ha m h
        exact marks_disjoint_quarantine (hSpaced.range a ha) h
      · intro f hf
        rcases List.mem_append.mp hf with hUser | hGuard
        · obtain ⟨fs, hfs, hf⟩ := List.mem_flatten.mp hUser
          obtain ⟨a, ha, rfl⟩ := List.mem_map.mp hfs
          obtain ⟨m, hm, hEq⟩ := hBuilt a ha
          rw [hEq] at hf
          exact pref_range (marksForUser_ok hm).1 (hSpaced.range a ha) hf
        · exact quarantine_pref_range hGuard
  · -- nobody is limited, and nothing is installed
    rw [Bool.not_eq_true] at hActive
    have hNone := filterUsers_eq_nil hActive
    obtain rfl : [] = filters := by
      rw [filtersOf, if_neg (by rw [hActive]; decide)] at hFilters
      exact Except.ok.inj hFilters
    refine iff_of_true ?_ ?_
    · rw [hNone]
      exact
        { marks := List.Pairwise.nil
          guard := fun _ h => absurd h List.not_mem_nil
          slots := List.nodup_nil
          prefs := fun _ h => absurd h List.not_mem_nil }
    · constructor
      all_goals
        rw [hNone]
        intro a ha
        cases ha

theorem filtersOf_ok (hIds : ∀ a ∈ filterUsers rules, ∃ m, marksForUser a.userId = .ok m) :
    ∃ filters, filtersOf rules = .ok filters := by
  obtain ⟨built, hMap, -⟩ := mapM_installUserFilters hIds
  rw [filtersOf, hMap]
  by_cases hActive : rules.values.any UserLimit.limited = true
  · exact ⟨_, if_pos hActive⟩
  · exact ⟨_, if_neg hActive⟩

/-- The users with filters have marks if the ids of the payload are within 16
bits. -/
theorem marks_of_ids
    (hIds : ∀ userId e, entryFor userId limits = some e → ∃ mark, markForUser userId = .ok mark)
    (hRules : desired p k limits = .ok rules) :
    ∀ a ∈ filterUsers rules, ∃ m, marksForUser a.userId = .ok m := by
  intro a ha
  obtain ⟨⟨e, hEntry⟩, -⟩ := mem_desired hRules (mem_filterUsers.mp ha).1
  obtain ⟨mark, hMark⟩ := hIds a.userId e hEntry
  rw [marksForUser, hMark]
  exact ⟨_, rfl⟩

/-- **Disjoint kernel resources.** A payload whose ids are within 16 bits gets
marks and slots that do not meet exactly if the users with filters are
spaced. -/
theorem slots_disjoint_iff
    (hIds : ∀ userId e, entryFor userId limits = some e → ∃ mark, markForUser userId = .ok mark) :
    (∀ rules filters, desired p k limits = .ok rules → filtersOf rules = .ok filters →
        SlotsDisjoint (filterUsers rules) filters) ↔
      ∀ rules, desired p k limits = .ok rules → Spaced rules := by
  constructor
  · intro hAll rules hRules
    have hMarks := marks_of_ids hIds hRules
    obtain ⟨filters, hFilters⟩ := filtersOf_ok hMarks
    exact (slotsDisjoint_iff hMarks hRules hFilters).mp (hAll rules filters hRules hFilters)
  · intro hSpaced rules filters hRules hFilters
    exact (slotsDisjoint_iff (marks_of_ids hIds hRules) hRules hFilters).mpr
      (hSpaced rules hRules)

end Payloads

/-- The limits of users 7 and 9; the traffic of user 9 also comes through
SoftEther, so that a quarantine stands beside the filters of the two. -/
def guardedLimits : Payload :=
  Dict.ofPairs
    [("7", .dict [("upload_mbps", .num 5), ("download_mbps", .num 5)]),
      ("9", .dict [("upload_mbps", .num 3),
        ("accounts", .dict [("softether", .list [.str "s"])])])]

def guardedRules : Dict Int UserLimit :=
  let limitOf (userId upload download : Int) (name : String) (accounts : List String) : UserLimit :=
    { userId := userId, username := name, uploadMbps := upload, downloadMbps := download
      innerSources := [], sshUids := [], softetherAccounts := accounts }
  Dict.ofPairs [(7, limitOf 7 5 5 "7" []), (9, limitOf 9 3 0 "9" ["s"])]

theorem desired_guarded :
    desired plainPlatform bareKernel guardedLimits.entries = .ok guardedRules := rfl

theorem entryFor_guarded {userId : Int} {e : String × Raw}
    (h : entryFor userId guardedLimits.entries = some e) : userId = 7 ∨ userId = 9 := by
  obtain ⟨hMem, hId⟩ := entryFor_some h
  rcases List.mem_cons.mp hMem with hFirst | hRest
  · rw [(Prod.mk.inj hFirst).1] at hId
    exact Or.inl (Except.ok.inj hId).symm
  · rw [(Prod.mk.inj (List.mem_singleton.mp hRest)).1] at hId
    exact Or.inr (Except.ok.inj hId).symm

/-- Two users with filters of both families and a quarantine for uploads, and
no mark, slot or preference is used twice. -/
theorem slots_disjoint_guarded :
    (desired plainPlatform bareKernel guardedLimits.entries = .ok guardedRules ∧
        (filterUsers guardedRules).map UserLimit.userId = [7, 9] ∧
        quarantineOf guardedRules.values = some (some 3, none)) ∧
      ∀ rules filters, desired plainPlatform bareKernel guardedLimits.entries = .ok rules →
        filtersOf rules = .ok filters → SlotsDisjoint (filterUsers rules) filters := by
  refine ⟨⟨desired_guarded, ?_, ?_⟩, (slots_disjoint_iff ?_).mpr ?_⟩
  · rw [filterUsers, List.mergeSort_of_pairwise]
    · decide
    · decide
  · decide
  · intro userId e hEntry
    rcases entryFor_guarded hEntry with rfl | rfl
    · exact ⟨_, rfl⟩
    · exact ⟨_, rfl⟩
  -- whatever the drivers report, the users are the two of the payload
  · intro rules hRules
    have hIds : ∀ a ∈ filterUsers rules, a.userId = 7 ∨ a.userId = 9 := by
      intro a ha
      obtain ⟨⟨e, hEntry⟩, -⟩ := mem_desired hRules (mem_filterUsers.mp ha).1
      exact entryFor_guarded hEntry
    constructor
    · intro a ha
      have hId := hIds a ha
      omega
    · intro a ha b hb
      have hId := hIds a ha
      have hId' := hIds b hb
      omega
    · intro a ha hGuard
      have hId := hIds a ha
      omega

/-- Users 1 and 5001, each with an upload rate. -/
def farUsers : Payload :=
  Dict.ofPairs [("1", .dict [("upload_mbps", .num 5)]), ("5001", .dict [("upload_mbps", .num 5)])]

/-- The IPv6 filters of user 1 stand where the IPv4 filters of user 5001 do. -/
theorem users_collide :
    (∀ userId e, entryFor userId farUsers.entries = some e →
        ∃ mark, markForUser userId = .ok mark) ∧
      ¬ ∀ rules filters, desired plainPlatform bareKernel farUsers.entries = .ok rules →
        filtersOf rules = .ok filters → SlotsDisjoint (filterUsers rules) filters := by
  -- both ids are within 16 bits, so both users have marks
  have hIds : ∀ userId e, entryFor userId farUsers.entries = some e →
      ∃ mark, markForUser userId = .ok mark := by
    intro userId e hEntry
    obtain ⟨hMem, hId⟩ := entryFor_some hEntry
    have hKey : e.1 = "1" ∨ e.1 = "5001" := by
      rcases List.mem_cons.mp hMem with hFirst | hRest
      · exact Or.inl (Prod.mk.inj hFirst).1
      · exact Or.inr (Prod.mk.inj (List.mem_singleton.mp hRest)).1
    rcases hKey with hKey | hKey
    all_goals
      rw [hKey] at hId
      rw [← Except.ok.inj hId]
      exact ⟨_, rfl⟩
  refine ⟨hIds, ?_⟩
  let limitOf (userId : Int) (name : String) : UserLimit :=
    { userId := userId, username := name, uploadMbps := 5, downloadMbps := 0
      innerSources := [], sshUids := [], softetherAccounts := [] }
  have hRules : desired plainPlatform bareKernel farUsers.entries =
      .ok (Dict.ofPairs [(1, limitOf 1 "1"), (5001, limitOf 5001 "5001")]) := rfl
  intro hAll
  have hMarks := marks_of_ids hIds hRules
  obtain ⟨filters, hFilters⟩ := filtersOf_ok hMarks
  have hSpaced := (slotsDisjoint_iff hMarks hRules hFilters).mp (hAll _ filters hRules hFilters)
  have hFirst : limitOf 1 "1" ∈ filterUsers
      (Dict.ofPairs [(1, limitOf 1 "1"), (5001, limitOf 5001 "5001")]) :=
    mem_filterUsers.mpr ⟨List.mem_cons_self, rfl⟩
  have hSecond : limitOf 5001 "5001" ∈ filterUsers
      (Dict.ofPairs [(1, limitOf 1 "1"), (5001, limitOf 5001 "5001")]) :=
    mem_filterUsers.mpr ⟨List.mem_cons_of_mem _ List.mem_cons_self, rfl⟩
  -- 1 and 5001 are the two that may not stand together
  exact hSpaced.apart _ hFirst _ hSecond rfl

end ZagrosNode.Bandwidth
