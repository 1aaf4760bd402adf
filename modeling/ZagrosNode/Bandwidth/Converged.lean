import ZagrosNode.Bandwidth.Passes

/-!
# ZagrosNode — what a pass leaves behind

A machine is settled when it has exactly what one rule set needs. A pass takes
a settled machine to a settled machine, unless a filter of the old rule set
stands at a hook of the new one with a handle that the new one does not use.

The module has three parts. The first says what the filters of a rule set are, as data:
every filter of a user is `userFilter` of one of four kinds of hook, every filter of the
quarantine `guardFilter`, so a statement about all filters is one about kinds. From the
place of a filter its user and its kind can be read off (`eq_of_key`), and from these
its mark; that is `same_of_key`.

The second part takes what `Bandwidth/Passes.lean` says of the end of a pass and turns
the replay of puts and removals into a set: what stands afterwards is what the new rule
set put and, of the old one, what gave no way. `Finished.settled_iff` is the answer to
the question when nothing of the old one is left.

* **Why filters may stay.** The state file lists preferences. A pass that reuses a
  preference does not delete there, and puts filters at its own handles. A filter of
  the old rule set at that preference with another handle is neither replaced nor
  removed.
* **What a settled machine does** is the third part. It joins the marks of the table
  with the filters that stand, packet by packet.

Main results:

* `same_of_key` — filters at one handle have one mark, whoever has put them.
* `Finished.settled_iff` — what a pass that returned has left.
* `settled_policed` — on a settled machine a new connection meets the police
  actions of its class, at the rates of the rule set.
-/

namespace ZagrosNode.Bandwidth

open ZagrosNode.Lib ZagrosNode.Cores ZagrosNode.Security ZagrosNode.Accounts

-- ---------------------------------------------------------------------------
-- The filters of a rule set
-- ---------------------------------------------------------------------------

/-- The four hooks of a user in one address family, in the order of their preferences. -/
inductive HookKind
  | ingressDown | egressDown | egressUp | ingressUp
  deriving DecidableEq

def HookKind.number : HookKind → Int
  | .ingressDown => 0
  | .egressDown  => 1
  | .egressUp    => 2
  | .ingressUp   => 3

def Family.prefOffset : Family → Int
  | .ip   => 0
  | .ipv6 => 20000

def Family.handleOffset : Family → Int
  | .ip   => 0
  | .ipv6 => 0x10000

/-- The rate that the hook polices. -/
def HookKind.rate (limit : UserLimit) : HookKind → Int
  | .ingressDown | .egressDown => limit.downloadMbps
  | .egressUp | .ingressUp     => limit.uploadMbps

/-- The police action for the hook. -/
def HookKind.action (limit : UserLimit) (kind : HookKind) : Option Int :=
  if kind.rate limit ≠ 0 then
    some (actionIndex limit.userId (kind = .ingressDown ∨ kind = .egressDown))
  else none

def userFilter (limit : UserLimit) (m : Marks) (protocol : Family) (kind : HookKind) : Filter :=
  let pref := 1000 + limit.userId * 4 + kind.number + protocol.prefOffset
  let handle := 0xC000 + limit.userId * 4 + kind.number + protocol.handleOffset
  match kind with
  | .ingressDown => ingressFlower protocol pref handle m.base (kind.action limit)
  | .egressDown  => egressFw protocol pref m.down (kind.action limit)
  | .egressUp    => egressFw protocol pref m.up (kind.action limit)
  | .ingressUp   => ingressFlower protocol pref handle m.outer (kind.action limit)

/-- The hook is there without a rate, too. -/
def HookKind.always : HookKind → Bool
  | .egressDown | .ingressUp   => true
  | .ingressDown | .egressUp   => false

/-- A filter of the quarantine. -/
def guardFilter (protocol : Family) (kind : HookKind) : Filter :=
  let pref := 30000 + kind.number + protocol.prefOffset
  match kind with
  | .ingressDown => ingressFlower protocol pref (0xCFFE + protocol.handleOffset)
      quarantineMarks.outer (some 0x5BFE0000)
  | .egressDown  => egressFw protocol pref quarantineMarks.down (some 0x5BFE0001)
  | .egressUp    => egressFw protocol pref quarantineMarks.up (some 0x5BFE0000)
  | .ingressUp   => ingressFlower protocol pref (0xCFFD + protocol.handleOffset)
      quarantineMarks.base (some 0x5BFE0001)

section Shapes

variable {limit : UserLimit} {m : Marks} {f : Filter} {rates : Option (Option Int × Option Int)}

/-- The hooks in the order in which a user's filters are put. -/
def userHooks : List (Family × HookKind) :=
  [(.ip, .ingressDown), (.ip, .egressDown), (.ipv6, .ingressDown), (.ipv6, .egressDown),
    (.ip, .egressUp), (.ip, .ingressUp), (.ipv6, .egressUp), (.ipv6, .ingressUp)]

theorem mem_userHooks (protocol : Family) (kind : HookKind) : (protocol, kind) ∈ userHooks := by
  cases protocol <;> cases kind <;> decide

theorem userFilters_eq_map : userFilters limit m =
    (userHooks.filter fun e => e.2.always || decide (e.2.rate limit ≠ 0)).map fun e =>
      userFilter limit m e.1 e.2 := by
  by_cases hDown : limit.downloadMbps = 0 <;> by_cases hUp : limit.uploadMbps = 0
  all_goals
    simp [userFilters, userHooks, families, userFilter, HookKind.action, HookKind.rate,
      HookKind.always, HookKind.number, Family.prefOffset, Family.handleOffset, hDown, hUp]

theorem mem_userFilters : f ∈ userFilters limit m ↔
    ∃ protocol kind, f = userFilter limit m protocol kind ∧
      (kind.always = true ∨ kind.rate limit ≠ 0) := by
  rw [userFilters_eq_map, List.mem_map]
  constructor
  · rintro ⟨e, hMem, rfl⟩
    have hThere := (List.mem_filter.mp hMem).2
    rw [Bool.or_eq_true, decide_eq_true_iff] at hThere
    exact ⟨e.1, e.2, rfl, hThere⟩
  · rintro ⟨protocol, kind, rfl, hThere⟩
    refine ⟨(protocol, kind), List.mem_filter.mpr ⟨mem_userHooks protocol kind, ?_⟩, rfl⟩
    rwa [Bool.or_eq_true, decide_eq_true_iff]

/-- The hook's action has a rate in the rules of the quarantine. -/
def HookKind.guarded (rates : Option Int × Option Int) : HookKind → Bool
  | .ingressDown | .egressUp => rates.1.isSome
  | .egressDown | .ingressUp => rates.2.isSome

def guardHooks : List (Family × HookKind) :=
  [(.ip, .ingressDown), (.ip, .egressUp), (.ipv6, .ingressDown), (.ipv6, .egressUp),
    (.ip, .egressDown), (.ip, .ingressUp), (.ipv6, .egressDown), (.ipv6, .ingressUp)]

theorem mem_guardHooks (protocol : Family) (kind : HookKind) :
    (protocol, kind) ∈ guardHooks := by
  cases protocol <;> cases kind <;> decide

theorem quarantineFilters_eq_map (r : Option Int × Option Int) : quarantineFilters (some r) =
    (guardHooks.filter fun e => e.2.guarded r).map fun e => guardFilter e.1 e.2 := by
  obtain ⟨_ | up, _ | down⟩ := r
  all_goals
    simp [quarantineFilters, guardHooks, families, guardFilter, HookKind.guarded,
      HookKind.number, Family.prefOffset, Family.handleOffset]

theorem mem_quarantineFilters : f ∈ quarantineFilters rates ↔
    ∃ r protocol kind, rates = some r ∧ f = guardFilter protocol kind ∧
      kind.guarded r = true := by
  cases rates with
  | none => exact iff_of_false List.not_mem_nil fun ⟨_, _, _, h, _⟩ => by cases h
  | some r =>
    rw [quarantineFilters_eq_map, List.mem_map]
    constructor
    · rintro ⟨e, hMem, rfl⟩
      exact ⟨r, e.1, e.2, rfl, rfl, (List.mem_filter.mp hMem).2⟩
    · rintro ⟨_, protocol, kind, hEq, rfl, hThere⟩
      obtain rfl := Option.some.inj hEq
      exact ⟨(protocol, kind), List.mem_filter.mpr ⟨mem_guardHooks protocol kind, hThere⟩, rfl⟩

theorem filter_mem_userPuts : Put.filter f ∈ userPuts limit m ↔ f ∈ userFilters limit m := by
  have hGroup {rate : Int} {down : Bool} {fs : List Filter} :
      Put.filter f ∈ (if rate ≠ 0 then [replacePolice limit.userId down rate] else []) ++
        fs.map Put.filter ↔ f ∈ fs := by
    split <;> simp [replacePolice]
  rw [userPuts, List.mem_append, hGroup, hGroup, userFilters_eq, List.mem_append]

theorem filter_mem_quarantinePuts :
    Put.filter f ∈ quarantinePuts rates ↔ f ∈ quarantineFilters rates := by
  obtain _ | ⟨_ | up, _ | down⟩ := rates
  all_goals simp [quarantinePuts, quarantineFilters, quarantinePolice, families]

theorem police_mem_userPuts {index : Int} {action : Police} :
    Put.police index action ∈ userPuts limit m ↔
      (limit.downloadMbps ≠ 0 ∧ Put.police index action =
          replacePolice limit.userId true limit.downloadMbps) ∨
        limit.uploadMbps ≠ 0 ∧ Put.police index action =
          replacePolice limit.userId false limit.uploadMbps := by
  have hGroup {rate : Int} {down : Bool} {fs : List Filter} :
      Put.police index action ∈ (if rate ≠ 0 then [replacePolice limit.userId down rate] else []) ++
        fs.map Put.filter ↔
      rate ≠ 0 ∧ Put.police index action = replacePolice limit.userId down rate := by
    by_cases hRate : rate = 0 <;> simp [hRate]
  rw [userPuts, List.mem_append, hGroup, hGroup]

theorem police_mem_quarantinePuts {index : Int} {action : Police} :
    Put.police index action ∈ quarantinePuts rates ↔
      ∃ up down, rates = some (up, down) ∧
        ((∃ rate, up = some rate ∧ Put.police index action = quarantinePolice 0x5BFE0000 rate) ∨
          ∃ rate, down = some rate ∧
            Put.police index action = quarantinePolice 0x5BFE0001 rate) := by
  obtain _ | ⟨_ | up, _ | down⟩ := rates
  all_goals simp [quarantinePuts, quarantinePolice, families]

end Shapes

-- ---------------------------------------------------------------------------
-- Filters at one handle
-- ---------------------------------------------------------------------------

section Keys

variable {rules rules' : Dict Int UserLimit} {f g : Filter}

theorem filter_putOf : PutOf rules (.filter f) ↔
    (∃ limit ∈ filterUsers rules, (∃ m, marksForUser limit.userId = .ok m) ∧
      ∃ protocol kind, f = userFilter limit limit.marks protocol kind ∧
        (kind.always = true ∨ kind.rate limit ≠ 0)) ∨
    ∃ r protocol kind, quarantineOf rules.values = some r ∧ f = guardFilter protocol kind ∧
      kind.guarded r = true := by
  simp only [PutOf, filter_mem_userPuts, filter_mem_quarantinePuts, mem_userFilters,
    mem_quarantineFilters]

theorem userFilter_protocol {limit : UserLimit} {m : Marks} {protocol : Family}
    {kind : HookKind} : (userFilter limit m protocol kind).protocol = protocol := by
  cases kind <;> rfl

theorem userFilter_pref {limit : UserLimit} {m : Marks} {protocol : Family} {kind : HookKind} :
    (userFilter limit m protocol kind).pref =
      1000 + limit.userId * 4 + kind.number + protocol.prefOffset := by
  cases kind <;> rfl

theorem guardFilter_protocol {protocol : Family} {kind : HookKind} :
    (guardFilter protocol kind).protocol = protocol := by
  cases kind <;> rfl

theorem guardFilter_pref {protocol : Family} {kind : HookKind} :
    (guardFilter protocol kind).pref = 30000 + kind.number + protocol.prefOffset := by
  cases kind <;> rfl

theorem HookKind.number_range (kind : HookKind) : 0 ≤ kind.number ∧ kind.number ≤ 3 := by
  cases kind <;> decide

theorem HookKind.number_injective {a b : HookKind} (h : a.number = b.number) : a = b := by
  cases a <;> cases b <;> first | rfl | cases h

/-- Two users' filters at one place are the same filter of the same user. -/
theorem userFilter_place {limit limit' : UserLimit} {m m' : Marks} {protocol protocol' : Family}
    {kind kind' : HookKind}
    (hHook : (userFilter limit' m' protocol' kind').hook =
      (userFilter limit m protocol kind).hook) :
    limit'.userId = limit.userId ∧ protocol' = protocol ∧ kind' = kind := by
  have hProtocol : protocol' = protocol := by
    have hEq := congrArg Prod.snd hHook
    exact userFilter_protocol.symm.trans (hEq.trans userFilter_protocol)
  have hPref := congrArg (fun hook : Hook => hook.1.2.2) hHook
  replace hPref := userFilter_pref.symm.trans (hPref.trans userFilter_pref)
  rw [hProtocol] at hPref
  have hRange := kind.number_range
  have hRange' := kind'.number_range
  have hNumber : kind'.number = kind.number := by omega
  exact ⟨by omega, hProtocol, HookKind.number_injective hNumber⟩

/-- The quarantine has its own handles. -/
theorem userFilter_guardFilter {limit : UserLimit} {marks : Marks} {protocol protocol' : Family}
    {kind kind' : HookKind} (hMarks : marksForUser limit.userId = .ok marks) :
    (userFilter limit limit.marks protocol kind).key ≠ (guardFilter protocol' kind').key := by
  intro hKey
  have hProtocol : protocol = protocol' := by
    have hEq := congrArg (fun key : Hook × Int => key.1.2) hKey
    exact userFilter_protocol.symm.trans (hEq.trans guardFilter_protocol)
  have hPref := congrArg (fun key : Hook × Int => key.1.1.2.2) hKey
  replace hPref := userFilter_pref.symm.trans (hPref.trans guardFilter_pref)
  subst hProtocol
  have hRange := kind.number_range
  have hRange' := kind'.number_range
  have hNumber : kind.number = kind'.number := by omega
  obtain rfl := HookKind.number_injective hNumber
  have hHandle := congrArg Prod.snd hKey
  have hId : limit.userId = 7250 := by omega
  rw [marks_eq hMarks] at hHandle
  cases kind with
  | ingressDown | ingressUp =>
    simp only [Filter.key, userFilter, guardFilter, ingressFlower, HookKind.number] at hHandle
    omega
  | egressDown | egressUp =>
    simp only [Filter.key, userFilter, guardFilter, egressFw, quarantineMarks, markPrefix,
      hId] at hHandle
    omega

/-- Filters at one handle belong to one user, or are the same. -/
theorem eq_of_key (hf : PutOf rules (.filter f)) (hg : PutOf rules' (.filter g))
    (hKey : g.key = f.key) :
    (∃ limit ∈ filterUsers rules, ∃ limit' ∈ filterUsers rules', limit'.userId = limit.userId ∧
      ∃ protocol kind, f = userFilter limit limit.marks protocol kind ∧
        g = userFilter limit' limit.marks protocol kind) ∨ g = f := by
  rcases filter_putOf.mp hf with ⟨limit, hLimit, ⟨m, hm⟩, protocol, kind, rfl, -⟩ |
    ⟨r, protocol, kind, -, rfl, -⟩
  · rcases filter_putOf.mp hg with ⟨limit', hLimit', -, protocol', kind', rfl, -⟩ |
      ⟨r', protocol', kind', -, rfl, -⟩
    · obtain ⟨hId, rfl, rfl⟩ := userFilter_place (congrArg Prod.fst hKey)
      have hMarks : limit'.marks = limit.marks := by rw [UserLimit.marks, UserLimit.marks, hId]
      exact Or.inl ⟨limit, hLimit, limit', hLimit', hId, protocol', kind', rfl, by rw [hMarks]⟩
    · exact absurd hKey.symm (userFilter_guardFilter hm)
  · rcases filter_putOf.mp hg with ⟨limit', hLimit', ⟨m', hm'⟩, protocol', kind', rfl, -⟩ |
      ⟨r', protocol', kind', -, rfl, -⟩
    · exact absurd hKey (userFilter_guardFilter hm')
    · have hProtocol : protocol' = protocol := by
        have hEq := congrArg (fun key : Hook × Int => key.1.2) hKey
        exact guardFilter_protocol.symm.trans (hEq.trans guardFilter_protocol)
      have hPref := congrArg (fun key : Hook × Int => key.1.1.2.2) hKey
      replace hPref := guardFilter_pref.symm.trans (hPref.trans guardFilter_pref)
      subst hProtocol
      have hNumber : kind'.number = kind.number := by omega
      obtain rfl := HookKind.number_injective hNumber
      exact Or.inr rfl

/-- They have one mark, and one police action where both have one. -/
theorem same_of_key (hf : PutOf rules (.filter f)) (hg : PutOf rules' (.filter g))
    (hKey : g.key = f.key) :
    g.direction = f.direction ∧ g.protocol = f.protocol ∧ g.mark = f.mark ∧
      ∀ index, f.police = some index → g.police = some index ∨ g.police = none := by
  rcases eq_of_key hf hg hKey with ⟨limit, -, limit', -, hId, protocol, kind, rfl, rfl⟩ | rfl
  · have hAction : ∀ index, kind.action limit = some index →
        kind.action limit' = some index ∨ kind.action limit' = none := by
      intro index hIndex
      unfold HookKind.action at hIndex ⊢
      split at hIndex
      · rw [hId, ← hIndex]
        split
        · exact Or.inl rfl
        · exact Or.inr rfl
      · cases hIndex
    cases kind <;> exact ⟨rfl, rfl, rfl, hAction⟩
  · exact ⟨rfl, rfl, rfl, fun index => Or.inl⟩

/-- The rule set has one limit for each id. -/
def Distinct (rules : Dict Int UserLimit) : Prop :=
  (filterUsers rules).Pairwise fun a b => a.userId ≠ b.userId

theorem Distinct.eq (h : Distinct rules) {a b : UserLimit} (ha : a ∈ filterUsers rules)
    (hb : b ∈ filterUsers rules) (hEq : a.userId = b.userId) : a = b := by
  by_contra hNe
  have : Std.Symm fun a b : UserLimit => a.userId ≠ b.userId := ⟨fun _ _ h => h.symm⟩
  exact h.forall ha hb hNe hEq

/-- One rule set has one filter for a handle. -/
theorem Distinct.filter_eq (h : Distinct rules) (hf : PutOf rules (.filter f))
    (hg : PutOf rules (.filter g)) (hKey : g.key = f.key) : g = f := by
  rcases eq_of_key hf hg hKey with ⟨limit, hl, limit', hl', hId, protocol, kind, rfl, rfl⟩ | rfl
  · rw [h.eq hl' hl hId]
  · rfl

/-- And one action for an index. -/
theorem Distinct.police_eq (h : Distinct rules) {index : Int} {action action' : Police}
    (ha : PutOf rules (.police index action)) (hb : PutOf rules (.police index action')) :
    action = action' := by
  unfold PutOf at ha hb
  simp only [police_mem_userPuts, police_mem_quarantinePuts, replacePolice, quarantinePolice,
    Put.police.injEq] at ha hb
  -- the index of an action has the id and the direction in it
  have hRange {limit : UserLimit} (hMarks : ∃ m, marksForUser limit.userId = .ok m) :
      0 < limit.userId ∧ limit.userId ≤ 0xFFFF := by
    obtain ⟨m, hm⟩ := hMarks
    exact marksForUser_ok hm
  -- a user's action and one of the quarantine never have one index
  rcases ha with ⟨a, hMemA, hMarksA, hA⟩ | ⟨up, down, hRates, hA⟩
  · have hRangeA := hRange hMarksA
    rcases hb with ⟨b, hMemB, hMarksB, hB⟩ | ⟨up', down', -, hB⟩
    · have hRangeB := hRange hMarksB
      have hSame : a.userId = b.userId := by
        simp only [actionIndex] at hA hB
        rcases hA with ⟨-, hA, -⟩ | ⟨-, hA, -⟩ <;> rcases hB with ⟨-, hB, -⟩ | ⟨-, hB, -⟩
        all_goals omega
      obtain rfl := h.eq hMemA hMemB hSame
      simp only [actionIndex, reduceIte, Bool.false_eq_true] at hA hB
      rcases hA with ⟨-, hA, rfl⟩ | ⟨-, hA, rfl⟩ <;> rcases hB with ⟨-, hB, rfl⟩ | ⟨-, hB, rfl⟩
      all_goals first | rfl | omega
    · simp only [actionIndex] at hA
      rcases hA with ⟨-, hA, -⟩ | ⟨-, hA, -⟩ <;> rcases hB with ⟨_, -, hB, -⟩ | ⟨_, -, hB, -⟩
      all_goals omega
  · rcases hb with ⟨b, hMemB, hMarksB, hB⟩ | ⟨up', down', hRates', hB⟩
    · have hRangeB := hRange hMarksB
      simp only [actionIndex] at hB
      rcases hA with ⟨_, -, hA, -⟩ | ⟨_, -, hA, -⟩ <;> rcases hB with ⟨-, hB, -⟩ | ⟨-, hB, -⟩
      all_goals omega
    · obtain ⟨rfl, rfl⟩ := Prod.mk.inj (Option.some.inj (hRates.symm.trans hRates'))
      rcases hA with ⟨n, hN, hA, rfl⟩ | ⟨n, hN, hA, rfl⟩ <;>
        rcases hB with ⟨n', hN', hB, rfl⟩ | ⟨n', hN', hB, rfl⟩
      · rw [Option.some.inj (hN.symm.trans hN')]
      · omega
      · omega
      · rw [Option.some.inj (hN.symm.trans hN')]

/-- A filter's police action is put as well. -/
theorem police_of_filter (hf : PutOf rules (.filter f)) {index : Int}
    (hIndex : f.police = some index) : ∃ action, PutOf rules (.police index action) := by
  have hBefore {xs : List Put} (hReady : Ready xs) (hMem : Put.filter f ∈ xs) :
      ∃ action, Put.police index action ∈ xs := by
    obtain ⟨done, rest, rfl⟩ := List.append_of_mem hMem
    obtain ⟨action, hIn⟩ := hReady done f rest rfl index hIndex
    exact ⟨action, List.mem_append_left _ hIn⟩
  rcases hf with ⟨limit, hLimit, hMarks, hMem⟩ | hMem
  · obtain ⟨action, hIn⟩ := hBefore (ready_userPuts limit limit.marks) hMem
    exact ⟨action, Or.inl ⟨limit, hLimit, hMarks, hIn⟩⟩
  · obtain ⟨action, hIn⟩ := hBefore (ready_quarantinePuts _) hMem
    exact ⟨action, Or.inr hIn⟩

end Keys

-- ---------------------------------------------------------------------------
-- Lists of filters
-- ---------------------------------------------------------------------------

section Lists

variable {fs xs : List Filter} {f g : Filter}

theorem mem_foldl_putFilter (h : g ∈ xs.foldl putFilter fs) :
    g ∈ xs ∨ g ∈ fs ∧ ∀ x ∈ xs, x.key ≠ g.key := by
  induction xs generalizing fs with
  | nil => exact Or.inr ⟨h, fun x hMem => absurd hMem List.not_mem_nil⟩
  | cons x rest ih =>
    rcases ih h with hRest | ⟨hPut, hOther⟩
    · exact Or.inl (List.mem_cons_of_mem x hRest)
    · rcases mem_putFilter.mp hPut with ⟨hOld, hKey⟩ | rfl
      · exact Or.inr ⟨hOld, List.forall_mem_cons.mpr ⟨Ne.symm hKey, hOther⟩⟩
      · exact Or.inl List.mem_cons_self

/-- What nothing is put over stays. -/
theorem stays_foldl_putFilter (xs : List Filter) (h : g ∈ fs) (hOther : ∀ x ∈ xs, x.key ≠ g.key) :
    g ∈ xs.foldl putFilter fs := by
  induction xs generalizing fs with
  | nil => exact h
  | cons x rest ih =>
    obtain ⟨hHead, hRest⟩ := List.forall_mem_cons.mp hOther
    exact ih (mem_putFilter.mpr (Or.inl ⟨h, Ne.symm hHead⟩)) hRest

/-- No handle is left empty. -/
theorem exists_foldl_putFilter (fs xs : List Filter) (h : g ∈ fs ∨ g ∈ xs) :
    ∃ g' ∈ xs.foldl putFilter fs, g'.key = g.key ∧ (g' = g ∨ g' ∈ xs) := by
  induction xs generalizing fs g with
  | nil => exact ⟨g, h.resolve_right List.not_mem_nil, rfl, Or.inl rfl⟩
  | cons x rest ih =>
    by_cases hKey : g.key = x.key
    · obtain ⟨g', hMem, hSame, hFrom⟩ := ih _ (Or.inl (mem_putFilter.mpr (Or.inr rfl)))
      exact ⟨g', hMem, hSame.trans hKey.symm, Or.inr (List.mem_cons.mpr hFrom)⟩
    · have hPut : g ∈ putFilter fs x ∨ g ∈ rest := by
        rcases h with hOld | hNew
        · exact Or.inl (mem_putFilter.mpr (Or.inl ⟨hOld, hKey⟩))
        · rcases List.mem_cons.mp hNew with rfl | hRest
          · exact absurd rfl hKey
          · exact Or.inr hRest
      obtain ⟨g', hMem, hSame, hFrom⟩ := ih _ hPut
      exact ⟨g', hMem, hSame, hFrom.imp_right (List.mem_cons_of_mem x)⟩

theorem mem_filters_of_putsOf {puts : List Put} {f : Filter} :
    f ∈ puts.filterMap Put.filter? ↔ Put.filter f ∈ puts := by
  rw [List.mem_filterMap]
  constructor
  · rintro ⟨x, hMem, hEq⟩
    cases x with
    | police index action => cases hEq
    | filter g => rwa [← Option.some.inj hEq]
  · exact fun hMem => ⟨_, hMem, rfl⟩

theorem mem_police_of_putsOf {puts : List Put} {index : Int} {action : Police} :
    (index, action) ∈ puts.filterMap Put.police? ↔ Put.police index action ∈ puts := by
  rw [List.mem_filterMap]
  constructor
  · rintro ⟨x, hMem, hEq⟩
    cases x with
    | police i a =>
      obtain ⟨rfl, rfl⟩ := Prod.mk.inj (Option.some.inj hEq)
      exact hMem
    | filter g => cases hEq
  · exact fun hMem => ⟨_, hMem, rfl⟩

end Lists

-- ---------------------------------------------------------------------------
-- What the state file says
-- ---------------------------------------------------------------------------

section Files

variable {rules : Dict Int UserLimit} {f : Filter} {index : Int}

theorem hookOf_place (hf : PutOf rules (.filter f)) : hookOf f.place = f.hook := by
  rcases filter_putOf.mp hf with ⟨limit, -, -, protocol, kind, rfl, -⟩ |
    ⟨r, protocol, kind, -, rfl, -⟩
  all_goals cases kind <;> rfl

/-- The preference of a filter says which direction it polices. -/
theorem direction_eq {rules' : Dict Int UserLimit} {g : Filter} (hf : PutOf rules (.filter f))
    (hg : PutOf rules' (.filter g)) (hPref : g.pref = f.pref) : g.slot = f.slot := by
  have hKind {rules : Dict Int UserLimit} {f : Filter} (hf : PutOf rules (.filter f)) :
      ∃ kind : HookKind, f.pref % 4 = kind.number ∧
        (f.direction, f.chain) = match kind with
          | .ingressDown | .ingressUp => (.ingress, 901)
          | .egressDown | .egressUp   => (.egress, 0) := by
    have hOffset (protocol : Family) : protocol.prefOffset % 4 = 0 := by cases protocol <;> rfl
    rcases filter_putOf.mp hf with ⟨limit, -, -, protocol, kind, rfl, -⟩ |
      ⟨r, protocol, kind, -, rfl, -⟩
    · refine ⟨kind, ?_, by cases kind <;> rfl⟩
      have hRange := kind.number_range
      have := hOffset protocol
      rw [userFilter_pref]
      omega
    · refine ⟨kind, ?_, by cases kind <;> rfl⟩
      have hRange := kind.number_range
      have := hOffset protocol
      rw [guardFilter_pref]
      omega
  obtain ⟨kind, hNumber, hPlace⟩ := hKind hf
  obtain ⟨kind', hNumber', hPlace'⟩ := hKind hg
  obtain rfl : kind' = kind := by
    apply HookKind.number_injective
    rw [← hNumber, ← hNumber', hPref]
  obtain ⟨hDirection, hChain⟩ := Prod.mk.inj (hPlace'.trans hPlace.symm)
  rw [Filter.slot, Filter.slot, hDirection, hChain, hPref]

/-- The state file lists the filters of a rule set. -/
theorem mem_prefs_iff (hMarked : Marked rules) {place : Direction × Family × Int} :
    place ∈ (savedOf rules).flatMap Saved.prefs ↔
      ∃ f, PutOf rules (.filter f) ∧ f.place = place := by
  have hGuard : place ∈ (savedQuarantine (quarantineOf rules.values)).flatMap Saved.prefs ↔
      ∃ f ∈ quarantineFilters (quarantineOf rules.values), f.place = place := by
    cases quarantineOf rules.values with
    | none => simp [savedQuarantine, quarantineFilters]
    | some rates => simp [savedQuarantine]
  have hUsers : place ∈ ((filterUsers rules).map fun limit =>
      savedUser limit limit.marks).flatMap Saved.prefs ↔
        ∃ limit ∈ filterUsers rules, ∃ f ∈ userFilters limit limit.marks, f.place = place := by
    simp [savedUser]
  rw [savedOf, List.flatMap_append, List.mem_append, hUsers, hGuard]
  constructor
  · rintro (⟨limit, hLimit, f, hMem, hPlace⟩ | ⟨f, hMem, hPlace⟩)
    · exact ⟨f, Or.inl ⟨limit, hLimit, hMarked limit hLimit, filter_mem_userPuts.mpr hMem⟩, hPlace⟩
    · exact ⟨f, Or.inr (filter_mem_quarantinePuts.mpr hMem), hPlace⟩
  · rintro ⟨f, ⟨limit, hLimit, -, hMem⟩ | hMem, hPlace⟩
    · exact Or.inl ⟨limit, hLimit, f, filter_mem_userPuts.mp hMem, hPlace⟩
    · exact Or.inr ⟨f, filter_mem_quarantinePuts.mp hMem, hPlace⟩

/-- And its police actions. -/
theorem mem_actions_iff (hMarked : Marked rules) :
    index ∈ (savedOf rules).flatMap Saved.actions ↔
      ∃ action, PutOf rules (.police index action) := by
  -- the lines of the quarantine, and those of each user, list exactly the actions put
  have hGuard : index ∈ (savedQuarantine (quarantineOf rules.values)).flatMap Saved.actions ↔
      ∃ action, Put.police index action ∈ quarantinePuts (quarantineOf rules.values) := by
    simp only [police_mem_quarantinePuts, quarantinePolice, Put.police.injEq]
    obtain _ | ⟨_ | up, _ | down⟩ := quarantineOf rules.values
    all_goals simp [savedQuarantine]
    rw [exists_or]
    simp
  have hUsers : index ∈ ((filterUsers rules).map fun limit =>
      savedUser limit limit.marks).flatMap Saved.actions ↔
        ∃ limit ∈ filterUsers rules, ∃ action,
          Put.police index action ∈ userPuts limit limit.marks := by
    simp only [police_mem_userPuts, replacePolice, Put.police.injEq, List.mem_flatMap,
      List.mem_map, exists_exists_and_eq_and, savedUser, List.mem_append]
    refine exists_congr fun limit => and_congr_right fun _ => ?_
    rw [exists_or, or_comm]
    refine or_congr ?_ ?_
    · by_cases hRate : limit.downloadMbps = 0 <;> simp [hRate]
    · by_cases hRate : limit.uploadMbps = 0 <;> simp [hRate]
  rw [savedOf, List.flatMap_append, List.mem_append, hUsers, hGuard]
  constructor
  · rintro (⟨limit, hLimit, action, hMem⟩ | ⟨action, hMem⟩)
    · exact ⟨action, Or.inl ⟨limit, hLimit, hMarked limit hLimit, hMem⟩⟩
    · exact ⟨action, Or.inr hMem⟩
  · rintro ⟨action, ⟨limit, hLimit, -, hMem⟩ | hMem⟩
    · exact Or.inl ⟨limit, hLimit, action, hMem⟩
    · exact Or.inr ⟨action, hMem⟩

/-- An obsolete line has a preference that the rule set does not use. -/
theorem mem_obsoletePrefs_iff (hMarked : Marked rules) {previous : List Saved}
    {place : Direction × Family × Int} :
    place ∈ obsoletePrefs previous (savedOf rules) ↔
      place ∈ previous.flatMap Saved.prefs ∧ ∀ g, PutOf rules (.filter g) → g.pref ≠ place.2.2 := by
  rw [obsoletePrefs, List.mem_filter]
  refine and_congr_right fun _ => ?_
  rw [Bool.not_eq_true', Bool.eq_false_iff, ne_eq, List.any_eq_true]
  constructor
  · intro hNone g hg hPref
    obtain ⟨saved, hSaved, hMem⟩ :=
      List.mem_flatMap.mp ((mem_prefs_iff hMarked).mpr ⟨g, hg, rfl⟩)
    exact hNone ⟨saved, hSaved, List.any_eq_true.mpr ⟨_, hMem, decide_eq_true hPref⟩⟩
  · rintro hNone ⟨saved, hSaved, hAny⟩
    obtain ⟨other, hMem, hPref⟩ := List.any_eq_true.mp hAny
    obtain ⟨g, hg, rfl⟩ :=
      (mem_prefs_iff hMarked).mp (List.mem_flatMap.mpr ⟨saved, hSaved, hMem⟩)
    exact hNone g hg (of_decide_eq_true hPref)

theorem mem_obsoleteActions_iff (hMarked : Marked rules) {previous : List Saved} :
    index ∈ obsoleteActions previous (savedOf rules) ↔
      index ∈ previous.flatMap Saved.actions ∧ ∀ action, ¬ PutOf rules (.police index action) := by
  rw [obsoleteActions, List.mem_filter, Bool.not_eq_true', ← Bool.not_eq_true,
    List.contains_iff_mem, mem_actions_iff hMarked, not_exists]

/-- What a rule set puts is none of its obsolete hooks. -/
theorem not_removable (hMarked : Marked rules) (hf : PutOf rules (.filter f)) {start : Net} :
    f.hook ∉ removable rules start := by
  have hActive : rules.values.any UserLimit.limited = true := by
    by_contra hNone
    have hMem := mem_of_putOf hf
    rw [(putsOf_inactive (Bool.eq_false_iff.mpr hNone)).1] at hMem
    cases hMem
  rw [removable, if_pos hActive, List.append_nil]
  intro hHook
  obtain ⟨place, hPlace, hEq⟩ := List.mem_map.mp hHook
  exact ((mem_obsoletePrefs_iff hMarked).mp hPlace).2 f hf
    (congrArg (fun hook : Hook => hook.1.2.2) hEq).symm

end Files

-- ---------------------------------------------------------------------------
-- Passes that return
-- ---------------------------------------------------------------------------

/-- The node has made the rule set of a payload. -/
def Made (rules : Dict Int UserLimit) : Prop :=
  ∃ (pf : Platform) (k : Kernel) (entries : Limits), desired pf k entries = .ok rules

theorem Made.distinct {rules : Dict Int UserLimit} (h : Made rules) : Distinct rules := by
  obtain ⟨pf, k, entries, hRules⟩ := h
  exact filterUsers_pairwise hRules

section Passes

variable {obliging : Prop} {rules : Dict Int UserLimit} {s t : Net}

theorem reconcile_finishes {tap : String} (hSane : s.Sane)
    (hEnds : Co.Ends (kernel obliging) (reconcilePass tap rules) s (.ok ()) t) :
    Finished obliging rules s t :=
  (Co.Along.of_ends (reconcile_along tap hSane) hEnds).1 () rfl

theorem moment_of_visits {tap : String} (hSane : s.Sane)
    (hVisits : Co.Visits (kernel obliging) (reconcilePass tap rules) s t) : Moment rules s t :=
  Co.Along.of_visits (reconcile_along tap hSane) (fun _ _ hDone => .late hDone.toLate) hVisits

theorem Moment.sane (h : Moment rules s t) : t.Sane := by
  cases h with
  | early done hOf hDone => exact hDone.sane
  | late hLate =>
    obtain ⟨base, -, hTrimmed⟩ := hLate.base
    exact hTrimmed.sane.fewer (fun _ => rfl) (fun _ => id)
      fun _ _ _ _ action hAction => ⟨action, hAction⟩

end Passes

/-- The machine has what the rule set needs and nothing else. -/
structure Settled (rules : Dict Int UserLimit) (s : Net) : Prop where
  sane    : s.Sane
  marked  : Marked rules
  filters : ∀ f, f ∈ s.filters ↔ PutOf rules (.filter f)
  police  : ∀ index action, s.police.get? index = some action ↔
              PutOf rules (.police index action)
  table   : Tabled rules s.table
  users   : s.saved.users = savedOf rules

/-- Filters of the one rule set give way to the other: where the other has a filter at the
hook, it has one at the handle. -/
def GivesWay (old new : Dict Int UserLimit) : Prop :=
  ∀ f, PutOf old (.filter f) → (∃ g, PutOf new (.filter g) ∧ g.hook = f.hook) →
    ∃ g, PutOf new (.filter g) ∧ g.key = f.key

section Settled

variable {old new rules : Dict Int UserLimit} {s t : Net}

/-- The filters after a pass that returned, on an obliging kernel: those of the rule set, and
those of the one before that stand at its hooks with other handles. -/
theorem Finished.mem_filters (h : Finished True new s t) (hs : Settled old s)
    (hDistinct : Distinct new) {f : Filter} :
    f ∈ t.filters ↔ PutOf new (.filter f) ∨ PutOf old (.filter f) ∧
      (∃ g, PutOf new (.filter g) ∧ g.hook = f.hook) ∧
        ∀ g, PutOf new (.filter g) → g.key ≠ f.key := by
  obtain ⟨base, hBase, hTrimmed⟩ := h.base
  obtain ⟨gone, hGone, hFilters⟩ := hTrimmed.filters
  have hMem : f ∈ t.filters ↔ f ∈ base.filters ∧ f.hook ∉ gone := by
    show f ∈ ({ t with saved := s.saved } : Net).filters ↔ _
    rw [hFilters, List.mem_filter, decide_eq_true_iff]
  have hPut (g : Filter) : g ∈ (putsOf new).filterMap Put.filter? ↔ PutOf new (.filter g) :=
    mem_filters_of_putsOf.trans (putOf_iff h.marked).symm
  rw [hMem]
  constructor
  · rintro ⟨hIn, hKept⟩
    rcases mem_foldl_putFilter (hBase.filters ▸ hIn) with hNew | ⟨hOld, hOther⟩
    · exact Or.inl ((hPut f).mp hNew)
    · have hf : PutOf old (.filter f) := (hs.filters f).mp hOld
      refine Or.inr ⟨hf, ?_, fun g hg => hOther g ((hPut g).mpr hg)⟩
      -- the file lists the hook, and it is still there, so its preference is used
      have hListed : f.place ∈ s.saved.users.flatMap Saved.prefs := by
        rw [hs.users, mem_prefs_iff hs.marked]
        exact ⟨f, hf, rfl⟩
      have hUsed : ∃ g, PutOf new (.filter g) ∧ g.pref = f.pref := by
        by_contra hNone
        have hObsolete := (mem_obsoletePrefs_iff h.marked).mpr
          ⟨hListed, fun g hg hPref => hNone ⟨g, hg, hPref⟩⟩
        refine (h.rid trivial).gone f (hMem.mpr ⟨hIn, hKept⟩) ?_
        exact List.mem_map.mpr ⟨f.place, hObsolete, hookOf_place hf⟩
      obtain ⟨g, hg, hPref⟩ := hUsed
      have hSlot := direction_eq hf hg hPref
      obtain ⟨g', hIn', hKey, -⟩ := exists_foldl_putFilter s.filters _ (Or.inr ((hPut g).mpr hg))
      have hHook : g'.hook = g.hook := congrArg Prod.fst hKey
      have hSlot' : g'.slot = f.slot := (congrArg Prod.fst hHook).trans hSlot
      have hProtocol := hBase.sane.place f hIn g' (hBase.filters ▸ hIn') hSlot'
      exact ⟨g, hg, hHook.symm.trans (Prod.ext hSlot' hProtocol)⟩
  · rintro (hf | ⟨hf, ⟨g, hg, hHook⟩, hOther⟩)
    · obtain ⟨g, hIn, hKey, hFrom⟩ := exists_foldl_putFilter s.filters _ (Or.inr ((hPut f).mpr hf))
      obtain rfl : g = f := by
        rcases hFrom with hSame | hNew
        · exact hSame
        · exact hDistinct.filter_eq hf ((hPut g).mp hNew) hKey
      exact ⟨hBase.filters ▸ hIn, fun hHook => not_removable h.marked hf (hGone _ hHook)⟩
    · have hIn := stays_foldl_putFilter ((putsOf new).filterMap Put.filter?) ((hs.filters f).mpr hf)
        fun g hIn => hOther g ((hPut g).mp hIn)
      exact ⟨hBase.filters ▸ hIn, fun hGone' =>
        not_removable h.marked hg (hHook ▸ hGone _ hGone')⟩

/--
**One pass.** A settled machine is settled again, with the new rule set,
exactly if the old filters give way: a filter of the old set that stands in no
slot the pass fills or empties is still there when it returns, and then the
machine has more than the new rule set.
-/
theorem Finished.settled_iff (h : Finished True new s t) (hs : Settled old s)
    (hDistinct : Distinct new) : Settled new t ↔ GivesWay old new := by
  constructor
  -- a filter of the old rules that gives no way is still there
  · intro ht f hf hHook
    by_contra hNone
    have hMem := (h.mem_filters hs hDistinct).mpr
      (Or.inr ⟨hf, hHook, fun g hg hKey => hNone ⟨g, hg, hKey⟩⟩)
    exact hNone ⟨f, (ht.filters f).mp hMem, rfl⟩
  -- all give way: the filters are the new ones, and the actions follow
  · intro hGives
    have hFilters : ∀ f, f ∈ t.filters ↔ PutOf new (.filter f) := by
      intro f
      rw [h.mem_filters hs hDistinct]
      refine or_iff_left fun ⟨hf, hHook, hOther⟩ => ?_
      obtain ⟨g, hg, hKey⟩ := hGives f hf hHook
      exact hOther g hg hKey
    obtain ⟨base, hBase, hTrimmed⟩ := h.base
    have hPut (index : Int) (action : Police) :
        (index, action) ∈ (putsOf new).filterMap Put.police? ↔ PutOf new (.police index action) :=
      mem_police_of_putsOf.trans (putOf_iff h.marked).symm
    refine ⟨(Moment.late h.toLate : Moment new s t).sane, h.marked, hFilters, ?_, h.table, h.file⟩
    intro index action
    -- an action is as it was put, or was removed as obsolete
    have hBoth : t.police.get? index = base.police.get? index ∨
        index ∈ obsoleteActions s.saved.users (savedOf new) ∧ t.police.get? index = none :=
      hTrimmed.police index
    constructor
    · intro hGet
      have hThere : base.police.get? index = some action := by
        rcases hBoth with hSame | ⟨-, hNone⟩
        · exact hSame.symm.trans hGet
        · rw [hNone] at hGet
          cases hGet
      rw [hBase.police] at hThere
      by_cases hKey : index ∈ ((putsOf new).filterMap Put.police?).map Prod.fst
      · obtain ⟨action', hIn, hNow⟩ := Dict.get?_setAll_of_mem (d := s.police) hKey
        rw [Option.some.inj (hThere.symm.trans hNow)]
        exact (hPut index action').mp hIn
      · -- an action that only the old rules had is gone, since no filter has it any more
        exfalso
        rw [Dict.get?_setAll_of_not_mem hKey] at hThere
        have hOld := (hs.police index action).mp hThere
        have hUnused : ∀ action, ¬ PutOf new (.police index action) := fun action' hNew =>
          hKey (List.mem_map.mpr ⟨_, (hPut index action').mpr hNew, rfl⟩)
        have hObsolete := (mem_obsoleteActions_iff h.marked).mpr
          ⟨hs.users ▸ (mem_actions_iff hs.marked).mpr ⟨action, hOld⟩, hUnused⟩
        rcases (h.rid trivial).loose index hObsolete with hNone | ⟨g, hIn, hIndex⟩
        · rw [hNone] at hGet
          cases hGet
        · obtain ⟨action', hNew⟩ := police_of_filter ((hFilters g).mp hIn) hIndex
          exact hUnused action' hNew
    · intro hNew
      have hPair := (hPut index action).mpr hNew
      obtain ⟨action', hIn, hNow⟩ :=
        Dict.get?_setAll_of_mem (d := s.police) (List.mem_map.mpr ⟨_, hPair, rfl⟩)
      rw [← hBase.police] at hNow
      rcases hBoth with hSame | ⟨hObsolete, -⟩
      · rw [hSame, hNow, hDistinct.police_eq ((hPut index action').mp hIn) hNew]
      · exact absurd hNew (((mem_obsoleteActions_iff h.marked).mp hObsolete).2 action)

end Settled

-- ---------------------------------------------------------------------------
-- What connections meet in the end
-- ---------------------------------------------------------------------------

/-- The police action for what a class sends, at its rate. -/
def Class.uploadPolice (rules : Dict Int UserLimit) : Class → Option Police
  | .user limit =>
    if limit.uploadMbps ≠ 0 then some ⟨.mbit limit.uploadMbps, policeBurst limit.uploadMbps⟩
    else none
  | .quarantine =>
    (quarantineOf rules.values).bind fun rates =>
      rates.1.map fun rate => ⟨.kbit (max 64 (rate * 10)), 64 * 1024⟩
  | .atPort     => none
  | .free       => none

/-- The police action for what a class is sent, at its rate. -/
def Class.downloadPolice (rules : Dict Int UserLimit) : Class → Option Police
  | .user limit =>
    if limit.downloadMbps ≠ 0 then
      some ⟨.mbit limit.downloadMbps, policeBurst limit.downloadMbps⟩
    else none
  | .quarantine =>
    (quarantineOf rules.values).bind fun rates =>
      rates.2.map fun rate => ⟨.kbit (max 64 (rate * 10)), 64 * 1024⟩
  | .atPort     =>
    (quarantineOf rules.values).bind fun rates =>
      rates.1.map fun rate => ⟨.kbit (max 64 (rate * 10)), 64 * 1024⟩
  | .free       => none

/-- On this machine the packet meets the upload action of the class and the answers to it the
download action, each at its rate, and no other. -/
structure Limited (rules : Dict Int UserLimit) (s : Net) (p : Packet) (c : Class) : Prop where
  policed  : Policed rules s.filters p c
  upload   : ∀ index, c.upload rules = some index →
               s.police.get? index = c.uploadPolice rules
  download : ∀ index, c.download rules = some index →
               s.police.get? index = c.downloadPolice rules

section Meets

variable {rules : Dict Int UserLimit} {filters : List Filter} {f : Filter} {s : Net} {c : Class}
  {p : Packet}

/-- The kernel has taken no filter of an id behind 11133. -/
theorem Settled.range (hs : Settled rules s) : ∀ a ∈ filterUsers rules, a.userId ≤ 11133 := by
  intro a hMem
  have hf : PutOf rules (.filter (userFilter a a.marks .ipv6 .ingressUp)) :=
    filter_putOf.mpr (Or.inl ⟨a, hMem, hs.marked a hMem, _, _, rfl, Or.inl rfl⟩)
  have hPref := (hs.sane.pref _ ((hs.filters _).mpr hf)).2
  rw [userFilter_pref] at hPref
  simp only [HookKind.number, Family.prefOffset] at hPref
  omega

theorem Settled.limited (hs : Settled rules s) (hPoliced : Policed rules s.filters p c)
    (hUser : ∀ limit, c = .user limit → limit ∈ filterUsers rules) : Limited rules s p c := by
  refine ⟨hPoliced, fun index hIndex => ?_, fun index hIndex => ?_⟩
  · cases c with
    | user limit =>
      have hMem := hUser limit rfl
      rw [Class.upload] at hIndex
      by_cases hRate : limit.uploadMbps ≠ 0
      · rw [if_pos hRate] at hIndex
        rw [Class.uploadPolice, if_pos hRate, ← Option.some.inj hIndex, hs.police]
        exact Or.inl ⟨limit, hMem, hs.marked limit hMem,
          police_mem_userPuts.mpr (Or.inr ⟨hRate, rfl⟩)⟩
      · rw [if_neg hRate] at hIndex
        cases hIndex
    | quarantine =>
      obtain ⟨⟨up, down⟩, hRates, hUp⟩ := Option.bind_eq_some_iff.mp hIndex
      obtain ⟨rate, rfl, rfl⟩ := Option.map_eq_some_iff.mp hUp
      rw [Class.uploadPolice, hRates]
      refine (hs.police _ _).mpr (Or.inr (police_mem_quarantinePuts.mpr ?_))
      exact ⟨_, down, hRates, Or.inl ⟨rate, rfl, rfl⟩⟩
    | atPort | free => cases hIndex
  · cases c with
    | user limit =>
      have hMem := hUser limit rfl
      rw [Class.download] at hIndex
      by_cases hRate : limit.downloadMbps ≠ 0
      · rw [if_pos hRate] at hIndex
        rw [Class.downloadPolice, if_pos hRate, ← Option.some.inj hIndex, hs.police]
        exact Or.inl ⟨limit, hMem, hs.marked limit hMem,
          police_mem_userPuts.mpr (Or.inl ⟨hRate, rfl⟩)⟩
      · rw [if_neg hRate] at hIndex
        cases hIndex
    | quarantine =>
      obtain ⟨⟨up, down⟩, hRates, hDown⟩ := Option.bind_eq_some_iff.mp hIndex
      obtain ⟨rate, rfl, rfl⟩ := Option.map_eq_some_iff.mp hDown
      rw [Class.downloadPolice, hRates]
      refine (hs.police _ _).mpr (Or.inr (police_mem_quarantinePuts.mpr ?_))
      exact ⟨up, _, hRates, Or.inr ⟨rate, rfl, rfl⟩⟩
    | atPort =>
      -- the action is the one for what the quarantine sends
      obtain ⟨⟨up, down⟩, hRates, hUp⟩ := Option.bind_eq_some_iff.mp hIndex
      obtain ⟨rate, rfl, rfl⟩ := Option.map_eq_some_iff.mp hUp
      rw [Class.downloadPolice, hRates]
      refine (hs.police _ _).mpr (Or.inr (police_mem_quarantinePuts.mpr ?_))
      exact ⟨_, down, hRates, Or.inl ⟨rate, rfl, rfl⟩⟩
    | free => cases hIndex

end Meets

end ZagrosNode.Bandwidth
