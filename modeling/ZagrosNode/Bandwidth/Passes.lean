import ZagrosNode.Bandwidth.Reconcile

/-!
# ZagrosNode — the moments of a pass

A pass puts the rule set, exchanges the table, takes away what is obsolete and
writes the state file. Whichever of its commands is the last one, what it has
done by then is a beginning of that.

The accounts of a pass are kept in three structures, and every helper of the source has
one lemma about them.

* `Installed start done s` — the machine is `start` with some puts carried out in their
  order. Everything up to the table's exchange is said with it: `done` grows.
* `Trimmed hooks actions base s` — of `base`, filters at some hooks and some police
  actions are gone. The removal runs through it: what it may take is fixed before.
* `Moment rules start s` — one of the two: an early moment, with puts only, or a late
  one, with the table exchanged, the whole rule set put and perhaps something removed.

The rules `Holds.await` and `Holds.lax` of `Bandwidth/Reconcile.lean` ask for the
property at the moment a command is refused as well, so the same lemmas answer for
passes that raise, are cancelled or die. `Finished` adds what is known where the pass
returns: the state file lists the new rule set, and an obliging kernel kept nothing that
was to be removed.

Main results:

* `Installed.put` — putting a filter replaces what stands at its handle, with or
  without the detour over a deletion.
* `Installed.applyNft` — the table is exchanged in one step.
* `Trimmed.removeOldTc` — what the removal takes, and what it leaves.
* `reconcile_along` — what a pass has done at any of its moments, and at its end.
-/

namespace ZagrosNode.Bandwidth

open ZagrosNode.Lib ZagrosNode.Cores ZagrosNode.Security ZagrosNode.Accounts

-- ---------------------------------------------------------------------------
-- Putting things in their places
-- ---------------------------------------------------------------------------

/-- `start` with these things put, one after the other. -/
structure Installed (start : Net) (done : List Put) (s : Net) : Prop where
  sane    : s.Sane
  filters : s.filters = (done.filterMap Put.filter?).foldl putFilter start.filters
  police  : s.police = start.police.setAll (done.filterMap Put.police?)
  table   : s.table = start.table
  saved   : s.saved = start.saved
  /-- the kernel has taken the rates -/
  carried : ∀ index action, Put.police index action ∈ done → action.rate.Carried

/-- Every filter comes after the police action it is bound to. -/
def Ready (puts : List Put) : Prop :=
  ∀ done f rest, puts = done ++ .filter f :: rest → ∀ index, f.police = some index →
    ∃ action, Put.police index action ∈ done

/-- The command leaves filters, police actions, table and state file as they are. -/
def Command.Quiet (c : Command) : Prop :=
  ∀ s : Net, (c.effect s).filters = s.filters ∧ (c.effect s).police = s.police ∧
    (c.effect s).table = s.table ∧ (c.effect s).saved = s.saved

section Ready

variable {xs ys : List Put}

theorem Ready.append (hx : Ready xs) (hy : Ready ys) : Ready (xs ++ ys) := by
  intro done f rest hSplit index hIndex
  rcases List.append_eq_append_iff.mp hSplit with ⟨more, rfl, hMore⟩ | ⟨more, hMore, hRest⟩
  · obtain ⟨action, hMem⟩ := hy more f rest hMore index hIndex
    exact ⟨action, List.mem_append_right _ hMem⟩
  · cases more with
    | nil =>
      obtain ⟨action, hMem⟩ := hy [] f rest hRest.symm index hIndex
      cases hMem
    | cons x more =>
      obtain ⟨rfl, hLater⟩ := List.cons.inj hRest
      exact hx done f more hMore index hIndex

/-- Filters that are bound to one action, behind it, or to none. -/
theorem ready_group (actions : List (Int × Police)) (fs : List Filter)
    (h : ∀ f ∈ fs, ∀ index, f.police = some index → index ∈ actions.map Prod.fst) :
    Ready (actions.map (fun e => .police e.1 e.2) ++ fs.map .filter) := by
  intro done f rest hSplit index hIndex
  -- the split falls on a filter, and an action is none
  have hIn : f ∈ fs := by
    have hMem : Put.filter f ∈ actions.map (fun e => Put.police e.1 e.2) ++ fs.map .filter :=
      hSplit ▸ List.mem_append_right _ List.mem_cons_self
    rcases List.mem_append.mp hMem with hAction | hFilter
    · obtain ⟨e, -, hEq⟩ := List.mem_map.mp hAction
      cases hEq
    · obtain ⟨f', hIn, hEq⟩ := List.mem_map.mp hFilter
      rwa [← Put.filter.inj hEq]
  obtain ⟨e, hE, rfl⟩ := List.mem_map.mp (h f hIn index hIndex)
  refine ⟨e.2, ?_⟩
  have hAction : Put.police e.1 e.2 ∈ actions.map fun e => .police e.1 e.2 :=
    List.mem_map.mpr ⟨e, hE, rfl⟩
  rcases List.append_eq_append_iff.mp hSplit with ⟨more, rfl, -⟩ | ⟨more, hMore, hRest⟩
  · exact List.mem_append_left _ hAction
  · -- a filter is no police action, so all actions are behind the split
    cases more with
    | nil => rwa [hMore, List.append_nil] at hAction
    | cons x more =>
      obtain ⟨rfl, -⟩ := List.cons.inj hRest
      have hMem : Put.filter f ∈ actions.map fun e => Put.police e.1 e.2 :=
        hMore ▸ List.mem_append_right _ List.mem_cons_self
      obtain ⟨e', -, hEq⟩ := List.mem_map.mp hMem
      cases hEq

theorem downFilters_police {limit : UserLimit} {m : Marks} {f : Filter}
    (h : f ∈ downFilters limit m) :
    f.police = if limit.downloadMbps ≠ 0 then some (actionIndex limit.userId true) else none := by
  obtain ⟨⟨protocol, prefOffset, handleOffset⟩, -, hMem⟩ := List.mem_flatMap.mp h
  rcases List.mem_append.mp hMem with hFirst | hSecond
  · by_cases hRate : limit.downloadMbps ≠ 0
    · rw [if_pos hRate, List.mem_singleton] at hFirst
      rw [hFirst]
      rfl
    · rw [if_neg hRate] at hFirst
      cases hFirst
  · rw [List.mem_singleton.mp hSecond]
    rfl

theorem upFilters_police {limit : UserLimit} {m : Marks} {f : Filter}
    (h : f ∈ upFilters limit m) :
    f.police = if limit.uploadMbps ≠ 0 then some (actionIndex limit.userId false) else none := by
  obtain ⟨⟨protocol, prefOffset, handleOffset⟩, -, hMem⟩ := List.mem_flatMap.mp h
  rcases List.mem_append.mp hMem with hFirst | hSecond
  · by_cases hRate : limit.uploadMbps ≠ 0
    · rw [if_pos hRate, List.mem_singleton] at hFirst
      rw [hFirst]
      rfl
    · rw [if_neg hRate] at hFirst
      cases hFirst
  · rw [List.mem_singleton.mp hSecond]
    rfl

theorem ready_userPuts (limit : UserLimit) (m : Marks) : Ready (userPuts limit m) := by
  have hGroup {rate : Int} {down : Bool} {fs : List Filter}
      (h : ∀ f ∈ fs, f.police =
        if rate ≠ 0 then some (actionIndex limit.userId down) else none) :
      Ready ((if rate ≠ 0 then [replacePolice limit.userId down rate] else []) ++
        fs.map .filter) := by
    by_cases hRate : rate ≠ 0
    · rw [if_pos hRate]
      refine ready_group [(actionIndex limit.userId down, ⟨.mbit rate, policeBurst rate⟩)] fs ?_
      intro f hMem index hIndex
      rw [h f hMem, if_pos hRate] at hIndex
      rw [← Option.some.inj hIndex]
      exact List.mem_cons_self
    · rw [if_neg hRate]
      refine ready_group [] fs ?_
      intro f hMem index hIndex
      rw [h f hMem, if_neg hRate] at hIndex
      cases hIndex
  exact (hGroup fun f => downFilters_police).append (hGroup fun f => upFilters_police)

theorem ready_quarantinePuts (rates : Option (Option Int × Option Int)) :
    Ready (quarantinePuts rates) := by
  have hNone : Ready [] := ready_group [] [] fun f hMem => absurd hMem List.not_mem_nil
  obtain _ | ⟨up, down⟩ := rates
  · exact hNone
  -- upload and download are two groups, each behind its own action
  · refine Ready.append ?_ ?_
    · cases up with
      | none => exact hNone
      | some rate =>
        refine ready_group [(0x5BFE0000, ⟨.kbit (max 64 (rate * 10)), 64 * 1024⟩)]
          (families.flatMap fun e =>
            [ingressFlower e.1 (30000 + e.2.1) (0xCFFE + e.2.2) quarantineMarks.outer
              (some 0x5BFE0000),
            egressFw e.1 (30002 + e.2.1) quarantineMarks.up (some 0x5BFE0000)]) ?_
        simp [families, ingressFlower, egressFw]
    · cases down with
      | none => exact hNone
      | some rate =>
        refine ready_group [(0x5BFE0001, ⟨.kbit (max 64 (rate * 10)), 64 * 1024⟩)]
          (families.flatMap fun e =>
            [egressFw e.1 (30001 + e.2.1) quarantineMarks.down (some 0x5BFE0001),
            ingressFlower e.1 (30003 + e.2.1) (0xCFFD + e.2.2) quarantineMarks.base
              (some 0x5BFE0001)]) ?_
        simp [families, ingressFlower, egressFw]

end Ready

section Installing

variable {obliging : Prop} {M : Net → Prop} {start s : Net} {done : List Put} {c : Command}

theorem Installed.quiet (h : Installed start done s) (hQuiet : c.Quiet)
    (hAccepted : c.Accepted s) : Installed start done (c.effect s) := by
  obtain ⟨hFilters, hPolice, hTable, hSaved⟩ := hQuiet s
  exact
    { sane    := h.sane.effect hAccepted
      filters := hFilters.trans h.filters
      police  := hPolice.trans h.police
      table   := hTable.trans h.table
      saved   := hSaved.trans h.saved
      carried := h.carried }

theorem Installed.await (h : Installed start done s) (hQuiet : c.Quiet)
    (hM : ∀ t, Installed start done t → M t) :
    Holds obliging M (fun _ t => Installed start done t) (Co.await c) s :=
  Holds.await (hM s h) (fun hAccepted => hM _ (h.quiet hQuiet hAccepted)) (h.quiet hQuiet)

theorem Installed.lax (h : Installed start done s) (hQuiet : c.Quiet)
    (hM : ∀ t, Installed start done t → M t) :
    Holds obliging M (fun _ t => Installed start done t) (lax c) s :=
  Holds.lax (hM s h) (fun hAccepted => hM _ (h.quiet hQuiet hAccepted)) (h.quiet hQuiet)
    fun _ => h

theorem Installed.replaceOrAdd {replace delete add : Command} (h : Installed start done s)
    (hReplace : replace.Quiet) (hDelete : delete.Quiet) (hAdd : add.Quiet)
    (hM : ∀ t, Installed start done t → M t) :
    Holds obliging M (fun _ t => Installed start done t) (replaceOrAdd replace delete add) s := by
  refine (h.lax hReplace hM).bind fun replaced t hReplaced => ?_
  cases replaced with
  | true => exact hReplaced
  | false =>
    refine (hReplaced.lax hDelete hM).bind fun _ t hDeleted => ?_
    exact hDeleted.await hAdd hM

theorem Installed.onlyIf {x : Pass Unit} {condition : Bool} (h : Installed start done s)
    (hBody : Holds obliging M (fun _ t => Installed start done t) x s) :
    Holds obliging M (fun _ t => Installed start done t) (onlyIf condition x) s := by
  cases condition with
  | true => exact hBody
  | false => exact h

/-- The preparations touch nothing that belongs to a rule set. -/
theorem Installed.ensureClsact (h : Installed start done s)
    (hM : ∀ t, Installed start done t → M t) :
    Holds obliging M (fun _ t => Installed start done t) ensureClsact s := by
  refine (h.await (fun _ => ⟨rfl, rfl, rfl, rfl⟩) hM).bind fun _ t hShown => ?_
  refine Holds.get_bind (Holds.bind
    (hShown.onlyIf (hShown.await (fun _ => ⟨rfl, rfl, rfl, rfl⟩) hM)) ?_)
  intro _ t' hAdded
  refine Holds.bind (Co.Along.forEach (fun _ t => Installed start done t) ?_ hAdded) ?_
  · intro _ p _ _ t hHere
    exact hHere.replaceOrAdd (fun _ => ⟨rfl, rfl, rfl, rfl⟩) (fun _ => ⟨rfl, rfl, rfl, rfl⟩)
      (fun _ => ⟨rfl, rfl, rfl, rfl⟩) hM
  · intro _ t hDone
    exact hDone

theorem Installed.softNatRule {enabled : Bool} (h : Installed start done s)
    (hM : ∀ t, Installed start done t → M t) :
    Holds obliging M (fun _ t => Installed start done t) (softNatRule enabled) s := by
  refine (h.lax (c := .listNat) (fun _ => ⟨rfl, rfl, rfl, rfl⟩) hM).bind fun listed t hListed => ?_
  refine Holds.get_bind ?_
  cases enabled with
  | true =>
    show Holds obliging M _ (if (listed && t.nat) = true then pure () else Co.await .addNat) t
    by_cases hThere : (listed && t.nat) = true
    · rw [if_pos hThere]
      exact hListed
    · rw [if_neg hThere]
      exact hListed.await (fun _ => ⟨rfl, rfl, rfl, rfl⟩) hM
  | false =>
    show Holds obliging M _
      (if (listed && t.nat) = true then (do let _ ← Bandwidth.lax .deleteNat; pure ())
        else pure ()) t
    by_cases hThere : (listed && t.nat) = true
    · rw [if_pos hThere]
      exact (hListed.lax (c := .deleteNat) (fun _ => ⟨rfl, rfl, rfl, rfl⟩) hM).bind
        fun _ _ hDeleted => hDeleted
    · rw [if_neg hThere]
      exact hListed

theorem Installed.ensureRouted {tap : String} {needed : Bool} (h : Installed start done s)
    (hM : ∀ t, Installed start done t → M t) :
    Holds obliging M (fun _ t => Installed start done t) (ensureRouted tap needed) s := by
  show Holds obliging M _ (if s.source.isNone = true then _ else _) s
  split
  · cases needed with
    | true => exact hM s h
    | false => exact h
  · refine (h.await (fun _ => ⟨rfl, rfl, rfl, rfl⟩) hM).bind fun _ t hAsked => ?_
    cases needed with
    | true =>
      refine Holds.bind (hAsked.onlyIf (hAsked.await (c := .ensureSource tap)
        (fun _ => ⟨rfl, rfl, rfl, rfl⟩) hM)) ?_
      intro _ t' hRouted
      exact Holds.get_bind ((hRouted.softNatRule hM).bind fun _ _ hNat => hNat)
    | false =>
      refine (hAsked.softNatRule hM).bind fun _ t' hNat => ?_
      exact Holds.bind (hNat.onlyIf (hNat.await (c := .disableSource)
        (fun _ => ⟨rfl, rfl, rfl, rfl⟩) hM)) fun _ _ hOff => hOff

theorem Installed.with_filter (h : Installed start done s) {f : Filter} {filters : List Filter}
    (hEq : filters = putFilter s.filters f) (hSane : ({ s with filters := filters } : Net).Sane) :
    Installed start (done ++ [.filter f]) { s with filters := filters } where
  sane    := hSane
  filters := by
    rw [List.filterMap_append, List.foldl_append, ← h.filters]
    exact hEq
  police  := by
    rw [List.filterMap_append]
    exact h.police.trans (congrArg _ (List.append_nil _).symm)
  table   := h.table
  saved   := h.saved
  carried index action hMem := by
    rcases List.mem_append.mp hMem with hOld | hNew
    · exact h.carried index action hOld
    · cases List.mem_singleton.mp hNew

theorem Installed.with_police (h : Installed start done s) {index : Int} {action : Police}
    (hCarried : action.rate.Carried) :
    Installed start (done ++ [.police index action])
      { s with police := s.police.set index action } where
  sane    := h.sane.effect (c := .replacePolice index action) hCarried
  filters := by
    rw [List.filterMap_append]
    exact h.filters.trans (congrArg _ (List.append_nil _).symm)
  police  := by
    rw [List.filterMap_append]
    show s.police.set index action = start.police.setAll (_ ++ [(index, action)])
    rw [h.police, Dict.setAll, Dict.setAll, List.foldl_append]
    rfl
  table   := h.table
  saved   := h.saved
  carried index' action' hMem := by
    rcases List.mem_append.mp hMem with hOld | hNew
    · exact h.carried index' action' hOld
    · obtain ⟨-, rfl⟩ := Put.police.inj (List.mem_singleton.mp hNew)
      exact hCarried

theorem Installed.police_of_mem (h : Installed start done s) {index : Int} {action : Police}
    (hMem : Put.police index action ∈ done) : ∃ action', s.police.get? index = some action' := by
  rw [h.police, ← Dict.mem_keys_iff, Dict.mem_keys_setAll]
  refine Or.inr (List.mem_map.mpr ⟨(index, action), ?_, rfl⟩)
  exact List.mem_filterMap.mpr ⟨_, hMem, rfl⟩

/-- A filter replaces what stands at its handle: what is there already is replaced at once,
and where nothing of its protocol is, the deletion has nothing to delete. -/
theorem Installed.put {x : Put} (h : Installed start done s)
    (hReady : ∀ f, x = .filter f → ∀ index, f.police = some index →
      ∃ action, Put.police index action ∈ done)
    (hM : ∀ t, Installed start done t → M t) (hM' : ∀ t, Installed start (done ++ [x]) t → M t) :
    Holds obliging M (fun _ t => Installed start (done ++ [x]) t) (put x) s := by
  cases x with
  -- an action is replaced whatever stands at its index
  | police index action =>
    exact Holds.await (hM s h) (fun hCarried => hM' _ (h.with_police hCarried))
      fun hCarried => h.with_police hCarried
  | filter f =>
    have hBound : ∀ index, f.police = some index →
        ∃ action, s.police.get? index = some action := by
      intro index hIndex
      obtain ⟨action, hMem⟩ := hReady f rfl index hIndex
      exact h.police_of_mem hMem
    have hTaken (hFree : s.Free f) :
        Installed start (done ++ [.filter f]) ((Command.replaceFilter f).effect s) :=
      h.with_filter rfl (h.sane.effect (c := .replaceFilter f) hFree)
    -- `replace` first: it takes the filter, or it is refused and the handle is vacant
    refine Holds.bind (A := fun replaced t => if replaced then
        Installed start (done ++ [.filter f]) t
      else Installed start done t ∧ ∀ g ∈ t.filters, g.hook ≠ f.hook) ?_ ?_
    · refine Holds.lax (hM s h) (fun hFree => hM' _ (hTaken hFree)) hTaken fun hRefused => ?_
      refine ⟨h, ?_⟩
      -- a filter of the same hook on a sound interface is always replaced, so it is vacant
      rcases hRefused with hNot | hNone
      · intro g hMem hHook
        obtain ⟨hSlot, hProtocol⟩ := Prod.mk.inj hHook
        have hPref : g.pref = f.pref := congrArg (fun slot => slot.2.2) hSlot
        refine hNot
          { clsact := h.sane.clsact (List.ne_nil_of_mem hMem)
            pref   := hPref ▸ h.sane.pref g hMem
            place  := ?_
            bound  := hBound }
        intro g' hMem' hSlot'
        exact (h.sane.place g hMem g' hMem' (hSlot'.trans hSlot.symm)).trans hProtocol
      · exact hNone
    · intro replaced t hReplaced
      cases replaced with
      | true => exact hReplaced
      | false =>
        obtain ⟨hHere, hNone⟩ := hReplaced
        -- then the deletion of the family's default handle, and the filter itself
        refine Holds.bind (A := fun _ t => Installed start done t ∧
          ∀ g ∈ t.filters, g.hook ≠ f.hook) ?_ ?_
        · -- there is nothing to delete
          have hNothing {P : Prop} (hAccepted : (Command.deleteFilter f.hook).Accepted t) : P := by
            obtain ⟨g, hMem, hHook⟩ := hAccepted
            exact absurd hHook (hNone g hMem)
          exact Holds.lax (hM t hHere) hNothing hNothing fun _ => ⟨hHere, hNone⟩
        · rintro _ t ⟨hHere, hNone⟩
          have hAdded (hAccepted : (Command.addFilter f).Accepted t) :
              Installed start (done ++ [.filter f]) ((Command.addFilter f).effect t) := by
            refine hHere.with_filter ?_ (hHere.sane.effect hAccepted)
            rw [putFilter, List.filter_eq_self.mpr]
            intro g hMem
            exact decide_eq_true fun hKey => hNone g hMem (congrArg Prod.fst hKey)
          exact Holds.await (hM t hHere) (fun hAccepted => hM' _ (hAdded hAccepted)) hAdded

theorem Installed.puts {xs : List Put} (h : Installed start done s) (hReady : Ready xs)
    (hM : ∀ d t, (∀ x ∈ d, x ∈ xs) → Installed start (done ++ d) t → M t) :
    Holds obliging M (fun _ t => Installed start (done ++ xs) t)
      (Co.forEach Bandwidth.put xs) s := by
  refine Co.Along.forEach (fun d t => Installed start (done ++ d) t) ?_
    (by rwa [List.append_nil])
  intro d x rest hSplit t hHere
  have hSub : ∀ y ∈ d ++ [x], y ∈ xs := by
    intro y hMem
    rw [hSplit, List.append_cons]
    exact List.mem_append_left _ hMem
  rw [← List.append_assoc]
  refine hHere.put ?_ (fun t => hM d t fun y hMem => hSub y (List.mem_append_left _ hMem)) ?_
  · rintro f rfl index hIndex
    obtain ⟨action, hMem⟩ := hReady d f rest hSplit index hIndex
    exact ⟨action, List.mem_append_right _ hMem⟩
  · intro t hDone
    rw [List.append_assoc] at hDone
    exact hM (d ++ [x]) t hSub hDone

end Installing

-- ---------------------------------------------------------------------------
-- A whole rule set
-- ---------------------------------------------------------------------------

/-- All users of the rule set that get filters have marks. -/
def Marked (rules : Dict Int UserLimit) : Prop :=
  ∀ limit ∈ filterUsers rules, ∃ m, marksForUser limit.userId = .ok m

/-- One of the things that a rule set puts. -/
def PutOf (rules : Dict Int UserLimit) (x : Put) : Prop :=
  (∃ limit ∈ filterUsers rules, (∃ m, marksForUser limit.userId = .ok m) ∧
      x ∈ userPuts limit limit.marks) ∨
    x ∈ quarantinePuts (quarantineOf rules.values)

theorem mem_of_putOf {rules : Dict Int UserLimit} {x : Put} (h : PutOf rules x) :
    x ∈ putsOf rules := by
  rcases h with ⟨limit, hLimit, -, hMem⟩ | hMem
  · exact List.mem_append_left _ (List.mem_flatMap.mpr ⟨limit, hLimit, hMem⟩)
  · exact List.mem_append_right _ hMem

theorem putOf_iff {rules : Dict Int UserLimit} (h : Marked rules) {x : Put} :
    PutOf rules x ↔ x ∈ putsOf rules := by
  refine ⟨mem_of_putOf, fun hMem => ?_⟩
  rcases List.mem_append.mp hMem with hUser | hGuard
  · obtain ⟨limit, hLimit, hMem⟩ := List.mem_flatMap.mp hUser
    exact Or.inl ⟨limit, hLimit, h limit hLimit, hMem⟩
  · exact Or.inr hGuard

section Rules

variable {obliging : Prop} {M : Net → Prop} {start s : Net} {rules : Dict Int UserLimit}

/-- The users are put one after the other. -/
theorem Installed.users (h : Installed start [] s)
    (hM : ∀ d t, (∀ x ∈ d, PutOf rules x) → Installed start d t → M t) :
    Holds obliging M (fun users t => Marked rules ∧
        users = (filterUsers rules).map (fun limit => savedUser limit limit.marks) ∧
        Installed start ((filterUsers rules).flatMap fun limit => userPuts limit limit.marks) t)
      (Co.mapList putUser (filterUsers rules)) s := by
  have hOf {d : List UserLimit} (hSub : ∀ limit ∈ d, limit ∈ filterUsers rules)
      (hMarks : ∀ limit ∈ d, ∃ m, marksForUser limit.userId = .ok m) :
      ∀ x ∈ d.flatMap fun limit => userPuts limit limit.marks, PutOf rules x := by
    intro x hMem
    obtain ⟨limit, hLimit, hMem⟩ := List.mem_flatMap.mp hMem
    exact Or.inl ⟨limit, hSub limit hLimit, hMarks limit hLimit, hMem⟩
  -- the invariant: the users done so far, each with all its filters, and no other
  refine Co.Along.mapList_run (fun d users t =>
    (∀ limit ∈ d, ∃ m, marksForUser limit.userId = .ok m) ∧
      users = d.map (fun limit => savedUser limit limit.marks) ∧
      Installed start (d.flatMap fun limit => userPuts limit limit.marks) t) ?_
    ⟨fun limit hMem => absurd hMem List.not_mem_nil, rfl, h⟩
  rintro d limit rest hSplit users t ⟨hMarks, rfl, hHere⟩
  have hIn : ∀ l ∈ d ++ [limit], l ∈ filterUsers rules := by
    intro l hMem
    rw [hSplit, List.append_cons]
    exact List.mem_append_left _ hMem
  have hBefore := hOf (fun l hMem => hIn l (List.mem_append_left _ hMem)) hMarks
  -- a user without marks stops the pass before anything of it is written
  refine Co.Along.lift_bind (fun e _ => hM _ t hBefore hHere) fun m hm => ?_
  have hm := mapError_ok_iff.mp hm
  have hMarks' : ∀ l ∈ d ++ [limit], ∃ m, marksForUser l.userId = .ok m := by
    intro l hMem
    rcases List.mem_append.mp hMem with hEarlier | hLast
    · exact hMarks l hEarlier
    · rw [List.mem_singleton.mp hLast]
      exact ⟨m, hm⟩
  rw [← marks_ok hm]
  -- the puts of this user come behind those of the users before
  refine Holds.bind (hHere.puts (ready_userPuts limit limit.marks) ?_) ?_
  · intro d' t' hSub hThere
    refine hM _ t' (fun x hMem => ?_) hThere
    rcases List.mem_append.mp hMem with hEarlier | hNow
    · exact hBefore x hEarlier
    · exact Or.inl ⟨limit, hIn limit (List.mem_append_right _ List.mem_cons_self), ⟨m, hm⟩,
        hSub x hNow⟩
  · intro _ t' hDone
    refine ⟨hMarks', ?_, ?_⟩
    · rw [List.map_append]
      rfl
    · rw [List.flatMap_append, List.flatMap_singleton]
      exact hDone

theorem Installed.swap (h : Installed start done s) (table : Option Script) :
    Installed { start with table := table } done { s with table := table } where
  sane    := h.sane.fewer (fun _ => rfl) (fun _ => id)
    fun _ _ _ _ action hAction => ⟨action, hAction⟩
  filters := h.filters
  police  := h.police
  table   := rfl
  saved   := h.saved
  carried := h.carried

/-- The table a rule set leaves behind. -/
def Tabled (rules : Dict Int UserLimit) (table : Option Script) : Prop :=
  if rules.values.any UserLimit.limited then
    ∃ tap script, nftScript (SoftEther.ofNode tap) rules = .ok script ∧ table = some script
  else table = none

/-- The table is exchanged in one step, or it stays. -/
theorem Installed.applyNft {tap : Option String} (h : Installed start done s)
    (hM : ∀ t, Installed start done t → M t)
    (hM' : ∀ table t, Tabled rules table → Installed { start with table := table } done t → M t) :
    Holds obliging M (fun _ t => ∃ table, Tabled rules table ∧
      Installed { start with table := table } done t)
      (applyNft (SoftEther.ofNode tap) rules) s := by
  -- the listing tells whether the table is there
  refine Holds.bind (A := fun listed t => Installed start done t ∧ listed = t.table.isSome) ?_ ?_
  · refine Holds.lax (hM s h) (fun _ => hM _ h) (fun hSome => ⟨h, hSome.symm⟩) ?_
    intro hNone
    exact ⟨h, by rw [show s.table = none from hNone]; rfl⟩
  · rintro listed t ⟨hHere, rfl⟩
    by_cases hActive : rules.values.any UserLimit.limited = true
    · rw [if_pos hActive]
      refine Co.Along.lift_bind (fun e _ => hM t hHere) fun script hScript => ?_
      have hTabled : Tabled rules (some script) := by
        rw [Tabled, if_pos hActive]
        exact ⟨tap, script, mapError_ok_iff.mp hScript, rfl⟩
      have hLoaded : Installed { start with table := some script } done
          ((Command.loadTable script t.table.isSome).effect t) := by
        have hWhole : (if t.table.isSome = true then script
            else t.table.elim script (·.append script)) = script := by
          cases t.table with
          | none => rfl
          | some old => rfl
        show Installed _ done { t with table := some (if t.table.isSome = true then script
            else t.table.elim script (·.append script)) }
        rw [hWhole]
        exact hHere.swap _
      exact Holds.await (hM t hHere) (fun _ => hM' _ _ hTabled hLoaded)
        fun _ => ⟨_, hTabled, hLoaded⟩
    · rw [if_neg hActive]
      have hTabled : Tabled rules none := by
        rw [Tabled, if_neg hActive]
      cases hTable : t.table with
      | none =>
        refine ⟨none, hTabled, ?_⟩
        have hSwap := hHere.swap none
        rwa [show { t with table := none } = t by rw [← hTable]] at hSwap
      | some old =>
        exact Holds.await (hM t hHere) (fun _ => hM' _ _ hTabled (hHere.swap none))
          fun _ => ⟨none, hTabled, hHere.swap none⟩

end Rules

-- ---------------------------------------------------------------------------
-- What is removed
-- ---------------------------------------------------------------------------

/-- `base` without some filters at these hooks and some of these police actions. -/
structure Trimmed (hooks : List Hook) (actions : List Int) (base s : Net) : Prop where
  sane    : s.Sane
  filters : ∃ gone : List Hook, (∀ hook ∈ gone, hook ∈ hooks) ∧
              s.filters = base.filters.filter fun f => decide (f.hook ∉ gone)
  police  : ∀ index, s.police.get? index = base.police.get? index ∨
              index ∈ actions ∧ s.police.get? index = none
  table   : s.table = base.table
  saved   : s.saved = base.saved

/-- The police action is gone, or a filter still has it. -/
def Net.Loose (s : Net) (index : Int) : Prop :=
  s.police.get? index = none ∨ ∃ g ∈ s.filters, g.police = some index

section Removing

variable {obliging : Prop} {M : Net → Prop} {base s : Net} {hooks : List Hook} {actions : List Int}

theorem Trimmed.refl (h : s.Sane) : Trimmed hooks actions s s where
  sane    := h
  filters := by
    refine ⟨[], fun _ hMem => absurd hMem List.not_mem_nil, ?_⟩
    rw [List.filter_eq_self.mpr]
    intro f _
    exact decide_eq_true List.not_mem_nil
  police _ := Or.inl rfl
  table   := rfl
  saved   := rfl

theorem Trimmed.without (h : Trimmed hooks actions base s) {hook : Hook} (hIn : hook ∈ hooks) :
    Trimmed hooks actions base ((Command.deleteFilter hook).effect s) where
  sane    := h.sane.fewer (fun _ => rfl) (fun g hMem => List.mem_of_mem_filter hMem)
    fun _ _ _ _ action hAction => ⟨action, hAction⟩
  filters := by
    obtain ⟨gone, hGone, hFilters⟩ := h.filters
    refine ⟨hook :: gone, ?_, ?_⟩
    · intro k hMem
      rcases List.mem_cons.mp hMem with rfl | hMem
      · exact hIn
      · exact hGone k hMem
    · show s.filters.filter _ = _
      rw [hFilters, List.filter_filter]
      refine List.filter_congr fun f _ => ?_
      simp [List.mem_cons, not_or]
  police  := h.police
  table   := h.table
  saved   := h.saved

theorem Trimmed.unpoliced (h : Trimmed hooks actions base s) {index : Int} (hIn : index ∈ actions)
    (hAccepted : (Command.deletePolice index).Accepted s) :
    Trimmed hooks actions base ((Command.deletePolice index).effect s) where
  sane    := h.sane.effect hAccepted
  filters := h.filters
  police i := by
    show (s.police.pop index).get? i = _ ∨ _ ∧ (s.police.pop index).get? i = none
    rw [Dict.get?_pop]
    by_cases hIndex : i = index
    · exact Or.inr ⟨hIndex ▸ hIn, if_pos hIndex⟩
    · rw [if_neg hIndex]
      exact h.police i
  table   := h.table
  saved   := h.saved

theorem loose_deletePolice {index i : Int} (h : s.Loose i) :
    ((Command.deletePolice index).effect s).Loose i := by
  rcases h with hNone | hBound
  · left
    show (s.police.pop index).get? i = none
    rw [Dict.get?_pop, hNone, ite_self]
  · exact Or.inr hBound

/-- Trying to delete an action: an obliging kernel keeps it only for a filter. -/
theorem Trimmed.deletePolice (h : Trimmed hooks actions base s) {index : Int} {known : List Int}
    (hIn : index ∈ actions) (hKnown : obliging → ∀ i ∈ known, s.Loose i)
    (hM : ∀ t, Trimmed hooks actions base t → M t) :
    Holds obliging M (fun _ t => Trimmed hooks actions base t ∧ t.filters = s.filters ∧
      (obliging → ∀ i ∈ known ++ [index], t.Loose i)) (lax (.deletePolice index)) s := by
  refine Holds.lax (hM s h) (fun hAccepted => hM _ (h.unpoliced hIn hAccepted)) ?_ ?_
  · intro hAccepted
    refine ⟨h.unpoliced hIn hAccepted, rfl, fun hObliging i hMem => ?_⟩
    rcases List.mem_append.mp hMem with hBefore | hHere
    · exact loose_deletePolice (hKnown hObliging i hBefore)
    · left
      show (s.police.pop index).get? i = none
      rw [Dict.get?_pop, if_pos (List.mem_singleton.mp hHere)]
  · intro hRefused
    refine ⟨h, rfl, fun hObliging i hMem => ?_⟩
    rcases List.mem_append.mp hMem with hBefore | hHere
    · exact hKnown hObliging i hBefore
    · obtain rfl := List.mem_singleton.mp hHere
      by_contra hHeld
      obtain ⟨hThere, hFree⟩ := not_or.mp hHeld
      refine hRefused hObliging ⟨Option.ne_none_iff_exists'.mp hThere, ?_⟩
      exact fun g hMem hPolice => hFree ⟨g, hMem, hPolice⟩

/-- One wave tries all that is pending. -/
theorem Trimmed.deleteWave (h : Trimmed hooks actions base s) {pending known : List Int}
    (hIn : ∀ i ∈ pending, i ∈ actions) (hKnown : obliging → ∀ i ∈ known, s.Loose i)
    (hM : ∀ t, Trimmed hooks actions base t → M t) :
    Holds obliging M (fun left t => Trimmed hooks actions base t ∧ t.filters = s.filters ∧
      (∀ i ∈ left, i ∈ pending) ∧ (obliging → ∀ i ∈ known ++ pending, t.Loose i))
      (deleteWave pending) s := by
  have hSorted : ∀ i, i ∈ pending.mergeSort ↔ i ∈ pending := fun i =>
    (List.mergeSort_perm _ _).mem_iff
  -- the invariant: what is left was tried, and what was tried is loose or was refused
  refine Holds.bind (Co.Along.mapList_run (fun d left t => Trimmed hooks actions base t ∧
    t.filters = s.filters ∧ (∀ i, some i ∈ left → i ∈ d) ∧
      (obliging → ∀ i ∈ known ++ d, t.Loose i)) ?_ ?_) ?_
  · rintro d index rest hSplit left t ⟨hHere, hFilters, hLeft, hLoose⟩
    have hIndex : index ∈ actions := by
      refine hIn index ((hSorted index).mp ?_)
      rw [hSplit]
      exact List.mem_append_right _ List.mem_cons_self
    refine Holds.bind (hHere.deletePolice hIndex hLoose hM) ?_
    rintro deleted t' ⟨hThere, hFilters', hLoose'⟩
    refine ⟨hThere, hFilters'.trans hFilters, ?_, fun hObliging => ?_⟩
    · intro i hMem
      -- what a deletion refused is handed to the next wave
      rcases List.mem_append.mp hMem with hBefore | hNow
      · exact List.mem_append_left _ (hLeft i hBefore)
      · have hEq := List.mem_singleton.mp hNow
        cases deleted with
        | true => cases hEq
        | false =>
          rw [Option.some.inj hEq]
          exact List.mem_append_right _ List.mem_cons_self
    · rw [← List.append_assoc]
      exact hLoose' hObliging
  · refine ⟨h, rfl, fun i hMem => absurd hMem List.not_mem_nil, ?_⟩
    rwa [List.append_nil]
  · rintro left t ⟨hThere, hFilters, hLeft, hLoose⟩
    refine ⟨hThere, hFilters, fun i hMem => ?_, fun hObliging i hMem => ?_⟩
    · exact (hSorted i).mp (hLeft i (List.reduceOption_mem_iff.mp hMem))
    · refine hLoose hObliging i (List.mem_append.mpr ?_)
      exact (List.mem_append.mp hMem).imp id (hSorted i).mpr

/-- All waves keep what the ones before have reached. -/
theorem Trimmed.deleteWaves {n : Nat} (h : Trimmed hooks actions base s)
    {pending known : List Int} (hIn : ∀ i ∈ pending, i ∈ actions)
    (hKnown : obliging → ∀ i ∈ known, s.Loose i)
    (hM : ∀ t, Trimmed hooks actions base t → M t) :
    Holds obliging M (fun _ t => Trimmed hooks actions base t ∧ t.filters = s.filters ∧
      (obliging → ∀ i ∈ known, t.Loose i)) (deleteWaves n pending) s := by
  induction n generalizing s pending with
  | zero => exact ⟨h, rfl, hKnown⟩
  | succ n ih =>
    show Holds obliging M _ (if pending.isEmpty = true then _ else _) s
    by_cases hEmpty : pending.isEmpty = true
    · rw [if_pos hEmpty]
      exact ⟨h, rfl, hKnown⟩
    · rw [if_neg hEmpty]
      refine Holds.bind (h.deleteWave hIn hKnown hM) ?_
      rintro left t ⟨hThere, hFilters, hLeft, hLoose⟩
      refine (ih hThere (fun i hMem => hIn i (hLeft i hMem)) ?_).mono ?_
      · exact fun hObliging i hMem => hLoose hObliging i (List.mem_append_left _ hMem)
      · rintro _ t' ⟨hEnd, hFilters', hLoose'⟩
        exact ⟨hEnd, hFilters'.trans hFilters, hLoose'⟩

/-- An obliging kernel keeps no filter at the hooks that are not used any more, and of the
actions only those that a filter has. -/
structure Rid (hooks : List Hook) (actions : List Int) (s : Net) : Prop where
  gone  : ∀ f ∈ s.filters, f.hook ∉ hooks
  loose : ∀ i ∈ actions, s.Loose i

theorem Trimmed.removeOldTc (h : Trimmed hooks actions base s) {previous new : List Saved}
    (hHooks : ∀ place ∈ obsoletePrefs previous new, hookOf place ∈ hooks)
    (hActions : ∀ i ∈ obsoleteActions previous new, i ∈ actions)
    (hM : ∀ t, Trimmed hooks actions base t → M t) :
    Holds obliging M (fun _ t => Trimmed hooks actions base t ∧
        (obliging → Rid ((obsoletePrefs previous new).map hookOf) (obsoleteActions previous new) t))
      (removeOldTc previous new) s := by
  -- the invariant: the obsolete hooks tried so far are vacant, where tc obliges
  refine Holds.bind (Co.Along.forEach (fun d t => Trimmed hooks actions base t ∧
    (obliging → ∀ f ∈ t.filters, f.hook ∉ d.map hookOf)) ?_ ?_) ?_
  · rintro d place rest hSplit t ⟨hHere, hGone⟩
    have hIn : hookOf place ∈ hooks := by
      refine hHooks place ?_
      rw [hSplit]
      exact List.mem_append_right _ List.mem_cons_self
    have hBoth {t' : Net} (hSub : ∀ f ∈ t'.filters, f ∈ t.filters)
        (hPlace : ∀ f ∈ t'.filters, f.hook ≠ hookOf place) (hObliging : obliging) :
        ∀ f ∈ t'.filters, f.hook ∉ (d ++ [place]).map hookOf := by
      intro f hMem hHook
      rw [List.map_append] at hHook
      rcases List.mem_append.mp hHook with hBefore | hHere
      · exact hGone hObliging f (hSub f hMem) hBefore
      · exact hPlace f hMem (List.mem_singleton.mp hHere)
    refine Holds.bind (A := fun _ t' => Trimmed hooks actions base t' ∧
      (obliging → ∀ f ∈ t'.filters, f.hook ∉ (d ++ [place]).map hookOf)) ?_ fun _ _ hDone => hDone
    -- the deletion is not checked: it empties the hook, or nothing was there
    refine Holds.lax (hM t hHere) (fun _ => hM _ (hHere.without hIn)) ?_ ?_
    · intro _
      refine ⟨hHere.without hIn, hBoth (fun f hMem => List.mem_of_mem_filter hMem) ?_⟩
      exact fun f hMem => of_decide_eq_true (List.mem_filter.mp hMem).2
    · intro hRefused
      refine ⟨hHere, fun hObliging => hBoth (fun f => id) ?_ hObliging⟩
      exact fun f hMem hHook => hRefused hObliging ⟨f, hMem, hHook⟩
  · exact ⟨h, fun _ f _ => List.not_mem_nil⟩
  · rintro _ t ⟨hHere, hGone⟩
    have hIn : ∀ i ∈ (obsoleteActions previous new).eraseDups, i ∈ actions :=
      fun i hMem => hActions i (List.mem_eraseDups.mp hMem)
    show Holds obliging M _ (if List.isEmpty _ = true then _ else _) t
    -- the actions next, in waves, and there is no wave for an empty list
    by_cases hEmpty : (obsoleteActions previous new).eraseDups.isEmpty = true
    · rw [if_pos hEmpty]
      refine ⟨hHere, fun hObliging => ⟨hGone hObliging, fun i hMem => ?_⟩⟩
      have hMem' := List.mem_eraseDups.mpr hMem
      rw [List.isEmpty_iff.mp hEmpty] at hMem'
      cases hMem'
    · rw [if_neg hEmpty]
      have hNone : obliging → ∀ i ∈ ([] : List Int), t.Loose i :=
        fun _ i hMem => absurd hMem List.not_mem_nil
      refine Holds.bind (hHere.deleteWave hIn hNone hM) ?_
      rintro left t₁ ⟨hThere, hFilters, hLeft, hLoose⟩
      refine (hThere.deleteWaves (fun i hMem => hIn i (hLeft i hMem)) hLoose hM).mono ?_
      rintro _ t₂ ⟨hEnd, hFilters', hLoose'⟩
      refine ⟨hEnd, fun hObliging => ⟨?_, fun i hMem => ?_⟩⟩
      · rw [hFilters', hFilters]
        exact hGone hObliging
      · exact hLoose' hObliging i (List.mem_eraseDups.mpr hMem)

end Removing

-- ---------------------------------------------------------------------------
-- A whole pass
-- ---------------------------------------------------------------------------

/-- The hooks a pass may take filters from. -/
def removable (rules : Dict Int UserLimit) (start : Net) : List Hook :=
  (obsoletePrefs start.saved.users (savedOf rules)).map hookOf ++
    if rules.values.any UserLimit.limited then [] else start.filters.map Filter.hook

/-- The rule set is in place, and what it does not need may be gone. -/
structure Late (rules : Dict Int UserLimit) (start s : Net) : Prop where
  marked : Marked rules
  table  : Tabled rules s.table
  base   : ∃ base, Installed { start with table := s.table } (putsOf rules) base ∧
             Trimmed (removable rules start)
               (obsoleteActions start.saved.users (savedOf rules)) base
               { s with saved := start.saved }
  saved  : s.saved = start.saved ∨ s.saved.users = savedOf rules

/-- A moment of a pass. -/
inductive Moment (rules : Dict Int UserLimit) (start s : Net) : Prop
  | early (done : List Put) (hOf : ∀ x ∈ done, PutOf rules x) (h : Installed start done s)
  | late (h : Late rules start s)

/-- The end of a pass that returns. -/
structure Finished (obliging : Prop) (rules : Dict Int UserLimit) (start s : Net) : Prop
    extends Late rules start s where
  rid  : obliging → Rid ((obsoletePrefs start.saved.users (savedOf rules)).map hookOf)
           (obsoleteActions start.saved.users (savedOf rules)) s
  file : s.saved.users = savedOf rules

section Whole

variable {obliging : Prop} {start s : Net} {rules : Dict Int UserLimit}

theorem Late.of_trimmed {table : Option Script} {base : Net} (hMarked : Marked rules)
    (hTabled : Tabled rules table)
    (hBase : Installed { start with table := table } (putsOf rules) base)
    (hTrimmed : Trimmed (removable rules start)
      (obsoleteActions start.saved.users (savedOf rules)) base s) : Late rules start s := by
  obtain rfl : s.table = table := hTrimmed.table.trans hBase.table
  have hSaved : s.saved = start.saved := hTrimmed.saved.trans hBase.saved
  refine ⟨hMarked, hTabled, ⟨base, hBase, ?_⟩, Or.inl hSaved⟩
  rwa [show ({ s with saved := start.saved } : Net) = s by rw [← hSaved]]

/-- The state file is written last. -/
theorem Late.save (h : Late rules start s) {file : StateFile}
    (hUsers : file.users = savedOf rules) : Late rules start { s with saved := file } :=
  ⟨h.marked, h.table, h.base, Or.inr hUsers⟩

theorem Holds.save {M : Net → Prop} {file : StateFile} (hUsers : file.users = savedOf rules)
    (hM : ∀ t, Late rules start t → M t) (h : Late rules start s)
    (hRid : obliging → Rid ((obsoletePrefs start.saved.users (savedOf rules)).map hookOf)
      (obsoleteActions start.saved.users (savedOf rules)) s) :
    Holds obliging M (fun _ t => Finished obliging rules start t) (Co.await (.save file)) s := by
  refine Holds.await (hM s h) (fun _ => hM _ (h.save hUsers)) fun _ => ?_
  exact
    { h.save hUsers with
      rid  := fun hObliging => ⟨(hRid hObliging).gone, (hRid hObliging).loose⟩
      file := hUsers }

theorem Installed.install {soft : Option String} {routed : Bool} (h : Installed start [] s) :
    Holds obliging (Moment rules start) (fun _ t => Finished obliging rules start t)
      (install start.saved (SoftEther.ofNode soft) routed rules) s := by
  have hNothing : ∀ x ∈ ([] : List Put), PutOf rules x := fun x hMem => absurd hMem List.not_mem_nil
  -- first the hook, the users and the quarantine: an early moment throughout
  refine Holds.bind (h.ensureClsact fun t hHere => .early [] hNothing hHere) fun added t₁ h₁ => ?_
  refine Holds.bind (h₁.users fun d t hOf hHere => .early d hOf hHere) ?_
  rintro users t₂ ⟨hMarked, rfl, h₂⟩
  have hOf : ∀ x ∈ putsOf rules, PutOf rules x := fun x hMem => (putOf_iff hMarked).mpr hMem
  refine Holds.bind (h₂.puts (ready_quarantinePuts _) ?_) fun _ t₃ h₃ => ?_
  · intro d t hSub hHere
    refine .early _ (fun x hMem => hOf x ?_) hHere
    exact List.mem_append.mpr ((List.mem_append.mp hMem).imp id (hSub x))
  have h₃ : Installed start (putsOf rules) t₃ := h₃
  -- once the table is exchanged the new rule set stands, and only the old one goes
  have hLate {table : Option Script} {base t : Net} (hTabled : Tabled rules table)
      (hBase : Installed { start with table := table } (putsOf rules) base)
      (hTrimmed : Trimmed (removable rules start)
        (obsoleteActions start.saved.users (savedOf rules)) base t) : Moment rules start t :=
    .late (Late.of_trimmed hMarked hTabled hBase hTrimmed)
  refine Holds.bind (h₃.applyNft (fun t => .early _ hOf) fun table t hTabled hHere =>
    hLate hTabled hHere (Trimmed.refl hHere.sane)) ?_
  rintro _ t₄ ⟨table, hTabled, h₄⟩
  refine Holds.bind ((Trimmed.refl h₄.sane).removeOldTc (fun place hMem => ?_) (fun i => id)
    fun t => hLate hTabled h₄) ?_
  · exact List.mem_append_left _ (List.mem_map.mpr ⟨place, hMem, rfl⟩)
  · rintro _ t₅ ⟨h₅, hRid⟩
    exact Holds.save rfl (fun t => .late) (Late.of_trimmed hMarked hTabled h₄ h₅) hRid

theorem putsOf_inactive (h : rules.values.any UserLimit.limited = false) :
    putsOf rules = [] ∧ savedOf rules = [] ∧ Marked rules := by
  rw [putsOf, savedOf, Marked, filterUsers_eq_nil h, quarantineOf_eq_none h]
  exact ⟨rfl, rfl, fun limit hMem => absurd hMem List.not_mem_nil⟩

/-- With `clsact` all filters go. -/
theorem Trimmed.emptied {actions : List Int} {base : Net} {hooks : List Hook}
    (h : Trimmed hooks actions base s) (hAll : ∀ f ∈ base.filters, f.hook ∈ hooks) :
    Trimmed hooks actions base (Command.delClsact.effect s) where
  sane    := h.sane.fewer (fun hSome => absurd rfl hSome)
    (fun g hMem => absurd hMem List.not_mem_nil) fun g hMem => absurd hMem List.not_mem_nil
  filters := by
    refine ⟨base.filters.map Filter.hook, ?_, ?_⟩
    · intro hook hMem
      obtain ⟨f, hF, rfl⟩ := List.mem_map.mp hMem
      exact hAll f hF
    · symm
      refine List.filter_eq_nil_iff.mpr fun f hMem => ?_
      simpa using ⟨f, hMem, rfl⟩
  police  := h.police
  table   := h.table
  saved   := h.saved

theorem Installed.uninstall {soft : Option String}
    (hInactive : rules.values.any UserLimit.limited = false) (h : Installed start [] s) :
    Holds obliging (Moment rules start) (fun _ t => Finished obliging rules start t)
      (uninstall start.saved (SoftEther.ofNode soft) rules) s := by
  obtain ⟨hPuts, hSavedOf, hMarked⟩ := putsOf_inactive hInactive
  have hNothing : ∀ x ∈ ([] : List Put), PutOf rules x := fun x hMem => absurd hMem List.not_mem_nil
  -- without limited users the table comes first, so every later moment is a late one
  have hLate {table : Option Script} {base t : Net} (hTabled : Tabled rules table)
      (hBase : Installed { start with table := table } [] base)
      (hTrimmed : Trimmed (removable rules start)
        (obsoleteActions start.saved.users (savedOf rules)) base t) : Moment rules start t :=
    .late (Late.of_trimmed hMarked hTabled (hPuts ▸ hBase) hTrimmed)
  refine Holds.bind (h.applyNft (fun t => .early [] hNothing) fun table t hTabled hHere =>
    hLate hTabled hHere (Trimmed.refl hHere.sane)) ?_
  rintro _ t₁ ⟨table, hTabled, h₁⟩
  -- any filter may go, as no limited user needs one
  have hAll : ∀ f ∈ t₁.filters, f.hook ∈ removable rules start := by
    intro f hMem
    refine List.mem_append_right _ ?_
    rw [if_neg (by rw [hInactive]; exact Bool.false_ne_true)]
    have hFilters : t₁.filters = start.filters := h₁.filters
    exact List.mem_map.mpr ⟨f, hFilters ▸ hMem, rfl⟩
  have hM := fun t => hLate (t := t) hTabled h₁
  rw [← hSavedOf]
  refine Holds.bind ((Trimmed.refl h₁.sane).removeOldTc (fun place hMem => ?_) (fun i => id) hM) ?_
  · exact List.mem_append_left _ (List.mem_map.mpr ⟨place, hMem, rfl⟩)
  rintro _ t₂ ⟨h₂, hRid⟩
  have hActions : ∀ i, i ∈ obsoleteActions start.saved.users (savedOf rules) ↔
      i ∈ start.saved.users.flatMap Saved.actions := by
    intro i
    rw [hSavedOf, obsoleteActions, List.mem_filter]
    exact and_iff_left rfl
  -- the hook itself is removed only if the node made it
  refine Holds.bind (A := fun _ t => Trimmed (removable rules start)
      (obsoleteActions start.saved.users (savedOf rules)) t₁ t ∧
      (obliging → ∀ f ∈ t.filters,
        f.hook ∉ (obsoletePrefs start.saved.users (savedOf rules)).map hookOf)) ?_ ?_
  · have hGone := fun hObliging => (hRid hObliging).gone
    cases start.saved.created with
    | false => exact ⟨h₂, hGone⟩
    | true =>
      refine Holds.bind (A := fun _ t => Trimmed (removable rules start)
        (obsoleteActions start.saved.users (savedOf rules)) t₁ t ∧
        (obliging → ∀ f ∈ t.filters,
          f.hook ∉ (obsoletePrefs start.saved.users (savedOf rules)).map hookOf)) ?_
        fun _ _ hDone => hDone
      refine Holds.lax (hM t₂ h₂) (fun _ => hM _ (h₂.emptied hAll)) (fun _ => ?_) fun _ => ?_
      · exact ⟨h₂.emptied hAll, fun _ f hMem => absurd hMem List.not_mem_nil⟩
      · exact ⟨h₂, hGone⟩
  rintro _ t₃ ⟨h₃, hGone⟩
  -- then the saved actions, each of them loose by now
  refine Holds.bind (Co.Along.forEach (fun d t => Trimmed (removable rules start)
    (obsoleteActions start.saved.users (savedOf rules)) t₁ t ∧ t.filters = t₃.filters ∧
      (obliging → ∀ i ∈ d, t.Loose i)) ?_ ?_) ?_
  · rintro d index rest hSplit t ⟨hHere, hFilters, hLoose⟩
    have hIndex : index ∈ obsoleteActions start.saved.users (savedOf rules) := by
      rw [hActions, hSplit]
      exact List.mem_append_right _ List.mem_cons_self
    refine Holds.bind (hHere.deletePolice hIndex hLoose hM) ?_
    rintro _ t' ⟨hThere, hFilters', hLoose'⟩
    exact ⟨hThere, hFilters'.trans hFilters, hLoose'⟩
  · exact ⟨h₃, rfl, fun _ i hMem => absurd hMem List.not_mem_nil⟩
  · rintro _ t₄ ⟨h₄, hFilters, hLoose⟩
    have hBase : Installed { start with table := table } (putsOf rules) t₁ := hPuts ▸ h₁
    refine Holds.save rfl (fun t => .late) (Late.of_trimmed hMarked hTabled hBase h₄) ?_
    intro hObliging
    refine ⟨?_, fun i hMem => hLoose hObliging i ((hActions i).mp hMem)⟩
    rw [hFilters]
    exact hGone hObliging

/-- **A pass.** At every moment it has put some of the new rule set and exchanged nothing, or
put all of it and taken away only what the new rules do not use; where it returns it is
done. -/
theorem reconcile_along (tap : String) (h : start.Sane) :
    Holds obliging (Moment rules start) (fun _ t => Finished obliging rules start t)
      (reconcilePass tap rules) start := by
  have hStart : Installed start [] start :=
    ⟨h, rfl, rfl, rfl, rfl, fun _ _ hMem => absurd hMem List.not_mem_nil⟩
  have hNothing : ∀ x ∈ ([] : List Put), PutOf rules x := fun x hMem => absurd hMem List.not_mem_nil
  refine Holds.get_bind (Holds.bind (hStart.ensureRouted fun t => .early [] hNothing) ?_)
  rintro ⟨soft, routed⟩ t hHere
  show Holds obliging _ _ (if rules.values.any UserLimit.limited = true then _ else _) t
  by_cases hActive : rules.values.any UserLimit.limited = true
  · rw [if_pos hActive]
    exact hHere.install
  · rw [if_neg hActive]
    exact hHere.uninstall (Bool.eq_false_iff.mpr hActive)

end Whole

end ZagrosNode.Bandwidth
