import ZagrosNode.Bandwidth.Converged

/-!
# ZagrosNode — passes that can return

Whether a rule set can be installed at all. A kernel that takes what it can
refuses a filter for its place only: a preference of more than 16 bits, or one
that filters of the other protocol stand at, be they of the same rule set or of
the one before, which is still there while the new one is put. A police action
it refuses for its rate only, where that does not fit into 64 bits of bytes per
second.

`Can` of the coroutine library says that a computation has an ending of the given kind
for some answers. Here the answers are those of an obliging kernel, and a pass can
return exactly if none of its puts is one that cannot be done.

* **Room.** `Fits` is stated on the two rule sets: every filter of the new one has a
  preference of 16 bits, and no filter of the old or of the new one stands in its place
  with the other protocol. All puts are done before the first deletion, so what is going
  to be removed is in the way too.
* **Rates.** Every police action's rate must be carried. The node passes on any integer
  the panel has sent, as `Bandwidth/Panel.lean` shows.
* **The quarantine** needs a driver of SoftEther that can set up its interface.

The other direction follows a pass that returned back through its puts.

Main results:

* `pass_returns_iff` — when a pass from a settled machine can return.
-/

namespace ZagrosNode.Bandwidth

open ZagrosNode.Lib ZagrosNode.Cores ZagrosNode.Security ZagrosNode.Accounts

/-- The rule set has room beside the one before. -/
structure Fits (old new : Dict Int UserLimit) (s : Net) : Prop where
  marked : Marked new
  range  : ∀ a ∈ filterUsers new, a.userId ≤ 11133
  rates  : ∀ a ∈ filterUsers new, a.uploadMbps * 10 ^ 6 < 2 ^ 67 ∧ a.downloadMbps * 10 ^ 6 < 2 ^ 67
  place  : ∀ f g, PutOf new (.filter f) → PutOf new (.filter g) ∨ PutOf old (.filter g) →
             g.slot = f.slot → g.protocol = f.protocol
  driver : softGuard new = true → s.source.isNone = false

-- ---------------------------------------------------------------------------
-- Ways through a pass
-- ---------------------------------------------------------------------------

section Ways

variable {α : Type} {s start : Net} {c : Command} {done : List Put}

theorem can_await {A : Unit → Net → Prop} (hAccepted : c.Accepted s) (h : A () (c.effect s)) :
    Co.Can (kernel True) (Co.await c) A s :=
  Co.Can.await (Answers.taken hAccepted) h

theorem can_lax_taken {A : Bool → Net → Prop} (hAccepted : c.Accepted s)
    (h : A true (c.effect s)) : Co.Can (kernel True) (lax c) A s :=
  Co.Can.guarded ((can_await (A := fun _ t => A true t) hAccepted h).bind
    fun _ _ hEnd => Co.Can.pure hEnd)

theorem can_lax_refused {A : Bool → Net → Prop} (hRefusable : c.Refusable True s)
    (h : A false s) : Co.Can (kernel True) (lax c) A s :=
  Co.Can.handled (Co.Ends.call (Answers.refused hRefusable) (Co.Ends.done _ _)) rfl
    (Co.Can.pure h)

/-- A command that nothing depends on. -/
theorem can_lax {A : Bool → Net → Prop} (hEither : ¬ c.Accepted s → c.Refusable True s)
    (hTaken : c.Accepted s → A true (c.effect s)) (hRefused : A false s) :
    Co.Can (kernel True) (lax c) A s := by
  by_cases hAccepted : c.Accepted s
  · exact can_lax_taken hAccepted (hTaken hAccepted)
  · exact can_lax_refused (hEither hAccepted) hRefused

theorem can_onlyIf {A : Unit → Net → Prop} {condition : Bool} {x : Pass Unit}
    (hBody : condition = true → Co.Can (kernel True) x A s) (hElse : condition = false → A () s) :
    Co.Can (kernel True) (onlyIf condition x) A s := by
  cases condition with
  | true => exact hBody rfl
  | false => exact Co.Can.pure (hElse rfl)

/-- Things put on a machine with `clsact`. -/
structure Placing (start : Net) (done : List Put) (s : Net) : Prop
    extends Installed start done s where
  there : s.clsact = true

theorem can_put {x : Put} (h : Placing start done s) (hFree : ∀ f, x = .filter f → s.Free f)
    (hCarried : ∀ index action, x = .police index action → action.rate.Carried) :
    Co.Can (kernel True) (put x) (fun _ t => Placing start (done ++ [x]) t) s := by
  cases x with
  | police index action =>
    have hRate := hCarried index action rfl
    exact can_await (c := .replacePolice index action) hRate
      { h.toInstalled.with_police hRate with there := h.there }
  | filter f =>
    have hFree := hFree f rfl
    have hPut : Placing start (done ++ [.filter f]) ((Command.replaceFilter f).effect s) :=
      { h.toInstalled.with_filter rfl (h.sane.effect (c := .replaceFilter f) hFree) with
        there := h.there }
    refine Co.Can.bind (A := fun replaced t => replaced = true ∧
      Placing start (done ++ [.filter f]) t) (can_lax_taken hFree ⟨rfl, hPut⟩) ?_
    rintro _ t ⟨rfl, hDone⟩
    exact Co.Can.pure hDone

theorem can_ensureClsact (h : Installed start done s) :
    Co.Can (kernel True) ensureClsact (fun _ t => Placing start done t) s := by
  refine Co.Can.bind (can_await (c := .showQdisc) (A := fun _ t => t = s) trivial rfl) ?_
  rintro _ t rfl
  refine Co.Can.get_bind ?_
  refine Co.Can.bind (A := fun _ t => Placing start done t) ?_ fun _ t hThere => ?_
  · refine can_onlyIf (fun hMissing => ?_) fun hThere => ?_
    · have hAccepted : Command.addClsact.Accepted t := by
        rwa [Bool.not_eq_true'] at hMissing
      refine can_await hAccepted ?_
      exact { h.quiet (fun _ => ⟨rfl, rfl, rfl, rfl⟩) hAccepted with there := rfl }
    · rw [Bool.not_eq_false'] at hThere
      exact { h with there := hThere }
  · refine Co.Can.bind (Co.Can.forEach (fun _ t => Placing start done t) ?_ hThere)
      fun _ _ hEnd => Co.Can.pure hEnd
    intro _ p _ _ t hHere
    refine Co.Can.bind (A := fun replaced t => replaced = true ∧ Placing start done t)
      (can_lax_taken (c := .replaceTrack p) hHere.there ⟨rfl, ?_⟩) ?_
    · exact { hHere.toInstalled.quiet (c := .replaceTrack p) (fun _ => ⟨rfl, rfl, rfl, rfl⟩)
        hHere.there with there := hHere.there }
    · rintro _ t ⟨rfl, hDone⟩
      exact Co.Can.pure hDone

/-- Nothing depends on what a deletion comes to. -/
theorem can_deleteWaves {n : Nat} {pending : List Int} :
    Co.Can (kernel True) (deleteWaves n pending) (fun _ _ => True) s := by
  induction n generalizing pending s with
  | zero => exact Co.Can.pure trivial
  | succ n ih =>
    show Co.Can (kernel True) (if pending.isEmpty = true then _ else _) _ s
    by_cases hEmpty : pending.isEmpty = true
    · rw [if_pos hEmpty]
      exact Co.Can.pure trivial
    · rw [if_neg hEmpty]
      refine Co.Can.bind (A := fun _ _ => True) ?_ fun _ _ _ => ih
      refine Co.Can.bind (Co.Can.mapList (fun _ _ => True) ?_ trivial)
        fun _ _ _ => Co.Can.pure trivial
      intro _ index _ _ t _
      exact Co.Can.bind (A := fun _ _ => True)
        (can_lax (fun hNot _ => hNot) (fun _ => trivial) trivial) fun _ _ _ => Co.Can.pure trivial

theorem can_removeOldTc {previous new : List Saved} :
    Co.Can (kernel True) (removeOldTc previous new) (fun _ _ => True) s := by
  refine Co.Can.bind (Co.Can.forEach (fun _ _ => True) ?_ trivial)
    fun _ t _ => can_deleteWaves
  intro _ place _ _ t _
  exact Co.Can.bind (A := fun _ _ => True)
    (can_lax (fun hNot _ => hNot) (fun _ => trivial) trivial) fun _ _ _ => Co.Can.pure trivial

theorem can_softNatRule {enabled : Bool} (h : Installed start done s) :
    Co.Can (kernel True) (softNatRule enabled) (fun _ t => Installed start done t) s := by
  refine Co.Can.bind (A := fun _ t => Installed start done t)
    (can_lax (c := .listNat) (fun hNot _ => hNot)
      (h.quiet fun _ => ⟨rfl, rfl, rfl, rfl⟩) h) fun listed t hListed => ?_
  refine Co.Can.get_bind ?_
  cases enabled with
  -- an existing rule is found by the listing, so it is not added twice
  | true =>
    show Co.Can (kernel True) (if (listed && t.nat) = true then pure () else Co.await .addNat) _ t
    by_cases hThere : (listed && t.nat) = true
    · rw [if_pos hThere]
      exact Co.Can.pure hListed
    · rw [if_neg hThere]
      exact can_await (c := .addNat) trivial (hListed.quiet (fun _ => ⟨rfl, rfl, rfl, rfl⟩) trivial)
  | false =>
    show Co.Can (kernel True)
      (if (listed && t.nat) = true then (do let _ ← lax .deleteNat; pure ()) else pure ()) _ t
    by_cases hThere : (listed && t.nat) = true
    · rw [if_pos hThere]
      exact Co.Can.bind (A := fun _ t => Installed start done t)
        (can_lax (c := .deleteNat) (fun hNot _ => hNot)
          (hListed.quiet fun _ => ⟨rfl, rfl, rfl, rfl⟩) hListed) fun _ _ hEnd => Co.Can.pure hEnd
    · rw [if_neg hThere]
      exact Co.Can.pure hListed

theorem can_ensureRouted {tap : String} {needed : Bool} (h : Installed start done s)
    (hDriver : needed = true → s.source.isNone = false) :
    Co.Can (kernel True) (ensureRouted tap needed) (fun _ t => Installed start done t) s := by
  refine Co.Can.get_bind ?_
  -- without the driver nothing is asked, and then no rule may be needed
  by_cases hNone : s.source.isNone = true
  · rw [if_pos hNone]
    cases needed with
    | true =>
      rw [hDriver rfl] at hNone
      cases hNone
    | false => exact Co.Can.pure h
  · rw [if_neg hNone]
    refine Co.Can.bind (can_await (c := .policySource) trivial
      (A := fun _ t => Installed start done t) h) fun _ t hAsked => ?_
    cases needed with
    | true =>
      refine Co.Can.bind (A := fun _ t => Installed start done t) ?_ fun _ t' hRouted => ?_
      · exact can_onlyIf (fun _ => can_await (c := .ensureSource tap) trivial
          (hAsked.quiet (c := .ensureSource tap) (fun _ => ⟨rfl, rfl, rfl, rfl⟩) trivial))
          fun _ => hAsked
      · exact Co.Can.get_bind ((can_softNatRule hRouted).bind fun _ _ hEnd => Co.Can.pure hEnd)
    | false =>
      refine (can_softNatRule hAsked).bind fun _ t' hNat => ?_
      refine Co.Can.bind (A := fun _ t => Installed start done t) ?_ fun _ _ hEnd =>
        Co.Can.pure hEnd
      exact can_onlyIf (fun _ => can_await (c := .disableSource) trivial
        (hNat.quiet (c := .disableSource) (fun _ => ⟨rfl, rfl, rfl, rfl⟩) trivial)) fun _ => hNat

theorem can_applyNft {soft : SoftEther} {rules : Dict Int UserLimit}
    (hScript : ∃ script, nftScript soft rules = .ok script) :
    Co.Can (kernel True) (applyNft soft rules) (fun _ _ => True) s := by
  obtain ⟨script, hScript⟩ := hScript
  refine Co.Can.bind (A := fun listed t => listed = t.table.isSome) ?_ ?_
  · by_cases hThere : s.table.isSome = true
    · exact can_lax_taken (c := .listTable) hThere hThere.symm
    · refine can_lax_refused (c := .listTable) (Option.not_isSome_iff_eq_none.mp hThere) ?_
      rw [Bool.not_eq_true] at hThere
      exact hThere.symm
  · rintro _ t rfl
    by_cases hActive : rules.values.any UserLimit.limited = true
    · rw [if_pos hActive, hScript]
      exact (Co.Can.lift (A := fun a t' => a = script ∧ t' = t) ⟨rfl, rfl⟩).bind
        fun a t' h => can_await (c := .loadTable a t.table.isSome) (h.2 ▸ id) trivial
    · rw [if_neg hActive]
      by_cases hThere : t.table.isSome = true
      · rw [if_pos hThere]
        exact can_await (c := .deleteTable) hThere trivial
      · rw [if_neg hThere]
        exact Co.Can.pure trivial

end Ways

-- ---------------------------------------------------------------------------
-- The whole pass
-- ---------------------------------------------------------------------------

section Whole

variable {old new : Dict Int UserLimit} {s t : Net} {tap : String}

/-- Behind 11133 a filter needs a preference of more than 16 bits. -/
theorem pref_of_putOf {rules : Dict Int UserLimit}
    (hRange : ∀ a ∈ filterUsers rules, a.userId ≤ 11133) {f : Filter}
    (hf : PutOf rules (.filter f)) : 1 ≤ f.pref ∧ f.pref ≤ 65535 := by
  have hOffset (protocol : Family) : 0 ≤ protocol.prefOffset ∧ protocol.prefOffset ≤ 20000 := by
    cases protocol <;> decide
  rcases filter_putOf.mp hf with ⟨limit, hLimit, ⟨m, hm⟩, protocol, kind, rfl, -⟩ |
    ⟨r, protocol, kind, -, rfl, -⟩
  · have hPos := (marksForUser_ok hm).1
    have hLe := hRange limit hLimit
    have hNumber := kind.number_range
    have hFamily := hOffset protocol
    rw [userFilter_pref]
    omega
  · have hNumber := kind.number_range
    have hFamily := hOffset protocol
    rw [guardFilter_pref]
    omega

/-- The quarantine has the rates of limited users with SoftEther accounts. -/
theorem quarantine_rates {rules : Dict Int UserLimit} {up down : Option Int}
    (h : quarantineOf rules.values = some (up, down)) :
    (∀ rate, up = some rate → ∃ a ∈ filterUsers rules, a.uploadMbps = rate) ∧
      ∀ rate, down = some rate → ∃ a ∈ filterUsers rules, a.downloadMbps = rate := by
  have hLowest : ∀ (of : UserLimit → Int) (rate : Int),
      (((softLimits rules.values).map of).filter (· ≠ 0)).min? = some rate →
        ∃ a ∈ filterUsers rules, of a = rate := by
    intro of rate hMin
    have hIn := List.mem_of_mem_filter (List.min?_mem hMin)
    obtain ⟨a, hSoft, hEq⟩ := List.mem_map.mp hIn
    obtain ⟨hMem, hBoth⟩ := List.mem_filter.mp hSoft
    have hLimited := (Bool.and_eq_true_iff.mp hBoth).1
    exact ⟨a, filtered_of_active (mem_activeUsers.mpr ⟨hMem, hLimited⟩), hEq⟩
  unfold quarantineOf at h
  simp only at h
  split at h
  · cases h
  · obtain ⟨rfl, rfl⟩ := Prod.mk.inj (Option.some.inj h)
    exact ⟨hLowest UserLimit.uploadMbps, hLowest UserLimit.downloadMbps⟩

/-- The rates of the users with filters are those of all police actions: the quarantine has a
hundredth of one of them, and at least 64 kbit. -/
theorem Fits.carried (h : Fits old new s) {index : Int} {action : Police}
    (hPut : PutOf new (.police index action)) : action.rate.Carried := by
  rcases hPut with ⟨limit, hLimit, -, hMem⟩ | hMem
  · obtain ⟨hUp, hDown⟩ := h.rates limit hLimit
    rcases police_mem_userPuts.mp hMem with ⟨-, hEq⟩ | ⟨-, hEq⟩
    · obtain ⟨-, rfl⟩ := Put.police.inj hEq
      exact hDown
    · obtain ⟨-, rfl⟩ := Put.police.inj hEq
      exact hUp
  · obtain ⟨up, down, hRates, hEither⟩ := police_mem_quarantinePuts.mp hMem
    obtain ⟨hUp, hDown⟩ := quarantine_rates hRates
    have hKbit : ∀ {rate : Int}, rate * 10 ^ 6 < 2 ^ 67 → max 64 (rate * 10) * 10 ^ 3 < 2 ^ 67 := by
      intro rate hRate
      omega
    rcases hEither with ⟨rate, rfl, hEq⟩ | ⟨rate, rfl, hEq⟩
    · obtain ⟨-, rfl⟩ := Put.police.inj hEq
      obtain ⟨limit, hLimit, rfl⟩ := hUp rate rfl
      exact hKbit (h.rates limit hLimit).1
    · obtain ⟨-, rfl⟩ := Put.police.inj hEq
      obtain ⟨limit, hLimit, rfl⟩ := hDown rate rfl
      exact hKbit (h.rates limit hLimit).2

/-- There is room for the next filter. -/
theorem Placing.free {done : List Put} (h : Placing s done t) (hs : Settled old s)
    (hFits : Fits old new s) (hOf : ∀ x ∈ done, PutOf new x) {f : Filter}
    (hf : PutOf new (.filter f)) (hBound : ∀ index, f.police = some index →
      ∃ action, Put.police index action ∈ done) : t.Free f where
  clsact := h.there
  pref   := pref_of_putOf hFits.range hf
  place  := by
    intro g hMem hSlot
    rw [h.filters] at hMem
    refine hFits.place f g hf ?_ hSlot
    rcases mem_foldl_putFilter hMem with hNew | ⟨hOld, -⟩
    · exact Or.inl (hOf _ (mem_filters_of_putsOf.mp hNew))
    · exact Or.inr ((hs.filters g).mp hOld)
  bound index hIndex := by
    obtain ⟨action, hMem⟩ := hBound index hIndex
    exact h.police_of_mem hMem

theorem can_puts {done xs : List Put} (h : Placing s done t) (hs : Settled old s)
    (hFits : Fits old new s) (hReady : Ready xs) (hOf : ∀ x ∈ done ++ xs, PutOf new x) :
    Co.Can (kernel True) (Co.forEach put xs) (fun _ t => Placing s (done ++ xs) t) t := by
  refine Co.Can.forEach (fun d t => Placing s (done ++ d) t) ?_ (by rwa [List.append_nil])
  intro d x rest hSplit t hHere
  rw [← List.append_assoc]
  have hNext : PutOf new x := by
    refine hOf x ?_
    rw [hSplit]
    exact List.mem_append_right _ (List.mem_append_right _ List.mem_cons_self)
  refine can_put hHere ?_ fun index action hEq => hFits.carried (hEq ▸ hNext)
  rintro f rfl
  have hBefore : ∀ x ∈ done ++ d, PutOf new x := by
    intro x hMem
    refine hOf x ?_
    rw [hSplit, ← List.append_assoc]
    exact List.mem_append_left _ hMem
  refine hHere.free hs hFits hBefore hNext fun index hIndex => ?_
  obtain ⟨action, hMem⟩ := hReady d f rest hSplit index hIndex
  exact ⟨action, List.mem_append_right _ hMem⟩

theorem can_install {soft : Option String} {routed : Bool} (h : Installed s [] t)
    (hs : Settled old s) (hFits : Fits old new s) :
    Co.Can (kernel True) (install s.saved (SoftEther.ofNode soft) routed new)
      (fun _ _ => True) t := by
  refine (can_ensureClsact h).bind fun added t₁ h₁ => ?_
  have hOf : ∀ x ∈ putsOf new, PutOf new x := fun x hMem => (putOf_iff hFits.marked).mpr hMem
  -- the loop over the users: each time the place for the next user's filters is free
  refine Co.Can.bind (Co.Can.mapList (fun d t => Placing s
    (d.flatMap fun limit => userPuts limit limit.marks) t) ?_ h₁) ?_
  · intro d limit rest hSplit t₂ h₂
    have hLimit : limit ∈ filterUsers new := by
      rw [hSplit]
      exact List.mem_append_right _ List.mem_cons_self
    obtain ⟨m, hm⟩ := hFits.marked limit hLimit
    have hMarks : (marksForUser limit.userId).mapError Fault.raised = .ok limit.marks := by
      rw [hm, marks_ok hm]
      rfl
    unfold putUser
    rw [hMarks]
    refine (Co.Can.lift (A := fun m t => m = limit.marks ∧ t = t₂) ⟨rfl, rfl⟩).bind ?_
    rintro _ _ ⟨rfl, rfl⟩
    rw [List.flatMap_append, List.flatMap_singleton]
    refine (can_puts h₂ hs hFits (ready_userPuts limit limit.marks) fun x hMem => ?_).bind
      fun _ _ hEnd => Co.Can.pure hEnd
    refine hOf x (List.mem_append_left _ ?_)
    rw [hSplit, List.append_cons, List.flatMap_append, List.flatMap_append,
      List.flatMap_singleton]
    exact List.mem_append_left _ hMem
  -- behind the loop only the marks of the limited users can fail the script
  · intro users t₂ h₂
    refine (can_puts h₂ hs hFits (ready_quarantinePuts _) hOf).bind fun _ t₃ _ => ?_
    refine (can_applyNft (nftScript_ok hFits.marked)).bind fun _ t₄ _ => ?_
    refine can_removeOldTc.bind fun _ t₅ _ => ?_
    exact can_await trivial trivial

theorem can_uninstall {soft : Option String}
    (hMarked : Marked new) :
    Co.Can (kernel True) (uninstall s.saved (SoftEther.ofNode soft) new) (fun _ _ => True) t := by
  refine (can_applyNft (nftScript_ok hMarked)).bind fun _ t₁ _ => ?_
  refine can_removeOldTc.bind fun _ t₂ _ => ?_
  refine Co.Can.bind (A := fun _ _ => True) (can_onlyIf (fun _ => ?_) fun _ => trivial)
    fun _ t₃ _ => ?_
  · exact Co.Can.bind (A := fun _ _ => True)
      (can_lax (fun hNot _ => hNot) (fun _ => trivial) trivial) fun _ _ _ => Co.Can.pure trivial
  · refine Co.Can.bind (Co.Can.forEach (fun _ _ => True) ?_ trivial) fun _ t₄ _ => ?_
    · intro _ index _ _ t _
      exact Co.Can.bind (A := fun _ _ => True)
        (can_lax (fun hNot _ => hNot) (fun _ => trivial) trivial) fun _ _ _ => Co.Can.pure trivial
    · exact can_await trivial trivial

/-- A limited SoftEther user needs the driver. -/
theorem driver_of_returns
    (hEnds : Co.Ends (kernel True) (reconcilePass tap new) s (.ok ()) t)
    (hNeeded : softGuard new = true) : s.source.isNone = false := by
  by_contra hThere
  have hNone : s.source.isNone = true := by simpa using hThere
  have hRaises : Holds True (fun _ => True) (fun _ _ => False) (reconcilePass tap new) s := by
    refine Holds.get_bind (Holds.bind (A := fun _ _ => False) ?_ fun _ _ => False.elim)
    show Holds True _ _ (if s.source.isNone = true then _ else _) s
    rw [if_pos hNone, hNeeded]
    exact trivial
  exact (Co.Along.of_ends hRaises hEnds).1 () rfl

/-- **When a pass can return.** From a settled machine, on a kernel that takes what it can:
exactly if the new rule set has marks and preferences for its ids and rates that `tc` can
carry, room beside itself and the rule set before, and the SoftEther driver where it needs
one. -/
theorem pass_returns_iff (hs : Settled old s) :
    (∃ t, Co.Ends (kernel True) (reconcilePass tap new) s (.ok ()) t) ↔ Fits old new s := by
  constructor
  · rintro ⟨t, hEnds⟩
    have h := reconcile_finishes hs.sane hEnds
    obtain ⟨base, hBase, -⟩ := h.base
    have hPut (g : Filter) : g ∈ (putsOf new).filterMap Put.filter? ↔ PutOf new (.filter g) :=
      mem_filters_of_putsOf.trans (putOf_iff h.marked).symm
    -- whatever stood or was put has left a filter at its handle
    have hThere (g : Filter) (hg : PutOf new (.filter g) ∨ PutOf old (.filter g)) :
        ∃ g' ∈ base.filters, g'.key = g.key := by
      have hFrom : g ∈ s.filters ∨ g ∈ (putsOf new).filterMap Put.filter? :=
        hg.symm.imp (hs.filters g).mpr (hPut g).mpr
      obtain ⟨g', hMem, hKey, -⟩ := exists_foldl_putFilter s.filters _ hFrom
      exact ⟨g', hBase.filters ▸ hMem, hKey⟩
    have hHook {f g : Filter} (hKey : g.key = f.key) : g.slot = f.slot ∧ g.protocol = f.protocol :=
      Prod.mk.inj (congrArg Prod.fst hKey)
    have hCarried (index : Int) (action : Police) (hPolice : PutOf new (.police index action)) :
        action.rate.Carried := hBase.carried index action ((putOf_iff h.marked).mp hPolice)
    refine ⟨h.marked, fun a hMem => ?_, fun a hMem => ⟨?_, ?_⟩, fun f g hf hg hSlot => ?_,
      driver_of_returns hEnds⟩
    · have hf : PutOf new (.filter (userFilter a a.marks .ipv6 .ingressUp)) :=
        filter_putOf.mpr (Or.inl ⟨a, hMem, h.marked a hMem, _, _, rfl, Or.inl rfl⟩)
      obtain ⟨g, hIn, hKey⟩ := hThere _ (Or.inl hf)
      have hPref : g.pref = (userFilter a a.marks .ipv6 .ingressUp).pref :=
        congrArg (fun slot => slot.2.2) (hHook hKey).1
      have hLe := (hBase.sane.pref g hIn).2
      rw [hPref, userFilter_pref] at hLe
      simp only [HookKind.number, Family.prefOffset] at hLe
      omega
    · by_cases hZero : a.uploadMbps = 0
      · rw [hZero]
        decide
      · exact hCarried _ _ (Or.inl ⟨a, hMem, h.marked a hMem,
          police_mem_userPuts.mpr (Or.inr ⟨hZero, rfl⟩)⟩)
    · by_cases hZero : a.downloadMbps = 0
      · rw [hZero]
        decide
      · exact hCarried _ _ (Or.inl ⟨a, hMem, h.marked a hMem,
          police_mem_userPuts.mpr (Or.inl ⟨hZero, rfl⟩)⟩)
    · obtain ⟨f', hIn, hKey⟩ := hThere f (Or.inl hf)
      obtain ⟨g', hIn', hKey'⟩ := hThere g hg
      have hSlot' : g'.slot = f'.slot := (hHook hKey').1.trans (hSlot.trans (hHook hKey).1.symm)
      have hSame := hBase.sane.place f' hIn g' hIn' hSlot'
      exact (hHook hKey').2.symm.trans (hSame.trans (hHook hKey).2)
  · intro hFits
    have hStart : Installed s [] s :=
      ⟨hs.sane, rfl, rfl, rfl, rfl, fun _ _ hMem => absurd hMem List.not_mem_nil⟩
    have hCan : Co.Can (kernel True) (reconcilePass tap new) (fun _ _ => True) s := by
      refine Co.Can.get_bind ((can_ensureRouted hStart hFits.driver).bind ?_)
      rintro ⟨soft, routed⟩ t hHere
      show Co.Can (kernel True) (if new.values.any UserLimit.limited = true then _ else _) _ t
      by_cases hActive : new.values.any UserLimit.limited = true
      · rw [if_pos hActive]
        exact can_install hHere hs hFits
      · rw [if_neg hActive]
        exact can_uninstall hFits.marked
    obtain ⟨_, t, hEnds, -⟩ := hCan
    exact ⟨t, hEnds⟩

end Whole

/-- A machine with a SoftEther driver that the limiter has never worked on. -/
def bareNet : Net where
  clsact  := false
  tracks  := []
  filters := []
  police  := Dict.empty
  table   := none
  source  := some none
  nat     := false
  saved   := ⟨[], false, false⟩

theorem not_putOf_empty (x : Put) : ¬ PutOf Dict.empty x := by
  have hNone := (@putsOf_inactive Dict.empty rfl).1
  intro hOf
  have hMem := mem_of_putOf hOf
  rw [hNone] at hMem
  cases hMem

theorem settled_bare : Settled Dict.empty bareNet where
  sane :=
    { clsact := fun hSome => absurd rfl hSome
      pref := fun f hMem => absurd hMem List.not_mem_nil
      place := fun f hMem => absurd hMem List.not_mem_nil
      bound := fun f hMem => absurd hMem List.not_mem_nil }
  marked := (@putsOf_inactive Dict.empty rfl).2.2
  filters f := iff_of_false List.not_mem_nil (not_putOf_empty _)
  police index action := iff_of_false (fun h => by cases h) (not_putOf_empty _)
  table := rfl
  users := (@putsOf_inactive Dict.empty rfl).2.1.symm

/-- The preferences of user 7 and of the quarantine, those of the two protocols 20000 apart. -/
theorem pref_of_seven {rules : Dict Int UserLimit} (hSeven : ∀ a ∈ filterUsers rules, a.userId = 7)
    {f : Filter} (hf : PutOf rules (.filter f)) :
    ∃ n : Int, 0 ≤ n ∧ n ≤ 3 ∧ (f.pref = 1028 + n + f.protocol.prefOffset ∨
      f.pref = 30000 + n + f.protocol.prefOffset) := by
  rcases filter_putOf.mp hf with ⟨limit, hLimit, -, protocol, kind, rfl, -⟩ |
    ⟨r, protocol, kind, -, rfl, -⟩
  · refine ⟨kind.number, kind.number_range.1, kind.number_range.2, Or.inl ?_⟩
    rw [userFilter_pref, userFilter_protocol, hSeven limit hLimit]
    omega
  · refine ⟨kind.number, kind.number_range.1, kind.number_range.2, Or.inr ?_⟩
    rw [guardFilter_pref, guardFilter_protocol]

/-- So with user 7 alone no place has filters of both protocols. -/
theorem protocol_of_seven {rules other : Dict Int UserLimit}
    (hSeven : ∀ a ∈ filterUsers rules, a.userId = 7)
    (hOther : ∀ a ∈ filterUsers other, a.userId = 7) {f g : Filter}
    (hf : PutOf rules (.filter f)) (hg : PutOf other (.filter g)) (hSlot : g.slot = f.slot) :
    g.protocol = f.protocol := by
  have hPref : g.pref = f.pref := congrArg (fun slot => slot.2.2) hSlot
  obtain ⟨n, hLow, hHigh, hF⟩ := pref_of_seven hSeven hf
  obtain ⟨k, hLow', hHigh', hG⟩ := pref_of_seven hOther hg
  rw [hPref] at hG
  cases hProtocol : f.protocol <;> cases hProtocol' : g.protocol
  all_goals
    simp only [hProtocol, hProtocol', Family.prefOffset] at hF hG
    first | rfl | omega

theorem seven_home : ∀ a ∈ filterUsers homeRules, a.userId = 7 := by
  intro a hMem
  rw [filterUsers_home a hMem]
  rfl

theorem fits_home : Fits Dict.empty homeRules bareNet where
  marked := marks_home
  range  := range_home
  rates a hMem := by
    rw [filterUsers_home a hMem]
    decide
  place f g hf hg hSlot :=
    protocol_of_seven seven_home seven_home hf (hg.resolve_right (not_putOf_empty _)) hSlot
  driver _ := rfl

theorem made_home : Made homeRules := ⟨_, _, _, desired_home⟩

/-- The first pass of a new machine, for one limited user, can return. -/
theorem home_returns :
    ∃ t, Co.Ends (kernel True) (reconcilePass "soft0" homeRules) bareNet (.ok ()) t :=
  (pass_returns_iff settled_bare).mpr fits_home

end ZagrosNode.Bandwidth
