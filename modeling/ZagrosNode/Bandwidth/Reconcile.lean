import ZagrosNode.Bandwidth.Script
import ZagrosNode.Lib.Cancel

/-!
# ZagrosNode — bringing the kernel to a rule set

A pass of the limiter compares nothing: it replaces every filter and police
action of the new rule set, loads the table, and deletes the filters that its
state file lists and the new rules do not use. Each command may be refused,
fail without an effect or fail after it, and the pass may end at any of them.

`Net` is the part of the machine a pass works on: the filters and police actions of the
interface, the loaded table, SoftEther's interface and the state file of the limiter. A
`Command` is one call of `tc`, `nft` or `ip`, or the write of the file; `effect` is what
it does if it is carried out.

* **The kernel** answers each command. It may refuse it for a reason or for none; it may
  carry it out and report failure; and the process may end before it is asked or after.
  An obliging one refuses only what cannot be done (`Accepted`). The first is for what
  holds at all times, the second for what a pass achieves.
* **What cannot be done** is a filter at a preference where filters of the other
  protocol stand, at one beyond 16 bits, or with a police action that is not there; and
  a rate that does not fit into 64 bits of bytes per second, which is how `tc` hands it
  to the kernel.
* **The pass** is a coroutine whose awaits are the commands, in the source's order,
  with the retries of `_replace_or_add_filter` and of the deletion of police actions.

`Sane` is kept by every command, so it holds at every moment of everything.

Main results:

* `Net.Sane.effect` — what every command keeps: no place with two protocols and no
  filter without its police action.
* `Holds.await`, `Holds.lax` — the rules for commands that must be taken and for
  those that may be refused.
-/

namespace ZagrosNode.Bandwidth

open ZagrosNode.Lib ZagrosNode.Cores ZagrosNode.Security ZagrosNode.Accounts

-- ---------------------------------------------------------------------------
-- What a rule set puts into the kernel
-- ---------------------------------------------------------------------------

/-- The place of a filter, with its protocol. -/
abbrev Hook : Type := (Direction × Nat × Int) × Family

def Filter.hook (f : Filter) : Hook := (f.slot, f.protocol)

def Filter.key (f : Filter) : Hook × Int := (f.hook, f.handle)

inductive Rate
  | mbit (n : Int)
  | kbit (n : Int)
  deriving DecidableEq

/-- `tc` carries a rate as bytes per second in 64 bits, so it takes fewer than `2 ^ 67` bits
per second. The node passes on any integer; the bound the panel's own limiter has is in the
part of `_desired` that a provider of desired limits skips. -/
def Rate.Carried : Rate → Prop
  | .mbit n => n * 10 ^ 6 < 2 ^ 67
  | .kbit n => n * 10 ^ 3 < 2 ^ 67

/-- A police action. -/
structure Police where
  rate  : Rate
  burst : Int
  deriving DecidableEq

/-- `_police_burst` -/
def policeBurst (rateMbps : Int) : Int :=
  max (64 * 1024) (min (16 * 1024 * 1024) (rateMbps * 1000000 / 8 / 5))

/-- Something that is put in its place. -/
inductive Put
  | police (index : Int) (action : Police)
  | filter (f : Filter)

def Put.filter? : Put → Option Filter
  | .police _ _ => none
  | .filter f   => some f

def Put.police? : Put → Option (Int × Police)
  | .police index action => some (index, action)
  | .filter _            => none

/-- `_replace_police` -/
def replacePolice (userId : Int) (down : Bool) (rate : Int) : Put :=
  .police (actionIndex userId down) ⟨.mbit rate, policeBurst rate⟩

/-- The filters for what the user is sent. -/
def downFilters (limit : UserLimit) (marks : Marks) : List Filter :=
  let basePref := 1000 + limit.userId * 4
  let baseHandle := 0xC000 + limit.userId * 4
  let down := if limit.downloadMbps ≠ 0 then some (actionIndex limit.userId true) else none
  families.flatMap fun (protocol, prefOffset, handleOffset) =>
    (if limit.downloadMbps ≠ 0 then
      [ingressFlower protocol (basePref + prefOffset) (baseHandle + handleOffset) marks.base down]
    else []) ++ [egressFw protocol (basePref + 1 + prefOffset) marks.down down]

/-- The filters for what the user sends. -/
def upFilters (limit : UserLimit) (marks : Marks) : List Filter :=
  let basePref := 1000 + limit.userId * 4
  let baseHandle := 0xC000 + limit.userId * 4
  let up := if limit.uploadMbps ≠ 0 then some (actionIndex limit.userId false) else none
  families.flatMap fun (protocol, prefOffset, handleOffset) =>
    (if limit.uploadMbps ≠ 0 then
      [egressFw protocol (basePref + 2 + prefOffset) marks.up up]
    else []) ++
      [ingressFlower protocol (basePref + 3 + prefOffset) (baseHandle + 3 + handleOffset)
        marks.outer up]

theorem userFilters_eq (limit : UserLimit) (marks : Marks) :
    userFilters limit marks = downFilters limit marks ++ upFilters limit marks := rfl

/-- What `_install_user_filters` puts, in its order. -/
def userPuts (limit : UserLimit) (marks : Marks) : List Put :=
  ((if limit.downloadMbps ≠ 0 then [replacePolice limit.userId true limit.downloadMbps] else []) ++
      (downFilters limit marks).map .filter) ++
    ((if limit.uploadMbps ≠ 0 then [replacePolice limit.userId false limit.uploadMbps] else []) ++
      (upFilters limit marks).map .filter)

/-- The police action of the quarantine, at a hundredth of the rate. -/
def quarantinePolice (index rate : Int) : Put :=
  .police index ⟨.kbit (max 64 (rate * 10)), 64 * 1024⟩

/-- What `_install_softether_quarantine` puts, in its order. -/
def quarantinePuts : Option (Option Int × Option Int) → List Put
  | none            => []
  | some (up, down) =>
    (match up with
      | none      => []
      | some rate =>
        quarantinePolice 0x5BFE0000 rate ::
          families.flatMap fun (protocol, prefOffset, handleOffset) =>
            [.filter (ingressFlower protocol (30000 + prefOffset) (0xCFFE + handleOffset)
                quarantineMarks.outer (some 0x5BFE0000)),
              .filter (egressFw protocol (30002 + prefOffset) quarantineMarks.up
                (some 0x5BFE0000))]) ++
      match down with
      | none      => []
      | some rate =>
        quarantinePolice 0x5BFE0001 rate ::
          families.flatMap fun (protocol, prefOffset, handleOffset) =>
            [.filter (egressFw protocol (30001 + prefOffset) quarantineMarks.down
                (some 0x5BFE0001)),
              .filter (ingressFlower protocol (30003 + prefOffset) (0xCFFD + handleOffset)
                quarantineMarks.base (some 0x5BFE0001))]

/-- What a whole rule set puts. -/
def putsOf (rules : Dict Int UserLimit) : List Put :=
  (filterUsers rules).flatMap (fun limit => userPuts limit limit.marks) ++
    quarantinePuts (quarantineOf rules.values)

/-- What the state file says of one user, or of the quarantine. -/
structure Saved where
  prefs   : List (Direction × Family × Int)
  actions : List Int

def Filter.place (f : Filter) : Direction × Family × Int := (f.direction, f.protocol, f.pref)

def savedUser (limit : UserLimit) (marks : Marks) : Saved where
  prefs   := (userFilters limit marks).map Filter.place
  actions :=
    (if limit.uploadMbps ≠ 0 then [actionIndex limit.userId false] else []) ++
      if limit.downloadMbps ≠ 0 then [actionIndex limit.userId true] else []

def savedQuarantine (rates : Option (Option Int × Option Int)) : List Saved :=
  rates.toList.map fun (up, down) =>
    { prefs   := (quarantineFilters rates).map Filter.place
      actions :=
        (if up.isSome then [0x5BFE0000] else []) ++ if down.isSome then [0x5BFE0001] else [] }

/-- What the state file says of a whole rule set. -/
def savedOf (rules : Dict Int UserLimit) : List Saved :=
  (filterUsers rules).map (fun limit => savedUser limit limit.marks) ++
    savedQuarantine (quarantineOf rules.values)

/-- The state file. -/
structure StateFile where
  users   : List Saved
  /-- `created_clsact` -/
  created : Bool
  /-- `softether_routed_owned` -/
  routed  : Bool

-- ---------------------------------------------------------------------------
-- The kernel and the commands
-- ---------------------------------------------------------------------------

/-- What the limiter works on. -/
structure Net where
  clsact  : Bool
  /-- the filters that look connections up, one for each protocol -/
  tracks  : List Family
  filters : List Filter
  police  : Dict Int Police
  table   : Option Script
  /-- the SoftEther driver, with the interface it routes its clients through -/
  source  : Option (Option String)
  nat     : Bool
  saved   : StateFile

inductive Command
  | showQdisc
  | addClsact
  | delClsact
  | replaceTrack (protocol : Family)
  | deleteTrack (protocol : Family)
  | addTrack (protocol : Family)
  | replaceFilter (f : Filter)
  | deleteFilter (hook : Hook)
  | addFilter (f : Filter)
  | replacePolice (index : Int) (action : Police)
  | deletePolice (index : Int)
  | listTable
  /-- with or without a line that deletes the table first -/
  | loadTable (script : Script) (replacing : Bool)
  | deleteTable
  | policySource
  | ensureSource (tap : String)
  | disableSource
  | listNat
  | addNat
  | deleteNat
  | save (file : StateFile)

/-- The kernel can take the filter: its preference has 16 bits, its place has no filters of
the other protocol, and its police action exists. -/
structure Net.Free (s : Net) (f : Filter) : Prop where
  clsact : s.clsact = true
  pref   : 1 ≤ f.pref ∧ f.pref ≤ 65535
  place  : ∀ g ∈ s.filters, g.slot = f.slot → g.protocol = f.protocol
  bound  : ∀ index, f.police = some index → ∃ action, s.police.get? index = some action

/-- The command can be carried out. -/
def Command.Accepted (s : Net) : Command → Prop
  | .addClsact          => s.clsact = false
  | .delClsact          => s.clsact = true
  | .replaceTrack _     => s.clsact = true
  | .deleteTrack p      => p ∈ s.tracks
  | .addTrack p         => s.clsact = true ∧ p ∉ s.tracks
  | .replaceFilter f    => s.Free f
  | .deleteFilter hook  => ∃ g ∈ s.filters, g.hook = hook
  | .addFilter f        => s.Free f ∧ ∀ g ∈ s.filters, g.key ≠ f.key
  | .replacePolice _ action => action.rate.Carried
  | .deletePolice index =>
    (∃ action, s.police.get? index = some action) ∧ ∀ g ∈ s.filters, g.police ≠ some index
  | .listTable          => s.table.isSome = true
  | .loadTable _ again  => again = true → s.table.isSome = true
  | .deleteTable        => s.table.isSome = true
  | _                   => True

/-- A filter in the place of what stands at its handle. -/
def putFilter (filters : List Filter) (f : Filter) : List Filter :=
  filters.filter (fun g => decide (g.key ≠ f.key)) ++ [f]

def Script.append (t : Script) (script : Script) : Script :=
  ⟨t.output ++ script.output, t.forward ++ script.forward, t.prerouting ++ script.prerouting⟩

def Command.effect (s : Net) : Command → Net
  | .addClsact                  => { s with clsact := true }
  | .delClsact                  => { s with clsact := false, tracks := [], filters := [] }
  | .replaceTrack p             =>
    { s with tracks := p :: s.tracks.filter fun q => decide (q ≠ p) }
  | .deleteTrack p              => { s with tracks := s.tracks.filter (fun q => decide (q ≠ p)) }
  | .addTrack p                 => { s with tracks := p :: s.tracks }
  | .replaceFilter f            => { s with filters := putFilter s.filters f }
  | .deleteFilter hook          =>
    { s with filters := s.filters.filter fun g => decide (g.hook ≠ hook) }
  | .addFilter f                => { s with filters := s.filters ++ [f] }
  | .replacePolice index action => { s with police := s.police.set index action }
  | .deletePolice index         => { s with police := s.police.pop index }
  | .loadTable script again     =>
    { s with table := some (if again then script else (s.table.elim script (·.append script))) }
  | .deleteTable                => { s with table := none }
  | .ensureSource tap           => { s with source := some (some tap) }
  | .disableSource              => { s with source := some none }
  | .addNat                     => { s with nat := true }
  | .deleteNat                  => { s with nat := false }
  | .save file                  => { s with saved := file }
  | _                           => s

inductive Fault
  /-- the command says no -/
  | refused
  /-- it cannot be executed, or not in time -/
  | broken
  | raised (message : String)
  deriving DecidableEq

/-- When the kernel may refuse a command. It replaces what stands at a hook, lists a table
that exists, and an obliging one refuses nothing that it can carry out but the
replacement of a filter that is not there. -/
def Command.Refusable (obliging : Prop) (s : Net) : Command → Prop
  | .replaceTrack p  => s.clsact = false ∨ p ∉ s.tracks
  | .replaceFilter f => ¬ s.Free f ∨ ∀ g ∈ s.filters, g.hook ≠ f.hook
  | .listTable       => s.table = none
  | c                => obliging → ¬ c.Accepted s

/-- The answers of the kernel. -/
inductive Answers (obliging : Prop) (c : Command) (s : Net) :
    Except Fault Unit → Net → Prop
  | taken : c.Accepted s → Answers obliging c s (.ok ()) (c.effect s)
  | refused : c.Refusable obliging s → Answers obliging c s (.error .refused) s
  | broken : Answers obliging c s (.error .broken) s
  /-- nobody waits for the answer any more -/
  | late : c.Accepted s → Answers obliging c s (.error .broken) (c.effect s)

def kernel (obliging : Prop) : Surroundings Net Fault Command where
  answers   := Answers obliging
  cancelled := .broken

-- ---------------------------------------------------------------------------
-- `reconcile`
-- ---------------------------------------------------------------------------

abbrev Pass : Type → Type := Co Net Fault Command

def onlyIf (condition : Bool) (body : Pass Unit) : Pass Unit := if condition then body else pure ()

/-- A command whose refusal is no error, and whether it was taken. -/
def lax (c : Command) : Pass Bool :=
  Co.guarded (fun e => decide (e = .refused)) (fun _ => pure false) do
    Co.await c
    pure true

/-- `_replace_or_add_filter` -/
def replaceOrAdd (replace delete add : Command) : Pass Unit := do
  if ← lax replace then pure ()
  else do
    let _ ← lax delete
    Co.await add

/-- `_ensure_clsact`, and whether it was missing. -/
def ensureClsact : Pass Bool := do
  Co.await .showQdisc
  let s ← Co.get
  onlyIf (!s.clsact) (Co.await .addClsact)
  Co.forEach (fun p => replaceOrAdd (.replaceTrack p) (.deleteTrack p) (.addTrack p))
    [.ip, .ipv6]
  pure !s.clsact

def put : Put → Pass Unit
  | .police index action => Co.await (.replacePolice index action)
  | .filter f            => replaceOrAdd (.replaceFilter f) (.deleteFilter f.hook) (.addFilter f)

/-- `_install_user_filters`, with what the state file will say. -/
def putUser (limit : UserLimit) : Pass Saved := do
  let marks ← Co.lift ((marksForUser limit.userId).mapError .raised)
  Co.forEach put (userPuts limit marks)
  pure (savedUser limit marks)

/-- `_apply_nft` -/
def applyNft (soft : SoftEther) (rules : Dict Int UserLimit) : Pass Unit := do
  let listed ← lax .listTable
  if rules.values.any UserLimit.limited then do
    let script ← Co.lift ((nftScript soft rules).mapError .raised)
    Co.await (.loadTable script listed)
  else if listed then Co.await .deleteTable
  else pure ()

/-- The hook that a line of the state file stands for. -/
def hookOf (place : Direction × Family × Int) : Hook :=
  ((place.1, if place.1 = .ingress then 901 else 0, place.2.2), place.2.1)

/-- The lines of the state file whose preference the new rules do not use. -/
def obsoletePrefs (previous new : List Saved) : List (Direction × Family × Int) :=
  (previous.flatMap Saved.prefs).filter fun place =>
    !new.any fun saved => saved.prefs.any fun other => decide (other.2.2 = place.2.2)

/-- The police actions that the new rules do not use. -/
def obsoleteActions (previous new : List Saved) : List Int :=
  (previous.flatMap Saved.actions).filter fun index =>
    !(new.flatMap Saved.actions).contains index

/-- Try to delete the actions, and return those that are still there. -/
def deleteWave (pending : List Int) : Pass (List Int) := do
  let left ← Co.mapList (fun index => do
    let deleted ← lax (.deletePolice index)
    pure (if deleted then none else some index)) pending.mergeSort
  pure left.reduceOption

/-- Try so many times. -/
def deleteWaves : Nat → List Int → Pass Unit
  | 0, _           => pure ()
  | n + 1, pending => do
    if pending.isEmpty then pure ()
    else do
      let left ← deleteWave pending
      deleteWaves n left

/-- `_remove_old_tc` -/
def removeOldTc (previous new : List Saved) : Pass Unit := do
  Co.forEach (fun place => do
    let _ ← lax (.deleteFilter (hookOf place))
    pure ()) (obsoletePrefs previous new)
  deleteWaves 4 (obsoleteActions previous new).eraseDups

/-- `_soft_nat_rule` -/
def softNatRule (enabled : Bool) : Pass Unit := do
  let listed ← lax .listNat
  let s ← Co.get
  if enabled then
    if listed && s.nat then pure () else Co.await .addNat
  else if listed && s.nat then do
    let _ ← lax .deleteNat
    pure ()
  else pure ()

/-- `_ensure_softether_routed`: the interface, and who has set it up. -/
def ensureRouted (tap : String) (needed : Bool) : Pass (Option String × Bool) := do
  let s ← Co.get
  if s.source.isNone then
    if needed then Co.raise (.raised "limited SoftEther account has no running driver")
    else pure (none, s.saved.routed)
  else do
    Co.await .policySource
    if needed then do
      onlyIf s.source.join.isNone (Co.await (.ensureSource tap))
      let routed ← Co.get
      softNatRule true
      pure (routed.source.join, s.saved.routed || s.source.join.isNone)
    else do
      softNatRule false
      onlyIf s.saved.routed (Co.await .disableSource)
      pure (none, false)

/-- The part of `reconcile` for a rule set with a limited user. -/
def install (file : StateFile) (soft : SoftEther) (routed : Bool) (rules : Dict Int UserLimit) :
    Pass Unit := do
  let added ← ensureClsact
  let users ← Co.mapList putUser (filterUsers rules)
  let rates := quarantineOf rules.values
  Co.forEach put (quarantinePuts rates)
  applyNft soft rules
  let new := users ++ savedQuarantine rates
  removeOldTc file.users new
  Co.await (.save { users := new, created := file.created || added, routed := routed })

/-- The part for a rule set without. -/
def uninstall (file : StateFile) (soft : SoftEther) (rules : Dict Int UserLimit) : Pass Unit := do
  applyNft soft rules
  removeOldTc file.users []
  onlyIf file.created do
    let _ ← lax .delClsact
    pure ()
  Co.forEach (fun index => do
    let _ ← lax (.deletePolice index)
    pure ()) (file.users.flatMap Saved.actions)
  Co.await (.save { users := [], created := false, routed := false })

/-- `BandwidthLimiter.reconcile`. The interface is the one that SoftEther's driver would set
up. -/
def reconcilePass (tap : String) (rules : Dict Int UserLimit) : Pass Unit := do
  let before ← Co.get
  let (soft, routed) ← ensureRouted tap (softGuard rules)
  if rules.values.any UserLimit.limited then
    install before.saved (SoftEther.ofNode soft) routed rules
  else uninstall before.saved (SoftEther.ofNode soft) rules

-- ---------------------------------------------------------------------------
-- What every command keeps
-- ---------------------------------------------------------------------------

/-- No place has filters of two protocols, no filter lacks its police action. -/
structure Net.Sane (s : Net) : Prop where
  clsact : s.filters ≠ [] → s.clsact = true
  pref   : ∀ f ∈ s.filters, 1 ≤ f.pref ∧ f.pref ≤ 65535
  place  : ∀ f ∈ s.filters, ∀ g ∈ s.filters, g.slot = f.slot → g.protocol = f.protocol
  bound  : ∀ f ∈ s.filters, ∀ index, f.police = some index →
             ∃ action, s.police.get? index = some action

section Sane

variable {s : Net} {f g : Filter} {c : Command}

theorem mem_putFilter {filters : List Filter} :
    g ∈ putFilter filters f ↔ g ∈ filters ∧ g.key ≠ f.key ∨ g = f := by
  rw [putFilter, List.mem_append, List.mem_filter, List.mem_singleton, decide_eq_true_iff]

theorem Net.Sane.with_filter (h : s.Sane) (hFree : s.Free f) {filters : List Filter}
    (hSub : ∀ g ∈ filters, g ∈ s.filters ∨ g = f) : ({ s with filters := filters } : Net).Sane where
  clsact _ := hFree.clsact
  pref := by
    intro g hMem
    rcases hSub g hMem with hOld | rfl
    · exact h.pref g hOld
    · exact hFree.pref
  place := by
    intro g hMem g' hMem' hSlot
    rcases hSub g hMem with hOld | rfl
    · rcases hSub g' hMem' with hOld' | rfl
      · exact h.place g hOld g' hOld' hSlot
      · exact (hFree.place g hOld hSlot.symm).symm
    · rcases hSub g' hMem' with hOld' | rfl
      · exact hFree.place g' hOld' hSlot
      · rfl
  bound := by
    intro g hMem
    rcases hSub g hMem with hOld | rfl
    · exact h.bound g hOld
    · exact hFree.bound

/-- Fewer filters, and all the police actions they have. -/
theorem Net.Sane.fewer (h : s.Sane) {s' : Net} (hClsact : s'.filters ≠ [] → s'.clsact = s.clsact)
    (hSub : ∀ g ∈ s'.filters, g ∈ s.filters)
    (hPolice : ∀ g ∈ s'.filters, ∀ index, g.police = some index →
      ∀ action, s.police.get? index = some action →
        ∃ action', s'.police.get? index = some action') : s'.Sane where
  clsact := by
    intro hSome
    obtain ⟨g, hMem⟩ := List.exists_mem_of_ne_nil _ hSome
    rw [hClsact hSome]
    exact h.clsact (List.ne_nil_of_mem (hSub g hMem))
  pref g hMem := h.pref g (hSub g hMem)
  place g hMem g' hMem' := h.place g (hSub g hMem) g' (hSub g' hMem')
  bound := by
    intro g hMem index hIndex
    obtain ⟨action, hAction⟩ := h.bound g (hSub g hMem) index hIndex
    exact hPolice g hMem index hIndex action hAction

theorem Net.Sane.effect (h : s.Sane) (hAccepted : c.Accepted s) : (c.effect s).Sane := by
  -- most commands leave filters, hook and actions alone
  have hSame {s' : Net} (hFilters : s'.filters = s.filters) (hClsact : s'.clsact = s.clsact)
      (hPolice : s'.police = s.police) : s'.Sane := by
    refine h.fewer (fun _ => hClsact) (fun g hMem => hFilters ▸ hMem) ?_
    intro g hMem index hIndex action hAction
    exact ⟨action, hPolice ▸ hAction⟩
  cases c with
  | addClsact =>
    refine { h with clsact := fun _ => rfl }
  | delClsact =>
    refine h.fewer (fun hSome => absurd rfl hSome) (fun g hMem => absurd hMem List.not_mem_nil) ?_
    intro g hMem
    cases hMem
  | replaceFilter f =>
    refine h.with_filter hAccepted fun g hMem => ?_
    exact (mem_putFilter.mp hMem).imp And.left id
  | addFilter f =>
    refine h.with_filter hAccepted.1 fun g hMem => ?_
    exact (List.mem_append.mp hMem).imp id List.mem_singleton.mp
  | deleteFilter hook =>
    refine h.fewer (fun _ => rfl) (fun g hMem => List.mem_of_mem_filter hMem) ?_
    intro g hMem index hIndex action hAction
    exact ⟨action, hAction⟩
  | replacePolice i a =>
    refine h.fewer (fun _ => rfl) (fun g hMem => hMem) ?_
    intro g hMem index hIndex action hAction
    show ∃ action', (s.police.set i a).get? index = some action'
    rw [Dict.get?_set]
    split
    · exact ⟨a, rfl⟩
    · exact ⟨action, hAction⟩
  -- an action goes only if no filter is bound to it
  | deletePolice i =>
    refine h.fewer (fun _ => rfl) (fun g hMem => hMem) ?_
    intro g hMem index hIndex action hAction
    have hOther : index ≠ i := fun hEq => hAccepted.2 g hMem (hEq ▸ hIndex)
    refine ⟨action, ?_⟩
    show (s.police.pop i).get? index = some action
    rw [Dict.get?_pop, if_neg hOther, hAction]
  | _ => exact hSame rfl rfl rfl

end Sane

-- ---------------------------------------------------------------------------
-- Rules for a pass
-- ---------------------------------------------------------------------------

/-- `M` holds at all moments of the pass, the ones where it raises included, and `A` where it
returns. -/
def Holds {α : Type} (obliging : Prop) (M : Net → Prop) (A : α → Net → Prop) (x : Pass α)
    (s : Net) : Prop :=
  x.Along (kernel obliging) (fun _ => M) (fun _ => M) A s

section Rules

variable {α β ι : Type} {obliging : Prop} {M : Net → Prop} {A : α → Net → Prop} {s : Net}
  {c : Command} {x : Pass α}

theorem Holds.mono {A' : α → Net → Prop} (h : Holds obliging M A x s)
    (hA : ∀ a s, A a s → A' a s) : Holds obliging M A' x s :=
  Co.Along.mono h (fun _ _ => id) (fun _ _ => id) hA

theorem Holds.bind {B : β → Net → Prop} {f : α → Pass β} (h : Holds obliging M A x s)
    (hNext : ∀ a s, A a s → Holds obliging M B (f a) s) : Holds obliging M B (x >>= f) s :=
  Co.along_bind.mpr (h.mono hNext)

theorem Holds.pure {a : α} (h : A a s) : Holds obliging M A (Pure.pure a) s := h

theorem Holds.get_bind {g : Net → Pass α} (h : Holds obliging M A (g s) s) :
    Holds obliging M A (Co.get >>= g) s := h

/-- A command that must be taken. -/
theorem Holds.await {A : Unit → Net → Prop} (hHere : M s)
    (hLate : c.Accepted s → M (c.effect s)) (hGoes : c.Accepted s → A () (c.effect s)) :
    Holds obliging M A (Co.await c) s := by
  refine Co.Along.await hHere ?_ ?_
  · rintro e s' (_ | _ | _ | hAccepted)
    · exact hHere
    · exact hHere
    · exact hLate hAccepted
  · rintro s' (hAccepted | _ | _ | _)
    exact hGoes hAccepted

/-- A command that may be refused. -/
theorem Holds.lax {A : Bool → Net → Prop} (hHere : M s)
    (hLate : c.Accepted s → M (c.effect s)) (hTaken : c.Accepted s → A true (c.effect s))
    (hRefused : c.Refusable obliging s → A false s) : Holds obliging M A (lax c) s := by
  refine Co.along_guarded.mpr (Co.Along.await_bind hHere ?_ ?_)
  · rintro e s' (_ | hRefusable | _ | hAccepted)
    · exact hRefused hRefusable
    · exact hHere
    · exact hLate hAccepted
  · rintro s' (hAccepted | _ | _ | _)
    exact hTaken hAccepted

end Rules

end ZagrosNode.Bandwidth
