import ZagrosNode.WireGuard.Render
import ZagrosNode.WireGuard.Steps

/-!
# ZagrosNode — an apply that times out

The timeout of the request cancels the apply at the await it stands at. The
cancellation is no ordinary exception, so neither the driver nor the manager puts
anything back: what the apply had done by then stays. Between taking the old
interfaces down and bringing the new ones up that is neither the old nor the new
configuration, and the core is still recorded as running.

Every await has a `Place`, and three kinds of places answer differently.

* **Before and after.** Up to the takedown, and from the record of the new state on, a
  timeout is harmless (`HarmlessAt`): the configuration is one of the two, with its
  interfaces.
* **Around** the takedown and the bringing up the configuration in memory is whole, and
  some of its interfaces may be missing. Whether they are is decided by the calls that
  were carried out before the timeout: the last one about an interface leaves it up or
  down (`UpAfter`). A core that was not recorded as running owes no interfaces.
* **Between** the two configurations, while server keys and accounts are provided, the
  new rows are in place and the old interfaces are down. A running core is harmed there
  in any case, and one that does not run unless nothing has changed yet.

The induction is over the coroutine, with `Shown` at its awaits: what of the old and the
new configuration is there, and which interfaces. That the calls decide is a second
invariant of the same run: between two awaits the code changes no interface
(`Tamed`), so the interfaces at the end are those of the start after the calls.

Main results:

* `applyStudioDocument_tame` — no `except` clause takes the cancellation.
* `timed_out` — at which awaits the timeout leaves all or nothing, and what
  decides it at the others.
* `timed_out_between` — a running core without server keys and interfaces.
-/

namespace ZagrosNode.WireGuard

open ZagrosNode.Lib ZagrosNode.Cores ZagrosNode.Accounts Co
open ZagrosNode.Drivers (Lang)

-- ---------------------------------------------------------------------------
-- All or nothing
-- ---------------------------------------------------------------------------

/-- Every interface of the configuration in memory is up. -/
def AllUp (s : World) : Prop := ∀ e ∈ s.memory.backends.entries, s.up e.2.interface = true

/-- The same settings, backends, server keys and account settings. -/
structure Alike (old m : Memory) : Prop where
  desired    : m.desired = old.desired
  backends   : m.backends = old.backends
  serverKeys : m.serverKeys = old.serverKeys
  accounts   : ∀ id, (m.roster.table.get? id).map UserAccount.settings =
    (old.roster.table.get? id).map UserAccount.settings

/-- The rows of the document with their backends, a pair of server keys for each
and for nothing else, and every account provided for them. -/
structure OfDocument (t : Studio) (document : Settings) (old m : Memory) : Prop where
  rows     : parseStudioDocument t.lang old.desired document = .ok m.desired.rows
  flat     : m.desired.flat = mirror m.desired.rows old.desired.flat
  backends : m.backends = configureBackendSet t.lang ⟨m.desired.rows, old.desired.flat⟩
  keys     : ∀ tag, tag ∈ m.serverKeys.keys ↔ tag ∈ m.desired.rows.map (tagOf t.lang)
  ids      : m.roster.ids = old.roster.ids
  accounts : ∃ ls, listenersOf t.lang m.desired = .ok ls ∧
    ∀ id account, m.roster.table.get? id = some account → Provisioned t ls account.settings

/-- The configuration is that from before or that of the document, and a core
recorded as running has all its interfaces. -/
def AllOrNothing (t : Studio) (document : Settings) (s s' : World) : Prop :=
  (Alike s.memory s'.memory ∨ OfDocument t document s.memory s'.memory) ∧
    (s'.recorded = .running → AllUp s')

/-- A driver has backends, and one that is recorded as running has their
interfaces. -/
structure Sound (s : World) : Prop where
  backends : s.memory.backends.entries ≠ []
  running  : s.recorded = .running → AllUp s

/-- Every row has its server keys. -/
def Keyed (lang : Lang) (m : Memory) : Prop :=
  ∀ tag ∈ m.desired.rows.map (tagOf lang), tag ∈ m.serverKeys.keys

/-- Where a timeout does no harm. -/
def HarmlessAt (t : Studio) (document : Settings) (s : World) : Place → Prop
  | .keys | .accounts => False
  | .takedown | .bringUp | .cleanup | .rollback => s.recorded ≠ .running
  | .failedCheck => s.recorded ≠ .running ∨
      ∃ e, parseStudioDocument t.lang s.memory.desired document = .error e
  | .lock | .probe | .failedRecord | .check | .record | .start | .save => True

/-- Where it always does. -/
def HarmfulAt (lang : Lang) (s : World) : Place → Prop
  | .keys     => s.recorded = .running ∨ Keyed lang s.memory
  | .accounts => s.recorded = .running
  | _         => False

theorem Alike.refl (m : Memory) : Alike m m := ⟨rfl, rfl, rfl, fun _ => rfl⟩

theorem allOrNothing_congr {t : Studio} {document : Settings} {s₀ s s' : World} (h : Near s s') :
    AllOrNothing t document s₀ s' ↔ AllOrNothing t document s₀ s := by
  unfold AllOrNothing AllUp
  rw [h.memory, h.recorded, h.up]

/-- The place is between the takedown and the new configuration. -/
def Place.between : Place → Bool
  | .keys | .accounts => true
  | _                 => false

theorem Place.eq_of_between {place : Place} (h : place.between = true) :
    place = .keys ∨ place = .accounts := by
  cases place with
  | keys => exact Or.inl rfl
  | accounts => exact Or.inr rfl
  | lock | probe | takedown | bringUp | cleanup | rollback | failedCheck | failedRecord | check
  | record | start | save => cases h

theorem HarmlessAt.not_between {t : Studio} {document : Settings} {s : World} {place : Place}
    (h : HarmlessAt t document s place) : place.between = false := by
  cases place with
  | keys | accounts => exact h.elim
  | lock | probe | takedown | bringUp | cleanup | rollback | failedCheck | failedRecord | check
  | record | start | save => rfl

/-- At the place the interfaces of the core are taken down or brought up, or the
manager looks at what a failure has left of them. -/
def Place.around : Place → Bool
  | .takedown | .bringUp | .cleanup | .rollback | .failedCheck => true
  | _                                                          => false

/-- The backends of the configuration in memory there: those of the rows of the
document while these are brought up, and those from before otherwise. -/
def backendsAt (t : Studio) (document : Settings) (s : World) : Place → Dict String Backend
  | .bringUp | .cleanup =>
    match parseStudioDocument t.lang s.memory.desired document with
    | .ok rows => configureBackendSet t.lang ⟨rows, s.memory.desired.flat⟩
    | .error _ => Dict.empty
  | _ => s.memory.backends

/-- Their interfaces are up after the calls that were carried out. -/
def UpAfter (t : Studio) (document : Settings) (s : World) (place : Place)
    (calls : List (Stop × World)) : Prop :=
  ∀ e ∈ (backendsAt t document s place).entries, upAfter s.up calls e.2.interface = true

/-- A place is harmless, or around the interfaces of a running core. -/
theorem HarmlessAt.or_around {t : Studio} {document : Settings} {s : World} {place : Place}
    (hOutside : place.between = false) :
    HarmlessAt t document s place ∨ place.around = true ∧ s.recorded = .running := by
  cases place with
  | keys | accounts => cases hOutside
  | takedown | bringUp | cleanup | rollback =>
    by_cases hRunning : s.recorded = .running
    · exact Or.inr ⟨rfl, hRunning⟩
    · exact Or.inl hRunning
  | failedCheck =>
    by_cases hRunning : s.recorded = .running
    · exact Or.inr ⟨rfl, hRunning⟩
    · exact Or.inl (Or.inl hRunning)
  | lock | probe | failedRecord | check | record | start | save => exact Or.inl trivial

/-- What a timeout leaves. Outside the places between it is one configuration or
the other, and only its interfaces may be missing; between them it is all or
nothing only as long as nothing has changed. -/
structure Left (t : Studio) (document : Settings) (s₀ : World) (place : Place) (s' : World) :
    Prop where
  outside  : place.between = false →
    (AllOrNothing t document s₀ s' ↔ (s'.recorded = .running → AllUp s'))
  around   : place.around = true →
    s'.recorded = s₀.recorded ∧ s'.memory.backends = backendsAt t document s₀ place
  between  : place.between = true →
    (AllOrNothing t document s₀ s' ↔ s₀.recorded ≠ .running ∧ Alike s₀.memory s'.memory)
  harmless : HarmlessAt t document s₀ place → AllOrNothing t document s₀ s'
  harmful  : HarmfulAt t.lang s₀ place → ¬ AllOrNothing t document s₀ s'

/-- What the coroutine keeps true at its awaits, so that this is left whatever the
call then does. -/
structure Shown (t : Studio) (document : Settings) (s₀ : World) (stop : Stop) (s : World) :
    Prop where
  whole    : stop.place.between = false →
    Alike s₀.memory s.memory ∨ OfDocument t document s₀.memory s.memory
  around   : stop.place.around = true →
    s.recorded = s₀.recorded ∧ s.memory.backends = backendsAt t document s₀ stop.place
  harmless : HarmlessAt t document s₀ stop.place → s.recorded = .running →
    stop.call.readsOnly = true ∧ AllUp s
  half     : stop.place.between = true → stop.call.leavesUp = true ∧
    (AllOrNothing t document s₀ s ↔ s₀.recorded ≠ .running ∧ Alike s₀.memory s.memory)
  keyed    : stop.place = .keys → Keyed t.lang s₀.memory → ¬ Alike s₀.memory s.memory

theorem Shown.of_leaves {t : Studio} {document : Settings} {s₀ s s' : World} {stop : Stop}
    (h : Shown t document s₀ stop s) (hLeaves : surroundings.Leaves stop s s') :
    Left t document s₀ stop.place s' := by
  -- the call that is cancelled changes no memory, whether it is carried out or not
  have hStill : Still s s' := by
    rcases hLeaves with rfl | ⟨r, hAnswer⟩
    · exact Still.refl s'
    · exact surroundings_still hAnswer
  have hWhole : stop.place.between = false →
      (AllOrNothing t document s₀ s' ↔ (s'.recorded = .running → AllUp s')) :=
    fun hPlace => and_iff_right (hStill.memory ▸ h.whole hPlace)
  have hHalf : stop.place.between = true →
      (AllOrNothing t document s₀ s' ↔ s₀.recorded ≠ .running ∧ Alike s₀.memory s'.memory) := by
    intro hPlace
    obtain ⟨hUp, hIff⟩ := h.half hPlace
    -- between the configurations it changes no interface either
    have hNear : Near s s' := by
      rcases hLeaves with rfl | ⟨r, hAnswer⟩
      · exact Near.refl s'
      · exact answers_near hUp hAnswer
    rw [allOrNothing_congr hNear, hIff, hNear.memory]
  refine ⟨hWhole, fun hPlace => ?_, hHalf, fun hPlace => ?_, fun hPlace hAll => ?_⟩
  · rw [hStill.recorded, hStill.memory]
    exact h.around hPlace
  -- harmless: the call only reads, and the interfaces were up at the await
  · refine (hWhole hPlace.not_between).mpr fun hRunning => ?_
    obtain ⟨hReads, hUp⟩ := h.harmless hPlace (hStill.recorded ▸ hRunning)
    rcases hLeaves with rfl | ⟨r, hAnswer⟩
    · exact hUp
    · exact answers_same hReads hAnswer ▸ hUp
  -- harmful: the two places between, and no other
  · obtain ⟨place, c⟩ := stop
    cases place with
    | keys =>
      obtain ⟨hNot, hAlike⟩ := (hHalf rfl).mp hAll
      exact hPlace.elim hNot fun hKeyed => h.keyed rfl hKeyed (hStill.memory ▸ hAlike)
    | accounts => exact ((hHalf rfl).mp hAll).1 hPlace
    | lock | probe | takedown | bringUp | cleanup | rollback | failedCheck | failedRecord | check
    | record | start | save => exact hPlace.elim

-- ---------------------------------------------------------------------------
-- The cancellation passes, and only calls change interfaces
-- ---------------------------------------------------------------------------

/-- No `except` clause takes the timeout from an await, and between awaits no
interface is changed. -/
abbrev Tamed {α : Type} (x : Way α) : Prop := x.Tame DriverError.timeout World.up

section Passing

variable {t : Studio} {lang : Lang} {place undoing : Place}

theorem tame_guarded {α : Type} {x : Way α} {handler : DriverError → Way α}
    (hx : Tamed x) (hHandler : ∀ e, Tamed (handler e)) :
    Tamed (x.guarded DriverError.isException handler) := hx.guarded rfl hHandler

theorem tame_onlyIf {condition : Prop} [Decidable condition] {body : Way Unit}
    (h : Tamed body) : Tamed (onlyIf condition body) := by
  unfold onlyIf
  split
  · exact h
  · exact Tame.pure ()

theorem tame_isRunning (b : Backend) : Tamed (isRunning place b) :=
  (Tame.await _).bind fun _ => Tame.get.bind fun _ => Tame.pure _

theorem tame_backendOf (row : Settings) : Tamed (backendOf lang row) := by
  refine Tame.get.bind fun s => ?_
  cases s.memory.backends.get? (tagOf lang row) with
  | none => exact Tame.raise _
  | some b => exact Tame.pure b

theorem tame_ensureServerKeys (b : Backend) : Tamed (ensureServerKeys t place b) := by
  refine (Tame.await _).bind fun _ => Tame.get.bind fun s => ?_
  cases s.keyFile b with
  | none => exact Tame.raise _
  | some key => exact Tame.lift _

theorem tame_provideServerKeys (old : Dict String (String × String))
    (inbound : Json × Settings) : Tamed (provideServerKeys t old inbound) := by
  unfold provideServerKeys serverKeysFor
  refine (tame_backendOf _).bind fun b =>
    Tame.bind ?_ fun _ => Tame.modify (World.up_putServerKeys _ _)
  split
  · exact Tame.pure _
  · split
    · exact tame_ensureServerKeys b
    · exact (Tame.await _).bind fun _ => (Tame.lift _).bind fun _ =>
        (Tame.await _).bind fun _ => Tame.pure _

theorem tame_provideAddresses (account keyed : UserAccount) :
    Tamed (provideAddresses t place account keyed) := by
  refine Tame.get.bind fun s => (Tame.lift _).bind fun ls => (Tame.lift _).bind fun granted =>
    Tame.bind ?_ fun _ => Tame.get.bind fun _ => (Tame.lift _).bind fun _ =>
      Tame.modify (World.up_putAccount _)
  unfold providePreshared
  dsimp only
  split
  · exact (Tame.await _).bind fun _ =>
      (Tame.modify (World.up_putAccount _)).bind fun _ => Tame.pure _
  · exact Tame.pure _

theorem tame_provision (id : String) : Tamed (provision t place id) := by
  refine Tame.get.bind fun s => ?_
  cases s.memory.roster.table.get? id with
  | none => exact Tame.pure ()
  | some account =>
    refine Tame.bind ?_ fun keyed => ?_
    · unfold provideKeypair
      split
      · exact Tame.pure account
      · exact (Tame.await _).bind fun _ =>
      (Tame.modify (World.up_putAccount _)).bind fun _ => Tame.pure _
    · split
      · exact tame_provideAddresses account keyed
      · exact Tame.raise _

theorem tame_repairChainAddress : Tamed (repairChainAddress t) := by
  refine Tame.get.bind fun s => ?_
  cases s.chain with
  | none => exact Tame.pure ()
  | some peer =>
    exact (Tame.lift _).bind fun _ => (Tame.lift _).bind fun _ =>
      Tame.modify (World.up_withChain _)

theorem tame_cleanUp (started : List Backend) : Tamed (cleanUp place started) :=
  Tame.forEach (fun _ => tame_guarded (Tame.await _) fun _ => Tame.pure ()) started

theorem tame_bringUp (started : List Backend) (rows : List Settings) :
    Tamed (bringUp t place undoing started rows) := by
  induction rows generalizing started with
  | nil => exact Tame.pure ()
  | cons row rest ih =>
    have hUndo : ∀ (started : List Backend) (e : DriverError),
        Tamed (cleanUp undoing started >>= fun _ => raise e : Way Backend) :=
      fun started e => (tame_cleanUp started).bind fun _ => Tame.raise e
    unfold bringUp
    dsimp only
    refine Tame.bind (tame_guarded ?_ (hUndo started)) fun b =>
      Tame.bind (tame_guarded ?_ (hUndo (b :: started))) fun _ => ih _
    · exact (tame_backendOf row).bind fun _ => Tame.get.bind fun _ => (Tame.lift _).bind
        fun _ => (Tame.await _).bind fun _ => Tame.pure _
    · exact (Tame.await _).bind fun _ => Tame.pure _

theorem tame_restore (row : Settings) : Tamed (restore t row) := by
  unfold restore
  refine (tame_backendOf row).bind fun b => tame_guarded ?_ fun _ => Tame.pure ()
  refine (tame_isRunning b).bind fun running => ?_
  split
  · exact Tame.pure ()
  · exact Tame.get.bind fun _ => (Tame.lift _).bind fun _ => (Tame.await _).bind fun _ =>
      Tame.await _

theorem tame_applyDocument (document : Settings) :
    Tamed (applyDocument t document) := by
  refine Tame.get.bind fun s => (Tame.lift _).bind fun rows => (Tame.lift _).bind
    fun inbounds => (Tame.mapList (fun (e : String × Backend) => (tame_isRunning e.2).bind
      fun _ => Tame.pure _) _).bind fun probed => tame_guarded ?_ fun e => ?_
  · refine (Tame.forEach (fun _ => Tame.await _) _).bind fun _ =>
      (Tame.modify (World.up_install t.lang rows)).bind
      fun _ => (Tame.forEach (tame_provideServerKeys _) _).bind fun _ => ?_
    exact (Tame.forEach tame_provision _).bind fun _ =>
      tame_repairChainAddress.bind fun _ => tame_onlyIf (tame_bringUp _ _)
  · exact (Tame.modify (World.up_withMemory s.memory)).bind fun _ =>
      (tame_onlyIf (Tame.forEach tame_restore _)).bind fun _ => Tame.raise e

theorem tame_start : Tamed (start t) := by
  refine Tame.get.bind fun s => (Tame.forEach (fun row => ?_) _).bind fun _ => Tame.get.bind
    fun _ => (Tame.forEach tame_provision _).bind fun _ =>
      tame_repairChainAddress.bind fun _ => Tame.get.bind fun _ => tame_bringUp _ _
  exact (tame_backendOf row).bind fun b => (tame_ensureServerKeys b).bind fun _ =>
    Tame.modify (World.up_putServerKeys _ _)

theorem tame_status : Tamed (status t place) := by
  refine Tame.get.bind fun s => (Tame.mapList (fun row =>
    (tame_backendOf row).bind fun b => tame_isRunning b) _).bind fun found =>
      (Tame.await _).bind fun _ => (tame_onlyIf ?_).bind fun _ => Tame.pure _
  exact (Tame.await _).bind fun _ => (Tame.await _).bind fun _ => Tame.await _

theorem tame_setState (state : CoreState) : Tamed (setState place state) :=
  (Tame.modify (World.up_record state)).bind fun _ => (Tame.await _).bind fun _ => Tame.await _

theorem tame_afterFailure (before : CoreState) (e : DriverError) :
    Tamed (afterFailure t before e) :=
  (tame_guarded (tame_status.bind fun _ => Tame.pure _) fun _ => Tame.pure _).bind
    fun _ => (tame_onlyIf (tame_setState _)).bind fun _ => Tame.raise e

theorem tame_afterSuccess (before : CoreState) : Tamed (afterSuccess t before) := by
  refine tame_status.bind fun actual => ?_
  split
  · exact tame_onlyIf (tame_setState _)
  · refine (tame_setState _).bind fun _ => (tame_guarded tame_start fun e => ?_).bind
      fun _ => tame_setState _
    exact (tame_setState _).bind fun _ => Tame.raise e

/--
**The cancellation passes.** No `except` clause of the apply takes it, and
whether an interface is up only its calls decide.
-/
theorem applyStudioDocument_tame (document : Settings) :
    Tamed (applyStudioDocument t document) :=
  (Tame.await _).bind fun _ => Tame.get.bind fun s =>
    (tame_guarded (tame_applyDocument document) (tame_afterFailure s.recorded)).bind fun _ =>
      (tame_onlyIf (tame_afterSuccess s.recorded)).bind fun _ => Tame.await _

end Passing

-- ---------------------------------------------------------------------------
-- The driver
-- ---------------------------------------------------------------------------

section Applied

variable {t : Studio} {document : Settings} {s₀ s s' : World} {rows : List Settings}

theorem shown_of_still {c : Call} {place : Place} (hPlace : place = .takedown ∨ place = .bringUp ∨
      place = .cleanup ∨ place = .rollback) (hRecorded : s.recorded = s₀.recorded)
    (hMemory : Alike s₀.memory s.memory ∨ OfDocument t document s₀.memory s.memory)
    (hBackends : s.memory.backends = backendsAt t document s₀ place) :
    Shown t document s₀ ⟨place, c⟩ s := by
  have hOutside : place.between = false := by
    rcases hPlace with rfl | rfl | rfl | rfl <;> rfl
  refine ⟨fun _ => hMemory, fun _ => ⟨hRecorded, hBackends⟩, fun hHarmless hRunning => ?_,
    fun h => ?_, fun h => ?_⟩
  · have hNot : s₀.recorded ≠ .running := by
      rcases hPlace with rfl | rfl | rfl | rfl <;> exact hHarmless
    exact absurd (hRecorded ▸ hRunning) hNot
  · exact absurd (hOutside.symm.trans h) Bool.false_ne_true
  · rw [show place = .keys from h] at hOutside
    cases hOutside

/-- A call that reads where nothing is harmful. -/
theorem shown_reads {c : Call} {place : Place} (hPlace : place.between = false)
    (hReads : c.readsOnly = true)
    (hMemory : Alike s₀.memory s.memory ∨ OfDocument t document s₀.memory s.memory)
    (hUp : HarmlessAt t document s₀ place → s.recorded = .running → AllUp s)
    (hAround : place.around = true →
      s.recorded = s₀.recorded ∧ s.memory.backends = backendsAt t document s₀ place) :
    Shown t document s₀ ⟨place, c⟩ s := by
  refine ⟨fun _ => hMemory, hAround, fun hHarmless hRunning => ⟨hReads, hUp hHarmless hRunning⟩,
    fun h => ?_, fun h => ?_⟩
  · exact absurd (hPlace.symm.trans h) Bool.false_ne_true
  · rw [show place = .keys from h] at hPlace
    cases hPlace

theorem filter_probed {ι : Type} {up : ι → Bool} {items : List ι} {probed : List (ι × Bool)}
    (h : List.Forall₂ (fun i found => found = (i, up i)) items probed) :
    (probed.filter Prod.snd).map Prod.fst = items.filter up := by
  induction h with
  | nil => rfl
  | cons hFirst _ ih =>
    rw [hFirst, List.filter_cons, List.filter_cons]
    dsimp only
    split
    · rw [List.map_cons, ih]
    · exact ih

/-- The probes find the old interfaces that are up. -/
theorem along_probe (hSound : Sound s₀) {E : DriverError → World → Prop} :
    (mapList
      (fun (e : String × Backend) => do
        let running ← isRunning .probe e.2
        pure (e, running))
      s₀.memory.backends.entries).Along surroundings (Shown t document s₀) E
        (fun probed s => s = s₀ ∧ (probed.filter Prod.snd).map Prod.fst =
          s₀.memory.backends.entries.filter fun e => s₀.up e.2.interface) s₀ := by
  refine (Along.mapList (fun s => s = s₀) (fun e found => found = (e, s₀.up e.2.interface))
    ?_ rfl).mono (fun _ _ => id) (fun _ _ => id) ?_
  · rintro e - _ rfl
    rw [along_bind]
    exact along_isRunning (shown_reads rfl rfl (Or.inl (Alike.refl _)) (fun _ => hSound.running)
      fun h => by cases h) ⟨rfl, rfl⟩
  · rintro probed s ⟨hSame, hProbed⟩
    exact ⟨hSame, filter_probed hProbed⟩

/-- The old interfaces are down. -/
def AllDown (s₀ s : World) : Prop :=
  ∀ e ∈ s₀.memory.backends.entries, s.up e.2.interface = false

theorem along_takedown {E : DriverError → World → Prop} {B : Unit → World → Prop}
    (hE : ∀ e s, s.recorded = s₀.recorded → E e s)
    (hB : ∀ s, Still s₀ s → AllDown s₀ s → B () s) :
    (forEach (fun (e : String × Backend) => await ⟨.takedown, .down e.2⟩)
      (s₀.memory.backends.entries.filter fun e => s₀.up e.2.interface).reverse).Along surroundings
        (Shown t document s₀) E B s₀ := by
  -- the induction is on the interfaces taken down; those that were down stay so
  refine (Along.forEach (fun done s => Still s₀ s ∧ (∀ e ∈ done, s.up e.2.interface = false) ∧
      ∀ i, s₀.up i = false → s.up i = false) ?_
    ⟨Still.refl s₀, fun e he => absurd he List.not_mem_nil, fun _ => id⟩).mono
      (fun _ _ => id) (fun _ _ => id) ?_
  · rintro done e rest - s ⟨hStill, hDone, hKept⟩
    have hAlike : Alike s₀.memory s.memory := hStill.memory ▸ Alike.refl _
    refine Along.await
      (shown_of_still (Or.inl rfl) hStill.recorded (Or.inl hAlike) hAlike.backends)
      (fun e s' hAnswer => hE e s' (hStill.trans (surroundings_still hAnswer)).recorded) ?_
    rintro _ ⟨v, rfl, hFalse⟩
    obtain rfl := hFalse rfl
    -- another interface of the same name would be the same interface
    have hDown : ∀ i, s.up i = false → (s.setUp e.2 false).up i = false := by
      intro i hi
      show Function.update s.up e.2.interface false i = false
      by_cases hSame : i = e.2.interface
      · rw [hSame, Function.update_self]
      · rwa [Function.update_of_ne hSame]
    refine ⟨hStill.trans (still_setUp _ _ _), fun e' he' => ?_, fun i hi => hDown i (hKept i hi)⟩
    rcases List.mem_append.mp he' with hOld | hNew
    · exact hDown _ (hDone e' hOld)
    · obtain rfl := List.mem_singleton.mp hNew
      show Function.update s.up e'.2.interface false e'.2.interface = false
      rw [Function.update_self]
  -- at the end every old interface is one that was visited or was down before
  · rintro ⟨⟩ s ⟨hStill, hDone, hKept⟩
    refine hB s hStill fun e he => ?_
    cases hUp : s₀.up e.2.interface with
    | false => exact hKept _ hUp
    | true => exact hDone e (List.mem_reverse.mpr (List.mem_filter.mpr ⟨he, hUp⟩))

-- ---------------------------------------------------------------------------
-- The new rows
-- ---------------------------------------------------------------------------

/-- The new rows are in place and the old interfaces down. -/
structure Between (t : Studio) (s₀ : World) (rows : List Settings) (s : World) : Prop where
  desired  : s.memory.desired = ⟨rows, mirror rows s₀.memory.desired.flat⟩
  backends : s.memory.backends = configureBackendSet t.lang ⟨rows, s₀.memory.desired.flat⟩
  ids      : s.memory.roster.ids = s₀.memory.roster.ids
  recorded : s.recorded = s₀.recorded
  down     : AllDown s₀ s

theorem Between.near (h : Between t s₀ rows s) (hNear : Near s s') : Between t s₀ rows s' where
  desired  := hNear.memory ▸ h.desired
  backends := hNear.memory ▸ h.backends
  ids      := hNear.memory ▸ h.ids
  recorded := hNear.recorded.trans h.recorded
  down     := fun e he => hNear.up ▸ h.down e he

theorem Between.touched (h : Between t s₀ rows s) {id : String} (hTouched : Touched id s s') :
    Between t s₀ rows s' where
  desired  := hTouched.desired.trans h.desired
  backends := hTouched.backends.trans h.backends
  ids      := hTouched.ids.trans h.ids
  recorded := hTouched.recorded.trans h.recorded
  down     := fun e he => hTouched.up ▸ h.down e he

/-- With the interfaces down a running core does not have the configuration from
before. -/
theorem Between.allOrNothing_iff (h : Between t s₀ rows s) (hSound : Sound s₀)
    (hDocument : ¬ OfDocument t document s₀.memory s.memory) :
    AllOrNothing t document s₀ s ↔ s₀.recorded ≠ .running ∧ Alike s₀.memory s.memory := by
  constructor
  · rintro ⟨hMemory, hRunning⟩
    have hAlike := hMemory.resolve_right hDocument
    refine ⟨fun hRecorded => ?_, hAlike⟩
    obtain ⟨e, he⟩ := List.exists_mem_of_ne_nil _ hSound.backends
    have hUp := hRunning (h.recorded.trans hRecorded) e (hAlike.backends ▸ he)
    rw [h.down e he] at hUp
    cases hUp
  · rintro ⟨hNot, hAlike⟩
    exact ⟨Or.inl hAlike, fun hRunning => absurd (h.recorded.symm.trans hRunning) hNot⟩

theorem Between.shown (h : Between t s₀ rows s) (hSound : Sound s₀) {place : Place} {c : Call}
    (hPlace : place.between = true) (hLeaves : c.leavesUp = true)
    (hDocument : ¬ OfDocument t document s₀.memory s.memory)
    (hAlike : place = .keys → Keyed t.lang s₀.memory → ¬ Alike s₀.memory s.memory) :
    Shown t document s₀ ⟨place, c⟩ s where
  whole hOutside     := absurd (hOutside.symm.trans hPlace) Bool.false_ne_true
  around hAround     := by
    rcases Place.eq_of_between hPlace with rfl | rfl <;> cases hAround
  harmless hHarmless :=
    absurd (hHarmless.not_between.symm.trans hPlace) Bool.false_ne_true
  half _             := ⟨hLeaves, h.allOrNothing_iff hSound hDocument⟩
  keyed              := hAlike

/-- A pair for each of these tags and for nothing else. -/
def KeysFor (tags : List String) (s : World) : Prop :=
  ∀ tag, tag ∈ s.memory.serverKeys.keys ↔ tag ∈ tags

theorem keysFor_put {tags : List String} (h : KeysFor tags s) (tag : String)
    (pair : String × String) : KeysFor (tags ++ [tag]) (s.putServerKeys tag pair) := by
  intro other
  have hKeys : other ∈ (s.putServerKeys tag pair).memory.serverKeys.keys ↔
      other = tag ∨ other ∈ s.memory.serverKeys.keys := Dict.mem_keys_set
  rw [hKeys, h other, List.mem_append, List.mem_singleton]
  exact or_comm

/-- The server keys, row by row; at an await that of the row is missing. -/
theorem along_keys (hSound : Sound s₀) (hTags : (rows.map (tagOf t.lang)).Nodup)
    {inbounds : List Json} (hLength : rows.length = inbounds.length)
    {old : Dict String (String × String)} {E : DriverError → World → Prop}
    {B : Unit → World → Prop} (hE : ∀ e s, s.recorded = s₀.recorded → E e s)
    (hB : ∀ s, Between t s₀ rows s → KeysFor (rows.map (tagOf t.lang)) s → B () s)
    (h : Between t s₀ rows s) (hEmpty : KeysFor [] s) :
    (forEach (provideServerKeys t old) (inbounds.zip rows)).Along surroundings
      (Shown t document s₀) E B s := by
  have hZip : (inbounds.zip rows).map Prod.snd = rows := List.map_snd_zip (le_of_eq hLength)
  have hAll : (inbounds.zip rows).map (fun i => tagOf t.lang i.2) = rows.map (tagOf t.lang) := by
    rw [← hZip, List.map_map, hZip]
    rfl
  -- the induction is on the rows done: exactly these have a pair
  refine (Along.forEach (fun done s => Between t s₀ rows s ∧
      KeysFor (done.map fun i => tagOf t.lang i.2) s) ?_ ⟨h, hEmpty⟩).mono
        (fun _ _ => id) (fun _ _ => id) ?_
  · rintro done i rest hSplit s ⟨hBetween, hKeys⟩
    rw [hSplit, List.map_append, List.map_cons] at hAll
    have hMem : tagOf t.lang i.2 ∈ rows.map (tagOf t.lang) := by
      rw [← hAll]
      exact List.mem_append_right _ List.mem_cons_self
    have hNew : tagOf t.lang i.2 ∉ done.map fun i => tagOf t.lang i.2 := by
      rw [← hAll] at hTags
      exact fun hDone => (List.nodup_append.mp hTags).2.2 _ hDone _ List.mem_cons_self rfl
    -- no two rows have one tag, so the pair of this row is missing while it is awaited
    have hMissing : ∀ s', Near s s' → tagOf t.lang i.2 ∉ s'.memory.serverKeys.keys := by
      intro s' hNear
      rw [hNear.memory, hKeys]
      exact hNew
    refine along_provideServerKeys (fun c s' hLeaves hNear => ?_)
      (fun e s' hNear => hE e s' (hNear.recorded.trans hBetween.recorded))
      fun pair s' hNear => ⟨?_, ?_⟩
    -- neither configuration has all its pairs here
    · refine (hBetween.near hNear).shown hSound rfl hLeaves ?_ ?_
      · intro hDocument
        refine hMissing s' hNear ((hDocument.keys _).mpr ?_)
        rwa [(hBetween.near hNear).desired]
      · intro _ hKeyed hAlike
        refine hMissing s' hNear ?_
        rw [hAlike.serverKeys]
        refine hKeyed _ ?_
        rw [← hAlike.desired]
        rwa [(hBetween.near hNear).desired]
    -- the pair is put, and the row joins those done
    · exact { hBetween.near hNear with }
    · rw [List.map_append]
      refine keysFor_put ?_ _ _
      intro tag
      rw [hNear.memory]
      exact hKeys tag
  · rintro ⟨⟩ s ⟨hBetween, hKeys⟩
    exact hB s hBetween (hAll ▸ hKeys)

/-- All accounts at the ids are provided for. -/
def ProvidedAt (t : Studio) (ls : Listeners) (ids : List String) (s : World) : Prop :=
  ∀ id ∈ ids, ∀ account, s.memory.roster.table.get? id = some account →
    Provisioned t ls account.settings

theorem providedAt_touched {ls : Listeners} {ids : List String} {id : String}
    {account : UserAccount} (h : ProvidedAt t ls ids s) (hTouched : Touched id s s')
    (hGet : s'.memory.roster.table.get? id = some account)
    (hProvided : Provisioned t ls account.settings) : ProvidedAt t ls (ids ++ [id]) s' := by
  intro other hOther found hFound
  by_cases hSame : other = id
  · rw [hSame, hGet] at hFound
    exact Option.some.inj hFound ▸ hProvided
  · rw [hTouched.others other hSame] at hFound
    rcases List.mem_append.mp hOther with hOld | hNew
    · exact h other hOld found hFound
    · exact absurd (List.mem_singleton.mp hNew) hSame

/-- The accounts, one by one; at an await that of the await is not complete. -/
theorem along_accounts (hSound : Sound s₀) {ls : Listeners}
    (hListeners : listenersOf t.lang ⟨rows, mirror rows s₀.memory.desired.flat⟩ = .ok ls)
    {E : DriverError → World → Prop} {B : Unit → World → Prop}
    (hE : ∀ e s, s.recorded = s₀.recorded → E e s)
    (hB : ∀ s, Between t s₀ rows s → KeysFor (rows.map (tagOf t.lang)) s →
      ProvidedAt t ls s₀.memory.roster.ids s → B () s)
    (h : Between t s₀ rows s) (hKeys : KeysFor (rows.map (tagOf t.lang)) s) :
    (forEach (provision t .accounts) s₀.memory.roster.ids).Along surroundings
      (Shown t document s₀) E B s := by
  refine (Along.forEach (fun done s => Between t s₀ rows s ∧
      KeysFor (rows.map (tagOf t.lang)) s ∧ ProvidedAt t ls done s) ?_
        ⟨h, hKeys, fun id hId => absurd hId List.not_mem_nil⟩).mono (fun _ _ => id)
          (fun _ _ => id) ?_
  -- accounts are looked up one by one, in the order in which they were listed
  · rintro done id rest hSplit s ⟨hBetween, hKeys, hDone⟩
    obtain ⟨account, hGet⟩ : ∃ account, s.memory.roster.table.get? id = some account := by
      refine Dict.mem_keys_iff.mp ?_
      show id ∈ s.memory.roster.ids
      rw [hBetween.ids, hSplit]
      exact List.mem_append_right _ List.mem_cons_self
    refine along_provision (hBetween.desired ▸ hListeners) hGet ?_ ?_ ?_
    -- at an await the account is not complete, so this is not the document's configuration
    · intro c s' account' hLeaves hTouched hGet' hNot _
      have hBetween' := hBetween.touched hTouched
      refine hBetween'.shown hSound rfl hLeaves ?_ fun hPlace => by cases hPlace
      intro hDocument
      obtain ⟨ls', hListeners', hAccounts⟩ := hDocument.accounts
      rw [hBetween'.desired, hListeners] at hListeners'
      exact hNot (Except.ok.inj hListeners' ▸ hAccounts id account' hGet')
    -- an exception leaves what is there to the rollback
    · exact fun e s' hTouched _ => hE e s' (hTouched.recorded.trans hBetween.recorded)
    · intro s' account' hTouched hGet' hProvided
      refine ⟨hBetween.touched hTouched, fun tag => ?_, providedAt_touched hDone hTouched hGet'
        hProvided⟩
      rw [hTouched.serverKeys]
      exact hKeys tag
  · rintro ⟨⟩ s ⟨hBetween, hKeys, hDone⟩
    exact hB s hBetween hKeys hDone

theorem Between.ofDocument (h : Between t s₀ rows s)
    (hParse : parseStudioDocument t.lang s₀.memory.desired document = .ok rows)
    (hKeys : KeysFor (rows.map (tagOf t.lang)) s) {ls : Listeners}
    (hListeners : listenersOf t.lang ⟨rows, mirror rows s₀.memory.desired.flat⟩ = .ok ls)
    (hProvided : ProvidedAt t ls s₀.memory.roster.ids s) :
    OfDocument t document s₀.memory s.memory where
  rows     := by rw [h.desired, hParse]
  flat     := by rw [h.desired]
  backends := by rw [h.backends, h.desired]
  keys     := by
    rw [h.desired]
    exact hKeys
  ids      := h.ids
  accounts := by
    refine ⟨ls, by rw [h.desired, hListeners], fun id account hGet => ?_⟩
    refine hProvided id ?_ account hGet
    rw [← h.ids]
    exact Dict.mem_keys_iff.mpr ⟨account, hGet⟩

theorem OfDocument.backends_eq (h : OfDocument t document s₀.memory s.memory) :
    s.memory.backends = backendsAt t document s₀ .bringUp := by
  unfold backendsAt
  rw [h.rows]
  exact h.backends

/-- The backends of the rows are all there are. -/
theorem OfDocument.allUp (h : OfDocument t document s₀.memory s.memory)
    (hRows : ∀ row ∈ s.memory.desired.rows, ∀ b,
      s.memory.backends.get? (tagOf t.lang row) = some b → s.up b.interface = true) : AllUp s := by
  intro e he
  have hTag := he
  rw [h.backends] at hTag
  obtain ⟨row, hRow, hEq⟩ := List.mem_map.mp (mem_configureBackendSet hTag)
  refine hRows row hRow e.2 ?_
  rw [hEq]
  exact Dict.mem_entries_iff.mp he

/-- What the driver tries, up to its end. -/
theorem along_replace (hSound : Sound s₀) {inbounds : List Json}
    (hInbounds : inboundsOf document = .ok inbounds)
    (hParse : parseStudioDocument t.lang s₀.memory.desired document = .ok rows)
    {E : DriverError → World → Prop} {B : Unit → World → Prop}
    (hE : ∀ e s, s.recorded = s₀.recorded → E e s)
    (hB : ∀ s, OfDocument t document s₀.memory s.memory → s.recorded = s₀.recorded →
      (s.recorded = .running → AllUp s) → B () s) :
    (replace t s₀.memory inbounds rows
      (s₀.memory.backends.entries.filter fun e => s₀.up e.2.interface)).Along surroundings
        (Shown t document s₀) E B s₀ := by
  obtain ⟨inbounds', hInbounds', hNe, hLength, hTags⟩ := parseStudioDocument_ok hParse
  obtain rfl := Except.ok.inj (hInbounds.symm.trans hInbounds')
  have hRows : rows ≠ [] := by
    rintro rfl
    exact hNe (List.length_eq_zero_iff.mp hLength.symm)
  obtain ⟨ls, hListeners⟩ :=
    @listenersOf_ok t.lang ⟨rows, mirror rows s₀.memory.desired.flat⟩ hRows hTags
  unfold replace
  rw [along_bind]
  -- the old interfaces: they are all down once the rows are put in place
  refine along_takedown hE fun s hStill hDown => ?_
  rw [along_modify_bind, along_bind]
  -- from here on the memory has the new rows
  have hBetween : Between t s₀ rows (s.install t.lang rows) := by
    refine ⟨?_, ?_, ?_, hStill.recorded, hDown⟩
    · show (⟨rows, mirror rows s.memory.desired.flat⟩ : Desired) = _
      rw [hStill.memory]
    · show configureBackendSet t.lang ⟨rows, s.memory.desired.flat⟩ = _
      rw [hStill.memory]
    · show s.memory.roster.ids = _
      rw [hStill.memory]
  -- server keys, then accounts, then the address of the driver's own peer
  refine along_keys hSound hTags hLength hE (fun s₁ h₁ hKeys₁ => ?_) hBetween fun _ => Iff.rfl
  rw [along_bind]
  refine along_accounts hSound hListeners hE (fun s₂ h₂ hKeys₂ hProvided => ?_) h₁ hKeys₁
  have hDocument := h₂.ofDocument hParse hKeys₂ hListeners hProvided
  rw [along_bind]
  refine along_repairChainAddress (fun e => hE e s₂ h₂.recorded) fun s₃ hNear => ?_
  have hDocument₃ : OfDocument t document s₀.memory s₃.memory := hNear.memory ▸ hDocument
  have hRecorded₃ : s₃.recorded = s₀.recorded := hNear.recorded.trans h₂.recorded
  -- interfaces are brought up if some were up before
  refine along_onlyIf (fun _ => ?_) fun hNone => ?_
  · refine along_bringUp (Still.refl s₃) (fun b hb => absurd hb List.not_mem_nil)
      (fun c s' hStill => ⟨?_, ?_⟩)
      (fun e s' hStill => hE e s' (hStill.recorded.trans hRecorded₃)) ?_
    · have hDocument' : OfDocument t document s₀.memory s'.memory := hStill.memory ▸ hDocument₃
      exact shown_of_still (Or.inr (Or.inl rfl)) (hStill.recorded.trans hRecorded₃)
        (Or.inr hDocument') hDocument'.backends_eq
    · have hDocument' : OfDocument t document s₀.memory s'.memory := hStill.memory ▸ hDocument₃
      exact shown_of_still (Or.inr (Or.inr (Or.inl rfl))) (hStill.recorded.trans hRecorded₃)
        (Or.inr hDocument') hDocument'.backends_eq
    · intro s' hStill _ hUp
      have hDocument' : OfDocument t document s₀.memory s'.memory := hStill.memory ▸ hDocument₃
      refine hB s' hDocument' (hStill.recorded.trans hRecorded₃) fun _ => hDocument'.allUp ?_
      rw [hStill.memory, hNear.memory, h₂.desired]
      rw [hNear.memory] at hUp
      exact hUp
  · -- nothing was up, so the core was not recorded as running
    refine hB s₃ hDocument₃ hRecorded₃ fun hRunning => ?_
    obtain ⟨e, he⟩ := List.exists_mem_of_ne_nil _ hSound.backends
    have hUp := hSound.running (hRecorded₃.symm.trans hRunning) e he
    refine absurd (fun hNil => ?_) hNone
    exact List.not_mem_nil (hNil ▸ List.mem_filter.mpr ⟨he, hUp⟩)

theorem along_rollBack {running : List (String × Backend)} {e : DriverError}
    (hRecorded : s.recorded = s₀.recorded) {E : DriverError → World → Prop}
    {B : Unit → World → Prop} (hE : ∀ e s', Still s₀ s' → E e s') :
    (rollBack t s₀.memory running e).Along surroundings (Shown t document s₀) E B s := by
  have hStill : Still s₀ (s.withMemory s₀.memory) := ⟨rfl, hRecorded⟩
  have hHere : ∀ c s', Still s₀ s' → Shown t document s₀ ⟨.rollback, c⟩ s' := by
    intro c s' h'
    have hAlike : Alike s₀.memory s'.memory := h'.memory ▸ Alike.refl _
    exact shown_of_still (Or.inr (Or.inr (Or.inr rfl))) h'.recorded (Or.inl hAlike)
      hAlike.backends
  unfold rollBack
  rw [along_modify_bind, along_bind]
  refine along_onlyIf (fun _ => ?_) fun _ => hE e _ hStill
  refine (Along.forEach (fun _ s' => Still s₀ s') (fun _ row _ _ s' h' => ?_) hStill).mono
    (fun _ _ => id) (fun _ _ => id) fun _ s' h' => hE e s' h'
  exact along_restore h' hHere hE fun _ => id

/--
**The driver.** It raises with the memory from before, or has replaced it. In
the second case the interfaces of a core recorded as running are up, and that
is what the manager then relies on.
-/
theorem along_applyDocument (hSound : Sound s₀) {E : DriverError → World → Prop}
    {B : Unit → World → Prop}
    (hE : ∀ e s, (e.isException = true → Still s₀ s ∧
      ((∃ e, parseStudioDocument t.lang s₀.memory.desired document = .error e) → s = s₀)) → E e s)
    (hB : ∀ s, OfDocument t document s₀.memory s.memory → s.recorded = s₀.recorded →
      (s.recorded = .running → AllUp s) → B () s) :
    (applyDocument t document).Along surroundings (Shown t document s₀) E B s₀ := by
  unfold applyDocument
  rw [along_get_bind]
  dsimp only
  cases hParse : parseStudioDocument t.lang s₀.memory.desired document with
  -- a document that is refused: nothing has been awaited
  | error e =>
    exact hE _ s₀ fun _ => ⟨Still.refl s₀, fun _ => rfl⟩
  -- the rows are made, and from here on an exception is answered by the rollback
  | ok rows =>
    have hStay : ∀ e s, (e.isException = true → Still s₀ s) → E e s := by
      refine fun e s hStill => hE e s fun h => ⟨hStill h, ?_⟩
      rintro ⟨e', hError⟩
      rw [hParse] at hError
      cases hError
    obtain ⟨inbounds, hInbounds, -⟩ := parseStudioDocument_ok hParse
    rw [hInbounds]
    show (mapList _ _ >>= _).Along surroundings (Shown t document s₀) E B s₀
    rw [along_bind]
    refine (along_probe hSound).mono (fun _ _ => id) (fun _ _ => id) ?_
    rintro probed _ ⟨rfl, hRunning⟩
    rw [hRunning, along_guarded]
    refine along_replace hSound hInbounds hParse (fun e s hRecorded => ?_) hB
    -- `except Exception` takes every exception but the timeout
    split
    · exact along_rollBack hRecorded fun e' s' hStill => hStay e' s' fun _ => hStill
    · rename_i hNot
      exact hStay e s fun h => absurd h hNot

-- ---------------------------------------------------------------------------
-- The manager
-- ---------------------------------------------------------------------------

theorem along_setState {P : Stop → World → Prop} {E : DriverError → World → Prop}
    {B : Unit → World → Prop} {place : Place} {state : CoreState}
    (hHere : ∀ c, c.readsOnly = true → P ⟨place, c⟩ (s.record state))
    (hE : ∀ e, E e (s.record state)) (hB : B () (s.record state)) :
    (setState place state).Along surroundings P E B s := by
  unfold setState
  rw [along_modify_bind]
  exact along_reads_bind rfl (hHere _ rfl) hE (along_reads rfl (hHere _ rfl) hE hB)

/-- After a driver that has raised, the memory is that from before. -/
theorem along_afterFailure (hSound : Sound s₀) {e : DriverError} (hStill : Still s₀ s)
    (hRefused : (∃ e, parseStudioDocument t.lang s₀.memory.desired document = .error e) → s = s₀)
    {B : Unit → World → Prop} :
    (afterFailure t s₀.recorded e).Along surroundings (Shown t document s₀) (fun _ _ => True) B
      s := by
  have hAlike : Alike s₀.memory s.memory := hStill.memory ▸ Alike.refl _
  -- the manager asks for the state: interfaces may be missing, the memory is whole
  have hCheck : ∀ c, c.readsOnly = true → Shown t document s₀ ⟨.failedCheck, c⟩ s := by
    intro c hReads
    refine shown_reads rfl hReads (Or.inl hAlike) (fun hHarmless hRunning => ?_)
      fun _ => ⟨hStill.recorded, hAlike.backends⟩
    rcases hHarmless with hNot | hError
    · exact absurd (hStill.recorded.symm.trans hRunning) hNot
    · rw [hRefused hError] at hRunning ⊢
      exact hSound.running hRunning
  -- it records an error, and then nothing is owed any more
  have hRecord : ∀ c, c.readsOnly = true →
      Shown t document s₀ ⟨.failedRecord, c⟩ (s.record .error) :=
    fun c hReads => shown_reads rfl hReads (Or.inl hAlike) (fun _ h => by cases h)
      fun h => by cases h
  -- whatever the driver says of its state, the exception goes on
  have hRest : ∀ actual : Option CoreState,
      (onlyIf (s₀.recorded = .running ∧ actual ≠ some .running) (setState .failedRecord .error) >>=
        fun _ => raise e : Way Unit).Along surroundings (Shown t document s₀) (fun _ _ => True) B
          s := by
    intro actual
    rw [along_bind]
    exact along_onlyIf (fun _ => along_setState hRecord (fun _ => trivial) trivial)
      fun _ => trivial
  unfold afterFailure
  dsimp only
  rw [along_bind, along_guarded, along_bind]
  refine along_status hCheck (fun e' => ?_) fun state _ => hRest (some state)
  split
  · exact hRest none
  · trivial

theorem shown_start {c : Call} (hDocument : OfDocument t document s₀.memory s.memory)
    (hNot : s.recorded ≠ .running) : Shown t document s₀ ⟨.start, c⟩ s where
  whole _             := Or.inr hDocument
  around hAround      := by cases hAround
  harmless _ hRunning := absurd hRunning hNot
  half hPlace         := by cases hPlace
  keyed hPlace        := by cases hPlace

theorem OfDocument.putServerKeys (h : OfDocument t document s₀.memory s.memory) {tag : String}
    (hTag : tag ∈ s.memory.desired.rows.map (tagOf t.lang)) (pair : String × String) :
    OfDocument t document s₀.memory (s.putServerKeys tag pair).memory := by
  refine { h with keys := fun other => ?_ }
  have hKeys : other ∈ (s.putServerKeys tag pair).memory.serverKeys.keys ↔
      other = tag ∨ other ∈ s.memory.serverKeys.keys := Dict.mem_keys_set
  rw [hKeys, h.keys]
  refine or_iff_right_of_imp ?_
  rintro rfl
  exact hTag

theorem OfDocument.touched (h : OfDocument t document s₀.memory s.memory) {id : String}
    {ls : Listeners} (hListeners : listenersOf t.lang s.memory.desired = .ok ls)
    (hTouched : Touched id s s') {account : UserAccount}
    (hGet : s'.memory.roster.table.get? id = some account)
    (hProvided : Provisioned t ls account.settings) :
    OfDocument t document s₀.memory s'.memory where
  rows     := hTouched.desired ▸ h.rows
  flat     := hTouched.desired ▸ h.flat
  backends := by rw [hTouched.backends, hTouched.desired, h.backends]
  keys     := by rw [hTouched.serverKeys, hTouched.desired]; exact h.keys
  ids      := hTouched.ids.trans h.ids
  accounts := by
    obtain ⟨ls', hListeners', hAccounts⟩ := h.accounts
    obtain rfl := Except.ok.inj (hListeners.symm.trans hListeners')
    refine ⟨ls, hTouched.desired ▸ hListeners, fun other found hFound => ?_⟩
    by_cases hSame : other = id
    · rw [hSame, hGet] at hFound
      exact Option.some.inj hFound ▸ hProvided
    · exact hAccounts other found (hTouched.others other hSame ▸ hFound)

/-- A start keeps the configuration of the document, and brings its interfaces
up. -/
theorem along_start (hDocument : OfDocument t document s₀.memory s.memory)
    (hNot : s.recorded ≠ .running) {E : DriverError → World → Prop} {B : Unit → World → Prop}
    (hE : ∀ e s', OfDocument t document s₀.memory s'.memory → s'.recorded = s.recorded → E e s')
    (hB : ∀ s', OfDocument t document s₀.memory s'.memory → s'.recorded = s.recorded →
      AllUp s' → B () s') : (start t).Along surroundings (Shown t document s₀) E B s := by
  unfold start
  rw [along_get_bind, along_bind]
  -- the server keys of the rows
  refine (Along.forEach (fun _ s' => OfDocument t document s₀.memory s'.memory ∧
      s'.memory.desired = s.memory.desired ∧ s'.recorded = s.recorded) ?_
        ⟨hDocument, rfl, rfl⟩).mono (fun _ _ => id) (fun _ _ => id) ?_
  · rintro done row rest hSplit s₁ ⟨h₁, hDesired, hRecorded⟩
    refine along_backendOf_bind (fun e => hE e s₁ h₁ hRecorded) fun b _ => ?_
    rw [along_bind]
    have hNear : ∀ s', Near s₁ s' → OfDocument t document s₀.memory s'.memory ∧
        s'.recorded = s.recorded :=
      fun s' hNear => ⟨hNear.memory ▸ h₁, hNear.recorded.trans hRecorded⟩
    -- the pair there is, or another one: the row has one either way
    refine along_ensureServerKeys (shown_start h₁ (hRecorded ▸ hNot))
      (fun e s' h' => hE e s' (hNear s' h').1 (hNear s' h').2) fun pair s' h' => ?_
    refine ⟨(hNear s' h').1.putServerKeys ?_ pair, ?_, (hNear s' h').2⟩
    · rw [h'.memory, hDesired, ← map_tagOf_listeners, hSplit, List.map_append]
      exact List.mem_append_right _ List.mem_cons_self
    · show s'.memory.desired = _
      rw [h'.memory, hDesired]
  rintro ⟨⟩ s₁ ⟨h₁, -, hRecorded₁⟩
  rw [along_get_bind, along_bind]
  obtain ⟨ls, hListeners, -⟩ := h₁.accounts
  -- the accounts, which are all provided for
  refine (Along.forEach (fun _ s' => OfDocument t document s₀.memory s'.memory ∧
      s'.memory.desired = s₁.memory.desired ∧ s'.memory.roster.ids = s₁.memory.roster.ids ∧
        s'.recorded = s.recorded) ?_ ⟨h₁, rfl, rfl, hRecorded₁⟩).mono (fun _ _ => id)
          (fun _ _ => id) ?_
  · rintro done id rest hSplit s₂ ⟨h₂, hDesired, hIds, hRecorded⟩
    obtain ⟨account, hGet⟩ : ∃ account, s₂.memory.roster.table.get? id = some account := by
      refine Dict.mem_keys_iff.mp ?_
      show id ∈ s₂.memory.roster.ids
      rw [hIds, hSplit]
      exact List.mem_append_right _ List.mem_cons_self
    rw [← hDesired] at hListeners
    -- the document's accounts are complete, so nothing is awaited for them
    have hProvided : Provisioned t ls account.settings := by
      obtain ⟨ls', hListeners', hAccounts⟩ := h₂.accounts
      obtain rfl := Except.ok.inj (hListeners.symm.trans hListeners')
      exact hAccounts id account hGet
    refine along_provision hListeners hGet ?_ ?_ ?_
    · exact fun _ _ _ _ _ _ _ h => absurd hProvided h
    · exact fun e s' _ hSame => hSame hProvided ▸ hE e s₂ h₂ hRecorded
    · intro s' account' hTouched hGet' hProvided'
      exact ⟨h₂.touched hListeners hTouched hGet' hProvided', hTouched.desired.trans hDesired,
        hTouched.ids.trans hIds, hTouched.recorded.trans hRecorded⟩
  rintro ⟨⟩ s₂ ⟨h₂, -, -, hRecorded₂⟩
  rw [along_bind]
  refine along_repairChainAddress (fun e => hE e s₂ h₂ hRecorded₂) fun s₃ hNear => ?_
  have h₃ : OfDocument t document s₀.memory s₃.memory := hNear.memory ▸ h₂
  have hRecorded₃ : s₃.recorded = s.recorded := hNear.recorded.trans hRecorded₂
  rw [along_get_bind]
  have hHere : ∀ c s', Still s₃ s' → Shown t document s₀ ⟨.start, c⟩ s' := fun c s' hStill =>
    shown_start (hStill.memory ▸ h₃) (hStill.recorded.trans hRecorded₃ ▸ hNot)
  refine along_bringUp (Still.refl s₃) (fun b hb => absurd hb List.not_mem_nil)
    (fun c s' hStill => ⟨hHere c s' hStill, hHere c s' hStill⟩)
    (fun e s' hStill => hE e s' (hStill.memory ▸ h₃) (hStill.recorded.trans hRecorded₃)) ?_
  intro s' hStill _ hUp
  have h' : OfDocument t document s₀.memory s'.memory := hStill.memory ▸ h₃
  refine hB s' h' (hStill.recorded.trans hRecorded₃) (h'.allUp fun row hRow b hGet => ?_)
  rw [hStill.memory] at hRow hGet
  obtain ⟨row', hRow', hTag⟩ := @exists_listener t.lang _ _ hRow
  exact hUp row' hRow' b (hTag ▸ hGet)

/-- After a driver that has returned, the configuration is that of the
document. -/
theorem along_afterSuccess (hDocument : OfDocument t document s₀.memory s.memory)
    (hRunning : s.recorded = .running → AllUp s) {B : Unit → World → Prop}
    (hB : ∀ s', OfDocument t document s₀.memory s'.memory →
      (s'.recorded = .running → AllUp s') → B () s') :
    (afterSuccess t s₀.recorded).Along surroundings (Shown t document s₀) (fun _ _ => True) B
      s := by
  -- the configuration is the document's at every await that is left
  have hShown : ∀ {place : Place} {s'} c, (place = .check ∨ place = .record) →
      OfDocument t document s₀.memory s'.memory → (s'.recorded = .running → AllUp s') →
        c.readsOnly = true → Shown t document s₀ ⟨place, c⟩ s' := by
    rintro place s' c (rfl | rfl) h' hRunning' hReads
    · exact shown_reads rfl hReads (Or.inr h') (fun _ => hRunning') fun h => by cases h
    · exact shown_reads rfl hReads (Or.inr h') (fun _ => hRunning') fun h => by cases h
  unfold afterSuccess
  rw [along_bind]
  refine along_status (fun c => hShown c (Or.inl rfl) hDocument hRunning) (fun _ => trivial)
    fun actual hActual => ?_
  -- the driver says whether its interfaces are up
  by_cases hIs : actual = .running
  · rw [if_pos hIs]
    have hUp : AllUp s := by
      refine hDocument.allUp fun row hRow b hGet => ?_
      obtain ⟨row', hRow', hTag⟩ := @exists_listener t.lang _ _ hRow
      obtain ⟨b', hGet', hUp⟩ := hActual hIs row' hRow'
      rw [hTag, hGet] at hGet'
      exact Option.some.inj hGet' ▸ hUp
    refine along_onlyIf (fun _ => ?_) fun _ => hB s hDocument hRunning
    exact along_setState (fun c => hShown c (Or.inr rfl) hDocument fun _ => hUp)
      (fun _ => trivial) (hB _ hDocument fun _ => hUp)
  -- they are not: the manager starts the core, and records what comes of it
  · rw [if_neg hIs, along_bind]
    refine along_setState (fun c => hShown c (Or.inr rfl) hDocument fun h => by cases h)
      (fun _ => trivial) ?_
    rw [along_bind, along_guarded]
    refine along_start (s := s.record .starting) hDocument (fun h => by cases h) ?_ ?_
    · intro e s' h' _
      split
      · rw [along_bind]
        exact along_setState (fun c => hShown c (Or.inr rfl) h' fun h => by cases h)
          (fun _ => trivial) trivial
      · trivial
    · intro s' h' _ hUp
      exact along_setState (fun c => hShown c (Or.inr rfl) h' fun _ => hUp)
        (fun _ => trivial) (hB _ h' fun _ => hUp)

theorem along_applyStudioDocument (hSound : Sound s₀) :
    (applyStudioDocument t document).Along surroundings (Shown t document s₀) (fun _ _ => True)
      (fun _ _ => True) s₀ := by
  unfold applyStudioDocument
  -- the lock of the core
  refine along_reads_bind rfl
    (shown_reads rfl rfl (Or.inl (Alike.refl _)) (fun _ => hSound.running) fun h => by cases h)
    (fun _ => trivial) ?_
  rw [along_get_bind, along_bind, along_guarded]
  refine along_applyDocument hSound (fun e s h => ?_) fun s hDocument _ hRunning => ?_
  -- the driver has raised
  · split
    · rename_i hException
      obtain ⟨hStill, hRefused⟩ := h hException
      exact along_afterFailure hSound hStill hRefused
    · trivial
  -- the driver has returned
  · have hSave : ∀ s', OfDocument t document s₀.memory s'.memory →
        (s'.recorded = .running → AllUp s') →
          (await ⟨.save, .saveState⟩ : Way Unit).Along surroundings (Shown t document s₀)
            (fun _ _ => True) (fun _ _ => True) s' := by
      intro s' h' hRunning'
      exact along_reads rfl
        (shown_reads rfl rfl (Or.inr h') (fun _ => hRunning') fun h => by cases h)
        (fun _ => trivial) trivial
    rw [along_bind]
    refine along_onlyIf (fun _ => ?_) fun _ => hSave s hDocument hRunning
    exact along_afterSuccess hDocument hRunning hSave

/-- Around the interfaces of a running core the calls that were carried out
decide. -/
theorem Left.around_iff {place : Place} {calls : List (Stop × World)}
    (hLeft : Left t document s place s') (hUp : s'.up = upAfter s.up calls)
    (hAround : place.around = true) (hRunning : s.recorded = .running) :
    (s'.recorded = .running → AllUp s') ↔ UpAfter t document s place calls := by
  obtain ⟨hRecorded, hBackends⟩ := hLeft.around hAround
  unfold AllUp UpAfter
  rw [hRecorded, hBackends, hUp]
  exact ⟨fun h => h hRunning, fun h _ => h⟩

/-- **A timeout.** Before the takedown and from the record of the new configuration
on it leaves all or nothing. Around the interfaces it does if those of a core
recorded as running are up, which the calls carried out by then decide; between
the two configurations it does for a core that is not, as long as nothing has
changed. -/
theorem timed_out (hSound : Sound s) {stop : Stop} {calls : List (Stop × World)}
    {r : Except DriverError Unit}
    (h : StruckAfter surroundings (applyStudioDocument t document) s calls stop r s') :
    r = .error .timeout ∧
      (stop.place.between = false →
        (AllOrNothing t document s s' ↔ (s'.recorded = .running → AllUp s')) ∧
        (AllOrNothing t document s s' ↔
          HarmlessAt t document s stop.place ∨ UpAfter t document s stop.place calls)) ∧
      (stop.place.between = true →
        (AllOrNothing t document s s' ↔ s.recorded ≠ .running ∧ Alike s.memory s'.memory)) ∧
      (HarmlessAt t document s stop.place → AllOrNothing t document s s') ∧
      (HarmfulAt t.lang s stop.place → ¬ AllOrNothing t document s s') := by
  have hTame := applyStudioDocument_tame (t := t) document
  obtain ⟨hResult, k, s₁, heard, last, hHears, hTrails, rfl⟩ := (struckAfter_iff hTame).mp h
  have hLeaves : surroundings.Leaves stop s₁ s' :=
    Surroundings.leaves_iff_trails.mpr ⟨last, hTrails⟩
  have hLeft := ((along_applyStudioDocument hSound).of_comes hHears.comes).of_leaves hLeaves
  have hAnswers : ∀ stop s r s', surroundings.answers stop s r s' →
      s'.up = hear s.up (stop, s') := fun _ _ _ _ => answers_hear
  have hUp : s'.up = upAfter s.up (heard ++ last) := by
    rw [hTame.of_trails hAnswers hHears hTrails, foldl_hear]
  refine ⟨hResult, fun hOutside => ⟨hLeft.outside hOutside, ?_⟩, hLeft.between, hLeft.harmless,
    hLeft.harmful⟩
  rw [hLeft.outside hOutside]
  rcases HarmlessAt.or_around hOutside with hHarmless | ⟨hAround, hRunning⟩
  · exact iff_of_true ((hLeft.outside hOutside).mp (hLeft.harmless hHarmless)) (Or.inl hHarmless)
  · rw [hLeft.around_iff hUp hAround hRunning]
    refine ⟨Or.inr, fun hEither => hEither.elim (fun hHarmless => ?_) id⟩
    -- a failed check after a refused document is harmless, and all is up
    rw [← hLeft.around_iff hUp hAround hRunning]
    exact (hLeft.outside hOutside).mp (hLeft.harmless hHarmless)

end Applied

-- ---------------------------------------------------------------------------
-- A running core that gets another port
-- ---------------------------------------------------------------------------

/-- A host on which every call does its work. -/
def obedient (stop : Stop) (s : World) : Except DriverError Unit × World :=
  match stop.call with
  | .down b                      => (.ok (), s.setUp b false)
  | .up b _                      => (.ok (), s.setUp b true)
  | .writeServerPrivateKey b key => (.ok (), s.setKeyFile b (some key))
  | .ensureServerKeys b          => (.ok (), s.setKeyFile b (some ((s.keyFile b).getD "made")))
  | _                            => (.ok (), s)

theorem obedient_answers (stop : Stop) (s : World) :
    surroundings.answers stop s (obedient stop s).1 (obedient stop s).2 := by
  obtain ⟨place, c⟩ := stop
  cases c with
  | lock | isRunning => exact ⟨rfl, rfl⟩
  | down b => exact ⟨false, rfl, fun _ => rfl⟩
  | up b file => exact ⟨true, rfl, fun _ => rfl⟩
  | writeServerPrivateKey b key => exact ⟨some key, rfl, Or.inl rfl, fun _ => rfl⟩
  | ensureServerKeys b =>
    refine ⟨_, rfl, fun hKey => ?_, fun _ => Option.some_ne_none _⟩
    obtain ⟨key, hKey⟩ := Option.ne_none_iff_exists'.mp hKey
    rw [hKey]
    rfl
  | waitReady | publicFromPrivate | generateKeypair | generatePreshared | version | metrics
  | onlineDevices | dump | saveState | emit => rfl

def sampleStudio : Studio where
  platform          := plainPlatform
  lang              := Drivers.plainLang
  tools             := sampleTools
  publicFromPrivate := .ok
  serverAddress     := .ok
  keypair_ne_empty  := fun _ => by show sampleKey ≠ ""; decide

def onlyRow : Settings :=
  [("tag", .str "wireguard"), ("interface", .str "mzwg0"), ("listen", .str "0.0.0.0"),
    ("port", .num 51820), ("subnet", .str "10.66.66.0/24"), ("dns_servers", .list [.str "1.1.1.1"]),
    ("advertise_host", .str ""), ("mtu", .null), ("use_preshared_keys", .bool true),
    ("peer_allowed_ips", .list Drivers.everywhere), ("peer_keepalive", .num 25),
    ("enable_nat", .bool true), ("_work_dir", .str "/var/lib/zagros/cores/wireguard")]

def onlyBackend : Backend := ⟨"mzwg0", "/var/lib/zagros/cores/wireguard"⟩

/-- One inbound that is up, and the account that was pushed for it. -/
def runningCore : World where
  memory :=
    { desired    := ⟨[onlyRow], mirror [onlyRow] []⟩
      backends   := Dict.ofPairs [("wireguard", onlyBackend)]
      serverKeys := Dict.ofPairs [("wireguard", (sampleKey, sampleKey))]
      roster     := (driverWith "a").roster }
  chain    := none
  recorded := .running
  up       := fun interface => interface == "mzwg0"
  keyFile  := fun _ => some sampleKey

def otherPort : Settings :=
  [("inbounds", .list [.dict [("tag", .str "wireguard"), ("port", .num 51821)]])]

theorem sound_runningCore : Sound runningCore :=
  ⟨List.cons_ne_nil _ _, fun _ e he => by rw [List.mem_singleton.mp he]; rfl⟩

/-- Recorded as running, without its interface and without server keys. -/
def Bare (s : World) : Prop :=
  s.recorded = .running ∧ s.up "mzwg0" = false ∧ s.memory.serverKeys.keys = [] ∧
    s.memory.desired.rows.map (tagOf sampleStudio.lang) = ["wireguard"]

instance : DecidablePred Bare := fun _ => inferInstanceAs (Decidable (_ ∧ _))

theorem Bare.not_allOrNothing {s : World} (h : Bare s) :
    ¬ AllOrNothing sampleStudio otherPort runningCore s := by
  obtain ⟨hRunning, hUp, hKeys, hRows⟩ := h
  rintro ⟨hOld | hNew, -⟩
  · rw [hOld.serverKeys] at hKeys
    cases hKeys
  · have hTag := (hNew.keys "wireguard").mpr (hRows ▸ List.mem_cons_self)
    rw [hKeys] at hTag
    cases hTag

/-- The fourth await of the apply is that of the server keys. -/
theorem comes_between : ∃ stop k s, stop.place = .keys ∧ Bare s ∧
    Comes surroundings (applyStudioDocument sampleStudio otherPort) runningCore stop k s := by
  have hFound : (Co.after obedient 3 (applyStudioDocument sampleStudio otherPort) runningCore).any
      (fun found => decide (found.1.place = .keys ∧ Bare found.2.2)) = true := by decide +kernel
  obtain ⟨⟨stop, k, s⟩, hAfter, hBare⟩ := (Option.any_eq_true _ _).mp hFound
  obtain ⟨hPlace, hBare⟩ := of_decide_eq_true hBare
  exact ⟨stop, k, s, hPlace, hBare, comes_of_after obedient_answers hAfter⟩

/--
**A timeout between.** A running core gets a document with another port, and is
left without its interface and its server keys: the old rows are taken down,
and the new ones not yet there.
-/
theorem timed_out_between :
    Sound runningCore ∧ ∃ stop s', Bare s' ∧
      Struck surroundings (applyStudioDocument sampleStudio otherPort) runningCore stop
        (.error .timeout) s' ∧
      ¬ AllOrNothing sampleStudio otherPort runningCore s' := by
  refine ⟨sound_runningCore, ?_⟩
  obtain ⟨stop, k, s, -, hBare, hComes⟩ := comes_between
  exact ⟨stop, s, hBare, (struck_iff (applyStudioDocument_tame otherPort)).mpr
    ⟨rfl, k, s, hComes, Or.inl rfl⟩, hBare.not_allOrNothing⟩

/-- The timeout strikes while the lock is awaited, and nothing has changed; and it
strikes while the server keys are. -/
theorem timed_out_otherPort :
    (StruckAfter surroundings (applyStudioDocument sampleStudio otherPort) runningCore []
        ⟨.lock, .lock⟩ (.error .timeout) runningCore ∧
      AllOrNothing sampleStudio otherPort runningCore runningCore) ∧
    ∃ stop calls s', stop.place = .keys ∧
      StruckAfter surroundings (applyStudioDocument sampleStudio otherPort) runningCore calls stop
        (.error .timeout) s' ∧
      ¬ AllOrNothing sampleStudio otherPort runningCore s' := by
  have hTame := applyStudioDocument_tame (t := sampleStudio) otherPort
  have hLock : StruckAfter surroundings (applyStudioDocument sampleStudio otherPort) runningCore
      [] ⟨.lock, .lock⟩ (.error .timeout) runningCore :=
    (struckAfter_iff hTame).mpr
      ⟨rfl, _, runningCore, [], [], Hears.here _ _ _, Surroundings.Trails.lost, rfl⟩
  obtain ⟨stop, k, s, hPlace, -, hComes⟩ := comes_between
  obtain ⟨calls, hKeys⟩ := struck_iff_after.mp
    ((struck_iff hTame).mpr ⟨rfl, k, s, hComes, Or.inl rfl⟩)
  refine ⟨⟨hLock, ?_⟩, stop, calls, s, hPlace, hKeys, ?_⟩
  · exact (timed_out sound_runningCore hLock).2.2.2.1 trivial
  · exact (timed_out sound_runningCore hKeys).2.2.2.2 (by rw [hPlace]; exact Or.inl rfl)

end ZagrosNode.WireGuard
