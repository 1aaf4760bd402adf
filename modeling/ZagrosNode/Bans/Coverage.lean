import ZagrosNode.Bans.Projection
import ZagrosNode.Drivers.Claims
import ZagrosNode.Lib.Machine

/-!
# ZagrosNode — bans and the ports they cover

A push of bans collects the ports of all cores, one core after the other, and
loads them with the bans. Inbound documents, settings and lifecycle actions
change what cores claim, and nothing but the next push looks at the table
again. Elements of the table lapse by whole seconds.

The world has the cores as the manager holds them, the table, a clock, and any number of
pushes in flight. A push goes through `Stage`s: it visits the cores one by one, then
`apply` reads the clock and keeps the bans that have not expired, then it looks for the
table, and at last it runs its transaction. Between any two of these a core may change,
another push may take a step and time may pass.

`Covered` is the property: a ban of the push applied last that is still in force drops
the packets to every public port an enabled core claims. It is about the present claims,
and the table has those of the time of the push.

* **Time.** An element of the table lapses after whole seconds, counted from the
  transaction, and the ban expires at its own instant; `Suits` asks of a step in which
  time passes that nothing lapses early.
* **Ports.** A core that changes may claim only what the table drops already, and a
  transaction must have collected what is claimed by now.
* **Probes.** `Kept` and `Probes` say that what a push has kept of its bans it would
  keep at the clock it has read, and that the clock has not gone back since.

For a push that nothing disturbs `collect_undisturbed` says what its loop collects, so
that the condition on its transaction is met by itself.

Main results:

* `bans_cover_iff` — the steps after which every ban in force covers every
  claimed port.
* `collect_undisturbed` — what an undisturbed push collects.
* `ban_misses_new_port` — a port claimed after a push is open to banned
  addresses.
-/

namespace ZagrosNode.Bans.Coverage

open ZagrosNode.Lib ZagrosNode.Drivers ZagrosNode.Cores

variable (lib : Library) (lang : Lang) (renew nft : Bool)

-- ---------------------------------------------------------------------------
-- Bans in force
-- ---------------------------------------------------------------------------

/-- `_parse_time(row["expires_at"])` -/
def expiry (row : Row) : Except PyErr Int := do
  let value ← field row "expires_at"
  parseTime lib value

/-- The address `_script` takes from a row. -/
def addressOf (row : Row) : Except PyErr Address := do
  let value ← field row "ip"
  let ip ← lib.ipAddress (lib.str value)
  let again ← lib.ipAddress ip.text
  .ok ⟨ip.text, again.version6⟩

/-- The address of a ban that has not expired. -/
def inForce (now : Int) (row : Row) : Option Address :=
  match expiry lib row, addressOf lib row with
  | .ok expires, .ok address => if now < expires then some address else none
  | _, _                     => none

-- ---------------------------------------------------------------------------
-- The table in time
-- ---------------------------------------------------------------------------

/-- A table loaded at an instant. An element has the instant it lapses at. -/
def timed (instant : Int) (t : Table) : Table :=
  { t with
    bannedV4 := fun ip => (t.bannedV4 ip).map fun seconds => instant + 1000000 * seconds
    bannedV6 := fun ip => (t.bannedV6 ip).map fun seconds => instant + 1000000 * seconds }

/-- The elements that have not lapsed. -/
def lapse (now : Int) (t : Table) : Table :=
  { t with
    bannedV4 := fun ip => (t.bannedV4 ip).filter fun last => decide (now < last)
    bannedV6 := fun ip => (t.bannedV6 ip).filter fun last => decide (now < last) }

def timedTransaction (instant : Int) : Transaction → Transaction
  | .deleteTable => .deleteTable
  | .replace t   => .replace (timed instant t)
  | .load t      => .load (timed instant t)

-- ---------------------------------------------------------------------------
-- The node
-- ---------------------------------------------------------------------------

/-- How far a push is. -/
inductive Stage
  /-- in the loop of `managed_ports`, with these cores to come -/
  | collecting (rest : List CoreId)
  /-- `apply` has read the clock and has kept the bans that have not expired -/
  | dated (now : Int) (active : List Row)
  /-- it has looked for the table -/
  | probed (now : Int) (active : List Row) (found : Bool)

/-- The clock `apply` has read, and the bans it has kept. -/
def Stage.reading : Stage → Option (Int × List Row)
  | .collecting _        => none
  | .dated now active    => some (now, active)
  | .probed now active _ => some (now, active)

structure Flight where
  bans  : List Row
  ports : Ports
  stage : Stage

structure World where
  /-- microseconds of UTC -/
  now     : Int
  cores   : CoreId → Option Managed
  table   : Option Table
  flights : Nat → Option Flight
  /-- the bans of the last push that was applied -/
  last    : List Row

/-- An agent that has not been pushed any bans. -/
def start (now : Int) (cores : CoreId → Option Managed) (table : Option Table) : World :=
  ⟨now, cores, table, fun _ => none, []⟩

inductive Event
  /-- Time passes. -/
  | pass (instant : Int)
  /-- A request or a lifecycle action leaves a core like this. -/
  | change (core : CoreId) (after : Option Managed)
  /-- `apply_ip_bans` is called. -/
  | push (id : Nat) (bans : List Row)
  /-- `managed_ports` looks at the next core. -/
  | visit (id : Nat)
  /-- `apply` reads the clock. -/
  | date (id : Nat)
  /-- `apply` looks for the table. -/
  | probe (id : Nat)
  /-- Its transaction; `nft` takes the script or not. -/
  | transact (id : Nat) (accepts : Bool)
  /-- The request is cancelled. -/
  | cancel (id : Nat)

namespace World

/-- `list_cores()` -/
def listed (w : World) : List CoreId := CoreId.all.filter fun core => (w.cores core).isSome

def setFlight (w : World) (id : Nat) (f : Option Flight) : World :=
  { w with flights := Function.update w.flights id f }

/-- The public ports a core claims now. -/
def claimed (w : World) (core : CoreId) : List (Bool × Int) :=
  (w.cores core).elim [] fun m => m.ports lang core

end World

/-- The push of a flight, at the clock of its `apply`. -/
def Flight.toPush (f : Flight) (now : Int) : Push := ⟨f.bans, f.ports.tcp, f.ports.udp, now⟩

/-- The table after the transaction of `apply`; `none` if it does not report ok. -/
def land (f : Flight) (clock now : Int) (active : List Row) (found accepts : Bool)
    (table : Option Table) : Option (Option Table) :=
  match (f.toPush clock).transaction lib active found with
  | .error _      => none
  | .ok none      => some table
  | .ok (some tx) => if accepts then (timedTransaction now tx).run renew table else none

def step (w : World) : Event → World
  | .pass instant =>
    { w with now := max w.now instant, table := w.table.map (lapse (max w.now instant)) }
  | .change core after => { w with cores := Function.update w.cores core after }
  | .push id bans =>
    match w.flights id with
    | none   => w.setFlight id (some ⟨bans, ⟨∅, ∅⟩, .collecting w.listed⟩)
    | some _ => w
  | .visit id =>
    match w.flights id with
    | some ⟨bans, ports, .collecting (core :: rest)⟩ =>
      w.setFlight id
        (some ⟨bans, visitCore lang core (w.cores core) ports, .collecting rest⟩)
    | _ => w
  | .date id =>
    match w.flights id with
    | some ⟨bans, ports, .collecting []⟩ =>
      match nft, activeBans lib w.now bans with
      | true, .ok active => w.setFlight id (some ⟨bans, ports, .dated w.now active⟩)
      | _, _ => w.setFlight id none
    | _ => w
  | .probe id =>
    match w.flights id with
    | some ⟨bans, ports, .dated clock active⟩ =>
      w.setFlight id (some ⟨bans, ports, .probed clock active w.table.isSome⟩)
    | _ => w
  | .transact id accepts =>
    match w.flights id with
    | some ⟨bans, ports, .probed clock active found⟩ =>
      match land lib renew ⟨bans, ports, .probed clock active found⟩ clock w.now active found
          accepts w.table with
      | some table => { w.setFlight id none with table := table, last := bans }
      | none       => w.setFlight id none
    | _ => w
  | .cancel id => w.setFlight id none

/-- The node, with all that happens to it. -/
def node : Machine World Event Unit := ⟨fun w e => (step lib lang renew nft w e, ())⟩

-- ---------------------------------------------------------------------------
-- Coverage
-- ---------------------------------------------------------------------------

/-- A packet from the address to the port is dropped. -/
def World.Drops (w : World) (source : Address) (port : Bool × Int) : Prop :=
  ∃ table, w.table = some table ∧ table.drops source port.1 port.2 = true

/-- Every ban of the last applied push that has not expired drops the packets to
every public port an enabled core claims. -/
def Covered (w : World) : Prop :=
  ∀ row ∈ w.last, ∀ source, inForce lib w.now row = some source →
    ∀ core, ∀ port ∈ w.claimed lang core, w.Drops source port

/-- What a step must not do to the coverage. -/
def Suits (w : World) : Event → Prop
  -- no element lapses before its ban expires, as long as a port is claimed
  | .pass instant =>
    ∀ row ∈ w.last, ∀ source, inForce lib (max w.now instant) row = some source →
      ∀ core, w.claimed lang core ≠ [] → ∃ table last, w.table = some table ∧
        table.banned source.version6 source.text = some last ∧ max w.now instant < last
  -- a core claims no port that the table does not drop
  | .change core after =>
    ∀ row ∈ w.last, ∀ source, inForce lib w.now row = some source →
      ∀ port ∈ after.elim [] fun m => m.ports lang core, w.Drops source port
  -- what was collected for a push that is applied, with bans, is what is claimed by now
  | .transact id accepts =>
    ∀ f clock active found, w.flights id = some f → f.stage = .probed clock active found →
      land lib renew f clock w.now active found accepts w.table ≠ none →
        ∀ row ∈ f.bans, (inForce lib w.now row).isSome → ∀ core, ∀ port ∈ w.claimed lang core,
          port.2 ∈ f.ports.of port.1 ∨
            found = false ∧ ∃ old, w.table = some old ∧ port.2 ∈ old.ports port.1
  | _ => True

variable {lib lang renew nft} {w : World}

-- ---------------------------------------------------------------------------
-- Tables in time
-- ---------------------------------------------------------------------------

@[simp] theorem timed_ports (instant : Int) (t : Table) (udp : Bool) :
    (timed instant t).ports udp = t.ports udp := by
  cases udp <;> rfl

@[simp] theorem lapse_ports (now : Int) (t : Table) (udp : Bool) :
    (lapse now t).ports udp = t.ports udp := by
  cases udp <;> rfl

theorem timed_banned (instant : Int) (t : Table) (version6 : Bool) (ip : String) :
    ((timed instant t).banned version6 ip).isSome = (t.banned version6 ip).isSome := by
  cases version6 <;> exact Option.isSome_map

theorem lapse_banned_iff {now : Int} {t : Table} {version6 : Bool} {ip : String} :
    ((lapse now t).banned version6 ip).isSome ↔
      ∃ last, t.banned version6 ip = some last ∧ now < last := by
  have hFilter : ∀ o : Option Int, (o.filter fun last => decide (now < last)).isSome ↔
      ∃ last, o = some last ∧ now < last := by
    intro o
    cases o <;> simp [Option.filter]
  cases version6 <;> exact hFilter _

theorem drops_iff {t : Table} {source : Address} {port : Bool × Int} :
    t.drops source port.1 port.2 = true ↔
      (t.banned source.version6 source.text).isSome ∧ port.2 ∈ t.ports port.1 := by
  rw [Table.drops, Bool.and_eq_true, decide_eq_true_eq]

/-- A merged table drops what is in both of the new table's sets. -/
theorem isSome_banned_merge {old new : Table} {version6 : Bool} {ip : String}
    (h : (new.banned version6 ip).isSome) : ((old.merge renew new).banned version6 ip).isSome := by
  rw [Table.banned_merge]
  split
  · rw [Option.isSome_or, h, Bool.true_or]
  · rw [Option.isSome_or, h, Bool.or_true]

-- ---------------------------------------------------------------------------
-- Rows and elements
-- ---------------------------------------------------------------------------

theorem activeBans_cons (now : Int) (first : Row) (rest : List Row) :
    activeBans lib now (first :: rest) = (do
      let expires ← expiry lib first
      let others ← activeBans lib now rest
      .ok (if now < expires then first :: others else others)) := by
  unfold expiry
  rw [activeBans]
  cases field first "expires_at" <;> rfl

/-- The rows `apply` keeps are those that have not expired. -/
theorem mem_activeBans {now : Int} {bans active : List Row}
    (h : activeBans lib now bans = .ok active) (row : Row) :
    row ∈ active ↔ row ∈ bans ∧ ∃ expires, expiry lib row = .ok expires ∧ now < expires := by
  -- on the rows; a row whose time cannot be read raises
  induction bans generalizing active with
  | nil =>
    obtain rfl := Except.ok.inj h
    simp
  | cons first rest ih =>
    rw [activeBans_cons] at h
    cases hExpires : expiry lib first with
    | error e => simp [hExpires, bind, Except.bind] at h
    | ok expires =>
      cases hRest : activeBans lib now rest with
      | error e => simp [hExpires, hRest, bind, Except.bind] at h
      | ok others =>
        simp only [hExpires, hRest, bind, Except.bind, Except.ok.injEq] at h
        subst h
        have hFirst : (∃ other, expiry lib first = .ok other ∧ now < other) ↔ now < expires := by
          rw [hExpires]
          simp
        -- kept or dropped, and the others as before
        by_cases hNow : now < expires
        · rw [if_pos hNow, List.mem_cons, List.mem_cons, ih hRest, or_and_right]
          refine or_congr_left ?_
          constructor
          · rintro rfl
            exact ⟨rfl, hFirst.mpr hNow⟩
          · exact fun h => h.1
        · rw [if_neg hNow, ih hRest, List.mem_cons, or_and_right]
          refine (or_iff_right ?_).symm
          rintro ⟨rfl, hAlive⟩
          exact hNow (hFirst.mp hAlive)

/-- What a ban in force is. -/
theorem inForce_eq_some {now : Int} {row : Row} {source : Address} :
    inForce lib now row = some source ↔
      (∃ expires, expiry lib row = .ok expires ∧ now < expires) ∧
        addressOf lib row = .ok source := by
  unfold inForce
  cases hExpiry : expiry lib row with
  | error e => simp
  | ok expires =>
    cases hAddress : addressOf lib row with
    | error e => simp
    | ok address => simp

/-- The elements of one version. -/
def elements (g : Groups) (version6 : Bool) : Dict String Int := if version6 then g.v6 else g.v4

theorem isSome_add {g : Groups} {version6 version6' : Bool} {ip ip' : String} {seconds : Int} :
    ((elements (g.add version6 ip seconds) version6').get? ip').isSome ↔
      (version6 = version6' ∧ ip = ip') ∨ ((elements g version6').get? ip').isSome := by
  by_cases hIp : ip = ip'
  · cases version6 <;> cases version6' <;> simp [Groups.add, elements, hIp]
  · cases version6 <;> cases version6' <;> simp [Groups.add, elements, Dict.get?_set, hIp]

/-- Every row that is grouped has an element, and none is lost. -/
theorem isSome_groupRows {now : Int} {rows : List Row} {g g' : Groups}
    (h : groupRows lib now g rows = .ok g') :
    (∀ version6 ip, ((elements g version6).get? ip).isSome →
      ((elements g' version6).get? ip).isSome) ∧
      ∀ row ∈ rows, ∃ source, addressOf lib row = .ok source ∧
        ((elements g' source.version6).get? source.text).isSome := by
  -- on the rows; a group only grows, and its times get longer
  induction rows generalizing g with
  | nil =>
    obtain rfl := Except.ok.inj h
    exact ⟨fun _ _ h => h, fun row hRow => absurd hRow List.not_mem_nil⟩
  | cons first rest ih =>
    simp only [groupRows, bind, Except.bind] at h
    cases hField : field first "ip" with
    | error e => simp [hField] at h
    | ok value =>
      cases hIp : lib.ipAddress (lib.str value) with
      | error e => simp [hField, hIp] at h
      | ok ip =>
        cases hUntil : field first "expires_at" with
        | error e => simp [hField, hIp, hUntil] at h
        | ok last =>
          cases hTime : parseTime lib last with
          | error e => simp [hField, hIp, hUntil, hTime] at h
          | ok expires =>
            cases hAgain : lib.ipAddress ip.text with
            | error e => simp [hField, hIp, hUntil, hTime, hAgain] at h
            | ok again =>
              simp only [hField, hIp, hUntil, hTime, hAgain] at h
              -- the row was read throughout: its address has an element from here on
              obtain ⟨hKeeps, hRows⟩ := ih h
              refine ⟨fun version6 ip' h' => hKeeps _ _ (isSome_add.mpr (Or.inr h')), ?_⟩
              intro row hRow
              rcases List.mem_cons.mp hRow with rfl | hRest
              · refine ⟨⟨ip.text, again.version6⟩, ?_, hKeeps _ _ (isSome_add.mpr ?_)⟩
                · simp [addressOf, hField, hIp, hAgain, bind, Except.bind]
                · exact Or.inl ⟨rfl, rfl⟩
              · exact hRows row hRest

/-- A script bans the address of every row it is given, on the ports given. -/
theorem script_spec {rows : List Row} {tcp udp : Finset Int} {now : Int} {t : Table}
    (h : script lib rows tcp udp now = .ok t) :
    (∀ row ∈ rows, ∃ source, addressOf lib row = .ok source ∧
      (t.banned source.version6 source.text).isSome) ∧
      ∀ isUdp, t.ports isUdp = (Ports.mk tcp udp).of isUdp := by
  unfold script at h
  cases hGroups : groupRows lib now ⟨.empty, .empty⟩ rows with
  | error e => simp [hGroups, bind, Except.bind] at h
  | ok g =>
    rw [hGroups] at h
    obtain rfl := Except.ok.inj h
    refine ⟨fun row hRow => ?_, fun isUdp => by cases isUdp <;> rfl⟩
    obtain ⟨source, hSource, hSome⟩ := (isSome_groupRows hGroups).2 row hRow
    refine ⟨source, hSource, ?_⟩
    unfold Table.banned
    unfold elements at hSome
    split
    · next h6 =>
      rwa [if_pos h6] at hSome
    · next h6 =>
      rwa [if_neg h6] at hSome

-- ---------------------------------------------------------------------------
-- A push that is applied
-- ---------------------------------------------------------------------------

/-- The table bans the source, on exactly the ports that were collected and
those of a table that had not been found. -/
def Loaded (f : Flight) (found : Bool) (before after : Option Table) (source : Address) : Prop :=
  ∃ t, after = some t ∧ (t.banned source.version6 source.text).isSome ∧
    ∀ port : Bool × Int, port.2 ∈ t.ports port.1 ↔ port.2 ∈ f.ports.of port.1 ∨
      found = false ∧ ∃ old, before = some old ∧ port.2 ∈ old.ports port.1

/-- The transaction of a push with active bans. -/
theorem run_loaded {f : Flight} {clock now : Int} {active : List Row} {found : Bool}
    {before after : Option Table} {t : Table} {row : Row} {source : Address}
    (hScript : script lib active f.ports.tcp f.ports.udp clock = .ok t) (hRow : row ∈ active)
    (hSource : addressOf lib row = .ok source)
    (hRun : (timedTransaction now (if found then .replace t else .load t)).run renew before =
      some after) : Loaded f found before after source := by
  obtain ⟨hBanned, hPorts⟩ := script_spec hScript
  obtain ⟨other, hOther, hSome⟩ := hBanned row hRow
  obtain rfl := Except.ok.inj (hOther.symm.trans hSource)
  have hTimed : ((timed now t).banned other.version6 other.text).isSome := by
    rw [timed_banned, hSome]
  have hCollected : ∀ isUdp, (timed now t).ports isUdp = f.ports.of isUdp := by
    intro isUdp
    rw [timed_ports, hPorts]
  -- a table that was found is replaced; one that was not may be there by now
  cases found with
  | true =>
    cases before with
    | none => cases hRun
    | some old =>
      obtain rfl := Option.some.inj hRun
      refine ⟨timed now t, rfl, hTimed, fun port => ?_⟩
      rw [hCollected]
      simp
  | false =>
    cases before with
    | none =>
      obtain rfl := Option.some.inj hRun
      refine ⟨timed now t, rfl, hTimed, fun port => ?_⟩
      rw [hCollected]
      simp
    | some old =>
      obtain rfl := Option.some.inj hRun
      -- merged into another push's table: its ports are added
      refine ⟨old.merge renew (timed now t), rfl, isSome_banned_merge hTimed, fun port => ?_⟩
      rw [Table.ports_merge, Finset.mem_union, hCollected]
      simp [or_comm]

/-- After a push that is applied, every ban in force is in the table. -/
theorem land_spec {f : Flight} {clock now : Int} {active : List Row} {found accepts : Bool}
    {before after : Option Table} (hActive : activeBans lib clock f.bans = .ok active)
    (hClock : clock ≤ now)
    (hLand : land lib renew f clock now active found accepts before = some after)
    {row : Row} (hRow : row ∈ f.bans) {source : Address}
    (hForce : inForce lib now row = some source) : Loaded f found before after source := by
  obtain ⟨⟨expires, hExpires, hLater⟩, hSource⟩ := inForce_eq_some.mp hForce
  have hMem : row ∈ active :=
    (mem_activeBans hActive row).mpr ⟨hRow, expires, hExpires, by omega⟩
  have hSome : active ≠ [] := fun h => by
    rw [h] at hMem
    cases hMem
  unfold land Push.transaction at hLand
  rw [if_neg hSome] at hLand
  cases hScript : script lib active f.ports.tcp f.ports.udp clock with
  | error e =>
    rw [show script lib active (f.toPush clock).tcp (f.toPush clock).udp (f.toPush clock).now =
      .error e from hScript] at hLand
    cases hLand
  | ok t =>
    rw [show script lib active (f.toPush clock).tcp (f.toPush clock).udp (f.toPush clock).now =
      .ok t from hScript] at hLand
    cases accepts with
    | false => cases hLand
    | true => exact run_loaded hScript hMem hSource hLand

-- ---------------------------------------------------------------------------
-- Steps
-- ---------------------------------------------------------------------------

/-- A flight has kept the bans that had not expired at an instant that is past. -/
def Kept (lib : Library) (now : Int) (f : Flight) : Prop :=
  ∀ clock active, f.stage.reading = some (clock, active) →
    activeBans lib clock f.bans = .ok active ∧ clock ≤ now

/-- What `apply` has kept is what it would keep of the bans at the clock it has
read, and the clock has not gone back since. -/
def Probes (lib : Library) (w : World) : Prop :=
  ∀ id f, w.flights id = some f → Kept lib w.now f

theorem probes_start (now : Int) (cores : CoreId → Option Managed) (table : Option Table) :
    Probes lib (start now cores table) := by
  intro id f h
  cases h

/-- A flight in the place of another keeps the rest. -/
theorem probes_setFlight (hProbes : Probes lib w) {id : Nat} {f : Option Flight}
    (hFlight : ∀ g, f = some g → Kept lib w.now g) : Probes lib (w.setFlight id f) := by
  intro other g hOther
  by_cases hId : other = id
  · subst hId
    simp only [World.setFlight, Function.update_self] at hOther
    exact hFlight g hOther
  · simp only [World.setFlight, Function.update_of_ne hId] at hOther
    exact hProbes other g hOther

/-- A flight that has not read the clock has nothing to keep. -/
theorem kept_collecting (now : Int) (bans : List Row) (ports : Ports) (rest : List CoreId) :
    Kept lib now ⟨bans, ports, .collecting rest⟩ := by
  intro clock active hReading
  cases hReading

/--
**Step.** Flights keep to the clock they have read. A push reads it once, and
the ports its probe looks at are compared with that reading, however much later
the step comes.
-/
theorem probes_step (hProbes : Probes lib w) (e : Event) :
    Probes lib (step lib lang renew nft w e) := by
  have hNone : ∀ id, Probes lib (w.setFlight id none) :=
    fun id => probes_setFlight hProbes fun g h => by cases h
  have hCollecting : ∀ id bans ports rest,
      Probes lib (w.setFlight id (some ⟨bans, ports, .collecting rest⟩)) := by
    intro id bans ports rest
    refine probes_setFlight hProbes fun g h => ?_
    obtain rfl := Option.some.inj h
    exact kept_collecting w.now bans ports rest
  cases e with
  | pass instant =>
    -- the clock that was read only gets older
    intro id f hFlight clock active hReading
    obtain ⟨hActive, hClock⟩ := hProbes id f hFlight clock active hReading
    exact ⟨hActive, le_max_of_le_left hClock⟩
  | change core after => exact hProbes
  | push id bans =>
    simp only [step]
    split
    · exact hCollecting id bans ⟨∅, ∅⟩ w.listed
    · exact hProbes
  | visit id =>
    simp only [step]
    split
    · exact hCollecting id _ _ _
    · exact hProbes
  | date id =>
    simp only [step]
    split
    · split
      · next hActive =>
        refine probes_setFlight hProbes fun g h => ?_
        obtain rfl := Option.some.inj h
        intro clock active hReading
        obtain ⟨rfl, rfl⟩ := Prod.mk.inj (Option.some.inj hReading)
        exact ⟨hActive, le_rfl⟩
      · exact hNone id
    · exact hProbes
  | probe id =>
    simp only [step]
    split
    · next bans ports clock active hFlight =>
      -- the listing looks at the table only: clock and bans are those read before
      refine probes_setFlight hProbes fun g h => ?_
      obtain rfl := Option.some.inj h
      intro clock' active' hReading
      exact hProbes id _ hFlight clock' active' hReading
    · exact hProbes
  | transact id accepts =>
    simp only [step]
    split
    · split
      · exact hNone id
      · exact hNone id
    · exact hProbes
  | cancel id => exact hNone id

/-- Only time, a changed core and an applied push have to do with coverage. -/
theorem covered_of_same {w' : World} (hNow : w'.now = w.now) (hCores : w'.cores = w.cores)
    (hTable : w'.table = w.table) (hLast : w'.last = w.last) :
    Covered lib lang w' ↔ Covered lib lang w := by
  unfold Covered World.claimed World.Drops
  rw [hNow, hCores, hTable, hLast]

/-- Time passes. -/
theorem covered_pass (hCovered : Covered lib lang w) (instant : Int) :
    Covered lib lang (step lib lang renew nft w (.pass instant)) ↔
      Suits lib lang renew w (.pass instant) := by
  constructor
  -- coverage afterwards: the element of the ban is one that has not lapsed
  · intro h row hRow source hForce core hClaimed
    obtain ⟨port, hPort⟩ := List.exists_mem_of_ne_nil _ hClaimed
    obtain ⟨t, hTable, hDrops⟩ := h row hRow source hForce core port hPort
    cases hOld : w.table with
    | none =>
      rw [show (step lib lang renew nft w (.pass instant)).table =
        w.table.map (lapse (max w.now instant)) from rfl, hOld] at hTable
      cases hTable
    | some old =>
      rw [show (step lib lang renew nft w (.pass instant)).table =
        w.table.map (lapse (max w.now instant)) from rfl, hOld] at hTable
      obtain rfl := Option.some.inj hTable
      obtain ⟨last, hLast, hLater⟩ := lapse_banned_iff.mp (drops_iff.mp hDrops).1
      exact ⟨old, last, rfl, hLast, hLater⟩
  -- a ban that is in force afterwards was so before, and its element stays
  · intro h row hRow source hForce core port hPort
    have hClaimed : w.claimed lang core ≠ [] := List.ne_nil_of_mem hPort
    obtain ⟨old, last, hOld, hLast, hLater⟩ := h row hRow source hForce core hClaimed
    have hBefore : inForce lib w.now row = some source := by
      obtain ⟨⟨expires, hExpires, hAlive⟩, hSource⟩ := inForce_eq_some.mp hForce
      have hMax : w.now ≤ max w.now instant := le_max_left _ _
      have hAlive' : max w.now instant < expires := hAlive
      exact inForce_eq_some.mpr ⟨⟨expires, hExpires, by omega⟩, hSource⟩
    obtain ⟨t, hTable, hDrops⟩ := hCovered row hRow source hBefore core port hPort
    obtain rfl := Option.some.inj (hOld.symm.trans hTable)
    refine ⟨lapse (max w.now instant) old, ?_, drops_iff.mpr ⟨?_, ?_⟩⟩
    · show w.table.map (lapse (max w.now instant)) = _
      rw [hOld]
      rfl
    · exact lapse_banned_iff.mpr ⟨last, hLast, hLater⟩
    · rw [lapse_ports]
      exact (drops_iff.mp hDrops).2

/-- A core is changed. -/
theorem covered_change (hCovered : Covered lib lang w) (core : CoreId) (after : Option Managed) :
    Covered lib lang (step lib lang renew nft w (.change core after)) ↔
      Suits lib lang renew w (.change core after) := by
  have hSelf : (step lib lang renew nft w (.change core after)).claimed lang core =
      after.elim [] fun m => m.ports lang core := by
    simp only [step, World.claimed, Function.update_self]
  have hOther : ∀ other, other ≠ core →
      (step lib lang renew nft w (.change core after)).claimed lang other =
        w.claimed lang other := by
    intro other hNe
    simp only [step, World.claimed, Function.update_of_ne hNe]
  constructor
  · intro h row hRow source hForce port hPort
    exact h row hRow source hForce core port (hSelf ▸ hPort)
  · intro h row hRow source hForce other port hPort
    by_cases hCore : other = core
    · subst hCore
      exact h row hRow source hForce port (hSelf ▸ hPort)
    · rw [hOther other hCore] at hPort
      exact hCovered row hRow source hForce other port hPort

/-- A push has its transaction. -/
theorem covered_transact (hProbes : Probes lib w) (hCovered : Covered lib lang w) (id : Nat)
    (accepts : Bool) :
    Covered lib lang (step lib lang renew nft w (.transact id accepts)) ↔
      Suits lib lang renew w (.transact id accepts) := by
  -- only a push that has looked for the table has a transaction
  by_cases hProbed : ∃ f clock active found, w.flights id = some f ∧
      f.stage = .probed clock active found
  · obtain ⟨⟨bans, ports, stage⟩, clock, active, found, hFlight, hStage⟩ := hProbed
    obtain rfl : stage = .probed clock active found := hStage
    obtain ⟨hActive, hClock⟩ := hProbes id _ hFlight clock active rfl
    cases hLand : land lib renew ⟨bans, ports, .probed clock active found⟩ clock w.now active
        found accepts w.table with
    -- it does not report ok: the table stays, and the push is over
    | none =>
      have hStep : step lib lang renew nft w (.transact id accepts) = w.setFlight id none := by
        simp only [step, hFlight, hLand]
      rw [hStep, covered_of_same rfl rfl rfl rfl]
      refine iff_of_true hCovered ?_
      intro f clock' active' found' hFlight' hStage' hLands
      obtain rfl := Option.some.inj (hFlight.symm.trans hFlight')
      injection hStage' with hClock' hActive' hFound'
      subst hClock' hActive' hFound'
      exact absurd hLand hLands
    -- it does, and its bans are those that count from now on
    | some after =>
      have hStep : step lib lang renew nft w (.transact id accepts) =
          { w.setFlight id none with table := after, last := bans } := by
        simp only [step, hFlight, hLand]
      rw [hStep]
      constructor
      · intro h f clock' active' found' hFlight' hStage' hLands row hRow hSome core port hPort
        obtain rfl := Option.some.inj (hFlight.symm.trans hFlight')
        injection hStage' with hClock' hActive' hFound'
        subst hClock' hActive' hFound'
        obtain ⟨source, hForce⟩ := Option.isSome_iff_exists.mp hSome
        obtain ⟨t, hAfter, -, hPorts⟩ := land_spec hActive hClock hLand hRow hForce
        obtain ⟨t', hTable, hDrops⟩ := h row hRow source hForce core port hPort
        obtain rfl := Option.some.inj (hAfter.symm.trans hTable)
        exact (hPorts port).mp (drops_iff.mp hDrops).2
      · intro h row hRow source hForce core port hPort
        obtain ⟨t, hAfter, hBanned, hPorts⟩ := land_spec hActive hClock hLand hRow hForce
        have hLands : land lib renew ⟨bans, ports, .probed clock active found⟩ clock w.now active
            found accepts w.table ≠ none := by
          rw [hLand]
          exact Option.some_ne_none _
        refine ⟨t, hAfter, drops_iff.mpr ⟨hBanned, (hPorts port).mpr ?_⟩⟩
        -- the ports of the new table are those that were collected
        have hSome : (inForce lib w.now row).isSome := Option.isSome_of_eq_some hForce
        exact h _ clock active found hFlight rfl hLands row hRow hSome core port hPort
  · have hStep : step lib lang renew nft w (.transact id accepts) = w := by
      simp only [step]
      split
      · next bans ports clock active found hFlight =>
        exact absurd ⟨_, clock, active, found, hFlight, rfl⟩ hProbed
      · rfl
    rw [hStep]
    refine iff_of_true hCovered ?_
    intro f clock active found hFlight hStage
    exact absurd ⟨f, clock, active, found, hFlight, hStage⟩ hProbed

/--
**Step.** From a state with coverage a step leads to one exactly if it suits.
Three kinds of steps can go wrong: time that lets an element lapse before its
ban, a core that claims a port the table does not drop, and a push whose
collected ports are not all that are claimed when it lands.
-/
theorem covered_step (hProbes : Probes lib w) (hCovered : Covered lib lang w) (e : Event) :
    Covered lib lang (step lib lang renew nft w e) ↔ Suits lib lang renew w e := by
  cases e with
  | pass instant        => exact covered_pass hCovered instant
  | change core after   => exact covered_change hCovered core after
  | transact id accepts => exact covered_transact hProbes hCovered id accepts
  -- the steps of a push before its transaction touch neither table nor cores
  | push id bans =>
    refine iff_of_true ?_ trivial
    simp only [step]
    split
    · exact (covered_of_same rfl rfl rfl rfl).mpr hCovered
    · exact hCovered
  | visit id =>
    refine iff_of_true ?_ trivial
    simp only [step]
    split
    · exact (covered_of_same rfl rfl rfl rfl).mpr hCovered
    · exact hCovered
  | date id =>
    refine iff_of_true ?_ trivial
    simp only [step]
    split
    · split
      · exact (covered_of_same rfl rfl rfl rfl).mpr hCovered
      · exact (covered_of_same rfl rfl rfl rfl).mpr hCovered
    · exact hCovered
  | probe id =>
    refine iff_of_true ?_ trivial
    simp only [step]
    split
    · exact (covered_of_same rfl rfl rfl rfl).mpr hCovered
    · exact hCovered
  | cancel id => exact iff_of_true ((covered_of_same rfl rfl rfl rfl).mpr hCovered) trivial

/--
**Coverage.** However requests, lifecycle actions, pushes and time interleave:
every ban in force drops the packets to every claimed public port in every
state of the run **if and only if** every step suits.
-/
theorem bans_cover_iff (lib : Library) (lang : Lang) (renew nft : Bool) (now : Int)
    (cores : CoreId → Option Managed) (table : Option Table) (events : List Event) :
    (node lib lang renew nft).Always (Covered lib lang) (start now cores table) events ↔
      (node lib lang renew nft).Along (fun _ => Suits lib lang renew) []
        (start now cores table) events := by
  have hStart : Covered lib lang (start now cores table) :=
    fun row hRow => absurd hRow List.not_mem_nil
  exact (node lib lang renew nft).always_iff_along_inv (Probes lib)
    (fun w e hProbes => probes_step hProbes e)
    (fun w e hProbes hCovered => covered_step hProbes hCovered e)
    (probes_start now cores table) hStart [] events

-- ---------------------------------------------------------------------------
-- What a push collects
-- ---------------------------------------------------------------------------

/-- The loop of a push that nothing comes between. -/
theorem collect_rest {id : Nat} {bans : List Row} (rest : List CoreId) {ports : Ports}
    (hFlight : w.flights id = some ⟨bans, ports, .collecting rest⟩) :
    (node lib lang renew nft).exec w (List.replicate rest.length (.visit id)) =
      w.setFlight id (some
        ⟨bans, rest.foldl (fun p core => visitCore lang core (w.cores core) p) ports,
          .collecting []⟩) := by
  induction rest generalizing w ports with
  | nil =>
    rw [List.foldl_nil, ← hFlight]
    simp [World.setFlight]
  | cons core rest ih =>
    have hStep : (node lib lang renew nft).next w (.visit id) =
        w.setFlight id
          (some ⟨bans, visitCore lang core (w.cores core) ports, .collecting rest⟩) := by
      show step lib lang renew nft w (.visit id) = _
      simp only [step, hFlight]
    have hNext : (w.setFlight id
        (some ⟨bans, visitCore lang core (w.cores core) ports, .collecting rest⟩)).flights id =
          some ⟨bans, visitCore lang core (w.cores core) ports, .collecting rest⟩ :=
      Function.update_self _ _ _
    rw [List.length_cons, List.replicate_succ, Machine.exec_cons, hStep, ih hNext]
    simp [World.setFlight]

/--
**An undisturbed push** has collected what `managed_ports` returns: visiting
the cores one by one, as the step relation does, is the loop of the source when
nothing comes between.
-/
theorem collect_undisturbed {id : Nat} (bans : List Row) (hFree : w.flights id = none) :
    (node lib lang renew nft).exec w
        (.push id bans :: List.replicate w.listed.length (.visit id)) =
      w.setFlight id (some ⟨bans, managedPorts lang w.cores w.listed, .collecting []⟩) := by
  have hPush : (node lib lang renew nft).next w (.push id bans) =
      w.setFlight id (some ⟨bans, ⟨∅, ∅⟩, .collecting w.listed⟩) := by
    show step lib lang renew nft w (.push id bans) = _
    simp only [step, hFree]
  rw [Machine.exec_cons, hPush, collect_rest w.listed (Function.update_self _ _ _)]
  simp [World.setFlight, managedPorts]

-- ---------------------------------------------------------------------------
-- A port claimed after a push
-- ---------------------------------------------------------------------------

/-- An address library, and a clock on which the only instant there is comes after
a minute. -/
def clockLibrary : Library where
  str           := fun v => match v with
    | .str s => s
    | _      => ""
  fromisoformat := fun _ => .ok ⟨60000000, some 0⟩
  ipAddress     := fun s => .ok ⟨s, false⟩
  wholeSeconds  := fun span => span.tdiv 1000000

/-- A row of Xray's configuration. -/
def vlessRow (tag : String) (port : Int) : Json :=
  .dict [("tag", .str tag), ("protocol", .str "vless"), ("port", .num port)]

/-- Xray, enabled, with its configuration. -/
def xrayWith (rows : List Json) : Managed := ⟨true, ⟨[], .ok rows⟩⟩

/-- A ban is pushed while Xray has one inbound, and then Xray is given another. -/
def addsInbound : List Event :=
  [.push 0 [[("ip", .str "203.0.113.1"), ("expires_at", .str "1970-01-01T00:01:00Z")]],
    .visit 0, .date 0, .probe 0, .transact 0 true,
    .change .xray (some (xrayWith [vlessRow "a" 443, vlessRow "b" 8443]))]

def onlyXray : CoreId → Option Managed
  | .xray => some (xrayWith [vlessRow "a" 443])
  | _     => none

/-- The push is applied, the ban is in force and Xray claims port 8443, but a packet
from the banned address to it is not dropped. -/
theorem ban_misses_new_port :
    ¬ (node clockLibrary plainLang false true).Always (Covered clockLibrary plainLang)
        (start 0 onlyXray none) addsInbound := by
  intro h
  have hCovered := h addsInbound [] (List.append_nil _).symm
  obtain ⟨t, hTable, hDrops⟩ := hCovered
    [("ip", .str "203.0.113.1"), ("expires_at", .str "1970-01-01T00:01:00Z")]
    (List.mem_singleton.mpr rfl) ⟨"203.0.113.1", false⟩ rfl .xray (false, 8443) (by decide)
  have hPorts : ((node clockLibrary plainLang false true).exec (start 0 onlyXray none)
      addsInbound).table.map (fun t => decide ((8443 : Int) ∈ t.vpnTcpPorts)) = some false := by
    decide
  rw [hTable] at hPorts
  have hMem := (drops_iff.mp hDrops).2
  exact of_decide_eq_false (Option.some.inj hPorts) hMem

end ZagrosNode.Bans.Coverage
