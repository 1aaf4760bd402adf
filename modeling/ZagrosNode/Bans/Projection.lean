import Mathlib.Data.Finset.Lattice.Basic
import Mathlib.Data.Finset.SDiff
import ZagrosNode.Lib.Dict
import ZagrosNode.Lib.Py

/-!
# ZagrosNode — timed address bans as an nft table

The panel owns the bans; a push projects the ones that have not expired onto
the ports this node serves. The projection is one table: two sets of addresses
with a timeout each, two sets of ports, and a chain that drops what matches.

`apply` first asks whether the table is there and then runs one script. What
the script does is up to `nft`: it runs as a whole or not at all, deletes only
a table that is there, and merges a table definition into a table that is.

`Table` has what the script defines and what a packet meets. A new table and one that is
merged into another are the same script with a line more or less, so there are two
outcomes of a transaction that runs: the projection, or the projection merged into what
was there. That `nft` may or may not renew the timeout of an element that exists is the
parameter `renew`, and nothing proved here depends on it.

The push is cut in two, up to its look at the kernel (`Push.active`) and from there
(`Push.finish`), because two pushes can interleave there; see `Bans/Races.lean`. Here
nobody does, and `apply` is one half after the other.

A push without an active ban deletes the table. If there is none it has nothing to do,
and reports ok.

Main results:

* `merge_eq_new_iff`, `merge_eq_old_iff` — when a merged table is one of the
  two it was merged from.
* `apply_projects` — a push that nobody interferes with leaves its projection
  behind if it reports ok, and the table as it was otherwise.
-/

namespace ZagrosNode.Bans

open ZagrosNode.Lib

-- ---------------------------------------------------------------------------
-- The standard library
-- ---------------------------------------------------------------------------

/-- A `datetime`: microseconds on its own clock, and the distance of that
clock from UTC if it knows one. -/
structure Datetime where
  clock  : Int
  offset : Option Int
  deriving DecidableEq, Repr

/-- An `ipaddress` object: its canonical text and its version. -/
structure Address where
  text     : String
  version6 : Bool
  deriving DecidableEq, Repr

/-- What the code uses of its standard library. -/
structure Library where
  str           : Json → String
  fromisoformat : String → Except PyErr Datetime
  ipAddress     : String → Except PyErr Address
  /-- `int(delta.total_seconds())`, of a distance in microseconds. -/
  wholeSeconds  : Int → Int

-- ---------------------------------------------------------------------------
-- Rows
-- ---------------------------------------------------------------------------

/-- One ban as it arrives. -/
abbrev Row := List (String × Json)

/-- `row[key]` -/
def field (row : Row) (key : String) : Except PyErr Json :=
  match Json.get? row key with
  | some v => .ok v
  | none   => .error ⟨.key, key⟩

variable (lib : Library)

/-- `_parse_time`, in microseconds of UTC. A value that names no zone is UTC. -/
def parseTime (value : Json) : Except PyErr Int := do
  let result ← lib.fromisoformat ((lib.str value).replace "Z" "+00:00")
  .ok (result.clock - result.offset.getD 0)

/-- `[row for row in bans if _parse_time(row["expires_at"]) > now]` -/
def activeBans (now : Int) : List Row → Except PyErr (List Row)
  | []          => .ok []
  | row :: rest => do
    let expires ← parseTime lib (← field row "expires_at")
    let others ← activeBans now rest
    .ok (if now < expires then row :: others else others)

-- ---------------------------------------------------------------------------
-- The table
-- ---------------------------------------------------------------------------

/-- The table `zagros_ip_limit`. A banned address has the seconds it stays. -/
@[ext] structure Table where
  bannedV4    : String → Option Int
  bannedV6    : String → Option Int
  vpnTcpPorts : Finset Int
  vpnUdpPorts : Finset Int

namespace Table

/-- The set of banned addresses of one version. -/
def banned (t : Table) (version6 : Bool) : String → Option Int :=
  if version6 then t.bannedV6 else t.bannedV4

/-- The ports of one transport. -/
def ports (t : Table) (udp : Bool) : Finset Int :=
  if udp then t.vpnUdpPorts else t.vpnTcpPorts

/-- The chain `input` drops a packet from the address to the port. -/
def drops (t : Table) (source : Address) (udp : Bool) (port : Int) : Bool :=
  (t.banned source.version6 source.text).isSome && decide (port ∈ t.ports udp)

end Table

/-- `groups`: the seconds of each address, by version. -/
structure Groups where
  v4 : Dict String Int
  v6 : Dict String Int

/-- `bucket[ip] = max(bucket.get(ip, 0), seconds)` -/
def Groups.add (g : Groups) (version6 : Bool) (ip : String) (seconds : Int) : Groups :=
  if version6 then { g with v6 := g.v6.set ip (max ((g.v6.get? ip).getD 0) seconds) }
  else { g with v4 := g.v4.set ip (max ((g.v4.get? ip).getD 0) seconds) }

/-- The rows of `_script`, in their order. -/
def groupRows (now : Int) : Groups → List Row → Except PyErr Groups
  | groups, []          => .ok groups
  | groups, row :: rest => do
    let ip ← lib.ipAddress (lib.str (← field row "ip"))
    let expires ← parseTime lib (← field row "expires_at")
    let seconds := max 1 (lib.wholeSeconds (expires - now))
    let again ← lib.ipAddress ip.text
    groupRows now (groups.add again.version6 ip.text seconds) rest

/-- `_script`, as the table it defines. -/
def script (bans : List Row) (tcp udp : Finset Int) (now : Int) : Except PyErr Table := do
  let groups ← groupRows lib now ⟨.empty, .empty⟩ bans
  .ok ⟨groups.v4.get?, groups.v6.get?, tcp, udp⟩

-- ---------------------------------------------------------------------------
-- nft
-- ---------------------------------------------------------------------------

/-- `nft` merges a definition into a table that is there. Whether an element
that is there as well gets the new timeout depends on the kernel (`renew`). -/
def Table.merge (renew : Bool) (old new : Table) : Table where
  bannedV4 ip := if renew then (new.bannedV4 ip).or (old.bannedV4 ip)
    else (old.bannedV4 ip).or (new.bannedV4 ip)
  bannedV6 ip := if renew then (new.bannedV6 ip).or (old.bannedV6 ip)
    else (old.bannedV6 ip).or (new.bannedV6 ip)
  vpnTcpPorts := old.vpnTcpPorts ∪ new.vpnTcpPorts
  vpnUdpPorts := old.vpnUdpPorts ∪ new.vpnUdpPorts

/-- How `nft` takes one script: whether anything but the state of the tables
keeps it from running, and what it would say if it failed. -/
structure Reply where
  accepts : Bool
  stderr  : String
  deriving DecidableEq, Repr

/-- The one transaction of a push. -/
inductive Transaction
  | deleteTable
  | replace (table : Table)
  | load (table : Table)

/-- The table after a transaction, `none` where it fails as a whole. -/
def Transaction.run (renew : Bool) (kernel : Option Table) :
    Transaction → Option (Option Table)
  | .deleteTable   => kernel.map fun _ => none
  | .replace table => kernel.map fun _ => some table
  | .load table    => some (some (kernel.elim table fun old => old.merge renew table))

-- ---------------------------------------------------------------------------
-- One push
-- ---------------------------------------------------------------------------

/-- What one call of `apply` is given, and its clock. -/
structure Push where
  bans : List Row
  tcp  : Finset Int
  udp  : Finset Int
  now  : Int

/-- What a call of `apply` returns or raises. -/
inductive Report
  | ok (active : Nat)
  | error (text : String)
  | raised (e : PyErr)
  deriving DecidableEq, Repr

/-- `apply` up to its first look at the kernel: the rows that are left. -/
def Push.active (p : Push) : Except PyErr (List Row) := activeBans lib p.now p.bans

/-- The transaction after the table was found or not found. `none` is a push
that has nothing to do. -/
def Push.transaction (p : Push) (active : List Row) (found : Bool) :
    Except PyErr (Option Transaction) :=
  if active = [] then .ok (if found then some .deleteTable else none)
  else do
    let table ← script lib active p.tcp p.udp p.now
    .ok (some (if found then .replace table else .load table))

/-- The second half of `apply`: one transaction and the report. -/
def Push.finish (renew : Bool) (p : Push) (active : List Row) (found : Bool) (reply : Reply)
    (kernel : Option Table) : Option Table × Report :=
  match p.transaction lib active found with
  | .error e      => (kernel, .raised e)
  | .ok none      => (kernel, .ok active.length)
  | .ok (some tx) =>
    match reply.accepts, tx.run renew kernel with
    | true, some after => (after, .ok active.length)
    | _, _             => (kernel, .error reply.stderr)

/-- `apply`, with nobody else at the table. -/
def apply (renew nft : Bool) (p : Push) (reply : Reply) (kernel : Option Table) :
    Option Table × Report :=
  if nft then
    match p.active lib with
    | .error e   => (kernel, .raised e)
    | .ok active => p.finish lib renew active kernel.isSome reply kernel
  else (kernel, .error "nft is not installed")

/-- What a push stands for: no table without an active ban, else the table of
its bans and ports. -/
def Push.projection (p : Push) : Except PyErr (Option Table) := do
  let active ← p.active lib
  if active = [] then .ok none
  else do
    let table ← script lib active p.tcp p.udp p.now
    .ok (some table)

-- ---------------------------------------------------------------------------
-- Merged tables
-- ---------------------------------------------------------------------------

/-- Every port and every banned address of `small` is one of `big`, with the
same timeout if `timed`. -/
structure Table.Within (timed : Bool) (small big : Table) : Prop where
  banned : ∀ version6 ip τ, small.banned version6 ip = some τ →
    ∃ τ', big.banned version6 ip = some τ' ∧ (timed = true → τ' = τ)
  ports  : ∀ udp, small.ports udp ⊆ big.ports udp

namespace Table

theorem banned_merge (renew : Bool) (old new : Table) (version6 : Bool) (ip : String) :
    (old.merge renew new).banned version6 ip =
      if renew then (new.banned version6 ip).or (old.banned version6 ip)
      else (old.banned version6 ip).or (new.banned version6 ip) := by
  cases version6 <;> rfl

theorem ports_merge (renew : Bool) (old new : Table) (udp : Bool) :
    (old.merge renew new).ports udp = old.ports udp ∪ new.ports udp := by
  cases udp <;> rfl

/-- A table is its four sets. -/
theorem eq_iff_sets {s t : Table} :
    s = t ↔ (∀ version6 ip, s.banned version6 ip = t.banned version6 ip) ∧
      ∀ udp, s.ports udp = t.ports udp := by
  constructor
  · rintro rfl
    exact ⟨fun _ _ => rfl, fun _ => rfl⟩
  · intro ⟨hBanned, hPorts⟩
    exact Table.ext (funext (hBanned false)) (funext (hBanned true)) (hPorts false) (hPorts true)

/-- Looking in two places finds what the second holds exactly if the first
holds nothing else. -/
theorem or_eq_right_iff {α : Type*} {a b : Option α} :
    a.or b = b ↔ ∀ x, a = some x → b = some x := by
  cases a with
  | none => simp
  | some x =>
    simp only [Option.some_or, Option.some.injEq, forall_eq']
    exact eq_comm

/-- It finds what the first holds exactly if the first holds something
wherever the second does. -/
theorem or_eq_left_iff {α : Type*} {a b : Option α} :
    a.or b = a ↔ ∀ x, b = some x → ∃ y, a = some y := by
  cases a with
  | none => cases b <;> simp
  | some x => simp

/-- A merged table is the new one exactly if the old one is within it. -/
theorem merge_eq_new_iff {renew : Bool} {old new : Table} :
    old.merge renew new = new ↔ old.Within (!renew) new := by
  have hBanned : (∀ version6 ip, (old.merge renew new).banned version6 ip =
        new.banned version6 ip) ↔
      ∀ version6 ip τ, old.banned version6 ip = some τ →
        ∃ τ', new.banned version6 ip = some τ' ∧ ((!renew) = true → τ' = τ) := by
    refine forall_congr' fun version6 => forall_congr' fun ip => ?_
    rw [banned_merge]
    cases renew with
    | true =>
      rw [if_pos rfl, or_eq_left_iff]
      simp
    | false =>
      rw [if_neg Bool.false_ne_true, or_eq_right_iff]
      simp
  have hPorts : (∀ udp, (old.merge renew new).ports udp = new.ports udp) ↔
      ∀ udp, old.ports udp ⊆ new.ports udp := by
    refine forall_congr' fun udp => ?_
    rw [ports_merge, Finset.union_eq_right]
  rw [eq_iff_sets, hBanned, hPorts]
  exact ⟨fun h => ⟨h.1, h.2⟩, fun h => ⟨h.banned, h.ports⟩⟩

/-- It is the old one exactly if the new one is within that. -/
theorem merge_eq_old_iff {renew : Bool} {old new : Table} :
    old.merge renew new = old ↔ new.Within renew old := by
  have hBanned : (∀ version6 ip, (old.merge renew new).banned version6 ip =
        old.banned version6 ip) ↔
      ∀ version6 ip τ, new.banned version6 ip = some τ →
        ∃ τ', old.banned version6 ip = some τ' ∧ (renew = true → τ' = τ) := by
    refine forall_congr' fun version6 => forall_congr' fun ip => ?_
    rw [banned_merge]
    cases renew with
    | true =>
      rw [if_pos rfl, or_eq_right_iff]
      simp
    | false =>
      rw [if_neg Bool.false_ne_true, or_eq_left_iff]
      simp
  have hPorts : (∀ udp, (old.merge renew new).ports udp = old.ports udp) ↔
      ∀ udp, new.ports udp ⊆ old.ports udp := by
    refine forall_congr' fun udp => ?_
    rw [ports_merge, Finset.union_eq_left]
  rw [eq_iff_sets, hBanned, hPorts]
  exact ⟨fun h => ⟨h.1, h.2⟩, fun h => ⟨h.banned, h.ports⟩⟩

end Table

-- ---------------------------------------------------------------------------
-- What one push leaves behind
-- ---------------------------------------------------------------------------

variable {lib}

theorem projection_of_none {p : Push} (hActive : p.active lib = .ok []) :
    p.projection lib = .ok none := by
  simp [Push.projection, hActive, bind, Except.bind]

theorem projection_of_some {p : Push} {active : List Row} {table : Table}
    (hActive : p.active lib = .ok active) (hSome : active ≠ [])
    (hScript : script lib active p.tcp p.udp p.now = .ok table) :
    p.projection lib = .ok (some table) := by
  simp [Push.projection, hActive, hSome, hScript, bind, Except.bind]

/-- The ways a push can have something left to do, and what it then runs. -/
theorem transaction_cases {p : Push} {active : List Row} (hActive : p.active lib = .ok active)
    (found : Bool) :
    (active = [] ∧ p.projection lib = .ok none ∧
        p.transaction lib active found = .ok (if found then some .deleteTable else none)) ∨
      (∃ e, p.transaction lib active found = .error e) ∨
      ∃ table, active ≠ [] ∧ p.projection lib = .ok (some table) ∧
        p.transaction lib active found =
          .ok (some (if found then .replace table else .load table)) := by
  by_cases hNone : active = []
  · subst hNone
    exact Or.inl ⟨rfl, projection_of_none hActive, by simp [Push.transaction]⟩
  · refine Or.inr ?_
    cases hScript : script lib active p.tcp p.udp p.now with
    | error e => exact Or.inl ⟨e, by simp [Push.transaction, hNone, hScript, bind, Except.bind]⟩
    | ok table =>
      refine Or.inr ⟨table, hNone, projection_of_some hActive hNone hScript, ?_⟩
      simp [Push.transaction, hNone, hScript, bind, Except.bind]

/--
**One push.** With nobody else at the table, a push that reports ok leaves
exactly its projection, and any other push leaves the table as it was. The old
table goes and the new one comes in a single `nft -f`, so there is no moment
between the two.
-/
theorem apply_projects (lib : Library) (renew nft : Bool) (p : Push) (reply : Reply)
    (kernel : Option Table) :
    (∃ n, (apply lib renew nft p reply kernel).2 = .ok n ∧
        p.projection lib = .ok (apply lib renew nft p reply kernel).1) ∨
      ((∀ n, (apply lib renew nft p reply kernel).2 ≠ .ok n) ∧
        (apply lib renew nft p reply kernel).1 = kernel) := by
  obtain ⟨accepts, stderr⟩ := reply
  unfold apply
  cases nft with
  -- without `nft` the push reports an error and does nothing
  | false => exact Or.inr ⟨(fun n h => by cases h), rfl⟩
  | true =>
    rw [if_pos rfl]
    cases hActive : p.active lib with
    | error e => exact Or.inr ⟨(fun n h => by cases h), rfl⟩
    | ok active =>
      simp only [Push.finish]
      -- no active ban, a script that raises, or a script to run
      obtain ⟨-, hProjection, hTx⟩ | ⟨e, hTx⟩ | ⟨table, -, hProjection, hTx⟩ :=
        transaction_cases hActive kernel.isSome
      · rw [hTx, hProjection]
        cases kernel with
        | none => exact Or.inl ⟨_, rfl, rfl⟩
        | some old =>
          cases accepts with
          | true => exact Or.inl ⟨_, rfl, rfl⟩
          | false => exact Or.inr ⟨(fun n h => by cases h), rfl⟩
      · rw [hTx]
        exact Or.inr ⟨(fun n h => by cases h), rfl⟩
      · rw [hTx, hProjection]
        cases accepts with
        | false => exact Or.inr ⟨(fun n h => by cases h), rfl⟩
        | true =>
          cases kernel with
          | none => exact Or.inl ⟨_, rfl, rfl⟩
          | some old => exact Or.inl ⟨_, rfl, rfl⟩

end ZagrosNode.Bans
