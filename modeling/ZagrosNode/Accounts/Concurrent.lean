import ZagrosNode.Accounts.Interleaved
import ZagrosNode.Accounts.Convergence

/-!
# ZagrosNode — overlapping pushes of accounts

`core_accounts` calls the driver without the lock of the core, so several
full pushes for one core can be in flight; the snapshot is written when the
driver has returned. The machine below takes one step of one push at a time.
`working` lists the pushes that have begun to work on the set of accounts, in
the order in which they began.

A flight has the accounts it was decoded to and a coroutine; a turn either adds a
flight or advances one, with the answer to what it awaits. The work on the set begins
at the coroutine's mark, and `working` keeps the flights in the order in which they
passed theirs.

`Work` is the invariant over the list of those that work. Its head began first and its
last one last; every account is as the last one wants it, or some flight from a certain
place on is still to see to it. Beginning, stepping and leaving are the three ways in
which the list changes (`Work.begin`, `Work.step`, `Work.leave`), and the effect of one
step on one account is what `Accounts/Interleaved.lean` says of a coroutine in any
company.

`Orderly` and `InOrder` are the conditions. A push that raises half-way has changed the
set and files nothing; one that files before an earlier one is overwritten by it in the
snapshot. Both are excluded at the state before the step, by asking of the push that
leaves that it is not doomed and leaves in its turn, or that the others want the same.

Main results:

* `Pushes.Inv.next` — from a consistent start, every orderly step keeps the
  invariant: each account is as the last push to begin wants it, or some push
  is still to see to it.
* `pushes_agree` — in a run of orderly steps the driver lists the accounts of
  the snapshot whenever no push is in flight.
* `filed_in_reverse` — two pushes that are filed in the other order than they
  took effect.
-/

namespace ZagrosNode.Accounts

open ZagrosNode.Lib ZagrosNode.Cores ZagrosNode.Security Co

/-- A request with `replace=true`. -/
structure FullPush where
  accounts : List Raw
  host     : Host
  writable : Bool

/-- A push in flight: the accounts it was decoded to, and what its coroutine is
still to do. -/
structure Flight where
  push     : FullPush
  accounts : List UserAccount
  rest     : Suspended.Sync Unit

/-- One core, its snapshot and the pushes in flight. -/
structure Pushes where
  driver   : Driver
  snapshot : Snapshot
  /-- pushes that have not begun to work on the set -/
  waiting  : List Flight
  working  : List Flight

/-- A new push, or the next step of one in flight. A step carries the answer
to what the push awaits; a push whose first step awaits nothing ignores it. -/
inductive Turn
  | request (push : FullPush)
  | waiting (i : Nat) (answer : Except DriverError Unit)
  | working (i : Nat) (answer : Except DriverError Unit)

namespace Flight

/-- Run to the next await. -/
def step (f : Flight) (answer : Except DriverError Unit) (d : Driver) : Flight × Driver :=
  ({ f with rest := ((f.rest.answered answer).settle d).1 }, ((f.rest.answered answer).settle d).2)

/-- The next step begins the work on the set. -/
def begins (f : Flight) (answer : Except DriverError Unit) (d : Driver) : Bool :=
  (f.rest.answered answer).marks d

/-- A push is answered as soon as its driver has returned or raised. -/
def reply (core : CoreId) (f : Flight) : Option (Except Failure Nat) :=
  match f.rest with
  | .done (.ok ())   => some (.ok f.accounts.length)
  | .done (.error e) => some (.error (e.failure core))
  | _                => none

def ids (f : Flight) : List String := f.accounts.map UserAccount.accountId

/-- The snapshot after a push: written if the driver has returned. -/
def file (p : Platform) (f : Flight) (snapshot : Snapshot) : Snapshot :=
  match f.rest with
  | .done (.ok ()) => snapshot.store p f.push.accounts true f.push.writable
  | _              => snapshot

end Flight

/-- A push after a step: forgotten if it is answered. -/
def updated (core : CoreId) (flights : List Flight) (i : Nat) (f : Flight) : List Flight :=
  if (f.reply core).isSome then flights.eraseIdx i else flights.set i f

namespace Pushes

/-- A new push is decoded, and its coroutine made. -/
def request (p : Platform) (core : CoreId) (w : Pushes) (push : FullPush) :
    Pushes × Option (Except Failure Nat) :=
  match decodeAll p push.accounts with
  | .error e     => (w, some (.error e))
  | .ok accounts =>
    let f : Flight := ⟨push, accounts, Suspended.syncAccounts p push.host accounts core⟩
    ({ w with waiting := w.waiting ++ [f] }, none)

/-- A step of the waiting push `f`, the `i`-th. -/
def stepWaiting (p : Platform) (core : CoreId) (w : Pushes) (i : Nat) (f : Flight)
    (answer : Except DriverError Unit) : Pushes :=
  let f' := (f.step answer w.driver).1
  if f.begins answer w.driver then
    { driver := (f.step answer w.driver).2
      snapshot := f'.file p w.snapshot
      waiting := w.waiting.eraseIdx i
      working := updated core (w.working ++ [f']) w.working.length f' }
  else
    { w with
        driver := (f.step answer w.driver).2
        snapshot := f'.file p w.snapshot
        waiting := updated core w.waiting i f' }

/-- A step of the working push `f`, the `i`-th. -/
def stepWorking (p : Platform) (core : CoreId) (w : Pushes) (i : Nat) (f : Flight)
    (answer : Except DriverError Unit) : Pushes :=
  let f' := (f.step answer w.driver).1
  { w with
      driver := (f.step answer w.driver).2
      snapshot := f'.file p w.snapshot
      working := updated core w.working i f' }

/-- One step of the agent. -/
def step (p : Platform) (core : CoreId) (w : Pushes) : Turn → Pushes × Option (Except Failure Nat)
  | .request push => w.request p core push
  | .waiting i answer =>
    match w.waiting[i]? with
    | none   => (w, none)
    | some f => (w.stepWaiting p core i f answer, (f.step answer w.driver).1.reply core)
  | .working i answer =>
    match w.working[i]? with
    | none   => (w, none)
    | some f => (w.stepWorking p core i f answer, (f.step answer w.driver).1.reply core)

end Pushes

def pushMachine (p : Platform) (core : CoreId) :
    Machine Pushes Turn (Option (Except Failure Nat)) where
  step := Pushes.step p core

section Concurrent

variable (p : Platform) (core : CoreId)

/-- The driver lists exactly the accounts of the snapshot. -/
def Pushes.Agrees (w : Pushes) : Prop :=
  ∀ id, w.driver.Lists core id ↔ id ∈ accountIds p w.snapshot.load

/-- No push is in flight. -/
def Pushes.Idle (w : Pushes) : Prop := w.waiting = [] ∧ w.working = []

/-- Two pushes about the same accounts. -/
def Alike (f g : Flight) : Prop := ∀ id, id ∈ f.ids ↔ id ∈ g.ids

/-- What the outcome `f` of a step of a working push must meet.

* `alive`: the push is not bound to fail.
* `turn`: a push whose driver has returned is the first to have begun, or those
  that began before it are about the same accounts.
* `saved`: its snapshot is written, or lists its accounts already. -/
structure Orderly (snapshot : Snapshot) (earlier : List Flight) (f : Flight) : Prop where
  alive : ¬ f.rest.Doomed
  turn : f.rest = .done (.ok ()) → ∀ g ∈ earlier, Alike g f
  saved : f.rest = .done (.ok ()) →
    f.push.writable = true ∨ ∀ id, id ∈ accountIds p snapshot.load ↔ id ∈ f.ids

/-- What a step must meet.

* A push lists no account the driver would pass over.
* A push begins to work on the set of a driver that works account by account
  only while those at work are about the same accounts, and covers what Xray
  lists.
* Every step of a push at work is orderly. -/
def InOrder (w : Pushes) : Turn → Prop
  | .request push =>
    ∀ accounts, decodeAll p push.accounts = .ok accounts →
      ∀ account ∈ accounts, suits w.driver.settings account core = true
  | .waiting i answer =>
    ∀ f, w.waiting[i]? = some f → f.begins answer w.driver = true →
      ((stepwise core = true → ∀ g ∈ w.working, Alike g f) ∧
        (core = .xray → ∀ id, w.driver.Lists core id → id ∈ f.ids)) ∧
        Orderly p w.snapshot w.working (f.step answer w.driver).1
  | .working i answer =>
    ∀ f, w.working[i]? = some f →
      Orderly p w.snapshot (w.working.take i) (f.step answer w.driver).1

-- ---------------------------------------------------------------------------
-- The invariant
-- ---------------------------------------------------------------------------

/-- The accounts wanted last: those of the push that began last, or of the
snapshot. -/
def wanted (saved : List String) (flights : List Flight) : List String :=
  match flights.getLast? with
  | some f => f.ids
  | none   => saved

/-- What a working push may still do about each account. -/
structure Tends (d0 : Driver) (want : List String) (f : Flight) : Prop where
  each : ∀ id, f.rest.Settles (Frame d0) (Meets core want id) ∨
    f.rest.Keeps (Frame d0) (Meets core want id)
  /-- a driver that rebuilds its dictionary has done so -/
  whole : stepwise core = false → ∀ P, f.rest.Keeps (Frame d0) P
  alike : stepwise core = true → ∀ id, id ∈ f.ids ↔ id ∈ want

/-- The pushes at work: each account is as wanted, or one of them is still to
see to it. -/
structure Work (d0 d : Driver) (want : List String) (flights : List Flight) : Prop where
  frame : Frame d0 d
  tends : ∀ f ∈ flights, Tends core d0 want f
  tended : ∀ id, Meets core want id d ∨
    ∃ f ∈ flights, f.rest.Settles (Frame d0) (Meets core want id)

structure Pushes.Inv (d0 : Driver) (w : Pushes) : Prop where
  decoded : ∀ f ∈ w.waiting ++ w.working, decodeAll p f.push.accounts = .ok f.accounts
  waits : ∀ f ∈ w.waiting, f.rest.Waits (Suspended.Begun core d0 f.ids)
  work : Work core d0 w.driver (wanted (accountIds p w.snapshot.load) w.working) w.working

variable {p core} {d0 d : Driver} {want want' : List String} {flights : List Flight} {f : Flight}

theorem meets_congr (hSame : ∀ id, id ∈ want ↔ id ∈ want') (id : String) :
    Meets core want id = Meets core want' id := by
  funext d
  exact propext (iff_congr Iff.rfl (hSame id))

/-- Only the membership of the wanted accounts matters. -/
theorem Work.congr (h : Work core d0 d want flights) (hSame : ∀ id, id ∈ want ↔ id ∈ want') :
    Work core d0 d want' flights where
  frame := h.frame
  tends := by
    intro f hMem
    have hTends := h.tends f hMem
    refine ⟨fun id => ?_, hTends.whole, fun hStepwise id => ?_⟩
    · rw [← meets_congr hSame]
      exact hTends.each id
    · rw [hTends.alike hStepwise, hSame]
  tended := by
    intro id
    rw [← meets_congr hSame]
    exact h.tended id

/-- The last of the pushes says what is wanted. -/
theorem wanted_append (saved : List String) (flights : List Flight) (f : Flight) :
    wanted saved (flights ++ [f]) = f.ids := by
  rw [wanted, List.getLast?_concat]

theorem wanted_cons (saved : List String) (before after : List Flight) (f : Flight) :
    wanted saved (before ++ f :: after) = wanted f.ids after := by
  unfold wanted
  rw [List.getLast?_append, List.getLast?_cons]
  cases after.getLast? <;> rfl

theorem wanted_erase {saved : List String} {before after : List Flight}
    (hTurn : ∀ g ∈ before, Alike g f) (hSaved : ∀ id, id ∈ saved ↔ id ∈ f.ids) (id : String) :
    id ∈ wanted saved (before ++ after) ↔ id ∈ wanted f.ids after := by
  unfold wanted
  rw [List.getLast?_append]
  cases after.getLast? with
  | some g => exact Iff.rfl
  | none =>
    cases hLast : before.getLast? with
    | none => exact hSaved id
    | some g => exact hTurn g (List.mem_of_getLast? hLast) id

-- ---------------------------------------------------------------------------
-- Steps of the pushes at work
-- ---------------------------------------------------------------------------

/-- A push that begins. -/
theorem Work.begin (h : Work core d0 d want flights)
    (hWaits : f.rest.Waits (Suspended.Begun core d0 f.ids)) {answer : Except DriverError Unit}
    (hBegins : f.begins answer d = true)
    (hAlike : stepwise core = true → ∀ g ∈ flights, Alike g f)
    (hCovers : core = .xray → ∀ id, d.Lists core id → id ∈ f.ids) :
    Work core d0 (f.step answer d).2 f.ids (flights ++ [(f.step answer d).1]) := by
  obtain ⟨k, hBegun, hStep⟩ := (hWaits.answered answer).of_marks hBegins
  have hRest : (f.step answer d).1.rest = (k.settle d).1 := congrArg Prod.fst hStep
  have hDriver : (f.step answer d).2 = (k.settle d).2 := congrArg Prod.snd hStep
  have hIds : (f.step answer d).1.ids = f.ids := rfl
  rw [hDriver]
  cases hStepwise : stepwise core with
  | false =>
    rw [Suspended.Begun, if_neg (by rw [hStepwise]; exact Bool.false_ne_true)] at hBegun
    obtain ⟨⟨hFrame, hMeets⟩, hKeeps⟩ := hBegun d h.frame
    refine ⟨hFrame, fun g hMem => ?_, fun id => Or.inl (hMeets id)⟩
    -- every push at work leaves the set alone from here on
    have hWhole : ∀ P, g.rest.Keeps (Frame d0) P := by
      rcases List.mem_append.mp hMem with hOld | hNew
      · exact (h.tends g hOld).whole hStepwise
      · rw [List.mem_singleton.mp hNew, hRest]
        exact hKeeps
    refine ⟨fun id => Or.inr (hWhole _), fun _ => hWhole, fun hTrue => ?_⟩
    rw [hStepwise] at hTrue
    cases hTrue
  | true =>
    rw [Suspended.Begun, if_pos hStepwise] at hBegun
    have hNew : ∀ id, Frame d0 (k.settle d).2 ∧
        (Meets core f.ids id (k.settle d).2 ∧ (k.settle d).1.Keeps (Frame d0) (Meets core f.ids id) ∨
          (k.settle d).1.Settles (Frame d0) (Meets core f.ids id)) := by
      intro id
      rcases hBegun id with hSettles | ⟨⟨hXray, hNot⟩, hKeeps⟩
      · exact hSettles.of_settle h.frame
      · -- Xray was not given the account, and does not list it
        have hMeets : Meets core f.ids id d :=
          iff_of_false (fun hLists => hNot (hCovers hXray id hLists)) hNot
        have hNext := hKeeps.of_settle h.frame
        exact ⟨hNext.1.1, Or.inl ⟨hNext.1.2 hMeets, hNext.2⟩⟩
    refine ⟨(hNew "").1, fun g hMem => ⟨fun id => ?_, fun hFalse => ?_, fun _ id => ?_⟩, fun id => ?_⟩
    · rcases List.mem_append.mp hMem with hOld | hIs
      · -- the pushes already at work want the same
        have hWant : ∀ id, id ∈ want ↔ id ∈ f.ids := fun id =>
          ((h.tends g hOld).alike hStepwise id).symm.trans (hAlike hStepwise g hOld id)
        rw [← meets_congr hWant]
        exact (h.tends g hOld).each id
      · rw [List.mem_singleton.mp hIs, hRest]
        exact (hNew id).2.elim (fun hBoth => Or.inr hBoth.2) Or.inl
    · rw [hStepwise] at hFalse
      cases hFalse
    · rcases List.mem_append.mp hMem with hOld | hIs
      · exact hAlike hStepwise g hOld id
      · rw [List.mem_singleton.mp hIs, hIds]
    · rcases (hNew id).2 with ⟨hMeets, -⟩ | hSettles
      · exact Or.inl hMeets
      · refine Or.inr ⟨_, List.mem_append_right _ (List.mem_singleton.mpr rfl), ?_⟩
        rwa [hRest]

/-- A push at work goes on. -/
theorem Work.step {before after : List Flight} (h : Work core d0 d want (before ++ f :: after))
    {answer : Except DriverError Unit} (hAlive : ¬ (f.step answer d).1.rest.Doomed) :
    Work core d0 (f.step answer d).2 want (before ++ (f.step answer d).1 :: after) := by
  have hMem : f ∈ before ++ f :: after := List.mem_append_right _ List.mem_cons_self
  have hTends := h.tends f hMem
  have hUndoomed : ¬ (f.rest.answered answer).Doomed := fun hDoomed =>
    hAlive (hDoomed.of_settle d)
  -- what the rest of a push keeps or settles is passed on by one answer
  have hKeeps : ∀ P, f.rest.Keeps (Frame d0) P →
      (Frame d0 (f.step answer d).2 ∧ (P d → P (f.step answer d).2)) ∧
        (f.step answer d).1.rest.Keeps (Frame d0) P := fun P hKeeps =>
    ((hKeeps.answered answer).resolve_left hUndoomed).of_settle h.frame
  have hSettles : ∀ P, f.rest.Settles (Frame d0) P →
      Frame d0 (f.step answer d).2 ∧
        (P (f.step answer d).2 ∧ (f.step answer d).1.rest.Keeps (Frame d0) P ∨
          (f.step answer d).1.rest.Settles (Frame d0) P) := fun P hSettles =>
    ((hSettles.answered answer).resolve_left hUndoomed).of_settle h.frame
  refine ⟨?_, fun g hg => ?_, fun id => ?_⟩
  · exact (hTends.each "").elim (fun hs => (hSettles _ hs).1) fun hk => (hKeeps _ hk).1.1
  -- the others are as they were; this one tends what is left of it
  · rcases List.mem_append.mp hg with hBefore | hCons
    · exact h.tends g (List.mem_append_left _ hBefore)
    rcases List.mem_cons.mp hCons with rfl | hAfter
    · refine ⟨fun id => ?_, fun hWhole P => (hKeeps P (hTends.whole hWhole P)).2, hTends.alike⟩
      rcases hTends.each id with hs | hk
      · exact (hSettles _ hs).2.elim (fun hBoth => Or.inr hBoth.2) Or.inl
      · exact Or.inr (hKeeps _ hk).2
    · exact h.tends g (List.mem_append_right _ (List.mem_cons_of_mem f hAfter))
  · have hNow : (f.step answer d).1 ∈ before ++ (f.step answer d).1 :: after :=
      List.mem_append_right _ List.mem_cons_self
    -- the account is this push's to settle, or it was seen to already
    by_cases hs : f.rest.Settles (Frame d0) (Meets core want id)
    · rcases (hSettles _ hs).2 with ⟨hMeets, -⟩ | hStill
      · exact Or.inl hMeets
      · exact Or.inr ⟨_, hNow, hStill⟩
    · rcases h.tended id with hMeets | ⟨g, hg, hOther⟩
      · exact Or.inl ((hKeeps _ ((hTends.each id).resolve_left hs)).1.2 hMeets)
      · -- another push is still to see to the account
        rcases List.mem_append.mp hg with hBefore | hCons
        · exact Or.inr ⟨g, List.mem_append_left _ hBefore, hOther⟩
        rcases List.mem_cons.mp hCons with rfl | hAfter
        · exact absurd hOther hs
        · exact Or.inr ⟨g, List.mem_append_right _ (List.mem_cons_of_mem _ hAfter), hOther⟩

/-- A push whose driver has returned has nothing left to see to. -/
theorem Work.leave {before after : List Flight} (h : Work core d0 d want (before ++ f :: after))
    (hDone : f.rest = .done (.ok ())) : Work core d0 d want (before ++ after) := by
  have hSub : ∀ g ∈ before ++ after, g ∈ before ++ f :: after := by
    intro g hg
    rw [List.mem_append] at hg ⊢
    exact hg.imp_right (List.mem_cons_of_mem f)
  refine ⟨h.frame, fun g hg => h.tends g (hSub g hg), fun id => ?_⟩
  rcases h.tended id with hMeets | ⟨g, hg, hSettles⟩
  · exact Or.inl hMeets
  · refine Or.inr ⟨g, ?_, hSettles⟩
    rw [List.mem_append, List.mem_cons] at hg
    rcases hg with hBefore | rfl | hAfter
    · exact List.mem_append_left _ hBefore
    · rw [hDone] at hSettles
      exact hSettles.elim
    · exact List.mem_append_right _ hAfter

-- ---------------------------------------------------------------------------
-- Every run
-- ---------------------------------------------------------------------------

variable (p core) in
/-- How a coroutine that is not bound to fail stands after a step. -/
theorem reply_cases (hAlive : ¬ f.rest.Doomed) :
    (f.rest = .done (.ok ()) ∧ (f.reply core).isSome = true) ∨
      ((f.reply core).isSome = false ∧ ∀ snapshot, f.file p snapshot = snapshot) := by
  unfold Flight.reply Flight.file
  cases hRest : f.rest with
  | done r =>
    cases r with
    | ok u => exact Or.inl ⟨rfl, rfl⟩
    | error e =>
      rw [hRest] at hAlive
      exact absurd trivial hAlive
  | turn g k | call c k | mark k => exact Or.inr ⟨rfl, fun _ => rfl⟩

theorem mem_file {snapshot : Snapshot} (hDecoded : decodeAll p f.push.accounts = .ok f.accounts)
    (hDone : f.rest = .done (.ok ()))
    (hSaved : f.push.writable = true ∨ ∀ id, id ∈ accountIds p snapshot.load ↔ id ∈ f.ids)
    (id : String) : id ∈ accountIds p (f.file p snapshot).load ↔ id ∈ f.ids := by
  have hIds : id ∈ accountIds p f.push.accounts ↔ id ∈ f.ids :=
    (mem_accountIds_decodeAll p hDecoded id).trans List.mem_map.symm
  unfold Flight.file
  rw [hDone]
  show id ∈ accountIds p (snapshot.store p f.push.accounts true f.push.writable).load ↔ id ∈ f.ids
  rw [mem_accountIds_store, if_pos rfl, hIds]
  rcases hSaved with hWritable | hSame
  · rw [if_pos hWritable]
  · rw [hSame, ite_self]

theorem split_of_getElem? {α : Type} {l : List α} {i : Nat} {a : α} (h : l[i]? = some a) :
    ∃ before after, l = before ++ a :: after ∧ before.length = i := by
  obtain ⟨hLt, hGet⟩ := List.getElem?_eq_some_iff.mp h
  refine ⟨l.take i, l.drop (i + 1), ?_, List.length_take_of_le (Nat.le_of_lt hLt)⟩
  rw [← hGet, ← List.drop_eq_getElem_cons hLt, List.take_append_drop]

theorem updated_of_ended {before after : List Flight} {g : Flight}
    (hEnded : (f.reply core).isSome = true) :
    updated core (before ++ g :: after) before.length f = before ++ after := by
  rw [updated, if_pos hEnded, List.eraseIdx_append_of_length_le (Nat.le_refl _), Nat.sub_self,
    List.eraseIdx_cons_zero]

theorem updated_of_alive {before after : List Flight} {g : Flight}
    (hAlive : (f.reply core).isSome = false) :
    updated core (before ++ g :: after) before.length f = before ++ f :: after := by
  rw [updated, if_neg (by rw [hAlive]; exact Bool.false_ne_true),
    List.set_append_right _ _ (Nat.le_refl _), Nat.sub_self, List.set_cons_zero]

/-- What an update keeps of the pushes in flight. -/
theorem mem_of_mem_updated {before after : List Flight} {g other : Flight}
    (hMem : other ∈ updated core (before ++ g :: after) before.length f) :
    other ∈ before ++ after ∨ other = f := by
  cases hEnded : (f.reply core).isSome with
  | true =>
    rw [updated_of_ended hEnded] at hMem
    exact Or.inl hMem
  | false =>
    rw [updated_of_alive hEnded, List.mem_append, List.mem_cons] at hMem
    rw [List.mem_append]
    tauto

/-- An orderly step leaves the pushes at work in order, and files the accounts
of the push that is answered. -/
theorem Work.updated {snapshot : Snapshot} {before after : List Flight} {g : Flight}
    (h : Work core d0 d (wanted (accountIds p snapshot.load) (before ++ f :: after))
      (before ++ f :: after))
    (hDecoded : decodeAll p f.push.accounts = .ok f.accounts)
    (hOrderly : Orderly p snapshot before f) :
    Work core d0 d
      (wanted (accountIds p (f.file p snapshot).load)
        (Accounts.updated core (before ++ g :: after) before.length f))
      (Accounts.updated core (before ++ g :: after) before.length f) := by
  rcases reply_cases p core hOrderly.alive with ⟨hDone, hEnded⟩ | ⟨hGoes, hFile⟩
  · rw [updated_of_ended hEnded]
    refine (h.leave hDone).congr fun id => ?_
    rw [wanted_cons]
    exact (wanted_erase (hOrderly.turn hDone)
      (mem_file hDecoded hDone (hOrderly.saved hDone)) id).symm
  · rwa [updated_of_alive hGoes, hFile]

/-- The pushes in flight after an update. -/
theorem decoded_updated {before after : List Flight} {g : Flight}
    (hOld : ∀ other ∈ before ++ after, decodeAll p other.push.accounts = .ok other.accounts)
    (hNew : decodeAll p f.push.accounts = .ok f.accounts) :
    ∀ other ∈ updated core (before ++ g :: after) before.length f,
      decodeAll p other.push.accounts = .ok other.accounts := by
  intro other hMem
  rcases mem_of_mem_updated hMem with hKnown | rfl
  · exact hOld other hKnown
  · exact hNew

/-- The members of a split list without the one it is split at. -/
theorem mem_of_split {α : Type} {l before after : List α} {a b : α}
    (hSplit : l = before ++ a :: after) (hMem : b ∈ before ++ after) : b ∈ l := by
  rw [hSplit, List.mem_append]
  exact (List.mem_append.mp hMem).imp_right (List.mem_cons_of_mem a)

namespace Pushes.Inv

variable {w : Pushes}

theorem request (h : w.Inv p core d0) {push : FullPush}
    (hOrder : InOrder p core w (.request push)) : (w.request p core push).1.Inv p core d0 := by
  unfold Pushes.request
  cases hDecoded : decodeAll p push.accounts with
  | error e => exact h
  | ok accounts =>
    have hSuits := hOrder accounts hDecoded
    rw [h.work.frame.1] at hSuits
    refine ⟨fun f hMem => ?_, fun f hMem => ?_, h.work⟩
    · simp only [List.mem_append, List.mem_singleton] at hMem
      rcases hMem with (hOld | rfl) | hOld
      · exact h.decoded f (List.mem_append_left _ hOld)
      · exact hDecoded
      · exact h.decoded f (List.mem_append_right _ hOld)
    · rcases List.mem_append.mp hMem with hOld | hNew
      · exact h.waits f hOld
      · obtain rfl := List.mem_singleton.mp hNew
        exact Suspended.sync_waits p push.host d0 hSuits

/-- A push that reads or fails before it begins changes nothing for the others. -/
theorem reads (h : w.Inv p core d0) {before after : List Flight}
    (hSplit : w.waiting = before ++ f :: after) {answer : Except DriverError Unit}
    (hBegins : f.begins answer w.driver = false) :
    (w.stepWaiting p core before.length f answer).Inv p core d0 := by
  have hMem : f ∈ w.waiting := hSplit ▸ List.mem_append_right _ List.mem_cons_self
  have hDecoded := h.decoded f (List.mem_append_left _ hMem)
  obtain ⟨hSame, hRest⟩ := ((h.waits f hMem).answered answer).of_settle hBegins
  have hDriver : (f.step answer w.driver).2 = w.driver := hSame
  have hWaits : (f.step answer w.driver).1.rest.Waits (Suspended.Begun core d0 f.ids) := hRest
  -- a push that has not begun has nothing to file
  have hFile : (f.step answer w.driver).1.file p w.snapshot = w.snapshot := by
    unfold Flight.file
    split
    · rename_i hDone
      rw [hDone] at hWaits
      exact hWaits.elim
    · rfl
  unfold stepWaiting
  rw [hBegins, if_neg Bool.false_ne_true, hFile, hDriver, hSplit]
  refine ⟨fun g hg => ?_, fun g hg => ?_, h.work⟩
  · rcases List.mem_append.mp hg with hNew | hOld
    · exact decoded_updated (f := (f.step answer w.driver).1) (fun other hOther =>
        h.decoded other (List.mem_append_left _ (mem_of_split hSplit hOther))) hDecoded g hNew
    · exact h.decoded g (List.mem_append_right _ hOld)
  · rcases mem_of_mem_updated hg with hOld | rfl
    · exact h.waits g (mem_of_split hSplit hOld)
    · exact hWaits

theorem begins (h : w.Inv p core d0) {before after : List Flight}
    (hSplit : w.waiting = before ++ f :: after) {answer : Except DriverError Unit}
    (hBegins : f.begins answer w.driver = true)
    (hAlike : stepwise core = true → ∀ g ∈ w.working, Alike g f)
    (hCovers : core = .xray → ∀ id, w.driver.Lists core id → id ∈ f.ids)
    (hOrderly : Orderly p w.snapshot w.working (f.step answer w.driver).1) :
    (w.stepWaiting p core before.length f answer).Inv p core d0 := by
  have hMem : f ∈ w.waiting := hSplit ▸ List.mem_append_right _ List.mem_cons_self
  have hDecoded := h.decoded f (List.mem_append_left _ hMem)
  -- the push leaves those that wait and joins those at work, at the end
  have hErase : w.waiting.eraseIdx before.length = before ++ after := by
    rw [hSplit, List.eraseIdx_append_of_length_le (Nat.le_refl _), Nat.sub_self,
      List.eraseIdx_cons_zero]
  have hWork : Work core d0 (f.step answer w.driver).2 (f.step answer w.driver).1.ids
      (w.working ++ [(f.step answer w.driver).1]) :=
    h.work.begin (h.waits f hMem) hBegins hAlike hCovers
  rw [← wanted_append (accountIds p w.snapshot.load) w.working (f.step answer w.driver).1] at hWork
  unfold stepWaiting
  rw [if_pos hBegins, hErase]
  refine ⟨fun g hg => ?_, fun g hg => h.waits g (mem_of_split hSplit hg),
    hWork.updated hDecoded hOrderly⟩
  rcases List.mem_append.mp hg with hOld | hNew
  · exact h.decoded g (List.mem_append_left _ (mem_of_split hSplit hOld))
  · refine decoded_updated (f := (f.step answer w.driver).1) (fun other hOther => ?_) hDecoded g hNew
    rw [List.append_nil] at hOther
    exact h.decoded other (List.mem_append_right _ hOther)

theorem works (h : w.Inv p core d0) {before after : List Flight}
    (hSplit : w.working = before ++ f :: after) {answer : Except DriverError Unit}
    (hOrderly : Orderly p w.snapshot before (f.step answer w.driver).1) :
    (w.stepWorking p core before.length f answer).Inv p core d0 := by
  have hMem : f ∈ w.working := hSplit ▸ List.mem_append_right _ List.mem_cons_self
  have hDecoded := h.decoded f (List.mem_append_right _ hMem)
  have hWork := h.work
  rw [hSplit, wanted_cons] at hWork
  have hStep := hWork.step hOrderly.alive
  unfold stepWorking
  rw [hSplit]
  refine ⟨fun g hg => ?_, h.waits, Work.updated ?_ hDecoded hOrderly⟩
  · rcases List.mem_append.mp hg with hOld | hNew
    · exact h.decoded g (List.mem_append_left _ hOld)
    · exact decoded_updated (f := (f.step answer w.driver).1) (fun other hOther =>
        h.decoded other (List.mem_append_right _ (mem_of_split hSplit hOther))) hDecoded g hNew
  · rwa [wanted_cons]

/--
**Step lemma.** An orderly step keeps the invariant. A push that has only read
so far may be answered at any time; one that begins must get along with those
at work; one at work must, when it returns, file its snapshot behind those that
began before it.
-/
theorem next (h : w.Inv p core d0) {t : Turn} (hOrder : InOrder p core w t) :
    ((pushMachine p core).next w t).Inv p core d0 := by
  show (w.step p core t).1.Inv p core d0
  cases t with
  | request push => exact h.request hOrder
  -- a turn of no push changes nothing; else the push begins with it or only reads on
  | waiting i answer =>
    unfold Pushes.step
    cases hGet : w.waiting[i]? with
    | none => simpa only [hGet] using h
    | some f =>
      obtain ⟨before, after, hSplit, rfl⟩ := split_of_getElem? hGet
      simp only [hGet]
      cases hBegins : f.begins answer w.driver with
      | true =>
        obtain ⟨⟨hAlike, hCovers⟩, hOrderly⟩ := hOrder f hGet hBegins
        exact h.begins hSplit hBegins hAlike hCovers hOrderly
      | false => exact h.reads hSplit hBegins
  -- a push at work is to file in the order in which they began
  | working i answer =>
    unfold Pushes.step
    cases hGet : w.working[i]? with
    | none => simpa only [hGet] using h
    | some f =>
      have hOrderly := hOrder f hGet
      obtain ⟨before, after, hSplit, rfl⟩ := split_of_getElem? hGet
      rw [hSplit, List.take_left] at hOrderly
      simp only [hGet]
      exact h.works hSplit hOrderly

end Pushes.Inv

variable (p core)

/--
**Overlapping full pushes.** From a start in agreement with no push in flight,
in a run of orderly steps the driver lists exactly the accounts of the
snapshot whenever no push is in flight.
-/
theorem pushes_agree {w : Pushes} (hIdle : w.Idle) (hAgrees : w.Agrees p core) {turns : List Turn}
    (hOrder : (pushMachine p core).Along (fun _ w t => InOrder p core w t) [] w turns) :
    (pushMachine p core).Always (fun w => w.Idle → w.Agrees p core) w turns := by
  obtain ⟨hWaiting, hWorking⟩ := hIdle
  have hStart : w.Inv p core w.driver := by
    refine ⟨fun f hMem => ?_, fun f hMem => ?_, ⟨⟨rfl, rfl⟩, fun f hMem => ?_, fun id => ?_⟩⟩
    · rw [hWaiting, hWorking] at hMem
      cases hMem
    · rw [hWaiting] at hMem
      cases hMem
    · rw [hWorking] at hMem
      cases hMem
    · rw [hWorking]
      exact Or.inl (hAgrees id)
  rintro pre post hEq ⟨-, hDone⟩ id
  rw [hEq] at hOrder
  have hPre := ((pushMachine p core).along_append _ [] w pre post).mp hOrder
  have hInv := (pushMachine p core).along_inv (fun _ w' => w'.Inv p core w.driver)
    (fun _ _ _ hInv hOk => hInv.next hOk) hStart hPre.1
  have hTended := hInv.work.tended id
  rw [hDone] at hTended
  exact hTended.resolve_right fun ⟨_, hMem, _⟩ => List.not_mem_nil hMem

end Concurrent

-- ---------------------------------------------------------------------------
-- Two pushes for WireGuard
-- ---------------------------------------------------------------------------

/-- A core without accounts, without a snapshot and without pushes. -/
def noPushes : Pushes where
  driver   := freshSite.driver
  snapshot := none
  waiting  := []
  working  := []

/-- Two pushes arrive; their keys are made, and each puts its dictionary in
place and awaits the publication: first the push of `a`, then that of `b`. -/
def bothPublished : List Turn :=
  [.request ⟨[wireguardAccount "a"], willingHost, true⟩,
    .request ⟨[wireguardAccount "b"], willingHost, true⟩,
    .waiting 0 (.ok ()), .waiting 0 (.ok ())]

/-- The push that began first is filed first. -/
def filedInTurn : List Turn := bothPublished ++ [.working 0 (.ok ()), .working 0 (.ok ())]

/--
Two overlapping pushes that are filed in the order in which they began:
whenever none is in flight, the driver lists the accounts of the snapshot.
-/
theorem pushes_agree_filedInTurn :
    (pushMachine plainPlatform .wireguard).Always
      (fun w => w.Idle → w.Agrees plainPlatform .wireguard) noPushes filedInTurn := by
  refine pushes_agree plainPlatform .wireguard ⟨rfl, rfl⟩ (fun _ => Iff.rfl) ?_
  -- a push that still has to publish is ordered anyhow
  have hPublishes : ∀ {f : Flight}, f.rest = .call (.backend .publish) .done →
      ∀ {snapshot earlier}, Orderly plainPlatform snapshot earlier f := by
    intro f hRest snapshot earlier
    refine ⟨?_, fun hDone => ?_, fun hDone => ?_⟩
    · rw [hRest]
      exact fun h => h (.ok ())
    · rw [hRest] at hDone
      cases hDone
    · rw [hRest] at hDone
      cases hDone
  -- a push that returns with none before it is ordered if its file can be written
  have hReturns : ∀ {f : Flight}, f.rest = .done (.ok ()) → f.push.writable = true →
      ∀ {snapshot}, Orderly plainPlatform snapshot [] f := by
    intro f hRest hWritable snapshot
    refine ⟨?_, fun _ _ hMem => absurd hMem List.not_mem_nil, fun _ => Or.inl hWritable⟩
    rw [hRest]
    exact id
  refine ⟨fun _ _ _ _ => rfl, fun _ _ _ _ => rfl, ?_, ?_, ?_, ?_, trivial⟩
  · intro f hGet _
    cases hGet
    exact ⟨⟨fun h => (by cases h), fun h => (by cases h)⟩, hPublishes rfl⟩
  · intro f hGet _
    cases hGet
    exact ⟨⟨fun h => (by cases h), fun h => (by cases h)⟩, hPublishes rfl⟩
  · intro f hGet
    cases hGet
    exact hReturns rfl rfl
  · intro f hGet
    cases hGet
    exact hReturns rfl rfl

/--
The push of `b` began last, so the driver lists `b`; it is filed first, so the
snapshot lists `a`. Both pushes were answered with success.
-/
theorem filed_in_reverse :
    let w := (pushMachine plainPlatform .wireguard).exec noPushes
      (bothPublished ++ [.working 1 (.ok ()), .working 0 (.ok ())])
    (noPushes.Idle ∧ noPushes.Agrees plainPlatform .wireguard) ∧
      (∀ reply ∈ (pushMachine plainPlatform .wireguard).log noPushes
          (bothPublished ++ [.working 1 (.ok ()), .working 0 (.ok ())]),
        reply.all Except.toBool = true) ∧
      w.Idle ∧ ¬ w.Agrees plainPlatform .wireguard := by
  refine ⟨⟨⟨rfl, rfl⟩, fun _ => Iff.rfl⟩, by decide, ⟨rfl, rfl⟩, fun hAgrees => ?_⟩
  have hLists : "b" ∈ ((pushMachine plainPlatform .wireguard).exec noPushes
      (bothPublished ++ [.working 1 (.ok ()), .working 0 (.ok ())])).driver.roster.ids := by
    decide
  have hFiled : accountIds plainPlatform ((pushMachine plainPlatform .wireguard).exec noPushes
      (bothPublished ++ [.working 1 (.ok ()), .working 0 (.ok ())])).snapshot.load = ["a"] := by
    decide
  have hMem := (hAgrees "b").mp hLists
  rw [hFiled] at hMem
  exact absurd hMem (by decide)

end ZagrosNode.Accounts
