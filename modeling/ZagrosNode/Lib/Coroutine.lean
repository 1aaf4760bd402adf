import ZagrosNode.Lib.Op

/-!
# ZagrosNode — coroutines

A coroutine works on a state it shares with others and gives up control at
its awaits only: the code between two awaits is one step. What an await is
answered, a value or an exception, comes from outside. A coroutine may also
announce, by a `mark`, that from here on it works on the shared state; the
mark is for statements about runs and does nothing.

The type `Co σ ε κ α` has four constructors: a coroutine is done, takes a turn on
the state, awaits a call, or passes a mark. A turn is everything between two awaits
that changes the state or reads it; a loop with an await in its body is as many
turns as it has rounds. `settle` runs a coroutine up to its next await, which is
what an event loop does when it resumes one.

A statement about a coroutine that runs alone is easier to prove of the sequential
computation it stands for (`toOp`); a statement about one that shares its state is
proved by what a single step can do:

* `Doomed`, `Keeps`, `Settles` and `Waits` are predicates on what is left of a
  coroutine: it can only end with an exception, it keeps a property of the state,
  it establishes it before its end, or it has not passed its mark.
* Each has a rule for the step (`…of_settle`), one for an answer (`…answered`) and
  rules for how coroutines are put together, so that a scheduler's invariant is one
  of these predicates for every coroutine in flight.

`Awaits` and `Yields` collect the calls a coroutine can come to and the results it
can end with, if each of its turns may find any state that has a property.

Main results:

* `toOp_bind`, `toOp_guarded`, `toOp_forEach` — a coroutine nobody interrupts
  is a computation in the sense of `Op`.
* `Settles.of_settle`, `Keeps.of_settle` — what one step does to a property
  that the coroutine establishes or keeps.
* `Settles.bind_left`, `Settles.bind_right`, `Settles.forEach` — a sequence
  establishes what one of its parts establishes and the later ones keep.
* `awaits_bind`, `awaits_forEach` — what a sequence or a loop can come to await,
  whatever it finds and is answered on its way.
-/

namespace ZagrosNode.Lib

/-- A coroutine over the shared state `σ` that awaits `κ` and may raise an `ε`. -/
inductive Co (σ ε κ α : Type) : Type
  | done (r : Except ε α)
  /-- change the state, then go on as the state before the change says -/
  | turn (f : σ → σ) (k : σ → Co σ ε κ α)
  | call (c : κ) (k : Except ε Unit → Co σ ε κ α)
  | mark (k : Co σ ε κ α)

namespace Co

variable {σ ε κ α β : Type}

protected def bind (x : Co σ ε κ α) (f : α → Co σ ε κ β) : Co σ ε κ β :=
  match x with
  | .done (.ok a)    => f a
  | .done (.error e) => .done (.error e)
  | .turn g k        => .turn g fun s => (k s).bind f
  | .call c k        => .call c fun r => (k r).bind f
  | .mark k          => .mark (k.bind f)

instance : Monad (Co σ ε κ) where
  pure a := .done (.ok a)
  bind := Co.bind

def get : Co σ ε κ σ := .turn id fun s => .done (.ok s)

def modify (f : σ → σ) : Co σ ε κ Unit := .turn f fun _ => .done (.ok ())

def raise (e : ε) : Co σ ε κ α := .done (.error e)

def lift (r : Except ε α) : Co σ ε κ α := .done r

/-- `await c` -/
def await (c : κ) : Co σ ε κ Unit := .call c .done

/-- Announce the work on the shared state. -/
def announce : Co σ ε κ Unit := .mark (.done (.ok ()))

/-- `try: body; except <caught>: handler` -/
def guarded (caught : ε → Bool) (handler : ε → Co σ ε κ α) : Co σ ε κ α → Co σ ε κ α
  | .done (.ok a)    => .done (.ok a)
  | .done (.error e) => if caught e then handler e else .done (.error e)
  | .turn g k        => .turn g fun s => (k s).guarded caught handler
  | .call c k        => .call c fun r => (k r).guarded caught handler
  | .mark k          => .mark (k.guarded caught handler)

/-- `for i in items: body(i)` -/
def forEach {ι : Type} (body : ι → Co σ ε κ Unit) : List ι → Co σ ε κ Unit
  | []        => pure ()
  | i :: rest => do
    body i
    forEach body rest

/-- `[body(i) for i in items]` -/
def mapList {ι : Type} (body : ι → Co σ ε κ α) : List ι → Co σ ε κ (List α)
  | []        => pure []
  | i :: rest => do
    let a ← body i
    let others ← mapList body rest
    pure (a :: others)

/-- Run to the next await, or to the end. -/
def settle : Co σ ε κ α → σ → Co σ ε κ α × σ
  | .done r, s   => (.done r, s)
  | .turn f k, s => (k s).settle (f s)
  | .call c k, s => (.call c k, s)
  | .mark k, s   => k.settle s

/-- The way to the next await passes a mark. -/
def marks : Co σ ε κ α → σ → Bool
  | .done _, _   => false
  | .turn f k, s => (k s).marks (f s)
  | .call _ _, _ => false
  | .mark _, _   => true

/-- Go on with the answer to the await; a coroutine that stands at no await
just goes on. -/
def answered (r : Except ε Unit) : Co σ ε κ α → Co σ ε κ α
  | .call _ k => k r
  | co        => co

-- ---------------------------------------------------------------------------
-- A coroutine nobody interrupts
-- ---------------------------------------------------------------------------

/-- The computation of a coroutine whose awaits are answered at once. -/
def toOp (answer : κ → Except ε Unit) : Co σ ε κ α → Op σ ε α
  | .done r   => Op.lift r
  | .turn f k => fun s => (k s).toOp answer (f s)
  | .call c k => (k (answer c)).toOp answer
  | .mark k   => k.toOp answer

section Uninterrupted

variable (answer : κ → Except ε Unit)

theorem toOp_pure (a : α) : (pure a : Co σ ε κ α).toOp answer = pure a := rfl

theorem toOp_get : (get : Co σ ε κ σ).toOp answer = Op.get := rfl

theorem toOp_modify (f : σ → σ) : (modify f : Co σ ε κ Unit).toOp answer = Op.modify f := rfl

theorem toOp_raise (e : ε) : (raise e : Co σ ε κ α).toOp answer = Op.raise e := rfl

theorem toOp_lift (r : Except ε α) : (lift r : Co σ ε κ α).toOp answer = Op.lift r := rfl

theorem toOp_await (c : κ) : (await c : Co σ ε κ Unit).toOp answer = Op.lift (answer c) := rfl

theorem toOp_bind (x : Co σ ε κ α) (f : α → Co σ ε κ β) :
    (x >>= f).toOp answer = (x.toOp answer >>= fun a => (f a).toOp answer) := by
  induction x with
  | done r =>
    cases r with
    | ok a => rfl
    | error e => rfl
  | turn g k ih =>
    funext s
    exact congrFun (ih s) (g s)
  | call c k ih => exact ih (answer c)
  | mark k ih => exact ih

/-- A mark does nothing. -/
theorem toOp_announce : (announce : Co σ ε κ Unit).toOp answer = pure () := rfl

theorem toOp_await_bind {c : κ} (h : answer c = .ok ()) (f : Unit → Co σ ε κ β) :
    (await c >>= f).toOp answer = (f ()).toOp answer := by
  rw [toOp_bind, toOp_await, h]
  rfl

theorem toOp_guarded (caught : ε → Bool) (handler : ε → Co σ ε κ α) (x : Co σ ε κ α) :
    (x.guarded caught handler).toOp answer =
      Op.guarded caught (x.toOp answer) fun e => (handler e).toOp answer := by
  induction x with
  | done r =>
    cases r with
    | ok a => rfl
    | error e =>
      funext s
      show (if caught e then handler e else .done (.error e) : Co σ ε κ α).toOp answer s =
        if caught e then (handler e).toOp answer s else (.error e, s)
      split <;> rfl
  | turn g k ih =>
    funext s
    exact congrFun (ih s) (g s)
  | call c k ih => exact ih (answer c)
  | mark k ih => exact ih

theorem toOp_forEach {ι : Type} (body : ι → Co σ ε κ Unit) (items : List ι) :
    (forEach body items).toOp answer = Op.forEach (fun i => (body i).toOp answer) items := by
  induction items with
  | nil => rfl
  | cons i rest ih => rw [forEach, toOp_bind, ih, Op.forEach]

end Uninterrupted

-- ---------------------------------------------------------------------------
-- What a coroutine is about to do
-- ---------------------------------------------------------------------------

/-- Whatever happens, the coroutine raises in the end. -/
def Doomed : Co σ ε κ α → Prop
  | .done (.ok _)    => False
  | .done (.error _) => True
  | .turn _ k        => ∀ s, (k s).Doomed
  | .call _ k        => ∀ r, (k r).Doomed
  | .mark k          => k.Doomed

/-- From states with `I`, every step to come keeps `I` and `P`, or the
coroutine is bound to raise. -/
def Keeps (I P : σ → Prop) : Co σ ε κ α → Prop
  | .done _   => True
  | .turn f k => ∀ s, I s → (I (f s) ∧ (P s → P (f s))) ∧ (k s).Keeps I P
  | .call _ k => ∀ r, (k r).Doomed ∨ (k r).Keeps I P
  | .mark k   => k.Keeps I P

/-- The coroutine does not end before it has established `P`, which it keeps
from then on. -/
def Settles (I P : σ → Prop) : Co σ ε κ α → Prop
  | .done (.ok _)    => False
  | .done (.error _) => True
  | .turn f k        => ∀ s, I s → I (f s) ∧ (P (f s) ∧ (k s).Keeps I P ∨ (k s).Settles I P)
  | .call _ k        => ∀ r, (k r).Doomed ∨ (k r).Settles I P
  | .mark k          => k.Settles I P

/-- Up to its mark the coroutine reads only; from there `Q` holds of it. -/
def Waits (Q : Co σ ε κ α → Prop) : Co σ ε κ α → Prop
  | .done (.ok _)    => False
  | .done (.error _) => True
  | .turn f k        => ∀ s, f s = s ∧ (k s).Waits Q
  | .call _ k        => ∀ r, (k r).Waits Q
  | .mark k          => Q k

/-- The coroutine reads only and announces nothing; `R` holds of its result. -/
def Reads (R : α → Prop) : Co σ ε κ α → Prop
  | .done (.ok a)    => R a
  | .done (.error _) => True
  | .turn f k        => ∀ s, f s = s ∧ (k s).Reads R
  | .call _ k        => ∀ r, (k r).Reads R
  | .mark _          => False

section Steps

variable {I P : σ → Prop} {x : Co σ ε κ α} {f : α → Co σ ε κ β}

/--
**A step of a coroutine that keeps a property.** Up to its next await the
invariant stays, the property stays if it was there, and the rest of the
coroutine keeps it in turn.
-/
theorem Keeps.of_settle (h : x.Keeps I P) {s : σ} (hI : I s) :
    (I (x.settle s).2 ∧ (P s → P (x.settle s).2)) ∧ (x.settle s).1.Keeps I P := by
  induction x generalizing s with
  | done r => exact ⟨⟨hI, id⟩, trivial⟩
  | turn g k ih =>
    obtain ⟨⟨hI', hP⟩, hRest⟩ := h s hI
    obtain ⟨⟨hI'', hP'⟩, hKeeps⟩ := ih s hRest hI'
    exact ⟨⟨hI'', fun hs => hP' (hP hs)⟩, hKeeps⟩
  | call c k ih => exact ⟨⟨hI, id⟩, h⟩
  | mark k ih => exact ih h hI

/--
**A step of a coroutine that establishes a property.** It has established it
now, or is still to do so. With `Keeps.of_settle` it is all that an
interleaving has to know of a coroutine.
-/
theorem Settles.of_settle (h : x.Settles I P) {s : σ} (hI : I s) :
    I (x.settle s).2 ∧
      (P (x.settle s).2 ∧ (x.settle s).1.Keeps I P ∨ (x.settle s).1.Settles I P) := by
  induction x generalizing s with
  | done r => exact ⟨hI, Or.inr h⟩
  | turn g k ih =>
    obtain ⟨hI', ⟨hP, hKeeps⟩ | hSettles⟩ := h s hI
    · have hStep := hKeeps.of_settle hI'
      exact ⟨hStep.1.1, Or.inl ⟨hStep.1.2 hP, hStep.2⟩⟩
    · exact ih s hSettles hI'
  | call c k ih => exact ⟨hI, Or.inr h⟩
  | mark k ih => exact ih h hI

/-- A step of a waiting coroutine that passes no mark changes nothing. -/
theorem Waits.of_settle {Q : Co σ ε κ α → Prop} (h : x.Waits Q) {s : σ}
    (hMarks : x.marks s = false) : (x.settle s).2 = s ∧ (x.settle s).1.Waits Q := by
  induction x generalizing s with
  | done r => exact ⟨rfl, h⟩
  | turn g k ih =>
    obtain ⟨hSame, hRest⟩ := h s
    have hStep := ih s hRest hMarks
    rw [hSame] at hStep
    show ((k s).settle (g s)).2 = s ∧ ((k s).settle (g s)).1.Waits Q
    rwa [hSame]
  | call c k ih => exact ⟨rfl, h⟩
  | mark k ih => cases hMarks

/-- A step of a waiting coroutine that passes its mark is a step of what
follows the mark. -/
theorem Waits.of_marks {Q : Co σ ε κ α → Prop} (h : x.Waits Q) {s : σ}
    (hMarks : x.marks s = true) : ∃ k : Co σ ε κ α, Q k ∧ x.settle s = k.settle s := by
  induction x generalizing s with
  | done r => cases hMarks
  | turn g k ih =>
    obtain ⟨hSame, hRest⟩ := h s
    show ∃ k' : Co σ ε κ α, Q k' ∧ (k s).settle (g s) = k'.settle s
    have hMarks' : (k s).marks (g s) = true := hMarks
    rw [hSame] at hMarks' ⊢
    exact ih s hRest hMarks'
  | call c k ih => cases hMarks
  | mark k ih => exact ⟨k, h, rfl⟩

/-- An answer keeps what the coroutine keeps, unless it dooms it. -/
theorem Keeps.answered (h : x.Keeps I P) (r : Except ε Unit) :
    (x.answered r).Doomed ∨ (x.answered r).Keeps I P := by
  cases x with
  | call c k => exact h r
  | done _ | turn _ _ | mark _ => exact Or.inr h

theorem Settles.answered (h : x.Settles I P) (r : Except ε Unit) :
    (x.answered r).Doomed ∨ (x.answered r).Settles I P := by
  cases x with
  | call c k => exact h r
  | done _ | turn _ _ | mark _ => exact Or.inr h

theorem Waits.answered {Q : Co σ ε κ α → Prop} (h : x.Waits Q) (r : Except ε Unit) :
    (x.answered r).Waits Q := by
  cases x with
  | call c k => exact h r
  | done _ | turn _ _ | mark _ => exact h

/-- A doomed coroutine stays doomed. -/
theorem Doomed.of_settle (h : x.Doomed) (s : σ) : (x.settle s).1.Doomed := by
  induction x generalizing s with
  | done r => exact h
  | turn g k ih => exact ih s (h s) (g s)
  | call c k ih => exact h
  | mark k ih => exact ih h s

-- ---------------------------------------------------------------------------
-- Rules
-- ---------------------------------------------------------------------------

theorem Doomed.bind (h : x.Doomed) : (x >>= f).Doomed := by
  induction x with
  | done r =>
    cases r with
    | ok a => exact h.elim
    | error e => trivial
  | turn g k ih => exact fun s => ih s (h s)
  | call c k ih => exact fun r => ih r (h r)
  | mark k ih => exact ih h

theorem Keeps.bind (hx : x.Keeps I P) (hf : ∀ a, (f a).Keeps I P) : (x >>= f).Keeps I P := by
  induction x with
  | done r =>
    cases r with
    | ok a => exact hf a
    | error e => trivial
  | turn g k ih => exact fun s hI => ⟨(hx s hI).1, ih s (hx s hI).2⟩
  | call c k ih => exact fun r => (hx r).imp Doomed.bind (ih r)
  | mark k ih => exact ih hx

theorem Keeps.get_bind {g : σ → Co σ ε κ β} (h : ∀ s, I s → (g s).Keeps I P) :
    (get >>= g).Keeps I P :=
  fun s hI => ⟨⟨hI, id⟩, h s hI⟩

theorem Keeps.modify {g : σ → σ} (hI : ∀ s, I s → I (g s)) (hP : ∀ s, I s → P s → P (g s)) :
    (modify g : Co σ ε κ Unit).Keeps I P :=
  fun s hs => ⟨⟨hI s hs, hP s hs⟩, trivial⟩

theorem Keeps.await (c : κ) : (await c : Co σ ε κ Unit).Keeps I P := fun _ => Or.inr trivial

theorem Keeps.forEach {ι : Type} {body : ι → Co σ ε κ Unit} {items : List ι}
    (h : ∀ i ∈ items, (body i).Keeps I P) : (Co.forEach body items).Keeps I P := by
  induction items with
  | nil => trivial
  | cons i rest ih =>
    exact Keeps.bind (h i List.mem_cons_self)
      fun _ => ih fun j hj => h j (List.mem_cons_of_mem i hj)

/-- A body that only reads leaves the rest to its handler. -/
theorem Reads.guarded_keeps {R : α → Prop} {caught : ε → Bool} {handler : ε → Co σ ε κ α}
    (hx : x.Reads R)
    (hHandler : ∀ e, (handler e).Keeps I P) : (x.guarded caught handler).Keeps I P := by
  induction x with
  | done r =>
    cases r with
    | ok a => trivial
    | error e =>
      show (if caught e then handler e else .done (.error e) : Co σ ε κ α).Keeps I P
      split
      · exact hHandler e
      · trivial
  | turn g k ih =>
    intro s hI
    obtain ⟨hSame, hRest⟩ := hx s
    rw [hSame]
    exact ⟨⟨hI, id⟩, ih s hRest⟩
  | call c k ih => exact fun r => Or.inr (ih r (hx r))
  | mark k ih => exact hx.elim

/-- What was read may show that there is nothing to establish. -/
theorem Settles.get_bind {g : σ → Co σ ε κ β}
    (h : ∀ s, I s → P s ∧ (g s).Keeps I P ∨ (g s).Settles I P) : (get >>= g).Settles I P :=
  fun s hI => ⟨hI, h s hI⟩

theorem Settles.lift_bind {r : Except ε α} (h : ∀ a, r = .ok a → (f a).Settles I P) :
    (lift r >>= f).Settles I P := by
  cases r with
  | ok a => exact h a rfl
  | error e => trivial

theorem Settles.await_bind (c : κ) {g : Unit → Co σ ε κ β} (h : (g ()).Settles I P) :
    (await c >>= g).Settles I P := by
  intro r
  cases r with
  | ok u => exact Or.inr h
  | error e => exact Or.inr trivial

theorem Settles.bind_left (hx : x.Settles I P) (hf : ∀ a, (f a).Keeps I P) :
    (x >>= f).Settles I P := by
  induction x with
  | done r =>
    cases r with
    | ok a => exact hx.elim
    | error e => trivial
  | turn g k ih =>
    intro s hI
    obtain ⟨hI', ⟨hP, hKeeps⟩ | hSettles⟩ := hx s hI
    · exact ⟨hI', Or.inl ⟨hP, hKeeps.bind hf⟩⟩
    · exact ⟨hI', Or.inr (ih s hSettles)⟩
  | call c k ih => exact fun r => (hx r).imp Doomed.bind (ih r)
  | mark k ih => exact ih hx

/-- What comes first only has to keep the states in order. -/
theorem Settles.bind_right (P' : σ → Prop) (hx : x.Keeps I P') (hf : ∀ a, (f a).Settles I P) :
    (x >>= f).Settles I P := by
  induction x with
  | done r =>
    cases r with
    | ok a => exact hf a
    | error e => trivial
  | turn g k ih => exact fun s hI => ⟨(hx s hI).1.1, Or.inr (ih s (hx s hI).2)⟩
  | call c k ih => exact fun r => (hx r).imp Doomed.bind (ih r)
  | mark k ih => exact ih hx

/-- A loop establishes what one of its bodies establishes and all keep. -/
theorem Settles.forEach {ι : Type} {body : ι → Co σ ε κ Unit} {items : List ι}
    (hKeeps : ∀ i ∈ items, (body i).Keeps I P) {i : ι} (hMem : i ∈ items)
    (hSettles : (body i).Settles I P) : (Co.forEach body items).Settles I P := by
  induction items with
  | nil => cases hMem
  | cons j rest ih =>
    have hRest : ∀ i ∈ rest, (body i).Keeps I P := fun i hi => hKeeps i (List.mem_cons_of_mem j hi)
    rcases List.mem_cons.mp hMem with rfl | hTail
    · exact hSettles.bind_left fun _ => Keeps.forEach hRest
    · exact Settles.bind_right P (hKeeps j List.mem_cons_self) fun _ => ih hRest hTail

theorem Waits.bind {Q : Co σ ε κ β → Prop} {R : α → Prop} (hx : x.Reads R)
    (hf : ∀ a, R a → (f a).Waits Q) : (x >>= f).Waits Q := by
  induction x with
  | done r =>
    cases r with
    | ok a => exact hf a hx
    | error e => trivial
  | turn g k ih => exact fun s => ⟨(hx s).1, ih s (hx s).2⟩
  | call c k ih => exact fun r => ih r (hx r)
  | mark k ih => exact hx.elim

theorem Reads.bind {R : α → Prop} {S : β → Prop} (hx : x.Reads R) (hf : ∀ a, R a → (f a).Reads S) :
    (x >>= f).Reads S := by
  induction x with
  | done r =>
    cases r with
    | ok a => exact hf a hx
    | error e => trivial
  | turn g k ih => exact fun s => ⟨(hx s).1, ih s (hx s).2⟩
  | call c k ih => exact fun r => ih r (hx r)
  | mark k ih => exact hx.elim

theorem Reads.get : (get : Co σ ε κ σ).Reads fun _ => True := fun _ => ⟨rfl, trivial⟩

theorem Reads.lift (r : Except ε α) : (lift r : Co σ ε κ α).Reads fun a => r = .ok a := by
  cases r with
  | ok a => exact rfl
  | error e => trivial

theorem Reads.await (c : κ) : (await c : Co σ ε κ Unit).Reads fun _ => True := by
  intro r
  cases r <;> trivial

theorem Reads.forEach {ι : Type} {body : ι → Co σ ε κ Unit}
    (h : ∀ i, (body i).Reads fun _ => True) (items : List ι) :
    (Co.forEach body items).Reads fun _ => True := by
  induction items with
  | nil => trivial
  | cons i rest ih => exact (h i).bind fun _ _ => ih

theorem Reads.mapList {ι : Type} {R : ι → α → Prop} {body : ι → Co σ ε κ α}
    (h : ∀ i, (body i).Reads (R i)) (items : List ι) :
    (Co.mapList body items).Reads (List.Forall₂ R items) := by
  induction items with
  | nil => exact List.Forall₂.nil
  | cons i rest ih =>
    exact (h i).bind fun a hFirst => ih.bind fun _ hRest => List.Forall₂.cons hFirst hRest

end Steps

-- ---------------------------------------------------------------------------
-- What a coroutine can come to await
-- ---------------------------------------------------------------------------

/-- On some way through the coroutine, on which it finds states with `I` only,
it awaits something with `Q`. -/
def Awaits (I : σ → Prop) (Q : κ → Prop) : Co σ ε κ α → Prop
  | .done _   => False
  | .turn _ k => ∃ s, I s ∧ (k s).Awaits I Q
  | .call c k => Q c ∨ ∃ r, (k r).Awaits I Q
  | .mark k   => k.Awaits I Q

/-- On some such way it returns `a`. -/
def Yields (I : σ → Prop) (a : α) : Co σ ε κ α → Prop
  | .done r   => r = .ok a
  | .turn _ k => ∃ s, I s ∧ (k s).Yields I a
  | .call _ k => ∃ r, (k r).Yields I a
  | .mark k   => k.Yields I a

section Ways

variable {I : σ → Prop} {Q : κ → Prop} {x : Co σ ε κ α} {f : α → Co σ ε κ β}

theorem awaits_bind :
    (x >>= f).Awaits I Q ↔ x.Awaits I Q ∨ ∃ a, x.Yields I a ∧ (f a).Awaits I Q := by
  -- on the first computation
  induction x with
  | done r =>
    cases r with
    | ok a =>
      show (f a).Awaits I Q ↔ False ∨ ∃ b, Except.ok a = .ok b ∧ (f b).Awaits I Q
      simp
    | error e =>
      show False ↔ False ∨ ∃ b, Except.error e = .ok b ∧ (f b).Awaits I Q
      simp
  -- the states met on the way are the same for both questions
  | turn g k ih =>
    show (∃ s, I s ∧ (k s >>= f).Awaits I Q) ↔
      (∃ s, I s ∧ (k s).Awaits I Q) ∨ ∃ a, (∃ s, I s ∧ (k s).Yields I a) ∧ (f a).Awaits I Q
    simp only [ih, and_or_left, exists_or]
    refine or_congr_right ⟨?_, ?_⟩
    · rintro ⟨s, hI, a, hYields, hAwaits⟩
      exact ⟨a, ⟨s, hI, hYields⟩, hAwaits⟩
    · rintro ⟨a, ⟨s, hI, hYields⟩, hAwaits⟩
      exact ⟨s, hI, a, hYields, hAwaits⟩
  | call c k ih =>
    show (Q c ∨ ∃ r, (k r >>= f).Awaits I Q) ↔
      (Q c ∨ ∃ r, (k r).Awaits I Q) ∨ ∃ a, (∃ r, (k r).Yields I a) ∧ (f a).Awaits I Q
    simp only [ih, exists_or, or_assoc]
    refine or_congr_right (or_congr_right ⟨?_, ?_⟩)
    · rintro ⟨r, a, hYields, hAwaits⟩
      exact ⟨a, ⟨r, hYields⟩, hAwaits⟩
    · rintro ⟨a, ⟨r, hYields⟩, hAwaits⟩
      exact ⟨r, a, hYields, hAwaits⟩
  | mark k ih => exact ih

theorem yields_bind {b : β} :
    (x >>= f).Yields I b ↔ ∃ a, x.Yields I a ∧ (f a).Yields I b := by
  -- on the first computation, as in `awaits_bind`
  induction x with
  | done r =>
    cases r with
    | ok a =>
      show (f a).Yields I b ↔ ∃ a', Except.ok a = .ok a' ∧ (f a').Yields I b
      simp
    | error e =>
      show Except.error e = .ok b ↔ ∃ a, Except.error e = .ok a ∧ (f a).Yields I b
      simp
  | turn g k ih =>
    show (∃ s, I s ∧ (k s >>= f).Yields I b) ↔
      ∃ a, (∃ s, I s ∧ (k s).Yields I a) ∧ (f a).Yields I b
    simp only [ih]
    constructor
    · rintro ⟨s, hI, a, hFirst, hLast⟩
      exact ⟨a, ⟨s, hI, hFirst⟩, hLast⟩
    · rintro ⟨a, ⟨s, hI, hFirst⟩, hLast⟩
      exact ⟨s, hI, a, hFirst, hLast⟩
  | call c k ih =>
    show (∃ r, (k r >>= f).Yields I b) ↔ ∃ a, (∃ r, (k r).Yields I a) ∧ (f a).Yields I b
    simp only [ih]
    constructor
    · rintro ⟨r, a, hFirst, hLast⟩
      exact ⟨a, ⟨r, hFirst⟩, hLast⟩
    · rintro ⟨a, ⟨r, hFirst⟩, hLast⟩
      exact ⟨r, a, hFirst, hLast⟩
  | mark k ih => exact ih

theorem awaits_get_bind {g : σ → Co σ ε κ β} :
    (get >>= g).Awaits I Q ↔ ∃ s, I s ∧ (g s).Awaits I Q := Iff.rfl

theorem yields_get_bind {g : σ → Co σ ε κ β} {b : β} :
    (get >>= g).Yields I b ↔ ∃ s, I s ∧ (g s).Yields I b := Iff.rfl

theorem awaits_modify {g : σ → σ} : ¬ (modify g : Co σ ε κ Unit).Awaits I Q := by
  rintro ⟨s, -, hNever⟩
  exact hNever

theorem yields_modify {g : σ → σ} : (modify g : Co σ ε κ Unit).Yields I () ↔ ∃ s, I s := by
  show (∃ s, I s ∧ Except.ok () = .ok ()) ↔ ∃ s, I s
  simp

theorem awaits_await {c : κ} : (await c : Co σ ε κ Unit).Awaits I Q ↔ Q c := by
  show (Q c ∨ ∃ r : Except ε Unit, False) ↔ Q c
  simp

theorem yields_await (c : κ) : (await c : Co σ ε κ Unit).Yields I () := ⟨.ok (), rfl⟩

theorem awaits_lift_bind {r : Except ε α} :
    (lift r >>= f).Awaits I Q ↔ ∃ a, r = .ok a ∧ (f a).Awaits I Q := by
  rw [awaits_bind]
  exact or_iff_right id

theorem yields_lift_bind {r : Except ε α} {b : β} :
    (lift r >>= f).Yields I b ↔ ∃ a, r = .ok a ∧ (f a).Yields I b := yields_bind

/--
**Loop rule.** A loop awaits what one of its bodies awaits, if those before it
come to an end.
-/
theorem awaits_forEach {ι : Type} {body : ι → Co σ ε κ Unit} {items : List ι} :
    (forEach body items).Awaits I Q ↔ ∃ done i rest, items = done ++ i :: rest ∧
      (∀ j ∈ done, (body j).Yields I ()) ∧ (body i).Awaits I Q := by
  induction items with
  | nil =>
    refine iff_of_false id ?_
    rintro ⟨done, i, rest, hSplit, -⟩
    exact List.append_ne_nil_of_right_ne_nil done (List.cons_ne_nil i rest) hSplit.symm
  | cons first rest ih =>
    rw [forEach, awaits_bind, ih]
    constructor
    · rintro (hFirst | ⟨⟨⟩, hYields, done, i, later, rfl, hDone, hAwaits⟩)
      · exact ⟨[], first, rest, rfl, fun _ h => absurd h List.not_mem_nil, hFirst⟩
      · exact ⟨first :: done, i, later, rfl, List.forall_mem_cons.mpr ⟨hYields, hDone⟩, hAwaits⟩
    · rintro ⟨done, i, later, hSplit, hDone, hAwaits⟩
      rcases done with _ | ⟨j, done⟩
      · obtain ⟨rfl, rfl⟩ := List.cons.inj hSplit
        exact Or.inl hAwaits
      · obtain ⟨rfl, rfl⟩ := List.cons.inj hSplit
        obtain ⟨hFirst, hOthers⟩ := List.forall_mem_cons.mp hDone
        exact Or.inr ⟨(), hFirst, done, i, later, rfl, hOthers, hAwaits⟩

end Ways

end Co

end ZagrosNode.Lib
