import Mathlib.Data.List.Basic

/-!
# ZagrosNode — stateful computations that may raise

`Op σ ε α` runs on a state and ends with a result or an exception; what it
changed before raising stays changed. It is the shape of a coroutine in which
every await point may raise: the state after an exception is the state at the
await point that raised.

A computation is a function from the state to a result and the state it leaves,
which keeps what was done before an exception as Python keeps it. Lifecycle
actions, account syncs and passes over the kernel are written as such computations,
statement by statement, with `do`.

Five ways of reasoning are here, each with a rule for every way of composing:

* `run` — equations, for following one execution;
* `Steps` — a relation between the states before and after, however it ends;
* `Returns` — a postcondition for the executions that return;
* `Reaches` — that the execution returns, with a postcondition;
* `Ends` — two postconditions, one for returning and one for raising.

`effect` is for code whose calls cannot be told from their traces: it maps a program
of calls to what they do to a state, so that a nested comprehension is a loop.

Main results:

* `run_bind_ok` / `run_bind_error` — a sequence goes on exactly when its first
  part returned.
* `effect_mapList`, `forEach_flatMap` — what nested comprehensions do, as one
  loop.
* `run_guarded_error` — what an `except` clause does to a raising body.
* `Steps.bind` / `Steps.guarded` — a relation between the states before and
  after that composes is respected by sequences and guarded bodies.
* `Returns.bind` / `Returns.forEach` — what holds of the result and the state
  whenever a sequence or a loop ends without an exception.
* `Reaches.bind` / `Reaches.forEach` — when a sequence or a loop does end
  without one.
* `Ends.bind` / `Ends.guarded` / `Ends.forEach` — what holds of the state however
  a computation ends: `Q` where it returns, `E` where it raises. The condition on
  the raising end is about the state alone, so an invariant is carried past every
  await by giving it for both.
-/

namespace ZagrosNode.Lib

/-- A computation over the state `σ` that may raise an `ε`. -/
def Op (σ ε α : Type) : Type := σ → Except ε α × σ

namespace Op

variable {σ ε α β : Type}

def run (x : Op σ ε α) (s : σ) : Except ε α × σ := x s

/-- The state a computation leaves behind, raised or not. -/
def after (x : Op σ ε α) (s : σ) : σ := (x.run s).2

protected def pure (a : α) : Op σ ε α := fun s => (.ok a, s)

protected def bind (x : Op σ ε α) (f : α → Op σ ε β) : Op σ ε β := fun s =>
  match x s with
  | (.ok a, s')    => f a s'
  | (.error e, s') => (.error e, s')

instance : Monad (Op σ ε) where
  pure := Op.pure
  bind := Op.bind

def get : Op σ ε σ := fun s => (.ok s, s)

def modify (f : σ → σ) : Op σ ε Unit := fun s => (.ok (), f s)

def raise (e : ε) : Op σ ε α := fun s => (.error e, s)

/-- A computation that leaves the state alone. -/
def lift (r : Except ε α) : Op σ ε α := fun s => (r, s)

/-- `try: body; except <caught>: handler`; an exception that is not caught
passes through. -/
def guarded (caught : ε → Bool) (body : Op σ ε α) (handler : ε → Op σ ε α) : Op σ ε α := fun s =>
  match body s with
  | (.ok a, s')    => (.ok a, s')
  | (.error e, s') => if caught e then handler e s' else (.error e, s')

/-- `for i in items: body(i)` -/
def forEach {ι : Type} (body : ι → Op σ ε Unit) : List ι → Op σ ε Unit
  | []        => pure ()
  | i :: rest => do
    body i
    forEach body rest

/-- `[body(i) for i in items]` -/
def mapList {ι : Type} (body : ι → Op σ ε α) : List ι → Op σ ε (List α)
  | []        => pure []
  | i :: rest => do
    let a ← body i
    let others ← mapList body rest
    pure (a :: others)

/-- What a computation does, without what it returns. -/
def effect (x : Op σ ε α) : Op σ ε Unit := x >>= fun _ => pure ()

@[simp] theorem run_pure (a : α) (s : σ) : (pure a : Op σ ε α).run s = (.ok a, s) := rfl

@[simp] theorem run_get (s : σ) : (get : Op σ ε σ).run s = (.ok s, s) := rfl

@[simp] theorem run_modify (f : σ → σ) (s : σ) : (modify f : Op σ ε Unit).run s = (.ok (), f s) :=
  rfl

@[simp] theorem run_raise (e : ε) (s : σ) : (raise e : Op σ ε α).run s = (.error e, s) := rfl

theorem run_bind (x : Op σ ε α) (f : α → Op σ ε β) (s : σ) :
    (x >>= f).run s =
      match x.run s with
      | (.ok a, s')    => (f a).run s'
      | (.error e, s') => (.error e, s') := rfl

theorem run_bind_ok {x : Op σ ε α} {f : α → Op σ ε β} {s s' : σ} {a : α}
    (h : x.run s = (.ok a, s')) : (x >>= f).run s = (f a).run s' := by
  rw [run_bind, h]

theorem run_bind_error {x : Op σ ε α} {f : α → Op σ ε β} {s s' : σ} {e : ε}
    (h : x.run s = (.error e, s')) : (x >>= f).run s = (.error e, s') := by
  rw [run_bind, h]

@[simp] theorem run_get_bind (f : σ → Op σ ε β) (s : σ) : (get >>= f).run s = (f s).run s := rfl

@[simp] theorem run_modify_bind (g : σ → σ) (f : Unit → Op σ ε β) (s : σ) :
    (modify g >>= f).run s = (f ()).run (g s) := rfl

@[simp] theorem run_raise_bind (e : ε) (f : α → Op σ ε β) (s : σ) :
    ((raise e : Op σ ε α) >>= f).run s = (.error e, s) := rfl

@[simp] theorem run_pure_bind (a : α) (f : α → Op σ ε β) (s : σ) :
    ((pure a : Op σ ε α) >>= f).run s = (f a).run s := rfl

theorem bind_assoc {γ : Type} (x : Op σ ε α) (f : α → Op σ ε β) (g : β → Op σ ε γ) :
    (x >>= f) >>= g = x >>= fun a => f a >>= g := by
  funext s
  show ((x >>= f) >>= g).run s = (x >>= fun a => f a >>= g).run s
  simp only [run_bind]
  cases x.run s with
  | mk result s' => cases result <;> rfl

theorem run_guarded (caught : ε → Bool) (body : Op σ ε α) (handler : ε → Op σ ε α) (s : σ) :
    (guarded caught body handler).run s =
      match body.run s with
      | (.ok a, s')    => (.ok a, s')
      | (.error e, s') => if caught e then (handler e).run s' else (.error e, s') := rfl

theorem run_guarded_ok {caught : ε → Bool} {body : Op σ ε α} {handler : ε → Op σ ε α} {s s' : σ}
    {a : α} (h : body.run s = (.ok a, s')) :
    (guarded caught body handler).run s = (.ok a, s') := by
  rw [run_guarded, h]

theorem run_guarded_error {caught : ε → Bool} {body : Op σ ε α} {handler : ε → Op σ ε α}
    {s s' : σ} {e : ε} (h : body.run s = (.error e, s')) :
    (guarded caught body handler).run s =
      if caught e then (handler e).run s' else (.error e, s') := by
  rw [run_guarded, h]

-- ---------------------------------------------------------------------------
-- What a computation does, and what it returns
-- ---------------------------------------------------------------------------

theorem bind_of_pure (a : α) (f : α → Op σ ε β) : (pure a >>= f : Op σ ε β) = f a := rfl

@[simp] theorem effect_pure (a : α) : effect (pure a : Op σ ε α) = pure () := rfl

@[simp] theorem effect_raise (e : ε) : effect (raise e : Op σ ε α) = raise e := rfl

theorem effect_bind (x : Op σ ε α) (f : α → Op σ ε β) :
    effect (x >>= f) = x >>= fun a => effect (f a) :=
  bind_assoc x f _

/-- What is done with a result alone is nothing that happens. -/
theorem effect_bind_pure (x : Op σ ε α) (g : α → β) :
    effect (x >>= fun a => pure (g a)) = effect x := by
  rw [effect_bind]
  rfl

/-- A state left behind is the same with and without the result. -/
theorem after_effect (x : Op σ ε α) (s : σ) : (effect x).after s = x.after s := by
  unfold effect after
  rw [run_bind]
  cases x.run s with
  | mk result s' => cases result <;> rfl

theorem run_effect_ok {x : Op σ ε α} {s s' : σ} {a : α} (h : x.run s = (.ok a, s')) :
    (effect x).run s = (.ok (), s') :=
  run_bind_ok h

theorem run_effect_error {x : Op σ ε α} {s s' : σ} {e : ε} (h : x.run s = (.error e, s')) :
    (effect x).run s = (.error e, s') :=
  run_bind_error h

/-- A comprehension does what the loop over its items does. -/
theorem effect_mapList {ι : Type} (body : ι → Op σ ε α) (items : List ι) :
    effect (mapList body items) = forEach (fun i => effect (body i)) items := by
  induction items with
  | nil => rfl
  | cons i rest ih =>
    rw [mapList, effect_bind, forEach, ← ih]
    unfold effect
    rw [bind_assoc]
    congr 1
    funext a
    rw [bind_of_pure, bind_assoc]
    rfl

theorem forEach_append {ι : Type} (body : ι → Op σ ε Unit) (items others : List ι) :
    forEach body (items ++ others) = (forEach body items >>= fun _ => forEach body others) := by
  induction items with
  | nil => rfl
  | cons i rest ih =>
    rw [List.cons_append, forEach, forEach, ih, bind_assoc]

/-- A loop of loops is one loop. -/
theorem forEach_flatMap {ι κ : Type} (body : κ → Op σ ε Unit) (g : ι → List κ) (items : List ι) :
    forEach body (items.flatMap g) = forEach (fun i => forEach body (g i)) items := by
  induction items with
  | nil => rfl
  | cons i rest ih => rw [List.flatMap_cons, forEach_append, forEach, ih]

-- ---------------------------------------------------------------------------
-- Relations every run respects
-- ---------------------------------------------------------------------------

/-- Whatever state a computation starts in, `R` relates it to the state left. -/
def Steps (R : σ → σ → Prop) (x : Op σ ε α) : Prop := ∀ s, R s (x.after s)

section Steps

variable {R : σ → σ → Prop} {x : Op σ ε α} {f : α → Op σ ε β}

theorem Steps.pure (hRefl : ∀ s, R s s) (a : α) : Steps R (pure a : Op σ ε α) := fun s => hRefl s

theorem Steps.raise (hRefl : ∀ s, R s s) (e : ε) : Steps R (Op.raise e : Op σ ε α) :=
  fun s => hRefl s

theorem Steps.modify {g : σ → σ} (hg : ∀ s, R s (g s)) : Steps R (Op.modify g : Op σ ε Unit) :=
  hg

theorem Steps.lift (hRefl : ∀ s, R s s) (r : Except ε α) : Steps R (Op.lift r : Op σ ε α) :=
  hRefl

theorem Steps.get_bind {g : σ → Op σ ε β} (hg : ∀ s, Steps R (g s)) : Steps R (Op.get >>= g) :=
  fun s => hg s s

/-- A relation that composes is respected by a sequence of its parts. -/
theorem Steps.bind (hTrans : ∀ {a b c}, R a b → R b c → R a c) (hx : Steps R x)
    (hf : ∀ a, Steps R (f a)) : Steps R (x >>= f) := by
  intro s
  have hFirst := hx s
  unfold Op.after at hFirst ⊢
  rw [run_bind]
  cases hRun : x.run s with
  | mk result s' =>
    rw [hRun] at hFirst
    cases result with
    | ok a => exact hTrans hFirst (hf a s')
    | error e => exact hFirst

/-- A relation that composes is respected by a guarded body with its handler. -/
theorem Steps.guarded (hTrans : ∀ {a b c}, R a b → R b c → R a c) {caught : ε → Bool}
    {handler : ε → Op σ ε α} (hx : Steps R x) (hHandler : ∀ e, Steps R (handler e)) :
    Steps R (Op.guarded caught x handler) := by
  intro s
  have hFirst := hx s
  unfold Op.after at hFirst ⊢
  cases hRun : x.run s with
  | mk result s' =>
    rw [hRun] at hFirst
    cases result with
    | ok a =>
      rw [run_guarded_ok hRun]
      exact hFirst
    | error e =>
      rw [run_guarded_error hRun]
      by_cases hCaught : caught e = true
      · rw [if_pos hCaught]
        exact hTrans hFirst (hHandler e s')
      · rw [if_neg hCaught]
        exact hFirst

/-- A loop respects what all of its bodies respect. -/
theorem Steps.forEach {ι : Type} {body : ι → Op σ ε Unit} (hRefl : ∀ s, R s s)
    (hTrans : ∀ {a b c}, R a b → R b c → R a c) {items : List ι}
    (hBody : ∀ i ∈ items, Steps R (body i)) : Steps R (Op.forEach body items) := by
  induction items with
  | nil => exact Steps.pure hRefl ()
  | cons i rest ih =>
    exact Steps.bind hTrans (hBody i List.mem_cons_self)
      fun _ => ih fun j hj => hBody j (List.mem_cons_of_mem i hj)

end Steps

-- ---------------------------------------------------------------------------
-- What holds on return
-- ---------------------------------------------------------------------------

/-- If the computation returns from `s`, then `Q` holds of its result and of
the state it leaves. A computation that raises satisfies every `Q`. -/
def Returns (x : Op σ ε α) (s : σ) (Q : α → σ → Prop) : Prop :=
  ∀ a s', x.run s = (.ok a, s') → Q a s'

section Returns

variable {x : Op σ ε α} {f : α → Op σ ε β} {s : σ}

theorem Returns.pure {Q : α → σ → Prop} {a : α} (h : Q a s) :
    Returns (pure a : Op σ ε α) s Q := by
  intro b s' hRun
  cases hRun
  exact h

theorem Returns.raise (e : ε) (Q : α → σ → Prop) : Returns (Op.raise e) s Q := by
  intro a s' hRun
  cases hRun

theorem Returns.modify {g : σ → σ} {Q : Unit → σ → Prop} (h : Q () (g s)) :
    Returns (Op.modify g : Op σ ε Unit) s Q := by
  intro a s' hRun
  cases hRun
  exact h

theorem Returns.lift {r : Except ε α} {Q : α → σ → Prop} (h : ∀ a, r = .ok a → Q a s) :
    Returns (Op.lift r) s Q := by
  intro a s' hRun
  obtain ⟨hResult, rfl⟩ := Prod.mk.inj hRun
  exact h a hResult

theorem Returns.mono {Q Q' : α → σ → Prop} (h : Returns x s Q) (hImp : ∀ a s', Q a s' → Q' a s') :
    Returns x s Q' :=
  fun a s' hRun => hImp a s' (h a s' hRun)

theorem Returns.get_bind {g : σ → Op σ ε β} {Q : β → σ → Prop} (h : Returns (g s) s Q) :
    Returns (Op.get >>= g) s Q := h

/-- A sequence is traced by tracing its second part from wherever the first
one ends. -/
theorem Returns.bind {Q : β → σ → Prop}
    (h : Returns x s fun a s' => Returns (f a) s' Q) : Returns (x >>= f) s Q := by
  intro b s'' hRun
  rw [run_bind] at hRun
  cases hFirst : x.run s with
  | mk result s' =>
    rw [hFirst] at hRun
    cases result with
    | ok a => exact h a s' hFirst b s'' hRun
    | error e => cases hRun

/-- A handled body returns either by itself or through its handler. -/
theorem Returns.guarded {Q : α → σ → Prop} {caught : ε → Bool} {handler : ε → Op σ ε α}
    (hBody : Returns x s Q) (hHandler : ∀ e, Returns (handler e) (x.after s) Q) :
    Returns (Op.guarded caught x handler) s Q := by
  intro a s'' hRun
  cases hFirst : x.run s with
  | mk result s' =>
    cases result with
    | ok b =>
      rw [run_guarded_ok hFirst] at hRun
      exact hBody a s'' (by rw [hFirst, hRun])
    | error e =>
      rw [run_guarded_error hFirst] at hRun
      have hAfter : x.after s = s' := by rw [Op.after, hFirst]
      by_cases hCaught : caught e = true
      · rw [if_pos hCaught] at hRun
        exact hHandler e a s'' (by rwa [hAfter])
      · rw [if_neg hCaught] at hRun
        cases hRun

theorem Returns.forEach_from {ι : Type} {body : ι → Op σ ε Unit} (Inv : List ι → σ → Prop)
    {items : List ι}
    (hBody : ∀ i ∈ items, ∀ done s, Inv done s →
      Returns (body i) s fun _ s' => Inv (done ++ [i]) s')
    {done : List ι} (h0 : Inv done s) :
    Returns (Op.forEach body items) s fun _ s' => Inv (done ++ items) s' := by
  induction items generalizing s done with
  | nil => exact Returns.pure (by rwa [List.append_nil])
  | cons i rest ih =>
    refine Returns.bind ((hBody i List.mem_cons_self done s h0).mono ?_)
    intro _ s' hInv
    have hRest := ih (fun j hj => hBody j (List.mem_cons_of_mem i hj)) hInv
    rwa [List.append_assoc, List.singleton_append] at hRest

/-- A comprehension whose items each return a value that is known returns the
list of these values. -/
theorem Returns.mapList {ι : Type} {body : ι → Op σ ε α} {g : ι → α} {items : List ι}
    (hBody : ∀ i ∈ items, ∀ s, Returns (body i) s fun a _ => a = g i) :
    Returns (Op.mapList body items) s fun as _ => as = items.map g := by
  induction items generalizing s with
  | nil => exact Returns.pure rfl
  | cons i rest ih =>
    refine Returns.bind ((hBody i List.mem_cons_self s).mono fun a s' hFirst => ?_)
    refine Returns.bind ((ih fun j hj => hBody j (List.mem_cons_of_mem i hj)).mono
      fun as s'' hRest => ?_)
    exact Returns.pure (by rw [hFirst, hRest, List.map_cons])

/--
**Loop rule.** An invariant that speaks of the items already done holds of all
of them when the loop returns. Nothing is asked of a body that raises.
-/
theorem Returns.forEach {ι : Type} {body : ι → Op σ ε Unit} (Inv : List ι → σ → Prop)
    {items : List ι} (h0 : Inv [] s)
    (hBody : ∀ i ∈ items, ∀ done s, Inv done s →
      Returns (body i) s fun _ s' => Inv (done ++ [i]) s') :
    Returns (Op.forEach body items) s fun _ s' => Inv items s' :=
  Returns.forEach_from Inv hBody h0

end Returns

-- ---------------------------------------------------------------------------
-- Getting to the end
-- ---------------------------------------------------------------------------

/-- The computation returns from `s`, and `Q` holds of its result and of the
state it leaves. -/
def Reaches (x : Op σ ε α) (s : σ) (Q : α → σ → Prop) : Prop :=
  ∃ a s', x.run s = (.ok a, s') ∧ Q a s'

section Reaches

variable {x : Op σ ε α} {f : α → Op σ ε β} {s : σ}

theorem Reaches.pure {Q : α → σ → Prop} {a : α} (h : Q a s) : Reaches (pure a : Op σ ε α) s Q :=
  ⟨a, s, rfl, h⟩

theorem Reaches.modify {g : σ → σ} {Q : Unit → σ → Prop} (h : Q () (g s)) :
    Reaches (Op.modify g : Op σ ε Unit) s Q := ⟨(), g s, rfl, h⟩

theorem Reaches.lift {r : Except ε α} {Q : α → σ → Prop} {a : α} (hOk : r = .ok a) (h : Q a s) :
    Reaches (Op.lift r) s Q := ⟨a, s, congrArg (·, s) hOk, h⟩

theorem Reaches.mono {Q Q' : α → σ → Prop} (h : Reaches x s Q) (hImp : ∀ a s', Q a s' → Q' a s') :
    Reaches x s Q' := by
  obtain ⟨a, s', hRun, hQ⟩ := h
  exact ⟨a, s', hRun, hImp a s' hQ⟩

theorem Reaches.get_bind {g : σ → Op σ ε β} {Q : β → σ → Prop} (h : Reaches (g s) s Q) :
    Reaches (Op.get >>= g) s Q := h

theorem Reaches.bind {Q : β → σ → Prop} (h : Reaches x s fun a s' => Reaches (f a) s' Q) :
    Reaches (x >>= f) s Q := by
  obtain ⟨a, s', hRun, b, s'', hNext, hQ⟩ := h
  exact ⟨b, s'', by rw [run_bind_ok hRun, hNext], hQ⟩

/-- A body that returns does not need its handler. -/
theorem Reaches.guarded {Q : α → σ → Prop} {caught : ε → Bool} {handler : ε → Op σ ε α}
    (h : Reaches x s Q) : Reaches (Op.guarded caught x handler) s Q := by
  obtain ⟨a, s', hRun, hQ⟩ := h
  exact ⟨a, s', run_guarded_ok hRun, hQ⟩

/--
**Loop rule.** A loop gets to its end if every body does, from every state that
meets an invariant of the bodies.
-/
theorem Reaches.forEach {ι : Type} {body : ι → Op σ ε Unit} (Inv : σ → Prop) {items : List ι}
    (hBody : ∀ i ∈ items, ∀ s, Inv s → Reaches (body i) s fun _ s' => Inv s') (h0 : Inv s) :
    Reaches (Op.forEach body items) s fun _ s' => Inv s' := by
  induction items generalizing s with
  | nil => exact Reaches.pure h0
  | cons i rest ih =>
    refine Reaches.bind ((hBody i List.mem_cons_self s h0).mono fun _ s' hInv => ?_)
    exact ih (fun j hj => hBody j (List.mem_cons_of_mem i hj)) hInv

end Reaches

-- ---------------------------------------------------------------------------
-- Both ends
-- ---------------------------------------------------------------------------

/-- However the computation ends: `Q` holds of the result and the state it returns
with, and `E` of the state it raises in. -/
def Ends (x : Op σ ε α) (s : σ) (Q : α → σ → Prop) (E : σ → Prop) : Prop :=
  (∀ a s', x.run s = (.ok a, s') → Q a s') ∧ ∀ e s', x.run s = (.error e, s') → E s'

section Ends

variable {x : Op σ ε α} {f : α → Op σ ε β} {s : σ} {E : σ → Prop}

theorem Ends.pure {Q : α → σ → Prop} {a : α} (h : Q a s) : Ends (pure a : Op σ ε α) s Q E :=
  ⟨Returns.pure h, fun _ _ hRun => by cases hRun⟩

theorem Ends.raise {Q : α → σ → Prop} {e : ε} (h : E s) : Ends (Op.raise e) s Q E := by
  refine ⟨Returns.raise e Q, fun e' s' hRun => ?_⟩
  cases hRun
  exact h

theorem Ends.modify {g : σ → σ} {Q : Unit → σ → Prop} (h : Q () (g s)) :
    Ends (Op.modify g : Op σ ε Unit) s Q E :=
  ⟨Returns.modify h, fun _ _ hRun => by cases hRun⟩

theorem Ends.get_bind {g : σ → Op σ ε β} {Q : β → σ → Prop} (h : Ends (g s) s Q E) :
    Ends (Op.get >>= g) s Q E := h

theorem Ends.mono {Q Q' : α → σ → Prop} {E' : σ → Prop} (h : Ends x s Q E)
    (hQ : ∀ a s', Q a s' → Q' a s') (hE : ∀ s', E s' → E' s') : Ends x s Q' E' :=
  ⟨fun a s' hRun => hQ a s' (h.1 a s' hRun), fun e s' hRun => hE s' (h.2 e s' hRun)⟩

theorem Ends.bind {Q : β → σ → Prop} (h : Ends x s (fun a s' => Ends (f a) s' Q E) E) :
    Ends (x >>= f) s Q E := by
  cases hFirst : x.run s with
  | mk result s' =>
    cases result with
    | ok a =>
      have hSecond := h.1 a s' hFirst
      unfold Ends
      rw [run_bind_ok hFirst]
      exact hSecond
    | error e =>
      refine ⟨fun b s'' hRun => ?_, fun e' s'' hRun => ?_⟩
      · rw [run_bind_error hFirst] at hRun
        cases hRun
      · rw [run_bind_error hFirst] at hRun
        cases hRun
        exact h.2 e s' hFirst

/-- A handler goes on in the state the body has raised in. -/
theorem Ends.guarded {Q : α → σ → Prop} {caught : ε → Bool} {handler : ε → Op σ ε α}
    (h : Ends x s Q fun s' => E s' ∧ ∀ e, Ends (handler e) s' Q E) :
    Ends (Op.guarded caught x handler) s Q E := by
  cases hFirst : x.run s with
  | mk result s' =>
    cases result with
    | ok a =>
      have hReturned := h.1 a s' hFirst
      unfold Ends
      rw [run_guarded_ok hFirst]
      refine ⟨fun b s'' hRun => ?_, fun e s'' hRun => by cases hRun⟩
      cases hRun
      exact hReturned
    | error e =>
      obtain ⟨hRaised, hHandler⟩ := h.2 e s' hFirst
      unfold Ends
      rw [run_guarded_error hFirst]
      split
      · exact hHandler e
      · refine ⟨fun a s'' hRun => (by cases hRun), fun e' s'' hRun => ?_⟩
        cases hRun
        exact hRaised

/--
**Loop rule.** What every body leaves as it finds it holds after the loop, also
where a body raises and the loop ends there.
-/
theorem Ends.forEach {ι : Type} {body : ι → Op σ ε Unit} (Inv : σ → Prop) {items : List ι}
    (hBody : ∀ i ∈ items, ∀ s, Inv s → Ends (body i) s (fun _ s' => Inv s') Inv) (h0 : Inv s) :
    Ends (Op.forEach body items) s (fun _ s' => Inv s') Inv := by
  induction items generalizing s with
  | nil => exact Ends.pure h0
  | cons i rest ih =>
    refine Ends.bind ((hBody i List.mem_cons_self s h0).mono (fun _ s' hInv => ?_) fun _ h => h)
    exact ih (fun j hj => hBody j (List.mem_cons_of_mem i hj)) hInv

/-- What holds at both ends holds of the state that is left. -/
theorem Ends.after {Inv : σ → Prop} (h : Ends x s (fun _ s' => Inv s') Inv) : Inv (x.after s) := by
  unfold Op.after
  cases hRun : x.run s with
  | mk result s' =>
    cases result with
    | ok a => exact h.1 a s' hRun
    | error e => exact h.2 e s' hRun

end Ends

end Op

end ZagrosNode.Lib
