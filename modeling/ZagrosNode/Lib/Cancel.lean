import ZagrosNode.Lib.Coroutine

/-!
# ZagrosNode — cancelled coroutines

A coroutine is cancelled at an await. What it awaits may then have done nothing
or all it does, and the coroutine itself goes on with an exception that says so.

Three relations say what can become of a coroutine under a cancellation:

* **`Comes`** — it gets to an await, with what it would do after an answer and the
  state there. `Hears` is the same with the calls that were answered before.
* **`Ends`** — it is given an answer and gets to its end.
* **`Struck`** — it is at an await, the call it awaits leaves what it leaves, and it
  goes on with the exception of the cancellation. `StruckAfter` lists the calls
  that were carried out, with the states they left.

The call that was cancelled is the delicate one. A thread that was started goes on
when nobody waits for it any more, so the call may have been carried out or not;
`Surroundings.Leaves` allows both, and `Trails` says which it was.

`Along` is the other half. It is a predicate transformer over the syntax of the
coroutine: with a condition for every await, one for every exception and one for
the result, it is what has to hold at the start. It composes with sequences, with
`except` clauses and with loops, and what it gives at an await is what a timeout
finds there. Nothing here names a driver or a request.

Main results:

* `struck_iff`, `struckAfter_iff` — where no `except` clause takes that exception,
  the coroutine is over at the await it was cancelled at.
* `Tame.of_trails` — what no turn of the coroutine changes is then what the calls
  that were carried out have made of it.
* `Along.of_comes`, `Along.of_ends` — what holds along the way of a coroutine
  holds at every await it comes to, and where it ends.
* `along_bind`, `along_guarded`, `Along.forEach`, `Along.mapList` — the rules for
  what holds along the way.
* `Can.bind`, `Can.handled`, `Can.forEach` — the rules for a way to the end.
-/

namespace ZagrosNode.Lib

/-- What a coroutine meets: how its calls are answered, and the exception of a
cancellation. -/
structure Surroundings (σ ε κ : Type) where
  answers   : κ → σ → Except ε Unit → σ → Prop
  cancelled : ε

variable {σ ε κ α β ι τ : Type}

/-- What a call leaves whose answer nobody waits for any more. -/
def Surroundings.Leaves (w : Surroundings σ ε κ) (c : κ) (s s' : σ) : Prop :=
  s' = s ∨ ∃ r, w.answers c s r s'

/-- The same, with the call and what it left if it was carried out. -/
inductive Surroundings.Trails (w : Surroundings σ ε κ) (c : κ) (s : σ) :
    List (κ × σ) → σ → Prop
  | lost : Trails w c s [] s
  | carried {r : Except ε Unit} {s' : σ} : w.answers c s r s' → Trails w c s [(c, s')] s'

theorem Surroundings.leaves_iff_trails {w : Surroundings σ ε κ} {c : κ} {s s' : σ} :
    w.Leaves c s s' ↔ ∃ last, w.Trails c s last s' := by
  constructor
  · rintro (rfl | ⟨r, hAnswer⟩)
    · exact ⟨[], Trails.lost⟩
    · exact ⟨[(c, s')], Trails.carried hAnswer⟩
  · rintro ⟨last, hTrails⟩
    cases hTrails with
    | lost => exact Or.inl rfl
    | carried hAnswer => exact Or.inr ⟨_, hAnswer⟩

namespace Co

variable (w : Surroundings σ ε κ)

/-- From `s` the coroutine comes to its end, with this result and state. -/
inductive Ends : Co σ ε κ α → σ → Except ε α → σ → Prop
  | done (r : Except ε α) (s : σ) : Ends (.done r) s r s
  | turn {f : σ → σ} {k : σ → Co σ ε κ α} {s s' : σ} {r : Except ε α} :
      Ends (k s) (f s) r s' → Ends (.turn f k) s r s'
  | call {c : κ} {k : Except ε Unit → Co σ ε κ α} {s s₁ s' : σ} {a : Except ε Unit}
      {r : Except ε α} :
      w.answers c s a s₁ → Ends (k a) s₁ r s' → Ends (.call c k) s r s'
  | mark {k : Co σ ε κ α} {s s' : σ} {r : Except ε α} : Ends k s r s' → Ends (.mark k) s r s'

/-- From `s` the coroutine comes to await `c` in `s'`, and would go on with `k`. -/
inductive Comes : Co σ ε κ α → σ → κ → (Except ε Unit → Co σ ε κ α) → σ → Prop
  | here (c : κ) (k : Except ε Unit → Co σ ε κ α) (s : σ) : Comes (.call c k) s c k s
  | turn {f : σ → σ} {k : σ → Co σ ε κ α} {s s' : σ} {c : κ}
      {next : Except ε Unit → Co σ ε κ α} :
      Comes (k s) (f s) c next s' → Comes (.turn f k) s c next s'
  | call {c₁ c : κ} {k next : Except ε Unit → Co σ ε κ α} {s s₁ s' : σ} {a : Except ε Unit} :
      w.answers c₁ s a s₁ → Comes (k a) s₁ c next s' → Comes (.call c₁ k) s c next s'
  | mark {k : Co σ ε κ α} {s s' : σ} {c : κ} {next : Except ε Unit → Co σ ε κ α} :
      Comes k s c next s' → Comes (.mark k) s c next s'

/-- `Comes`, with the calls that were answered on the way, first to last, and the
state each of them left. -/
inductive Hears : Co σ ε κ α → σ → List (κ × σ) → κ → (Except ε Unit → Co σ ε κ α) → σ → Prop
  | here (c : κ) (k : Except ε Unit → Co σ ε κ α) (s : σ) : Hears (.call c k) s [] c k s
  | turn {f : σ → σ} {k : σ → Co σ ε κ α} {s s' : σ} {heard : List (κ × σ)} {c : κ}
      {next : Except ε Unit → Co σ ε κ α} :
      Hears (k s) (f s) heard c next s' → Hears (.turn f k) s heard c next s'
  | call {c₁ c : κ} {k next : Except ε Unit → Co σ ε κ α} {s s₁ s' : σ} {heard : List (κ × σ)}
      {a : Except ε Unit} :
      w.answers c₁ s a s₁ → Hears (k a) s₁ heard c next s' →
        Hears (.call c₁ k) s ((c₁, s₁) :: heard) c next s'
  | mark {k : Co σ ε κ α} {s s' : σ} {heard : List (κ × σ)} {c : κ}
      {next : Except ε Unit → Co σ ε κ α} :
      Hears k s heard c next s' → Hears (.mark k) s heard c next s'

/-- From `s` the coroutine comes through `s'`: it awaits something there, or it ends. -/
def Visits (x : Co σ ε κ α) (s s' : σ) : Prop :=
  (∃ c k, Comes w x s c k s') ∨ ∃ r, Ends w x s r s'

/-- The coroutine is cancelled when it awaits `c`, and then ends so. -/
def Struck (x : Co σ ε κ α) (s : σ) (c : κ) (r : Except ε α) (s' : σ) : Prop :=
  ∃ k s₁ s₂, Comes w x s c k s₁ ∧ w.Leaves c s₁ s₂ ∧ Ends w (k (.error w.cancelled)) s₂ r s'

/-- The same, with the calls that were carried out: those that were answered, and
the cancelled one unless it was lost. -/
def StruckAfter (x : Co σ ε κ α) (s : σ) (calls : List (κ × σ)) (c : κ) (r : Except ε α)
    (s' : σ) : Prop :=
  ∃ k s₁ s₂ heard last, Hears w x s heard c k s₁ ∧ w.Trails c s₁ last s₂ ∧
    calls = heard ++ last ∧ Ends w (k (.error w.cancelled)) s₂ r s'

/-- No `except` clause of the coroutine takes `e` from an await, and no turn between
its awaits changes what `f` sees of the state: that only calls change. -/
def Tame (e : ε) (f : σ → τ) : Co σ ε κ α → Prop
  | .done _   => True
  | .turn g k => (∀ s, f (g s) = f s) ∧ ∀ s, (k s).Tame e f
  | .call _ k => k (.error e) = .done (.error e) ∧ ∀ r, (k r).Tame e f
  | .mark k   => k.Tame e f

/-- On the way of the coroutine from `s`, `P` holds at every await, `E` if it
raises and `A` if it returns. -/
def Along (P : κ → σ → Prop) (E : ε → σ → Prop) (A : α → σ → Prop) : Co σ ε κ α → σ → Prop
  | .done (.ok a), s    => A a s
  | .done (.error e), s => E e s
  | .turn f k, s        => (k s).Along P E A (f s)
  | .call c k, s        => P c s ∧ ∀ r s', w.answers c s r s' → (k r).Along P E A s'
  | .mark k, s          => k.Along P E A s

section Comes

variable {w} {x : Co σ ε κ α} {s s₁ s₂ s' : σ} {c c₁ : κ} {k k₁ : Except ε Unit → Co σ ε κ α}

/-- The await a coroutine runs to is the first one it comes to. -/
theorem comes_of_settle (h : x.settle s = (.call c k, s')) : Comes w x s c k s' := by
  induction x generalizing s with
  | done r => cases h
  | turn f g ih => exact Comes.turn (ih s h)
  | call c₁ g ih =>
    obtain ⟨hCall, rfl⟩ := Prod.mk.inj h
    obtain ⟨rfl, rfl⟩ := Co.call.inj hCall
    exact Comes.here c₁ g s
  | mark g ih => exact Comes.mark (ih h)

theorem Comes.after_settle (h : x.settle s = (.call c₁ k₁, s₁)) {a : Except ε Unit}
    (hAnswer : w.answers c₁ s₁ a s₂) (hComes : Comes w (k₁ a) s₂ c k s') : Comes w x s c k s' := by
  induction x generalizing s with
  | done r => cases h
  | turn f g ih => exact Comes.turn (ih s h)
  | call c₂ g ih =>
    obtain ⟨hCall, rfl⟩ := Prod.mk.inj h
    obtain ⟨rfl, rfl⟩ := Co.call.inj hCall
    exact Comes.call hAnswer hComes
  | mark g ih => exact Comes.mark (ih h)

/-- The await a coroutine stands at after `n` calls that were answered like this. -/
def after (reply : κ → σ → Except ε Unit × σ) :
    Nat → Co σ ε κ α → σ → Option (κ × (Except ε Unit → Co σ ε κ α) × σ)
  | 0, x, s     =>
    match x.settle s with
    | (.call c k, s') => some (c, k, s')
    | _               => none
  | n + 1, x, s =>
    match x.settle s with
    | (.call c k, s') => after reply n (k (reply c s').1) (reply c s').2
    | _               => none

theorem comes_of_after {reply : κ → σ → Except ε Unit × σ}
    (hReply : ∀ c s, w.answers c s (reply c s).1 (reply c s).2) {n : Nat}
    (h : after reply n x s = some (c, k, s')) : Comes w x s c k s' := by
  induction n generalizing x s with
  | zero =>
    unfold after at h
    split at h
    · next hSettle =>
      obtain ⟨rfl, rfl, rfl⟩ := h
      exact comes_of_settle hSettle
    · cases h
  | succ n ih =>
    unfold after at h
    split at h
    · next hSettle => exact Comes.after_settle hSettle (hReply _ _) (ih h)
    · cases h

end Comes

-- ---------------------------------------------------------------------------
-- Cancellations that pass
-- ---------------------------------------------------------------------------

section Tame

variable {w} {x : Co σ ε κ α} {next : α → Co σ ε κ β} {e : ε} {f : σ → τ}

theorem Tame.bind (hx : x.Tame e f) (hNext : ∀ a, (next a).Tame e f) :
    (x >>= next).Tame e f := by
  induction x with
  | done r =>
    cases r with
    | ok a => exact hNext a
    | error e => trivial
  | turn g k ih => exact ⟨hx.1, fun s => ih s (hx.2 s)⟩
  | call c k ih =>
    refine ⟨?_, fun r => ih r (hx.2 r)⟩
    show (k (.error e)).bind next = .done (.error e)
    rw [hx.1]
    rfl
  | mark k ih => exact ih hx

theorem Tame.guarded {caught : ε → Bool} {handler : ε → Co σ ε κ α} (hCaught : caught e = false)
    (hx : x.Tame e f) (hHandler : ∀ e', (handler e').Tame e f) :
    (x.guarded caught handler).Tame e f := by
  induction x with
  | done r =>
    cases r with
    | ok a => trivial
    | error e' =>
      show (if caught e' then handler e' else .done (.error e') : Co σ ε κ α).Tame e f
      split
      · exact hHandler e'
      · trivial
  | turn g k ih => exact ⟨hx.1, fun s => ih s (hx.2 s)⟩
  | call c k ih =>
    -- the clause around the await does not take `e` either
    refine ⟨?_, fun r => ih r (hx.2 r)⟩
    show (k (.error e)).guarded caught handler = .done (.error e)
    rw [hx.1, Co.guarded, hCaught, if_neg Bool.false_ne_true]
  | mark k ih => exact ih hx

theorem Tame.await (c : κ) : (Co.await c : Co σ ε κ Unit).Tame e f := ⟨rfl, fun _ => trivial⟩

theorem Tame.pure (a : α) : (Pure.pure a : Co σ ε κ α).Tame e f := trivial

theorem Tame.raise (e' : ε) : (Co.raise e' : Co σ ε κ α).Tame e f := trivial

theorem Tame.lift (r : Except ε α) : (Co.lift r : Co σ ε κ α).Tame e f := trivial

theorem Tame.get : (Co.get : Co σ ε κ σ).Tame e f := ⟨fun _ => rfl, fun _ => trivial⟩

theorem Tame.modify {g : σ → σ} (h : ∀ s, f (g s) = f s) :
    (Co.modify g : Co σ ε κ Unit).Tame e f := ⟨h, fun _ => trivial⟩

theorem Tame.forEach {body : ι → Co σ ε κ Unit} (h : ∀ i, (body i).Tame e f) (items : List ι) :
    (Co.forEach body items).Tame e f := by
  induction items with
  | nil => trivial
  | cons i rest ih => exact (h i).bind fun _ => ih

theorem Tame.mapList {body : ι → Co σ ε κ α} (h : ∀ i, (body i).Tame e f) (items : List ι) :
    (Co.mapList body items).Tame e f := by
  induction items with
  | nil => trivial
  | cons i rest ih => exact (h i).bind fun _ => ih.bind fun _ => trivial

theorem Tame.of_comes (h : x.Tame e f) {s s' : σ} {c : κ} {k : Except ε Unit → Co σ ε κ α}
    (hComes : Comes w x s c k s') : k (.error e) = .done (.error e) := by
  induction hComes with
  | here c k s => exact h.1
  | turn _ ih => exact ih (h.2 _)
  | call _ _ ih => exact ih (h.2 _)
  | mark _ ih => exact ih h

/--
**Cancellation.** It ends a coroutine that does not take it, and what it leaves
is what the coroutine had done by then. So the states a timeout may leave are
those at the awaits, with the call that was awaited carried out or not.
-/
theorem struck_iff (h : x.Tame w.cancelled f) {s s' : σ} {c : κ} {r : Except ε α} :
    Struck w x s c r s' ↔
      r = .error w.cancelled ∧ ∃ k s₁, Comes w x s c k s₁ ∧ w.Leaves c s₁ s' := by
  constructor
  · rintro ⟨k, s₁, s₂, hComes, hLeaves, hEnds⟩
    rw [h.of_comes hComes] at hEnds
    obtain ⟨⟩ := hEnds
    exact ⟨rfl, k, s₁, hComes, hLeaves⟩
  · rintro ⟨rfl, k, s₁, hComes, hLeaves⟩
    refine ⟨k, s₁, s', hComes, hLeaves, ?_⟩
    rw [h.of_comes hComes]
    exact Ends.done _ _

end Tame

-- ---------------------------------------------------------------------------
-- The calls that were answered
-- ---------------------------------------------------------------------------

section Hears

variable {w} {x : Co σ ε κ α} {s s' : σ} {c : κ} {k : Except ε Unit → Co σ ε κ α}
  {r : Except ε α} {heard calls : List (κ × σ)}

theorem Hears.comes (h : Hears w x s heard c k s') : Comes w x s c k s' := by
  induction h with
  | here c k s => exact Comes.here c k s
  | turn _ ih => exact Comes.turn ih
  | call hAnswer _ ih => exact Comes.call hAnswer ih
  | mark _ ih => exact Comes.mark ih

theorem comes_iff_hears : Comes w x s c k s' ↔ ∃ heard, Hears w x s heard c k s' := by
  constructor
  · intro h
    induction h with
    | here c k s => exact ⟨[], Hears.here c k s⟩
    | turn _ ih =>
      obtain ⟨heard, hHears⟩ := ih
      exact ⟨heard, Hears.turn hHears⟩
    | call hAnswer _ ih =>
      obtain ⟨heard, hHears⟩ := ih
      exact ⟨_, Hears.call hAnswer hHears⟩
    | mark _ ih =>
      obtain ⟨heard, hHears⟩ := ih
      exact ⟨heard, Hears.mark hHears⟩
  · rintro ⟨heard, hHears⟩
    exact hHears.comes

/-- Every cancellation comes after some calls. -/
theorem struck_iff_after : Struck w x s c r s' ↔ ∃ calls, StruckAfter w x s calls c r s' := by
  constructor
  · rintro ⟨k, s₁, s₂, hComes, hLeaves, hEnds⟩
    obtain ⟨heard, hHears⟩ := comes_iff_hears.mp hComes
    obtain ⟨last, hTrails⟩ := Surroundings.leaves_iff_trails.mp hLeaves
    exact ⟨_, k, s₁, s₂, heard, last, hHears, hTrails, rfl, hEnds⟩
  · rintro ⟨calls, k, s₁, s₂, heard, last, hHears, hTrails, -, hEnds⟩
    exact ⟨k, s₁, s₂, hHears.comes, Surroundings.leaves_iff_trails.mpr ⟨last, hTrails⟩, hEnds⟩

theorem struckAfter_iff {f : σ → τ} (h : x.Tame w.cancelled f) :
    StruckAfter w x s calls c r s' ↔ r = .error w.cancelled ∧ ∃ k s₁ heard last,
      Hears w x s heard c k s₁ ∧ w.Trails c s₁ last s' ∧ calls = heard ++ last := by
  constructor
  · rintro ⟨k, s₁, s₂, heard, last, hHears, hTrails, rfl, hEnds⟩
    rw [h.of_comes hHears.comes] at hEnds
    obtain ⟨⟩ := hEnds
    exact ⟨rfl, k, s₁, heard, last, hHears, hTrails, rfl⟩
  · rintro ⟨rfl, k, s₁, heard, last, hHears, hTrails, rfl⟩
    refine ⟨k, s₁, s', heard, last, hHears, hTrails, rfl, ?_⟩
    rw [h.of_comes hHears.comes]
    exact Ends.done _ _

/--
**What only calls change** is at an await what the calls heard so far make of
it, applied one after the other to what it was at the start.
-/
theorem Tame.of_hears {e : ε} {f : σ → τ} {apply : τ → κ × σ → τ}
    (hAnswers : ∀ c s r s', w.answers c s r s' → f s' = apply (f s) (c, s')) (h : x.Tame e f)
    (hHears : Hears w x s heard c k s') : f s' = heard.foldl apply (f s) := by
  induction hHears with
  | here c k s => rfl
  | turn _ ih => rw [ih (h.2 _), h.1]
  | call hAnswer _ ih => rw [ih (h.2 _), List.foldl_cons, hAnswers _ _ _ _ hAnswer]
  | mark _ ih => exact ih h

/-- And after a cancellation it is what the calls that were carried out make of
it. -/
theorem Tame.of_trails {e : ε} {f : σ → τ} {apply : τ → κ × σ → τ}
    (hAnswers : ∀ c s r s', w.answers c s r s' → f s' = apply (f s) (c, s')) (h : x.Tame e f)
    {s₁ : σ} {last : List (κ × σ)} (hHears : Hears w x s heard c k s₁)
    (hTrails : w.Trails c s₁ last s') : f s' = (heard ++ last).foldl apply (f s) := by
  rw [List.foldl_append, ← h.of_hears hAnswers hHears]
  cases hTrails with
  | lost => rfl
  | carried hAnswer => exact hAnswers _ _ _ _ hAnswer

end Hears

-- ---------------------------------------------------------------------------
-- Along the way
-- ---------------------------------------------------------------------------

section Along

variable {w} {P : κ → σ → Prop} {E : ε → σ → Prop} {A : α → σ → Prop} {x : Co σ ε κ α} {s : σ}

theorem Along.of_comes (h : x.Along w P E A s) {s' : σ} {c : κ} {k : Except ε Unit → Co σ ε κ α}
    (hComes : Comes w x s c k s') : P c s' := by
  induction hComes with
  | here c k s => exact h.1
  | turn _ ih => exact ih h
  | call hAnswer _ ih => exact ih (h.2 _ _ hAnswer)
  | mark _ ih => exact ih h

theorem Along.of_ends (h : x.Along w P E A s) {s' : σ} {r : Except ε α} (hEnds : Ends w x s r s') :
    (∀ a, r = .ok a → A a s') ∧ ∀ e, r = .error e → E e s' := by
  induction hEnds with
  | done r s =>
    refine ⟨?_, ?_⟩
    · rintro a rfl
      exact h
    · rintro e rfl
      exact h
  | turn _ ih => exact ih h
  | call hAnswer _ ih => exact ih (h.2 _ _ hAnswer)
  | mark _ ih => exact ih h

/-- What holds at every await and at both ends holds wherever the coroutine comes. -/
theorem Along.of_visits {M : σ → Prop} (h : x.Along w (fun _ => M) (fun _ => M) A s)
    (hA : ∀ a t, A a t → M t) {s' : σ} (hVisits : Visits w x s s') : M s' := by
  rcases hVisits with ⟨c, k, hComes⟩ | ⟨r, hEnds⟩
  · exact h.of_comes hComes
  · obtain ⟨hOk, hError⟩ := h.of_ends hEnds
    cases r with
    | ok a => exact hA a s' (hOk a rfl)
    | error e => exact hError e rfl

theorem Along.mono {P' : κ → σ → Prop} {E' : ε → σ → Prop} {A' : α → σ → Prop}
    (h : x.Along w P E A s) (hP : ∀ c s, P c s → P' c s) (hE : ∀ e s, E e s → E' e s)
    (hA : ∀ a s, A a s → A' a s) : x.Along w P' E' A' s := by
  induction x generalizing s with
  | done r =>
    cases r with
    | ok a => exact hA a s h
    | error e => exact hE e s h
  | turn g k ih => exact ih s h
  | call c k ih => exact ⟨hP c s h.1, fun r s' hAnswer => ih r (h.2 r s' hAnswer)⟩
  | mark k ih => exact ih h

theorem along_bind {B : β → σ → Prop} {f : α → Co σ ε κ β} :
    (x >>= f).Along w P E B s ↔ x.Along w P E (fun a s' => (f a).Along w P E B s') s := by
  induction x generalizing s with
  | done r => cases r <;> exact Iff.rfl
  | turn g k ih => exact ih s
  | call c k ih =>
    exact and_congr_right fun _ => forall_congr' fun r => forall₂_congr fun s' _ => ih r
  | mark k ih => exact ih

theorem along_guarded {caught : ε → Bool} {handler : ε → Co σ ε κ α} :
    (x.guarded caught handler).Along w P E A s ↔
      x.Along w P
        (fun e s' => if caught e then (handler e).Along w P E A s' else E e s') A s := by
  induction x generalizing s with
  | done r =>
    cases r with
    | ok a => exact Iff.rfl
    | error e =>
      show (if caught e then handler e else .done (.error e) : Co σ ε κ α).Along w P E A s ↔
        if caught e then (handler e).Along w P E A s else E e s
      split <;> exact Iff.rfl
  | turn g k ih => exact ih s
  | call c k ih =>
    exact and_congr_right fun _ => forall_congr' fun r => forall₂_congr fun s' _ => ih r
  | mark k ih => exact ih

theorem along_pure {a : α} : (pure a : Co σ ε κ α).Along w P E A s ↔ A a s := Iff.rfl

theorem along_get_bind {g : σ → Co σ ε κ α} :
    (get >>= g).Along w P E A s ↔ (g s).Along w P E A s := Iff.rfl

theorem along_modify_bind {f : σ → σ} {g : Unit → Co σ ε κ α} :
    (modify f >>= g).Along w P E A s ↔ (g ()).Along w P E A (f s) := Iff.rfl

theorem Along.await {c : κ} {A : Unit → σ → Prop} (hHere : P c s)
    (hRaise : ∀ e s', w.answers c s (.error e) s' → E e s')
    (hGoes : ∀ s', w.answers c s (.ok ()) s' → A () s') :
    (Co.await c).Along w P E A s := by
  refine ⟨hHere, fun r s' hAnswer => ?_⟩
  cases r with
  | ok u => exact hGoes s' hAnswer
  | error e => exact hRaise e s' hAnswer

theorem Along.await_bind {c : κ} {g : Unit → Co σ ε κ α} (hHere : P c s)
    (hRaise : ∀ e s', w.answers c s (.error e) s' → E e s')
    (hGoes : ∀ s', w.answers c s (.ok ()) s' → (g ()).Along w P E A s') :
    (Co.await c >>= g).Along w P E A s :=
  along_bind.mpr (Along.await hHere hRaise hGoes)

theorem Along.lift_bind {r : Except ε β} {g : β → Co σ ε κ α} (hRaise : ∀ e, r = .error e → E e s)
    (hGoes : ∀ b, r = .ok b → (g b).Along w P E A s) : (lift r >>= g).Along w P E A s := by
  cases r with
  | ok b => exact hGoes b rfl
  | error e => exact hRaise e rfl

/--
**Loop rule.** `J` holds of the items that are done. Its step may use where in
the list an item stands, and what `P` asks of each await is shown with `J` of
the items before it.
-/
theorem Along.forEach {body : ι → Co σ ε κ Unit} {items : List ι} (J : List ι → σ → Prop)
    (h : ∀ done i rest, items = done ++ i :: rest → ∀ s, J done s →
      (body i).Along w P E (fun _ s' => J (done ++ [i]) s') s)
    (hStart : J [] s) : (Co.forEach body items).Along w P E (fun _ s' => J items s') s := by
  suffices hRun : ∀ rest done s, items = done ++ rest → J done s →
      (Co.forEach body rest).Along w P E (fun _ s' => J items s') s from
    hRun items [] s rfl hStart
  intro rest
  induction rest with
  | nil =>
    intro done s hSplit hJ
    rw [List.append_nil] at hSplit
    rwa [Co.forEach, along_pure, hSplit]
  | cons i rest ih =>
    intro done s hSplit hJ
    rw [Co.forEach, along_bind]
    refine (h done i rest hSplit s hJ).mono (fun _ _ => id) (fun _ _ => id) fun _ s' hJ' => ?_
    exact ih (done ++ [i]) s' (by rw [hSplit, List.append_assoc]; rfl) hJ'

/-- A comprehension collects what its bodies return; `J` holds throughout. -/
theorem Along.mapList {body : ι → Co σ ε κ α} {items : List ι} (J : σ → Prop) (R : ι → α → Prop)
    (h : ∀ i ∈ items, ∀ s, J s → (body i).Along w P E (fun a s' => J s' ∧ R i a) s)
    (hStart : J s) :
    (Co.mapList body items).Along w P E (fun as s' => J s' ∧ List.Forall₂ R items as) s := by
  induction items generalizing s with
  | nil => exact ⟨hStart, List.Forall₂.nil⟩
  | cons i rest ih =>
    rw [Co.mapList, along_bind]
    refine (h i List.mem_cons_self s hStart).mono (fun _ _ => id) (fun _ _ => id) ?_
    rintro a s' ⟨hJ, hFirst⟩
    rw [along_bind]
    refine (ih (fun j hj => h j (List.mem_cons_of_mem i hj)) hJ).mono (fun _ _ => id)
      (fun _ _ => id) ?_
    rintro as s'' ⟨hJ', hRest⟩
    exact ⟨hJ', List.Forall₂.cons hFirst hRest⟩

/-- Loop rule for comprehensions. `J` holds of the items that are done and of what they
returned. -/
theorem Along.mapList_run {body : ι → Co σ ε κ α} {items : List ι}
    (J : List ι → List α → σ → Prop)
    (h : ∀ done i rest, items = done ++ i :: rest → ∀ as s, J done as s →
      (body i).Along w P E (fun a s' => J (done ++ [i]) (as ++ [a]) s') s)
    (hStart : J [] [] s) : (Co.mapList body items).Along w P E (fun as s' => J items as s') s := by
  suffices hRun : ∀ rest done as s, items = done ++ rest → J done as s →
      (Co.mapList body rest).Along w P E (fun as' s' => J items (as ++ as') s') s from
    hRun items [] [] s rfl hStart
  intro rest
  induction rest with
  | nil =>
    intro done as s hSplit hJ
    rw [List.append_nil] at hSplit
    rwa [Co.mapList, along_pure, hSplit, List.append_nil]
  | cons i rest ih =>
    intro done as s hSplit hJ
    rw [Co.mapList, along_bind]
    refine (h done i rest hSplit as s hJ).mono (fun _ _ => id) (fun _ _ => id) fun a s' hJ' => ?_
    rw [along_bind]
    refine (ih (done ++ [i]) (as ++ [a]) s' (by rw [hSplit, List.append_assoc]; rfl) hJ').mono
      (fun _ _ => id) (fun _ _ => id) fun as' s'' hEnd => ?_
    rwa [along_pure, ← List.singleton_append, ← List.append_assoc]

end Along

-- ---------------------------------------------------------------------------
-- A way to the end
-- ---------------------------------------------------------------------------

/-- From `s` the coroutine can come to return, with `A`. -/
def Can (x : Co σ ε κ α) (A : α → σ → Prop) (s : σ) : Prop :=
  ∃ a s', Ends w x s (.ok a) s' ∧ A a s'

section Can

variable {w} {x : Co σ ε κ α} {A : α → σ → Prop} {s : σ}

theorem Ends.bind {f : α → Co σ ε κ β} {a : α} {r : Except ε β} {s₁ s' : σ}
    (hx : Ends w x s (.ok a) s₁) (hf : Ends w (f a) s₁ r s') : Ends w (x >>= f) s r s' := by
  generalize hEq : (Except.ok a : Except ε α) = r₁ at hx
  induction hx with
  | done r₁ s =>
    subst hEq
    exact hf
  | turn _ ih => exact Ends.turn (ih hf hEq)
  | call hAnswer _ ih => exact Ends.call hAnswer (ih hf hEq)
  | mark _ ih => exact Ends.mark (ih hf hEq)

theorem Can.mono {A' : α → σ → Prop} (h : Can w x A s) (hA : ∀ a s, A a s → A' a s) :
    Can w x A' s := by
  obtain ⟨a, s', hEnds, hHolds⟩ := h
  exact ⟨a, s', hEnds, hA a s' hHolds⟩

theorem Can.bind {f : α → Co σ ε κ β} {B : β → σ → Prop} (hx : Can w x A s)
    (hf : ∀ a s', A a s' → Can w (f a) B s') : Can w (x >>= f) B s := by
  obtain ⟨a, s₁, hFirst, hHolds⟩ := hx
  obtain ⟨b, s', hNext, hEnd⟩ := hf a s₁ hHolds
  exact ⟨b, s', hFirst.bind hNext, hEnd⟩

theorem Can.pure {a : α} (h : A a s) : Can w (Pure.pure a) A s := ⟨a, s, Ends.done _ _, h⟩

theorem Can.get_bind {g : σ → Co σ ε κ α} (h : Can w (g s) A s) : Can w (get >>= g) A s := by
  obtain ⟨a, s', hEnds, hHolds⟩ := h
  exact ⟨a, s', Ends.turn hEnds, hHolds⟩

theorem Can.lift {a : α} (h : A a s) : Can w (lift (.ok a)) A s := ⟨a, s, Ends.done _ _, h⟩

theorem Can.await {c : κ} {A : Unit → σ → Prop} {s' : σ} (hAnswer : w.answers c s (.ok ()) s')
    (h : A () s') : Can w (await c) A s :=
  ⟨(), s', Ends.call hAnswer (Ends.done _ _), h⟩

theorem Can.guarded {caught : ε → Bool} {handler : ε → Co σ ε κ α} (h : Can w x A s) :
    Can w (x.guarded caught handler) A s := by
  obtain ⟨a, s', hEnds, hHolds⟩ := h
  refine ⟨a, s', ?_, hHolds⟩
  generalize hEq : (Except.ok a : Except ε α) = r at hEnds
  induction hEnds with
  | done r s =>
    subst hEq
    exact Ends.done _ _
  | turn _ ih => exact Ends.turn (ih hHolds hEq)
  | call hAnswer _ ih => exact Ends.call hAnswer (ih hHolds hEq)
  | mark _ ih => exact Ends.mark (ih hHolds hEq)

theorem Can.handled {caught : ε → Bool} {handler : ε → Co σ ε κ α} {e : ε} {s₁ : σ}
    (hEnds : Ends w x s (.error e) s₁) (hCaught : caught e = true) (h : Can w (handler e) A s₁) :
    Can w (x.guarded caught handler) A s := by
  obtain ⟨a, s', hHandled, hHolds⟩ := h
  refine ⟨a, s', ?_, hHolds⟩
  generalize hEq : (Except.error e : Except ε α) = r at hEnds
  induction hEnds with
  | done r s =>
    subst hEq
    rw [Co.guarded, if_pos hCaught]
    exact hHandled
  | turn _ ih => exact Ends.turn (ih hHandled hEq)
  | call hAnswer _ ih => exact Ends.call hAnswer (ih hHandled hEq)
  | mark _ ih => exact Ends.mark (ih hHandled hEq)

theorem Can.forEach {body : ι → Co σ ε κ Unit} {items : List ι} (J : List ι → σ → Prop)
    (h : ∀ done i rest, items = done ++ i :: rest → ∀ s, J done s →
      Can w (body i) (fun _ s' => J (done ++ [i]) s') s)
    (hStart : J [] s) : Can w (Co.forEach body items) (fun _ s' => J items s') s := by
  suffices hRun : ∀ rest done s, items = done ++ rest → J done s →
      Can w (Co.forEach body rest) (fun _ s' => J items s') s from hRun items [] s rfl hStart
  intro rest
  induction rest with
  | nil =>
    intro done s hSplit hJ
    rw [List.append_nil] at hSplit
    exact Can.pure (hSplit ▸ hJ)
  | cons i rest ih =>
    intro done s hSplit hJ
    refine (h done i rest hSplit s hJ).bind fun _ s' hJ' => ?_
    exact ih (done ++ [i]) s' (by rw [hSplit, List.append_assoc]; rfl) hJ'

theorem Can.mapList {body : ι → Co σ ε κ α} {items : List ι} (J : List ι → σ → Prop)
    (h : ∀ done i rest, items = done ++ i :: rest → ∀ s, J done s →
      Can w (body i) (fun _ s' => J (done ++ [i]) s') s)
    (hStart : J [] s) : Can w (Co.mapList body items) (fun _ s' => J items s') s := by
  suffices hRun : ∀ rest done s, items = done ++ rest → J done s →
      Can w (Co.mapList body rest) (fun _ s' => J items s') s from hRun items [] s rfl hStart
  intro rest
  induction rest with
  | nil =>
    intro done s hSplit hJ
    rw [List.append_nil] at hSplit
    exact Can.pure (hSplit ▸ hJ)
  | cons i rest ih =>
    intro done s hSplit hJ
    refine (h done i rest hSplit s hJ).bind fun a s' hJ' => ?_
    refine (ih (done ++ [i]) s' (by rw [hSplit, List.append_assoc]; rfl) hJ').bind ?_
    exact fun _ s'' hEnd => Can.pure (A := fun _ t => J items t) hEnd

end Can

end Co

end ZagrosNode.Lib
