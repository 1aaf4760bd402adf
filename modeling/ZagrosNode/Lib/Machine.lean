import Mathlib.Data.List.Basic

/-!
# ZagrosNode — machines, runs and logs

A `Machine` consumes one event at a time and answers each event with an
output. A *run* is a start state and a list of events; its *log* is the list
of outputs. The properties proved of the agent are properties of every run,
and the conditions under which they hold are conditions on each step of the
run, taken at the state and the log before that step.

`next` and `out` are the two halves of the step, `exec` and `log` those of a run, and
`Along` is a condition on every step of a run, given the log so far and the state.
A condition that is the code's doing is written as the step function; one on the
surroundings, on the caller or on the clock is such an `Along`.

* **Invariants** — `along_inv` is the induction over a run. Everything that is said
  of a reachable state comes from it.
* **Exact conditions** — where a property may fail, `always_iff_along` turns an
  equivalence for one step into one for every run: as long as the property holds,
  the next step keeps it exactly if it is admitted, so it holds throughout exactly if
  all steps are.
* **Refinement** — `log_eq_of_simulation`: two machines in step with one another
  answer alike.

The splitting of a run (`exec_append`, `along_append`) is what a statement about
“before” and “after” needs.

Main results:

* `Machine.along_inv` — an invariant of state and log that every admitted
  step keeps holds at the end of every run whose steps are admitted.
* `Machine.always_iff_along` — a state predicate that a step keeps exactly
  when the step is admitted holds throughout a run exactly when all steps of
  the run are admitted; `Machine.along_iff_along` is the same for a property
  of steps, over an invariant that good steps keep.
-/

namespace ZagrosNode.Lib

/-- A deterministic machine with states `σ`, events `ε` and outputs `ο`. -/
structure Machine (σ ε ο : Type*) where
  step : σ → ε → σ × ο

namespace Machine

variable {σ ε ο : Type*} (M : Machine σ ε ο)

def next (s : σ) (e : ε) : σ := (M.step s e).1

def out (s : σ) (e : ε) : ο := (M.step s e).2

/-- The state after a run. -/
def exec : σ → List ε → σ
  | s, []      => s
  | s, e :: es => exec (M.next s e) es

/-- The outputs of a run, oldest first. -/
def log : σ → List ε → List ο
  | _, []      => []
  | s, e :: es => M.out s e :: log (M.next s e) es

/-- Every step of the run satisfies `ok`, which sees the log so far, the
state before the step and the event. -/
def Along (ok : List ο → σ → ε → Prop) : List ο → σ → List ε → Prop
  | _, _, []      => True
  | h, s, e :: es => ok h s e ∧ Along ok (h ++ [M.out s e]) (M.next s e) es

/-- The state predicate holds in every state of the run, the first included. -/
def Always (P : σ → Prop) (s : σ) (es : List ε) : Prop :=
  ∀ pre post : List ε, es = pre ++ post → P (M.exec s pre)

-- ---------------------------------------------------------------------------
-- Structure of runs
-- ---------------------------------------------------------------------------

@[simp] theorem exec_nil (s : σ) : M.exec s [] = s := rfl

@[simp] theorem exec_cons (s : σ) (e : ε) (es : List ε) :
    M.exec s (e :: es) = M.exec (M.next s e) es := rfl

@[simp] theorem log_nil (s : σ) : M.log s [] = [] := rfl

@[simp] theorem log_cons (s : σ) (e : ε) (es : List ε) :
    M.log s (e :: es) = M.out s e :: M.log (M.next s e) es := rfl

theorem exec_append (s : σ) (es fs : List ε) :
    M.exec s (es ++ fs) = M.exec (M.exec s es) fs := by
  induction es generalizing s with
  | nil => rfl
  | cons e es ih => exact ih (M.next s e)

theorem log_append (s : σ) (es fs : List ε) :
    M.log s (es ++ fs) = M.log s es ++ M.log (M.exec s es) fs := by
  induction es generalizing s with
  | nil => rfl
  | cons e es ih =>
    simp only [List.cons_append, log_cons, exec_cons]
    rw [ih (M.next s e)]

theorem length_log (s : σ) (es : List ε) : (M.log s es).length = es.length := by
  induction es generalizing s with
  | nil => rfl
  | cons e es ih => exact congrArg (· + 1) (ih (M.next s e))

theorem along_append (ok : List ο → σ → ε → Prop) (h : List ο) (s : σ) (es fs : List ε) :
    M.Along ok h s (es ++ fs) ↔
      M.Along ok h s es ∧ M.Along ok (h ++ M.log s es) (M.exec s es) fs := by
  induction es generalizing h s with
  | nil => simp [Along]
  | cons e es ih =>
    simp only [List.cons_append, Along, log_cons, exec_cons]
    rw [ih, and_assoc, List.append_assoc, List.singleton_append]

/-- A run is admitted exactly when each of its steps is, at the log and state
its prefix reaches. -/
theorem along_iff (ok : List ο → σ → ε → Prop) (h : List ο) (s : σ) (es : List ε) :
    M.Along ok h s es ↔
      ∀ pre e post, es = pre ++ e :: post → ok (h ++ M.log s pre) (M.exec s pre) e := by
  constructor
  · rintro hAlong pre e post rfl
    exact ((M.along_append ok h s pre (e :: post)).mp hAlong).2.1
  · intro hAll
    induction es generalizing h s with
    | nil => trivial
    | cons e es ih =>
      refine ⟨by simpa using hAll [] e es rfl, ih _ _ ?_⟩
      intro pre e' post hEq
      have hOk := hAll (e :: pre) e' post (by rw [hEq, List.cons_append])
      rwa [List.append_assoc, List.singleton_append]

-- ---------------------------------------------------------------------------
-- Invariants
-- ---------------------------------------------------------------------------

/--
**Run rule.** An invariant of log and state that holds at the start and is kept
by every admitted step holds after a run of admitted steps. The condition `ok`
is taken at the log and the state that each step meets.
-/
theorem along_inv {ok : List ο → σ → ε → Prop} (Inv : List ο → σ → Prop)
    (hStep : ∀ h s e, Inv h s → ok h s e → Inv (h ++ [M.out s e]) (M.next s e))
    {h : List ο} {s : σ} {es : List ε} (h0 : Inv h s) (hAlong : M.Along ok h s es) :
    Inv (h ++ M.log s es) (M.exec s es) := by
  induction es generalizing h s with
  | nil => simpa using h0
  | cons e es ih =>
    obtain ⟨hOk, hRest⟩ := hAlong
    have hNext := ih (hStep h s e h0 hOk) hRest
    rwa [List.append_assoc, List.singleton_append] at hNext

/-- The run rule for a predicate of the state alone that every step keeps. -/
theorem exec_inv {P : σ → Prop} (hStep : ∀ s e, P s → P (M.next s e))
    {s : σ} (h0 : P s) (es : List ε) : P (M.exec s es) := by
  induction es generalizing s with
  | nil => exact h0
  | cons e es ih => exact ih (hStep s e h0)

theorem always_cons (P : σ → Prop) (s : σ) (e : ε) (es : List ε) :
    M.Always P s (e :: es) ↔ P s ∧ M.Always P (M.next s e) es := by
  constructor
  · intro h
    refine ⟨h [] (e :: es) rfl, ?_⟩
    intro pre post hEq
    exact h (e :: pre) post (by rw [hEq, List.cons_append])
  · rintro ⟨hs, hRest⟩ pre post hEq
    cases pre with
    | nil => exact hs
    | cons e' pre =>
      obtain ⟨rfl, hTail⟩ := List.cons.inj hEq
      exact hRest pre post hTail

theorem always_start {P : σ → Prop} {s : σ} {es : List ε} (h : M.Always P s es) : P s :=
  h [] es rfl

/-- **Exact conditions for runs.** When a step from a good state reaches a
good state exactly if the step is admitted, a run from a good state stays
good throughout exactly if all of its steps are admitted. -/
theorem always_iff_along {P : σ → Prop} {ok : σ → ε → Prop}
    (hStep : ∀ s e, P s → (P (M.next s e) ↔ ok s e)) {s : σ} (h0 : P s)
    (h : List ο) (es : List ε) :
    M.Always P s es ↔ M.Along (fun _ => ok) h s es := by
  induction es generalizing s h with
  | nil =>
    refine ⟨fun _ => trivial, fun _ pre post hEq => ?_⟩
    obtain ⟨rfl, -⟩ := List.append_eq_nil_iff.mp hEq.symm
    exact h0
  | cons e es ih =>
    rw [always_cons, Along]
    constructor
    · rintro ⟨-, hRest⟩
      have hNext : P (M.next s e) := M.always_start hRest
      exact ⟨(hStep s e h0).mp hNext, (ih hNext _).mp hRest⟩
    · rintro ⟨hOk, hRest⟩
      have hNext : P (M.next s e) := (hStep s e h0).mpr hOk
      exact ⟨h0, (ih hNext _).mpr hRest⟩

/-- The same with an invariant that every step keeps. -/
theorem always_iff_along_inv (Inv : σ → Prop) {P : σ → Prop} {ok : σ → ε → Prop}
    (hInv : ∀ s e, Inv s → Inv (M.next s e))
    (hStep : ∀ s e, Inv s → P s → (P (M.next s e) ↔ ok s e)) {s : σ} (hInv0 : Inv s) (h0 : P s)
    (h : List ο) (es : List ε) :
    M.Always P s es ↔ M.Along (fun _ => ok) h s es := by
  have hBothStep : ∀ s e, Inv s ∧ P s → ((Inv (M.next s e) ∧ P (M.next s e)) ↔ ok s e) := by
    intro s e hs
    rw [← hStep s e hs.1 hs.2]
    exact and_iff_right (hInv s e hs.1)
  rw [← M.always_iff_along (P := fun s => Inv s ∧ P s) hBothStep ⟨hInv0, h0⟩ h es]
  constructor
  · intro hAlways pre post hEq
    exact ⟨M.exec_inv hInv hInv0 pre, hAlways pre post hEq⟩
  · exact fun hAlways pre post hEq => (hAlways pre post hEq).2

/-- Where a step from a state with the invariant is good exactly if it is
admitted, and a good step keeps the invariant, a run from such a state has
only good steps exactly if it has only admitted ones. The steps considered
are those with an accepted output. -/
theorem along_iff_along (Inv : σ → Prop) {accepted : ο → Prop} {good ok : σ → ε → Prop}
    (hStep : ∀ s e, Inv s → accepted (M.out s e) → (good s e ↔ ok s e))
    (hKeep : ∀ s e, Inv s → good s e → Inv (M.next s e))
    {s : σ} (h0 : Inv s) {es : List ε} (hAccepted : ∀ o ∈ M.log s es, accepted o) (h : List ο) :
    M.Along (fun _ => good) h s es ↔ M.Along (fun _ => ok) h s es := by
  induction es generalizing s h with
  | nil => exact Iff.rfl
  | cons e es ih =>
    have hFirst := hStep s e h0 (hAccepted _ (by simp))
    have hRest : ∀ o ∈ M.log (M.next s e) es, accepted o :=
      fun o ho => hAccepted o (by simp [ho])
    constructor
    · intro hGood
      have hNext := hKeep s e h0 hGood.1
      exact ⟨hFirst.mp hGood.1, (ih hNext hRest _).mp hGood.2⟩
    · intro hOk
      have hNext := hKeep s e h0 (hFirst.mpr hOk.1)
      exact ⟨hFirst.mpr hOk.1, (ih hNext hRest _).mpr hOk.2⟩

/--
**Simulation.** A relation between the states of two machines that every step
keeps, with equal outputs, makes them answer every run alike, and still stands
between the states they end in.
-/
theorem log_eq_of_simulation {τ : Type*} {M : Machine σ ε ο} {N : Machine τ ε ο}
    {R : σ → τ → Prop}
    (hStep : ∀ s t e, R s t → M.out s e = N.out t e ∧ R (M.next s e) (N.next t e))
    {s : σ} {t : τ} (h0 : R s t) (es : List ε) :
    M.log s es = N.log t es ∧ R (M.exec s es) (N.exec t es) := by
  induction es generalizing s t with
  | nil => exact ⟨rfl, h0⟩
  | cons e es ih =>
    obtain ⟨hOut, hNext⟩ := hStep s t e h0
    obtain ⟨hLog, hExec⟩ := ih hNext
    exact ⟨by rw [log_cons, log_cons, hOut, hLog], hExec⟩

end Machine

end ZagrosNode.Lib
