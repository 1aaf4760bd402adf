import Mathlib.Logic.Function.Basic
import ZagrosNode.Lib.Machine

/-!
# ZagrosNode — read, then replace

Processes share one file. An operation reads the file as a whole; it may then
replace it as a whole, with what it has made of what it read. Between the two
other processes may have their turn.

Reading and replacing are two turns, and what is replaced was made of what was read:
`Act` says what an operation makes of a content, or that it leaves it, and what it
answers. A `Site` has the file and the operations in flight. `interleaved` is any
order of turns.

The classical argument is carried out for one file: look at the moments at which a
file is replaced. If the file then is the one that was read, nobody came between, so
the operation could as well have done both at once at that moment. The order of the
replacements is the order of the serial run. Operations that only read are put where
they read, for which `Current` asks nothing.

Main results:

* `serial_of_current` — in a run in which every replaced file is still the one
  that was read, the operations that have come to an end have done what they do
  one after the other.
-/

namespace ZagrosNode.Lib.Replace

variable {σ ω ο ι : Type*}

-- ---------------------------------------------------------------------------
-- Processes
-- ---------------------------------------------------------------------------

/-- An operation that has read the file and is about to replace it. -/
structure Pending (σ ω ο : Type*) where
  op      : ω
  seen    : σ
  result  : ο
  content : σ

/-- A process: what it is about to do, and what it is in the middle of. -/
structure Process (σ ω ο : Type*) where
  todo    : List ω
  pending : Option (Pending σ ω ο)

structure Site (σ ω ο ι : Type*) where
  file    : σ
  process : ι → Process σ ω ο

/-- What an operation makes of the file it reads: its result, and what it
replaces the file by, if it does. -/
abbrev Act (σ ω ο : Type*) := ω → σ → ο × Option σ

/-- The operations one after the other. -/
def serial (act : Act σ ω ο) : Machine σ ω ο where
  step file op := ((act op file).2.getD file, (act op file).1)

variable [DecidableEq ι]

/-- One turn of a process: it reads, or it replaces the file. An operation comes
to an end when it replaces the file, or when it has read and writes nothing. -/
def Site.turn (act : Act σ ω ο) (s : Site σ ω ο ι) (i : ι) : Site σ ω ο ι × Option (ω × ο) :=
  match (s.process i).pending with
  | some w =>
    (⟨w.content, Function.update s.process i { s.process i with pending := none }⟩,
      some (w.op, w.result))
  | none   =>
    match (s.process i).todo with
    | []         => (s, none)
    | op :: rest =>
      match act op s.file with
      | (result, none)         =>
        (⟨s.file, Function.update s.process i ⟨rest, none⟩⟩, some (op, result))
      | (result, some content) =>
        (⟨s.file, Function.update s.process i ⟨rest, some ⟨op, s.file, result, content⟩⟩⟩, none)

/-- The processes, turn by turn. -/
def interleaved (act : Act σ ω ο) : Machine (Site σ ω ο ι) ι (Option (ω × ο)) where
  step := Site.turn act

/-- The operations that have come to an end in a run, with their results. -/
def completed (act : Act σ ω ο) (s : Site σ ω ο ι) (turns : List ι) : List (ω × ο) :=
  ((interleaved act).log s turns).filterMap id

/-- The process replaces no file, or one that is as it has read it. -/
def Current (s : Site σ ω ο ι) (i : ι) : Prop :=
  ∀ w, (s.process i).pending = some w → w.seen = s.file

/-- What is about to be written is made of what was read. -/
def Made (act : Act σ ω ο) (s : Site σ ω ο ι) : Prop :=
  ∀ i w, (s.process i).pending = some w → act w.op w.seen = (w.result, some w.content)

-- ---------------------------------------------------------------------------
-- Turns
-- ---------------------------------------------------------------------------

section Turns

variable {act : Act σ ω ο} {s : Site σ ω ο ι} {i : ι}

variable (act s i) in
/-- What a turn can be. -/
theorem turn_cases :
    (∃ w, (s.process i).pending = some w ∧ s.turn act i =
      (⟨w.content, Function.update s.process i { s.process i with pending := none }⟩,
        some (w.op, w.result))) ∨
    ((s.process i).pending = none ∧ s.turn act i = (s, none)) ∨
    (∃ op rest result, (s.process i).pending = none ∧ act op s.file = (result, none) ∧
      s.turn act i = (⟨s.file, Function.update s.process i ⟨rest, none⟩⟩, some (op, result))) ∨
    (∃ op rest result content, act op s.file = (result, some content) ∧ s.turn act i =
      (⟨s.file, Function.update s.process i ⟨rest, some ⟨op, s.file, result, content⟩⟩⟩, none)) := by
  unfold Site.turn
  cases hPending : (s.process i).pending with
  | some w => exact Or.inl ⟨w, rfl, rfl⟩
  | none =>
    cases hTodo : (s.process i).todo with
    | nil => exact Or.inr (Or.inl ⟨rfl, rfl⟩)
    | cons op rest =>
      cases hAct : act op s.file with
      | mk result content =>
        cases content with
        | none => exact Or.inr (Or.inr (Or.inl ⟨op, rest, result, rfl, hAct, by simp only [hAct]⟩))
        | some content =>
          exact Or.inr (Or.inr (Or.inr ⟨op, rest, result, content, hAct, by simp only [hAct]⟩))

theorem made_update {file : σ} {p : Process σ ω ο} (h : Made act s)
    (hOwn : ∀ w, p.pending = some w → act w.op w.seen = (w.result, some w.content)) :
    Made act ⟨file, Function.update s.process i p⟩ := by
  intro j w hPending
  dsimp only at hPending
  by_cases hSame : j = i
  · subst hSame
    rw [Function.update_self] at hPending
    exact hOwn w hPending
  · rw [Function.update_of_ne hSame] at hPending
    exact h j w hPending

theorem made_next (h : Made act s) : Made act ((interleaved act).next s i) := by
  show Made act (s.turn act i).1
  rcases turn_cases act s i with
    ⟨w, -, hTurn⟩ | ⟨-, hTurn⟩ | ⟨op, rest, result, -, -, hTurn⟩ |
      ⟨op, rest, result, content, hAct, hTurn⟩
  · rw [hTurn]
    exact made_update h fun _ hNone => by cases hNone
  · rw [hTurn]
    exact h
  · rw [hTurn]
    exact made_update h fun _ hNone => by cases hNone
  · rw [hTurn]
    refine made_update h fun w hSome => ?_
    obtain rfl := Option.some.inj hSome
    exact hAct

omit [DecidableEq ι] in
theorem current_of_idle (h : (s.process i).pending = none) : Current s i := by
  intro w hPending
  rw [h] at hPending
  cases hPending

/-- An operation whose replacement follows its read at once is current. -/
theorem current_after_read (h : (s.process i).pending = none) :
    Current ((interleaved act).next s i) i := by
  show Current (s.turn act i).1 i
  rcases turn_cases act s i with
    ⟨w, hPending, -⟩ | ⟨-, hTurn⟩ | ⟨op, rest, result, -, -, hTurn⟩ |
      ⟨op, rest, result, content, -, hTurn⟩
  · rw [h] at hPending
    cases hPending
  · rw [hTurn]
    exact current_of_idle h
  · rw [hTurn]
    refine current_of_idle ?_
    dsimp only
    rw [Function.update_self]
  · rw [hTurn]
    intro w hPending
    dsimp only at hPending
    rw [Function.update_self] at hPending
    rw [← Option.some.inj hPending]

/--
**A turn** that is current is a step of the serial machine, or leaves the file
alone and ends nothing. Current means that the file it replaces is still the
one it was made from.
-/
theorem turn_serial (hMade : Made act s) (hCurrent : Current s i) :
    ((s.turn act i).2 = none ∧ (s.turn act i).1.file = s.file) ∨
      ∃ op result, (s.turn act i).2 = some (op, result) ∧
        (serial act).step s.file op = ((s.turn act i).1.file, result) := by
  rcases turn_cases act s i with
    ⟨w, hPending, hTurn⟩ | ⟨-, hTurn⟩ | ⟨op, rest, result, -, hAct, hTurn⟩ |
      ⟨op, rest, result, content, -, hTurn⟩
  · have hAct := hMade i w hPending
    rw [hCurrent w hPending] at hAct
    refine Or.inr ⟨w.op, w.result, by rw [hTurn], ?_⟩
    show ((act w.op s.file).2.getD s.file, (act w.op s.file).1) = _
    rw [hAct, hTurn]
    rfl
  · exact Or.inl ⟨by rw [hTurn], by rw [hTurn]⟩
  · refine Or.inr ⟨op, result, by rw [hTurn], ?_⟩
    show ((act op s.file).2.getD s.file, (act op s.file).1) = _
    rw [hAct, hTurn]
    rfl
  · exact Or.inl ⟨by rw [hTurn], by rw [hTurn]⟩

end Turns

-- ---------------------------------------------------------------------------
-- Runs
-- ---------------------------------------------------------------------------

/--
**A run whose replaced files are current** has the file and the results of its
operations one after the other, in the order in which they ended.
-/
theorem serial_of_current {act : Act σ ω ο} {s : Site σ ω ο ι} {turns : List ι}
    {log : List (Option (ω × ο))} (hMade : Made act s)
    (hCurrent : (interleaved act).Along (fun _ => Current) log s turns) :
    ((interleaved act).exec s turns).file =
        (serial act).exec s.file ((completed act s turns).map Prod.fst) ∧
      (completed act s turns).map Prod.snd =
        (serial act).log s.file ((completed act s turns).map Prod.fst) := by
  -- on the turns; the site after a turn is one that was made by turns as well
  induction turns generalizing s log with
  | nil => exact ⟨rfl, rfl⟩
  | cons i rest ih =>
    obtain ⟨hFirst, hRest⟩ := hCurrent
    obtain ⟨hFile, hResults⟩ := ih (made_next hMade) hRest
    have hNext : (interleaved act).next s i = (s.turn act i).1 := rfl
    rw [hNext] at hFile hResults
    have hLog : completed act s (i :: rest) =
        (s.turn act i).2.toList ++ completed act (s.turn act i).1 rest := by
      show List.filterMap id ((s.turn act i).2 :: (interleaved act).log (s.turn act i).1 rest) = _
      cases hOut : (s.turn act i).2 with
      | none => rfl
      | some ended => rfl
    rw [hLog, Machine.exec_cons, hNext]
    -- a turn ends no operation, or one that acts on the file as it then is
    rcases turn_serial hMade hFirst with ⟨hOut, hSame⟩ | ⟨op, result, hOut, hStep⟩
    · rw [hOut, Option.toList_none, List.nil_append, hFile, hSame]
      rw [hSame] at hResults
      exact ⟨rfl, hResults⟩
    · have hSerial : (serial act).next s.file op = (s.turn act i).1.file := congrArg Prod.fst hStep
      have hResult : (serial act).out s.file op = result := congrArg Prod.snd hStep
      rw [hOut, Option.toList_some, List.singleton_append, List.map_cons, List.map_cons,
        Machine.exec_cons, Machine.log_cons, hSerial, hResult]
      exact ⟨hFile, congrArg (result :: ·) hResults⟩

end ZagrosNode.Lib.Replace
