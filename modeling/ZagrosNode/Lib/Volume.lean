import Mathlib.Data.List.Basic
import Mathlib.Logic.Function.Basic

/-!
# ZagrosNode — files, and programs that stop half way

A volume holds regular files by their places. A program changes it by a list of
effects, one for each unit of text it writes, so that whatever stops it, a call
that fails or the end of the process, leaves what a first part of the list has
done. Text written to a file directly is then there in part; text written
beside its place and moved there is not there at all or there as a whole.

An effect is the smallest change another process can see: a file is emptied, or opened
to be added to, a unit of text goes to its end, its mode is changed, or it is moved.
A call like `write_text` is a list of effects, one for each unit of text, after one
that empties the file. What a program has done when it stops is the result of some first part of
its effects, and `stopped` is the state after `n` of them.

So a property of every stopping point is a property of all prefixes of a list, and
lists of effects concatenate: the lemmas say what a prefix of an overwriting, of an
append and of a store by way of a part file leaves at a place.

Modes are kept, since a file that is made beside its place and moved there takes its
mode with it, and it may be the mode of a key.

Main results:

* `stopped_append` — a sequence stops in its first part or in its second.
* `stopped_of_not_touched` — a place no effect touches is as it was.
* `stopped_overwrite` — a file that is overwritten stops at any part of its text.
* `stopped_store`, `runAll_store` — a file that is moved into place is as it was
  until it is whole.
-/

namespace ZagrosNode.Lib

-- ---------------------------------------------------------------------------
-- Volumes
-- ---------------------------------------------------------------------------

/-- A regular file. -/
structure Regular (β : Type) where
  content : List β
  mode    : Nat
  deriving DecidableEq, Repr

/-- The regular files, by their places. -/
abbrev Volume (π β : Type) := π → Option (Regular β)

/-- What a program does to files. -/
inductive Effect (π β : Type)
  /-- `open(place, "w")` -/
  | truncate (place : π)
  /-- `open(place, "a")` -/
  | create (place : π)
  /-- one unit goes to the end of the file -/
  | write (place : π) (unit : β)
  | chmod (place : π) (mode : Nat)
  /-- `os.replace` -/
  | replace (source target : π)
  deriving DecidableEq, Repr

namespace Volume

/-- The mode of a file that was not there. -/
def newMode : Nat := 0o644

variable {π β : Type}

/-- The mode a file has once it is opened. -/
def modeAt (v : Volume π β) (place : π) : Nat := (v place).elim newMode Regular.mode

/-- The units go to the end of a file, one by one. -/
def writes (place : π) (text : List β) : List (Effect π β) := text.map (.write place)

/-- `path.write_text(text)` -/
def overwrite (place : π) (text : List β) : List (Effect π β) := .truncate place :: writes place text

/-- `with open(place, "a") as handle: handle.write(text)` -/
def appendTo (place : π) (text : List β) : List (Effect π β) := .create place :: writes place text

/-- A file is written beside its place, given its mode, and moved there. -/
def store (part place : π) (text : List β) (mode : Nat) : List (Effect π β) :=
  overwrite part text ++ [.chmod part mode, .replace part place]

end Volume

namespace Effect

open Volume

variable {π β : Type}

def run [DecidableEq π] (v : Volume π β) : Effect π β → Volume π β
  | truncate place        => Function.update v place (some ⟨[], modeAt v place⟩)
  | create place          => Function.update v place (some ((v place).getD ⟨[], newMode⟩))
  | write place unit      =>
    Function.update v place
      ((v place).map fun file => { file with content := file.content ++ [unit] })
  | chmod place mode      =>
    Function.update v place ((v place).map fun file => { file with mode := mode })
  | replace source target =>
    Function.update (Function.update v source none) target (v source)

/-- The effect may change what is at the place. -/
def Touches (place : π) : Effect π β → Prop
  | truncate p            => place = p
  | create p              => place = p
  | write p _             => place = p
  | chmod p _             => place = p
  | replace source target => place = source ∨ place = target

theorem run_of_not_touched [DecidableEq π] {e : Effect π β} {place : π} (h : ¬ e.Touches place)
    (v : Volume π β) : e.run v place = v place := by
  cases e with
  | truncate p => exact Function.update_of_ne h _ _
  | create p => exact Function.update_of_ne h _ _
  | write p unit => exact Function.update_of_ne h _ _
  | chmod p mode => exact Function.update_of_ne h _ _
  | replace source target =>
    have hSource : place ≠ source := fun hEq => h (Or.inl hEq)
    have hTarget : place ≠ target := fun hEq => h (Or.inr hEq)
    rw [run, Function.update_of_ne hTarget, Function.update_of_ne hSource]

theorem touches_writes {place p : π} {text : List β} {e : Effect π β} (he : e ∈ writes place text)
    (h : e.Touches p) : p = place := by
  obtain ⟨unit, -, rfl⟩ := List.mem_map.mp he
  exact h

theorem touches_overwrite {place p : π} {text : List β} {e : Effect π β}
    (he : e ∈ overwrite place text) (h : e.Touches p) : p = place := by
  rcases List.mem_cons.mp he with rfl | he
  · exact h
  · exact touches_writes he h

theorem touches_appendTo {place p : π} {text : List β} {e : Effect π β}
    (he : e ∈ appendTo place text) (h : e.Touches p) : p = place := by
  rcases List.mem_cons.mp he with rfl | he
  · exact h
  · exact touches_writes he h

end Effect

namespace Volume

section

variable {π β : Type} [DecidableEq π]

def runAll (v : Volume π β) (effects : List (Effect π β)) : Volume π β := effects.foldl Effect.run v

/-- The volume after a program stopped with `n` of its effects done. -/
def stopped (v : Volume π β) (effects : List (Effect π β)) (n : Nat) : Volume π β :=
  runAll v (effects.take n)

variable {v : Volume π β} {effects others : List (Effect π β)} {place : π}

theorem runAll_append : runAll v (effects ++ others) = runAll (runAll v effects) others :=
  List.foldl_append

theorem runAll_of_not_touched (h : ∀ e ∈ effects, ¬ e.Touches place) :
    runAll v effects place = v place := by
  induction effects generalizing v with
  | nil => rfl
  | cons e rest ih =>
    show runAll (e.run v) rest place = v place
    rw [ih fun e' he' => h e' (List.mem_cons_of_mem e he'),
      Effect.run_of_not_touched (h e List.mem_cons_self)]

theorem stopped_of_length_le {n : Nat} (h : effects.length ≤ n) :
    stopped v effects n = runAll v effects := by
  rw [stopped, List.take_of_length_le h]

/-- A place no effect touches is as it was, wherever the program stopped. -/
theorem stopped_of_not_touched (h : ∀ e ∈ effects, ¬ e.Touches place) (n : Nat) :
    stopped v effects n place = v place :=
  runAll_of_not_touched fun e he => h e (List.mem_of_mem_take he)

/-- A sequence stops in its first part, or in its second with the first done. -/
theorem stopped_append (n : Nat) :
    stopped v (effects ++ others) n =
      if n < effects.length then stopped v effects n
      else stopped (runAll v effects) others (n - effects.length) := by
  unfold stopped
  by_cases hFirst : n < effects.length
  · rw [if_pos hFirst, List.take_append_of_le_length (by omega)]
  · rw [if_neg hFirst, List.take_append, runAll_append, List.take_of_length_le (by omega)]

-- ---------------------------------------------------------------------------
-- Writing to a file
-- ---------------------------------------------------------------------------

theorem runAll_writes {file : Regular β} (h : v place = some file) (text : List β) :
    runAll v (writes place text) place =
      some { file with content := file.content ++ text } := by
  induction text generalizing v file with
  | nil => rw [List.append_nil]; exact h
  | cons unit rest ih =>
    have hFirst : (Effect.write place unit).run v place =
        some { file with content := file.content ++ [unit] } := by
      rw [Effect.run, Function.update_self, h]
      rfl
    show runAll ((Effect.write place unit).run v) (writes place rest) place = _
    rw [ih hFirst]
    simp

/-- A file that was overwritten holds the text. -/
theorem runAll_overwrite (text : List β) :
    runAll v (overwrite place text) place = some ⟨text, modeAt v place⟩ := by
  have hEmpty : (Effect.truncate place : Effect π β).run v place = some ⟨[], modeAt v place⟩ :=
    Function.update_self ..
  exact runAll_writes hEmpty text

/--
**Overwriting** stops before it began, or with any first part of the text in
the file: opening for writing empties it, and then the characters come one
after the other.
-/
theorem stopped_overwrite (text : List β) (n : Nat) :
    stopped v (overwrite place text) n =
      if n = 0 then v else runAll v (overwrite place (text.take (n - 1))) := by
  cases n with
  | zero => rfl
  | succ n =>
    rw [if_neg (Nat.succ_ne_zero n), stopped, overwrite, List.take_succ_cons, writes,
      ← List.map_take]
    rfl

-- ---------------------------------------------------------------------------
-- Moving a file into place
-- ---------------------------------------------------------------------------

variable {part : π} {text : List β} {mode : Nat}

/-- All of it has been stored, and no part is left. -/
theorem runAll_store (hPart : part ≠ place) (p : π) :
    runAll v (store part place text mode) p =
      if p = place then some ⟨text, mode⟩ else if p = part then none else v p := by
  have hWritten : runAll v (overwrite part text) part = some ⟨text, modeAt v part⟩ :=
    runAll_overwrite text
  have hRest : ∀ q, q ≠ part → runAll v (overwrite part text) q = v q := fun q hq =>
    runAll_of_not_touched fun e he hTouch => hq (Effect.touches_overwrite he hTouch)
  rw [store, runAll_append]
  show Effect.run (Effect.run _ (.chmod part mode)) (.replace part place) p = _
  by_cases hPlace : p = place
  · subst hPlace
    simp [Effect.run, hWritten]
  · by_cases hOther : p = part
    · subst hOther
      simp [Effect.run, hPart]
    · simp [Effect.run, hPlace, hOther, hRest p hOther]

/--
**Storing** changes nothing but the part until it is complete, since the last
effect of it is to move the part into place. A stop before that has written to
no file that is read.
-/
theorem stopped_store {n : Nat} (hn : n < (store part place text mode).length) {p : π}
    (hp : p ≠ part) : stopped v (store part place text mode) n p = v p := by
  have hSplit : store part place text mode =
      (overwrite part text ++ [.chmod part mode]) ++ [.replace part place] := by
    simp [store]
  rw [hSplit, stopped, List.take_append_of_le_length (by
    rw [hSplit, List.length_append, List.length_singleton] at hn
    omega)]
  refine stopped_of_not_touched (fun e he hTouch => ?_) n
  rcases List.mem_append.mp he with he | he
  · exact hp (Effect.touches_overwrite he hTouch)
  · obtain rfl := List.mem_singleton.mp he
    exact hp hTouch

end

end Volume

end ZagrosNode.Lib
