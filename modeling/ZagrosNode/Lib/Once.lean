import Mathlib.Data.List.Basic

/-!
# ZagrosNode — things used at most once

A log of outputs in which some entries *use* a thing (a token, a nonce with
its timestamp) and some entries *rearm* it. `Once` says that no thing is used
twice without a rearming in between; `Spent` says that a thing has been used
and not been rearmed since.

What is used is given by a relation between an entry and a thing, and so is what
rearms it. A use is recognised in the output, not in the request: a request that was
refused uses nothing. The two predicates are about logs alone, so they say the same
of every machine that writes such a log.

A log grows at its end, and the lemmas follow that: one for an entry that uses
something, one for an entry that rearms. An invariant that ties `Spent` to the state
of a machine then gives `Once` for its runs by a single induction.

Main results:

* `spent_snoc` — what the next entry does to the spent things.
* `once_snoc` — a log stays `Once` exactly when its next entry uses nothing
  that is spent.
-/

namespace ZagrosNode.Lib

variable {ο τ : Type*} (used : ο → Option τ) (rearms : ο → τ → Prop)

/-- `t` was used, and nothing has rearmed it since. -/
def Spent (log : List ο) (t : τ) : Prop :=
  ∃ before m after, log = before ++ m :: after ∧ used m = some t ∧ ∀ x ∈ after, ¬ rearms x t

/-- Between two uses of one thing something has rearmed it. -/
def Once (log : List ο) : Prop :=
  ∀ before m mid m' after t, log = before ++ m :: (mid ++ m' :: after) →
    used m = some t → used m' = some t → ∃ x ∈ mid, rearms x t

variable {used rearms}

theorem not_spent_nil (t : τ) : ¬ Spent used rearms [] t := by
  rintro ⟨before, m, after, hLog, -, -⟩
  exact absurd hLog (by simp)

theorem once_nil : Once used rearms [] := by
  intro before m mid m' after t hLog
  exact absurd hLog (by simp)

/-- An entry of a log that ends in `m` is that `m` or lies in the log before. -/
theorem split_snoc {log before after : List ο} {m u : ο}
    (h : log ++ [m] = before ++ u :: after) :
    (before = log ∧ u = m ∧ after = []) ∨
      ∃ front, after = front ++ [m] ∧ log = before ++ u :: front := by
  rcases List.eq_nil_or_concat' after with rfl | ⟨front, last, rfl⟩
  · obtain ⟨hLog, hLast⟩ := List.append_inj' h rfl
    exact Or.inl ⟨hLog.symm, (List.singleton_inj.mp hLast).symm, rfl⟩
  · have hSplit : log ++ [m] = (before ++ u :: front) ++ [last] := by simpa using h
    obtain ⟨hLog, hLast⟩ := List.append_inj' hSplit rfl
    rw [List.singleton_inj] at hLast
    exact Or.inr ⟨front, by rw [hLast], hLog⟩

theorem spent_snoc {log : List ο} {m : ο} {t : τ} :
    Spent used rearms (log ++ [m]) t ↔
      used m = some t ∨ (Spent used rearms log t ∧ ¬ rearms m t) := by
  constructor
  · rintro ⟨before, u, after, hLog, hUsed, hAfter⟩
    rcases split_snoc hLog with ⟨-, rfl, -⟩ | ⟨front, rfl, rfl⟩
    · exact Or.inl hUsed
    · refine Or.inr ⟨⟨before, u, front, rfl, hUsed, ?_⟩, hAfter m (by simp)⟩
      intro x hx
      exact hAfter x (List.mem_append_left _ hx)
  · rintro (hUsed | ⟨⟨before, u, after, rfl, hUsed, hAfter⟩, hKeep⟩)
    · exact ⟨log, m, [], rfl, hUsed, by simp⟩
    · refine ⟨before, u, after ++ [m], by simp, hUsed, ?_⟩
      intro x hx
      rcases List.mem_append.mp hx with hx | hx
      · exact hAfter x hx
      · rw [List.mem_singleton.mp hx]
        exact hKeep

theorem once_of_append {log more : List ο} (h : Once used rearms (log ++ more)) :
    Once used rearms log := by
  intro before m mid m' after t hLog
  exact h before m mid m' (after ++ more) t (by simp [hLog])

/--
**Step law.** The next entry keeps a log `Once` exactly when the thing it uses,
if any, is not spent: used by an earlier entry, with none behind that entry
that arms it again.
-/
theorem once_snoc {log : List ο} {m : ο} :
    Once used rearms (log ++ [m]) ↔
      Once used rearms log ∧ ∀ t, used m = some t → ¬ Spent used rearms log t := by
  constructor
  · intro h
    refine ⟨once_of_append h, ?_⟩
    rintro t hUsed ⟨before, u, after, rfl, hFirst, hAfter⟩
    obtain ⟨x, hx, hRearm⟩ := h before u after m [] t (by simp) hFirst hUsed
    exact hAfter x hx hRearm
  · rintro ⟨hOnce, hFresh⟩ before u mid u' after t hLog hFirst hSecond
    have hSplit : log ++ [m] = (before ++ u :: mid) ++ u' :: after := by simpa using hLog
    rcases split_snoc hSplit with ⟨rfl, rfl, -⟩ | ⟨front, -, hOld⟩
    · by_contra hNone
      push Not at hNone
      exact hFresh t hSecond ⟨before, u, mid, rfl, hFirst, hNone⟩
    · exact hOnce before u mid u' front t (by simpa using hOld) hFirst hSecond

end ZagrosNode.Lib
