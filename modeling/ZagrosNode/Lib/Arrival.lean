import ZagrosNode.Lib.Dict
import Mathlib.Data.List.Dedup

/-!
# ZagrosNode — order of arrival

A dictionary built from a list of pairs keeps each key where it came first
and the value that came last; a table of positions built the same way keeps
the position that came last. A stable sort by such positions has one result.

Two orders meet here. A dictionary lists its keys in the order in which they
first came, and a loop that records `order[x] = i` leaves for every `x` the
index at which it came last. Code that sorts by such a table relies on both: on
every element having a position, and on the sort being stable.

The table is `positions`, the dictionary made of the pairs of an element and its
index, so a lookup in it finds the last one. `ranked` compares two elements by a
rank, of which nothing is asked; elements of one rank are left in the order they
had by a stable sort.

The proofs go by the list from its end: putting one element behind a list
changes the position of that element and of no other (`get?_positions_append`),
so positions increase along the list without its earlier repetitions. A stable
sort by an injective rank is then the one permutation in which the ranks
increase, which is what `mergeSort_eq` says.

Main results:

* `keys_ofPairs`, `get?_ofPairs` — the keys in order of first arrival, each
  with its last value.
* `position_lt` — the last positions increase along the list without its
  earlier repetitions.
* `mergeSort_eq` — what a stable sort of distinct elements is.
-/

namespace ZagrosNode.Lib

-- ---------------------------------------------------------------------------
-- Pairs of a list
-- ---------------------------------------------------------------------------

section Pairs

variable {α : Type*} {a b : α} {l : List α}

theorem mem_of_pair_sublist (h : List.Sublist [a, b] l) : a ∈ l ∧ b ∈ l :=
  ⟨h.subset (by simp), h.subset (by simp)⟩

theorem pair_sublist_or (ha : a ∈ l) (hb : b ∈ l) (hNe : a ≠ b) :
    List.Sublist [a, b] l ∨ List.Sublist [b, a] l := by
  induction l with
  | nil => cases ha
  | cons x rest ih =>
    rcases List.mem_cons.mp ha with rfl | ha
    · have hRest : b ∈ rest := (List.mem_cons.mp hb).resolve_left (Ne.symm hNe)
      exact Or.inl (List.cons_sublist_cons.mpr (List.singleton_sublist.mpr hRest))
    rcases List.mem_cons.mp hb with hEq | hb
    · rw [hEq]
      exact Or.inr (List.cons_sublist_cons.mpr (List.singleton_sublist.mpr ha))
    · exact (ih ha hb).imp (fun h => h.cons x) (fun h => h.cons x)

/-- Two elements of a list without repetitions stand in one order only. -/
theorem not_pair_sublist_swap (hNodup : l.Nodup) (h : List.Sublist [a, b] l) :
    ¬ List.Sublist [b, a] l := by
  induction l with
  | nil => simp at h
  | cons x rest ih =>
    rw [List.nodup_cons] at hNodup
    intro hSwap
    rcases List.sublist_cons_iff.mp h with hRest | ⟨r, hr, hRest⟩
    · rcases List.sublist_cons_iff.mp hSwap with hRest' | ⟨r', hr', -⟩
      · exact ih hNodup.2 hRest hRest'
      · have hb : b = x := by
          simp only [List.cons.injEq] at hr'
          exact hr'.1
        exact hNodup.1 (hb ▸ (mem_of_pair_sublist hRest).2)
    · obtain ⟨rfl, rfl⟩ : a = x ∧ r = [b] := by
        simp only [List.cons.injEq] at hr
        exact ⟨hr.1, hr.2.symm⟩
      have hb : b ∈ rest := List.singleton_sublist.mp hRest
      rcases List.sublist_cons_iff.mp hSwap with hRest' | ⟨r', hr', -⟩
      · exact hNodup.1 (mem_of_pair_sublist hRest').2
      · have hb' : b = a := by
          simp only [List.cons.injEq] at hr'
          exact hr'.1
        exact hNodup.1 (hb' ▸ hb)

end Pairs

-- ---------------------------------------------------------------------------
-- Sorting by a number
-- ---------------------------------------------------------------------------

section Sorting

variable {α : Type*} (f : α → Nat) {l r : List α}

/-- `a` is not to stand behind `b`. -/
def ranked (a b : α) : Bool := decide (f a ≤ f b)

theorem ranked_trans (a b c : α) (hab : ranked f a b = true) (hbc : ranked f b c = true) :
    ranked f a c = true := by
  simp only [ranked, decide_eq_true_eq] at hab hbc ⊢
  omega

theorem ranked_total (a b : α) : (ranked f a b || ranked f b a) = true := by
  simp only [ranked, Bool.or_eq_true, decide_eq_true_eq]
  omega

theorem pairwise_ranked (l : List α) :
    (l.mergeSort (ranked f)).Pairwise fun a b => f a ≤ f b := by
  refine (List.pairwise_mergeSort (ranked_trans f) (ranked_total f) l).imp ?_
  intro a b h
  exact of_decide_eq_true h

/-- A list in the order of the numbers is left as it is. -/
theorem mergeSort_sorted (h : l.Pairwise fun a b => f a ≤ f b) : l.mergeSort (ranked f) = l :=
  List.mergeSort_of_pairwise (h.imp fun hab => decide_eq_true hab)

/--
**A stable sort of distinct elements.** It is the one rearrangement that stands
in the order of the numbers and, among equals, in the order of before. So to
know what a sort gives it is enough to have a list with these two properties.
-/
theorem mergeSort_eq (hNodup : l.Nodup) (hPerm : r.Perm l)
    (hOrder : r.Pairwise fun a b => f a < f b ∨ f a = f b ∧ List.Sublist [a, b] l) :
    l.mergeSort (ranked f) = r := by
  have hSortPerm := List.mergeSort_perm l (ranked f)
  have hSortNodup : (l.mergeSort (ranked f)).Nodup := hSortPerm.nodup_iff.mpr hNodup
  refine List.Perm.eq_of_pairwise ?_ ?_ hOrder (hSortPerm.trans hPerm.symm)
  · rintro a b - - (hab | ⟨hab, hSub⟩) (hba | ⟨hba, hSub'⟩)
    · omega
    · omega
    · omega
    · exact absurd hSub' (not_pair_sublist_swap hNodup hSub)
  · rw [List.pairwise_iff_forall_sublist]
    intro a b hPair
    have hLe : f a ≤ f b := List.pairwise_iff_forall_sublist.mp (pairwise_ranked f l) hPair
    by_cases hEq : f a = f b
    · refine Or.inr ⟨hEq, ?_⟩
      have hNe : a ≠ b := by
        have hPairNodup := hPair.nodup hSortNodup
        simpa using hPairNodup
      obtain ⟨ha, hb⟩ := mem_of_pair_sublist hPair
      rcases pair_sublist_or (hSortPerm.mem_iff.mp ha) (hSortPerm.mem_iff.mp hb) hNe with h | h
      · exact h
      -- the sort keeps equals in order, so they did not stand the other way round
      · have hBack : ranked f b a = true := decide_eq_true (Nat.le_of_eq hEq.symm)
        have hSwap := List.pair_sublist_mergeSort (ranked_trans f) (ranked_total f) hBack h
        exact absurd hSwap (not_pair_sublist_swap hSortNodup hPair)
    · exact Or.inl (by omega)

end Sorting

-- ---------------------------------------------------------------------------
-- First arrivals and last values
-- ---------------------------------------------------------------------------

section Dictionaries

variable {κ ν : Type*} [DecidableEq κ]

theorem assocGet?_append (k : κ) (l r : List (κ × ν)) :
    assocGet? k (l ++ r) = (assocGet? k l).or (assocGet? k r) := by
  induction l with
  | nil => rfl
  | cons e rest ih =>
    by_cases hk : e.1 = k
    · simp [assocGet?, hk]
    · simp [assocGet?, hk, ih]

namespace Dict

theorem keys_set (d : Dict κ ν) (k : κ) (v : ν) :
    (d.set k v).keys = if k ∈ d.keys then d.keys else d.keys ++ [k] :=
  assocSet_keys k v d.entries

theorem keys_setAll (d : Dict κ ν) (pairs : List (κ × ν)) :
    (d.setAll pairs).keys =
      d.keys ++ ((pairs.map Prod.fst).filter fun k => decide (k ∉ d.keys)).eraseDups := by
  induction pairs generalizing d with
  | nil => simp [setAll]
  | cons e rest ih =>
    rw [setAll, List.foldl_cons, ← setAll, ih, keys_set]
    by_cases hMem : e.1 ∈ d.keys
    · simp [hMem]
    · rw [if_neg hMem, List.map_cons, List.filter_cons_of_pos (by simpa using hMem),
        List.eraseDups_cons, List.filter_filter, List.append_assoc, List.singleton_append]
      congr 3
      apply List.filter_congr
      intro k _
      by_cases hk : k = e.1 <;> simp [hk]

/-- The keys stand in the order in which they came first. -/
theorem keys_ofPairs (pairs : List (κ × ν)) :
    (ofPairs pairs).keys = (pairs.map Prod.fst).eraseDups := by
  rw [ofPairs, keys_setAll]
  simp

theorem get?_setAll (d : Dict κ ν) (k : κ) (pairs : List (κ × ν)) :
    (d.setAll pairs).get? k = (assocGet? k pairs.reverse).or (d.get? k) := by
  induction pairs generalizing d with
  | nil => rfl
  | cons e rest ih =>
    rw [setAll, List.foldl_cons, ← setAll, ih, get?_set, List.reverse_cons, assocGet?_append,
      Option.or_assoc]
    by_cases hk : e.1 = k
    · simp [assocGet?, hk]
    · simp [assocGet?, hk]

/-- The value of a key is the one that came last. -/
theorem get?_ofPairs (k : κ) (pairs : List (κ × ν)) :
    (ofPairs pairs).get? k = assocGet? k pairs.reverse := by
  rw [ofPairs, get?_setAll, get?_empty, Option.or_none]

/-- The value of every key, in the order of the keys. -/
theorem values_eq (d : Dict κ ν) : d.values.map some = d.keys.map d.get? := by
  rw [values, keys, List.map_map, List.map_map]
  apply List.map_congr_left
  rintro ⟨k, v⟩ hMem
  exact (mem_entries_iff.mp hMem).symm

end Dict

end Dictionaries

-- ---------------------------------------------------------------------------
-- The last position of each element
-- ---------------------------------------------------------------------------

section Positions

variable {κ : Type*} [DecidableEq κ]

/-- The last position of each element of a list whose first one is at `n`. -/
def positions (ks : List κ) (n : Nat) : Dict κ Nat := Dict.ofPairs (ks.zipIdx n)

theorem get?_positions_cons (k a : κ) (ks : List κ) (n : Nat) :
    (positions (k :: ks) n).get? a =
      ((positions ks (n + 1)).get? a).or (if k = a then some n else none) := by
  rw [positions, positions, Dict.get?_ofPairs, Dict.get?_ofPairs, List.zipIdx_cons,
    List.reverse_cons, assocGet?_append]
  rfl

theorem position_ge {ks : List κ} {n i : Nat} {a : κ} (h : (positions ks n).get? a = some i) :
    n ≤ i := by
  induction ks generalizing n i with
  | nil => cases h
  | cons k rest ih =>
    rw [get?_positions_cons] at h
    cases hRest : (positions rest (n + 1)).get? a with
    | some j =>
      have hj := ih hRest
      rw [hRest] at h
      obtain rfl := Option.some.inj h
      omega
    | none =>
      rw [hRest, Option.none_or] at h
      by_cases hk : k = a
      · rw [if_pos hk] at h
        exact Nat.le_of_eq (Option.some.inj h)
      · rw [if_neg hk] at h
        cases h

theorem position_mem {ks : List κ} {n i : Nat} {a : κ} (h : (positions ks n).get? a = some i) :
    ks[i - n]? = some a := by
  induction ks generalizing n i with
  | nil => cases h
  | cons k rest ih =>
    rw [get?_positions_cons] at h
    cases hRest : (positions rest (n + 1)).get? a with
    | some j =>
      have hGet := ih hRest
      have hGe := position_ge hRest
      rw [hRest] at h
      obtain rfl := Option.some.inj h
      rw [show j - n = j - (n + 1) + 1 by omega, List.getElem?_cons_succ]
      exact hGet
    | none =>
      rw [hRest, Option.none_or] at h
      by_cases hk : k = a
      · rw [if_pos hk] at h
        obtain rfl := Option.some.inj h
        rw [Nat.sub_self, List.getElem?_cons_zero, hk]
      · rw [if_neg hk] at h
        cases h

/-- The recorded position is the last one. -/
theorem position_last {ks : List κ} {a : κ} {j : Nat} (h : ks[j]? = some a) (n : Nat) :
    ∃ i, (positions ks n).get? a = some i ∧ n + j ≤ i := by
  induction ks generalizing n j with
  | nil => simp at h
  | cons k rest ih =>
    rw [get?_positions_cons]
    cases j with
    | zero =>
      have hk : k = a := by simpa using h
      cases hRest : (positions rest (n + 1)).get? a with
      | some i =>
        have hGe := position_ge hRest
        exact ⟨i, rfl, by omega⟩
      | none => exact ⟨n, by simp [hk], by omega⟩
    | succ j =>
      rw [List.getElem?_cons_succ] at h
      obtain ⟨i, hGet, hGe⟩ := ih h (n + 1)
      exact ⟨i, by rw [hGet, Option.some_or], by omega⟩

theorem get?_positions_of_not_mem {ks : List κ} {a : κ} (h : a ∉ ks) (n : Nat) :
    (positions ks n).get? a = none := by
  cases hGet : (positions ks n).get? a with
  | none => rfl
  | some i => exact absurd (List.mem_of_getElem? (position_mem hGet)) h

/-- What a list is followed by does not move the elements that are not in it. -/
theorem get?_positions_append {ks rest : List κ} {a : κ} (h : a ∉ rest) (n : Nat) :
    (positions (ks ++ rest) n).get? a = (positions ks n).get? a := by
  induction ks generalizing n with
  | nil => exact get?_positions_of_not_mem h n
  | cons k ks ih => rw [List.cons_append, get?_positions_cons, get?_positions_cons, ih]

/-- Without its earlier repetitions, a list stands in the order of the last
positions. -/
theorem position_lt (ks : List κ) (n : Nat) :
    ks.dedup.Pairwise fun a b => ∃ i j, (positions ks n).get? a = some i ∧
      (positions ks n).get? b = some j ∧ i < j := by
  induction ks generalizing n with
  | nil => exact List.Pairwise.nil
  | cons k rest ih =>
    have hRest : rest.dedup.Pairwise fun a b => ∃ i j,
        (positions (k :: rest) n).get? a = some i ∧
          (positions (k :: rest) n).get? b = some j ∧ i < j := by
      refine (ih (n + 1)).imp ?_
      rintro a b ⟨i, j, ha, hb, hLt⟩
      exact ⟨i, j, by rw [get?_positions_cons, ha, Option.some_or],
        by rw [get?_positions_cons, hb, Option.some_or], hLt⟩
    by_cases hMem : k ∈ rest
    · rwa [List.dedup_cons_of_mem hMem]
    · rw [List.dedup_cons_of_notMem hMem, List.pairwise_cons]
      refine ⟨?_, hRest⟩
      intro b hb
      obtain ⟨j, hj⟩ := List.getElem?_of_mem (List.mem_dedup.mp hb)
      obtain ⟨i, hGet, hGe⟩ := position_last hj (n + 1)
      refine ⟨n, i, ?_, by rw [get?_positions_cons, hGet, Option.some_or], by omega⟩
      rw [get?_positions_cons, get?_positions_of_not_mem hMem, Option.none_or, if_pos rfl]

end Positions

end ZagrosNode.Lib
