import Mathlib.Algebra.Ring.Int.Defs
import Mathlib.Algebra.Order.BigOperators.Group.List
import Mathlib.Data.List.Nodup
import Mathlib.Data.List.Basic

/-!
# ZagrosNode — insertion-ordered dictionaries

`Dict κ ν` is the `dict` of the modelled language: a finite map that iterates
in the order in which its keys were first inserted. That no key occurs twice
is a field of the structure, so a dictionary with two entries for one key
cannot be built.

An assignment to a key that is there changes the value in place, and one to a new
key puts it at the end; `update` is a fold of assignments, a comprehension with a
condition is `filter`, and `setdefault`, `pop` and `sorted` are what they are
called. Everything that iterates sees the order of the entries, so equality of
dictionaries is equality of lists of entries. Where the order is of no account,
two dictionaries are compared by their lookups.

The operations are first defined on lists of pairs (`assocGet?`, `assocSet`), which
is also what JSON objects are made of, and `Dict` adds the field that the keys are
without repetition. The lemmas come in the same two layers: those about lists
need that field as a hypothesis, those about dictionaries do not.

Loops over a dictionary whose body may raise are `traverse`. The lemmas say what
such a loop has left when it comes through, and that it raises what its first
failing entry raises. `assocSum` and `sumOf` are totals over the values, for the
accounting of usage.

Main results:

* `Dict.get?_set`, `Dict.get?_filter`, `Dict.get?_update` — what a lookup sees
  after an assignment, a comprehension that filters, and `update`.
* `Dict.traverse_ok`, `Dict.traverse_error` — a loop that may raise.
* `Dict.mem_keys_iff` — a key is listed exactly when its lookup succeeds.
-/

namespace ZagrosNode.Lib

variable {κ ν μ : Type*} [DecidableEq κ]

-- ---------------------------------------------------------------------------
-- Association lists
-- ---------------------------------------------------------------------------

/-- The value of the first entry for `k`. -/
def assocGet? (k : κ) : List (κ × ν) → Option ν
  | []             => none
  | (k', v) :: rest => if k' = k then some v else assocGet? k rest

/-- Replace the entry for `k` in place, or append one. -/
def assocSet (k : κ) (v : ν) : List (κ × ν) → List (κ × ν)
  | []              => [(k, v)]
  | (k', v') :: rest =>
    if k' = k then (k, v) :: rest else (k', v') :: assocSet k v rest

theorem assocGet?_eq_none {k : κ} {l : List (κ × ν)} :
    assocGet? k l = none ↔ k ∉ l.map Prod.fst := by
  induction l with
  | nil => simp [assocGet?]
  | cons e rest ih =>
    obtain ⟨k', v⟩ := e
    by_cases hk : k' = k
    · simp [assocGet?, hk]
    · simp [assocGet?, hk, ih, Ne.symm hk]

theorem assocGet?_mem {k : κ} {v : ν} {l : List (κ × ν)}
    (h : assocGet? k l = some v) : (k, v) ∈ l := by
  induction l with
  | nil => simp [assocGet?] at h
  | cons e rest ih =>
    obtain ⟨k', v'⟩ := e
    by_cases hk : k' = k
    · simp only [assocGet?, hk, if_true, Option.some.injEq] at h
      simp [hk, h]
    · simp only [assocGet?, hk, if_false] at h
      exact List.mem_cons_of_mem _ (ih h)

theorem assocGet?_of_mem {k : κ} {v : ν} {l : List (κ × ν)}
    (hNodup : (l.map Prod.fst).Nodup) (h : (k, v) ∈ l) : assocGet? k l = some v := by
  induction l with
  | nil => simp at h
  | cons e rest ih =>
    obtain ⟨k', v'⟩ := e
    rw [List.map_cons, List.nodup_cons] at hNodup
    rcases List.mem_cons.mp h with hEq | hRest
    · obtain ⟨rfl, rfl⟩ := Prod.mk.inj hEq
      simp [assocGet?]
    · have hMem : k ∈ rest.map Prod.fst := List.mem_map.mpr ⟨(k, v), hRest, rfl⟩
      have hk : k' ≠ k := by
        intro hk
        exact hNodup.1 (hk ▸ hMem)
      simp only [assocGet?, hk, if_false]
      exact ih hNodup.2 hRest

theorem assocGet?_set (k j : κ) (v : ν) (l : List (κ × ν)) :
    assocGet? j (assocSet k v l) = if k = j then some v else assocGet? j l := by
  induction l with
  | nil => simp [assocSet, assocGet?]
  | cons e rest ih =>
    obtain ⟨k', v'⟩ := e
    by_cases hk : k' = k
    · subst hk
      by_cases hj : k' = j <;> simp [assocSet, assocGet?, hj]
    · by_cases hj : k' = j
      · subst hj
        have hkj : k ≠ k' := fun h => hk h.symm
        simp [assocSet, assocGet?, hk, hkj]
      · simp [assocSet, assocGet?, hk, hj, ih]

/-- Setting a key to what it holds changes nothing. -/
theorem assocSet_self {k : κ} {v : ν} {l : List (κ × ν)} (h : assocGet? k l = some v) :
    assocSet k v l = l := by
  induction l with
  | nil => cases h
  | cons e rest ih =>
    obtain ⟨k', v'⟩ := e
    rw [assocGet?] at h
    by_cases hk : k' = k
    · rw [if_pos hk] at h
      rw [assocSet, if_pos hk, hk, Option.some.inj h]
    · rw [if_neg hk] at h
      rw [assocSet, if_neg hk, ih h]

theorem assocSet_keys (k : κ) (v : ν) (l : List (κ × ν)) :
    (assocSet k v l).map Prod.fst =
      if k ∈ l.map Prod.fst then l.map Prod.fst else l.map Prod.fst ++ [k] := by
  induction l with
  | nil => simp [assocSet]
  | cons e rest ih =>
    obtain ⟨k', v'⟩ := e
    by_cases hk : k' = k
    · simp [assocSet, hk]
    · by_cases hMem : k ∈ rest.map Prod.fst
      · simp only [hMem, if_true] at ih
        simp [assocSet, hk, ih, hMem]
      · simp only [hMem, if_false] at ih
        simp [assocSet, hk, ih, hMem, Ne.symm hk]

theorem assocSet_nodup {k : κ} {v : ν} {l : List (κ × ν)}
    (h : (l.map Prod.fst).Nodup) : ((assocSet k v l).map Prod.fst).Nodup := by
  rw [assocSet_keys]
  by_cases hMem : k ∈ l.map Prod.fst
  · rwa [if_pos hMem]
  · rw [if_neg hMem, List.nodup_append]
    refine ⟨h, List.nodup_singleton k, ?_⟩
    intro a ha b hb
    rw [List.mem_singleton] at hb
    rintro rfl
    exact hMem (hb ▸ ha)

theorem assocSet_mapValues {ω : Type*} (f : ν → ω) (k : κ) (v : ν) (l : List (κ × ν)) :
    (assocSet k v l).map (fun e => (e.1, f e.2)) = assocSet k (f v) (l.map fun e => (e.1, f e.2)) := by
  induction l with
  | nil => rfl
  | cons e rest ih =>
    obtain ⟨k', v'⟩ := e
    by_cases hk : k' = k
    · simp [assocSet, hk]
    · simp [assocSet, hk, ih]

theorem assocGet?_mapValues {ω : Type*} (f : κ × ν → ω) (k : κ) (l : List (κ × ν)) :
    assocGet? k (l.map fun e => (e.1, f e)) = (assocGet? k l).map fun v => f (k, v) := by
  induction l with
  | nil => rfl
  | cons e rest ih =>
    by_cases hk : e.1 = k
    · subst hk
      simp [assocGet?]
    · simp [assocGet?, hk, ih]

theorem assocGet?_filter (k : κ) (p : κ × ν → Bool) {l : List (κ × ν)}
    (hNodup : (l.map Prod.fst).Nodup) :
    assocGet? k (l.filter p) = (assocGet? k l).filter fun v => p (k, v) := by
  induction l with
  | nil => simp [assocGet?]
  | cons e rest ih =>
    obtain ⟨k', v'⟩ := e
    rw [List.map_cons, List.nodup_cons] at hNodup
    by_cases hk : k' = k
    · subst hk
      have hRest : assocGet? k' (rest.filter p) = none := by
        rw [ih hNodup.2, assocGet?_eq_none.mpr hNodup.1]
        rfl
      by_cases hp : p (k', v') = true
      · simp [assocGet?, hp, Option.filter]
      · simp [assocGet?, hp, hRest, Option.filter]
    · by_cases hp : p (k', v') = true
      · simp [assocGet?, hp, hk, ih hNodup.2]
      · simp [assocGet?, hp, hk, ih hNodup.2]

-- ---------------------------------------------------------------------------
-- Dictionaries
-- ---------------------------------------------------------------------------

/-- A finite map in insertion order. -/
@[ext] structure Dict (κ ν : Type*) where
  entries : List (κ × ν)
  nodup   : (entries.map Prod.fst).Nodup

namespace Dict

def empty : Dict κ ν := ⟨[], List.nodup_nil⟩

def keys (d : Dict κ ν) : List κ := d.entries.map Prod.fst

def values (d : Dict κ ν) : List ν := d.entries.map Prod.snd

/-- `d.get(k)` -/
def get? (d : Dict κ ν) (k : κ) : Option ν := assocGet? k d.entries

/-- `d[k] = v` -/
def set (d : Dict κ ν) (k : κ) (v : ν) : Dict κ ν :=
  ⟨assocSet k v d.entries, assocSet_nodup d.nodup⟩

/-- `{k: v for k, v in d.items() if p}` -/
def filter (d : Dict κ ν) (p : κ × ν → Bool) : Dict κ ν :=
  ⟨d.entries.filter p, (List.filter_sublist.map Prod.fst).nodup d.nodup⟩

/-- `d.pop(k, None)` -/
def pop (d : Dict κ ν) (k : κ) : Dict κ ν := d.filter fun e => decide (e.1 ≠ k)

/-- Assign the pairs one after the other. -/
def setAll (d : Dict κ ν) (pairs : List (κ × ν)) : Dict κ ν :=
  pairs.foldl (fun acc e => acc.set e.1 e.2) d

/-- `d.update(e)` -/
def update (d e : Dict κ ν) : Dict κ ν := d.setAll e.entries

/-- `{k: v for k, v in pairs}` -/
def ofPairs (pairs : List (κ × ν)) : Dict κ ν := empty.setAll pairs

/-- Go through the entries in order; `f` may raise, or skip an entry. -/
def traverseList {ε : Type*} (f : κ → ν → Except ε (Option μ)) :
    List (κ × ν) → Except ε (List (κ × μ))
  | []             => .ok []
  | (k, v) :: rest =>
    match f k v with
    | .error e     => .error e
    | .ok none     => traverseList f rest
    | .ok (some w) => (traverseList f rest).map ((k, w) :: ·)

/-- `for k, v in d.items(): …` that fills another dictionary. -/
def traverse {ε : Type*} (f : κ → ν → Except ε (Option μ)) (d : Dict κ ν) :
    Except ε (Dict κ μ) :=
  (traverseList f d.entries).map ofPairs

/-- `d.setdefault(k, v)` -/
def setdefault (d : Dict κ ν) (k : κ) (v : ν) : Dict κ ν :=
  if (d.get? k).isSome then d else d.set k v

-- ---------------------------------------------------------------------------
-- Lookups
-- ---------------------------------------------------------------------------

@[simp] theorem get?_empty (k : κ) : (empty : Dict κ ν).get? k = none := rfl

omit [DecidableEq κ] in
@[simp] theorem keys_empty : (empty : Dict κ ν).keys = [] := rfl

theorem get?_set (d : Dict κ ν) (k j : κ) (v : ν) :
    (d.set k v).get? j = if k = j then some v else d.get? j :=
  assocGet?_set k j v d.entries

@[simp] theorem get?_set_self (d : Dict κ ν) (k : κ) (v : ν) :
    (d.set k v).get? k = some v := by
  rw [get?_set, if_pos rfl]

theorem get?_set_of_ne (d : Dict κ ν) {k j : κ} (v : ν) (h : k ≠ j) :
    (d.set k v).get? j = d.get? j := by
  rw [get?_set, if_neg h]

theorem get?_filter (d : Dict κ ν) (p : κ × ν → Bool) (k : κ) :
    (d.filter p).get? k = (d.get? k).filter fun v => p (k, v) :=
  assocGet?_filter k p d.nodup

theorem get?_pop (d : Dict κ ν) (k j : κ) :
    (d.pop k).get? j = if j = k then none else d.get? j := by
  rw [pop, get?_filter]
  by_cases h : j = k
  · rw [if_pos h]
    cases d.get? j <;> simp [h]
  · rw [if_neg h]
    cases d.get? j <;> simp [h]

theorem mem_entries_iff {d : Dict κ ν} {k : κ} {v : ν} :
    (k, v) ∈ d.entries ↔ d.get? k = some v :=
  ⟨assocGet?_of_mem d.nodup, assocGet?_mem⟩

theorem mem_keys_iff {d : Dict κ ν} {k : κ} : k ∈ d.keys ↔ ∃ v, d.get? k = some v := by
  constructor
  · intro h
    cases hGet : d.get? k with
    | none => exact absurd h (assocGet?_eq_none.mp hGet)
    | some v => exact ⟨v, rfl⟩
  · rintro ⟨v, hGet⟩
    exact List.mem_map.mpr ⟨(k, v), mem_entries_iff.mpr hGet, rfl⟩

theorem mem_keys_set {d : Dict κ ν} {k j : κ} {v : ν} :
    j ∈ (d.set k v).keys ↔ j = k ∨ j ∈ d.keys := by
  rw [mem_keys_iff, mem_keys_iff, get?_set]
  by_cases h : k = j
  · simp [h]
  · simp [h, Ne.symm h]

theorem get?_setAll_of_not_mem {d : Dict κ ν} {k : κ} {pairs : List (κ × ν)}
    (h : k ∉ pairs.map Prod.fst) : (d.setAll pairs).get? k = d.get? k := by
  induction pairs generalizing d with
  | nil => rfl
  | cons e rest ih =>
    rw [List.map_cons, List.mem_cons, not_or] at h
    rw [setAll, List.foldl_cons, ← setAll, ih h.2, get?_set_of_ne d e.2 (Ne.symm h.1)]

theorem get?_setAll_of_nodup {d : Dict κ ν} {k : κ} {pairs : List (κ × ν)}
    (hNodup : (pairs.map Prod.fst).Nodup) :
    (d.setAll pairs).get? k = (assocGet? k pairs).or (d.get? k) := by
  induction pairs generalizing d with
  | nil => rfl
  | cons e rest ih =>
    obtain ⟨k', v⟩ := e
    rw [List.map_cons, List.nodup_cons] at hNodup
    rw [setAll, List.foldl_cons, ← setAll, ih hNodup.2, get?_set]
    by_cases hk : k' = k
    · have hRest : assocGet? k rest = none := assocGet?_eq_none.mpr (hk ▸ hNodup.1)
      simp [assocGet?, hk, hRest]
    · simp [assocGet?, hk]

/-- After `d.update(e)` the entries of `e` win. -/
theorem get?_update (d e : Dict κ ν) (k : κ) :
    (d.update e).get? k = (e.get? k).or (d.get? k) :=
  get?_setAll_of_nodup e.nodup

theorem assocSet_append {k : κ} {v : ν} {l : List (κ × ν)} (h : k ∉ l.map Prod.fst) :
    assocSet k v l = l ++ [(k, v)] := by
  induction l with
  | nil => rfl
  | cons e rest ih =>
    obtain ⟨k', v'⟩ := e
    rw [List.map_cons, List.mem_cons, not_or] at h
    simp [assocSet, Ne.symm h.1, ih h.2]

theorem setAll_entries {d : Dict κ ν} {pairs : List (κ × ν)}
    (h : ((d.entries ++ pairs).map Prod.fst).Nodup) :
    (d.setAll pairs).entries = d.entries ++ pairs := by
  induction pairs generalizing d with
  | nil => simp [setAll]
  | cons e rest ih =>
    have hNew : e.1 ∉ d.entries.map Prod.fst := by
      rw [List.map_append, List.nodup_append] at h
      intro hMem
      exact h.2.2 e.1 hMem e.1 (by simp) rfl
    have hSet : (d.set e.1 e.2).entries = d.entries ++ [e] := assocSet_append hNew
    rw [setAll, List.foldl_cons, ← setAll, ih (by rwa [hSet, List.append_assoc]), hSet,
      List.append_assoc, List.singleton_append]

/-- Rebuilding a dictionary from its own entries gives it back. -/
@[simp] theorem ofPairs_entries (d : Dict κ ν) : ofPairs d.entries = d := by
  apply Dict.ext
  exact setAll_entries (d := empty) (by simpa [empty] using d.nodup)

theorem mem_keys_setAll {d : Dict κ ν} {k : κ} {pairs : List (κ × ν)} :
    k ∈ (d.setAll pairs).keys ↔ k ∈ d.keys ∨ k ∈ pairs.map Prod.fst := by
  induction pairs generalizing d with
  | nil => simp [setAll]
  | cons e rest ih =>
    rw [setAll, List.foldl_cons, ← setAll, ih, mem_keys_set, List.map_cons, List.mem_cons]
    tauto

-- ---------------------------------------------------------------------------
-- Sums over a dictionary
-- ---------------------------------------------------------------------------

/-- The sum of `f` over the entries. -/
def assocSum (f : κ → ν → Int) (l : List (κ × ν)) : Int := (l.map fun e => f e.1 e.2).sum

def sumOf (d : Dict κ ν) (f : κ → ν → Int) : Int := assocSum f d.entries

theorem assocSum_set (f : κ → ν → Int) (k : κ) (v : ν) (l : List (κ × ν)) :
    assocSum f (assocSet k v l) =
      assocSum f l - ((assocGet? k l).elim 0 (f k)) + f k v := by
  unfold assocSum
  induction l with
  | nil => simp [assocSet, assocGet?]
  | cons e rest ih =>
    obtain ⟨k', v'⟩ := e
    by_cases hk : k' = k
    · subst hk
      simp [assocSet, assocGet?]
      omega
    · simp only [assocSet, assocGet?, hk, if_false, List.map_cons, List.sum_cons]
      rw [ih]
      omega

/-- Assigning to a key replaces its share of the sum. -/
theorem sumOf_set (d : Dict κ ν) (f : κ → ν → Int) (k : κ) (v : ν) :
    (d.set k v).sumOf f = d.sumOf f - ((d.get? k).elim 0 (f k)) + f k v :=
  assocSum_set f k v d.entries

theorem assocSum_filter (f : κ → ν → Int) (k : κ) {l : List (κ × ν)}
    (hNodup : (l.map Prod.fst).Nodup) :
    assocSum f (l.filter fun e => decide (e.1 ≠ k)) =
      assocSum f l - ((assocGet? k l).elim 0 (f k)) := by
  unfold assocSum
  induction l with
  | nil => simp [assocGet?]
  | cons e rest ih =>
    obtain ⟨k', v'⟩ := e
    rw [List.map_cons, List.nodup_cons] at hNodup
    have hRest := ih hNodup.2
    by_cases hk : k' = k
    · subst hk
      -- the key does not occur again, so nothing else is removed
      rw [assocGet?_eq_none.mpr hNodup.1] at hRest
      simp only [ne_eq, decide_not, Option.elim_none] at hRest
      simp [assocGet?, hRest]
    · simp only [ne_eq, decide_not] at hRest
      simp only [ne_eq, decide_not, hk, decide_false, Bool.not_false, List.filter_cons_of_pos,
        List.map_cons, List.sum_cons, assocGet?, if_false]
      rw [hRest]
      omega

/-- Removing a key removes its share of the sum. -/
theorem sumOf_pop (d : Dict κ ν) (f : κ → ν → Int) (k : κ) :
    (d.pop k).sumOf f = d.sumOf f - ((d.get? k).elim 0 (f k)) :=
  assocSum_filter f k d.nodup

omit [DecidableEq κ] in
theorem assocSum_filter_add (p : κ × ν → Bool) (f : κ → ν → Int) (l : List (κ × ν)) :
    assocSum f (l.filter p) + assocSum f (l.filter fun e => !p e) = assocSum f l := by
  unfold assocSum
  induction l with
  | nil => rfl
  | cons e rest ih =>
    rw [List.map_cons, List.sum_cons, ← ih]
    by_cases hp : p e = true
    · simp [hp, add_assoc]
    · simp [hp, add_left_comm]

omit [DecidableEq κ] in
/-- The entries a filter keeps and those it drops make up the sum. -/
theorem sumOf_filter_add (d : Dict κ ν) (p : κ × ν → Bool) (f : κ → ν → Int) :
    (d.filter p).sumOf f + (d.filter fun e => !p e).sumOf f = d.sumOf f :=
  assocSum_filter_add p f d.entries

/-- A sum of terms that are not negative is not negative. -/
theorem sumOf_nonneg {d : Dict κ ν} {f : κ → ν → Int}
    (h : ∀ k v, d.get? k = some v → 0 ≤ f k v) : 0 ≤ d.sumOf f := by
  refine List.sum_nonneg fun x hx => ?_
  obtain ⟨e, he, rfl⟩ := List.mem_map.mp hx
  exact h e.1 e.2 (mem_entries_iff.mp he)

/-- A sum grows with its terms. -/
theorem sumOf_le {d : Dict κ ν} {f g : κ → ν → Int}
    (h : ∀ k v, d.get? k = some v → f k v ≤ g k v) : d.sumOf f ≤ d.sumOf g := by
  refine List.sum_le_sum fun e he => h e.1 e.2 (mem_entries_iff.mp he)

-- ---------------------------------------------------------------------------
-- Origins of entries
-- ---------------------------------------------------------------------------

/-- What a lookup finds after assignments was assigned, or was there before. -/
theorem get?_setAll_cases {d : Dict κ ν} {k : κ} {v : ν} {pairs : List (κ × ν)}
    (h : (d.setAll pairs).get? k = some v) : (k, v) ∈ pairs ∨ d.get? k = some v := by
  induction pairs generalizing d with
  | nil => exact Or.inr h
  | cons e rest ih =>
    rcases ih h with hRest | hSet
    · exact Or.inl (List.mem_cons_of_mem e hRest)
    · rw [get?_set] at hSet
      by_cases hk : e.1 = k
      · rw [if_pos hk] at hSet
        have hEntry : e = (k, v) := Prod.ext hk (Option.some.inj hSet)
        exact Or.inl (hEntry ▸ List.mem_cons_self)
      · rw [if_neg hk] at hSet
        exact Or.inr hSet

/-- A key that is assigned has one of the values assigned to it. -/
theorem get?_setAll_of_mem {d : Dict κ ν} {k : κ} {pairs : List (κ × ν)}
    (h : k ∈ pairs.map Prod.fst) : ∃ v, (k, v) ∈ pairs ∧ (d.setAll pairs).get? k = some v := by
  induction pairs generalizing d with
  | nil => cases h
  | cons e rest ih =>
    by_cases hRest : k ∈ rest.map Prod.fst
    · obtain ⟨v, hMem, hGet⟩ := @ih (d.set e.1 e.2) hRest
      exact ⟨v, List.mem_cons_of_mem e hMem, hGet⟩
    · obtain rfl : k = e.1 := (List.mem_cons.mp h).resolve_right hRest
      refine ⟨e.2, List.mem_cons_self, ?_⟩
      rw [setAll, List.foldl_cons, ← setAll, get?_setAll_of_not_mem hRest, get?_set_self]

/-- If every assignment to a key assigns the same value, a lookup finds it. -/
theorem get?_setAll_const {d : Dict κ ν} {k : κ} {v : ν} {pairs : List (κ × ν)}
    (hMem : (k, v) ∈ pairs) (hSame : ∀ v', (k, v') ∈ pairs → v' = v) :
    (d.setAll pairs).get? k = some v := by
  induction pairs generalizing d with
  | nil => cases hMem
  | cons e rest ih =>
    by_cases hLater : k ∈ rest.map Prod.fst
    · obtain ⟨e', he', rfl⟩ := List.mem_map.mp hLater
      have hValue := hSame e'.2 (List.mem_cons_of_mem e he')
      exact ih (hValue ▸ he') fun v' hv' => hSame v' (List.mem_cons_of_mem e hv')
    · have hHead : e = (k, v) := by
        rcases List.mem_cons.mp hMem with hEq | hRest
        · exact hEq.symm
        · exact absurd (List.mem_map.mpr ⟨_, hRest, rfl⟩) hLater
      rw [setAll, List.foldl_cons, ← setAll, get?_setAll_of_not_mem hLater, hHead, get?_set,
        if_pos rfl]

theorem get?_setdefault (d : Dict κ ν) (k j : κ) (v : ν) :
    (d.setdefault k v).get? j = (d.get? j).or (if k = j then some v else none) := by
  unfold setdefault
  by_cases hk : k = j
  · subst hk
    cases hGet : d.get? k with
    | none => simp
    | some w => simp [hGet]
  · cases hGet : d.get? k <;> simp [get?_set, hk]

-- ---------------------------------------------------------------------------
-- Traversals
-- ---------------------------------------------------------------------------

section Traversals

variable {ε : Type*} {f : κ → ν → Except ε (Option μ)}

omit [DecidableEq κ] in
theorem traverseList_keys {l : List (κ × ν)} {r : List (κ × μ)} (h : traverseList f l = .ok r) :
    (r.map Prod.fst).Sublist (l.map Prod.fst) := by
  induction l generalizing r with
  | nil =>
    obtain rfl := Except.ok.inj h
    exact List.Sublist.slnil
  | cons e rest ih =>
    obtain ⟨k, v⟩ := e
    rw [traverseList] at h
    cases hHead : f k v with
    | error e =>
      rw [hHead] at h
      cases h
    | ok w =>
      rw [hHead] at h
      -- the entry is dropped or kept, and the others keep their order
      cases w with
      | none => exact (ih h).cons k
      | some w =>
        cases hRest : traverseList f rest with
        | error e =>
          simp only [hRest] at h
          cases h
        | ok others =>
          simp only [hRest] at h
          obtain rfl := Except.ok.inj h
          exact (ih hRest).cons_cons k

/-- Where nothing raises, every entry is there with what `f` makes of it. -/
theorem traverseList_ok {l : List (κ × ν)} (hNodup : (l.map Prod.fst).Nodup)
    (h : ∀ e ∈ l, ∃ w, f e.1 e.2 = .ok w) :
    ∃ r, traverseList f l = .ok r ∧
      ∀ k, assocGet? k r = (assocGet? k l).bind fun v => (f k v).toOption.join := by
  induction l with
  | nil => exact ⟨[], rfl, fun k => rfl⟩
  | cons e rest ih =>
    obtain ⟨k, v⟩ := e
    rw [List.map_cons, List.nodup_cons] at hNodup
    obtain ⟨r, hRest, hGet⟩ := ih hNodup.2 fun e he => h e (List.mem_cons_of_mem _ he)
    obtain ⟨w, hHead⟩ := h (k, v) List.mem_cons_self
    simp only at hHead
    -- where the entry is dropped no later one has its key
    cases w with
    | none =>
      refine ⟨r, by rw [traverseList, hHead]; exact hRest, fun j => ?_⟩
      by_cases hj : k = j
      · subst hj
        rw [hGet, assocGet?_eq_none.mpr hNodup.1]
        simp [assocGet?, hHead, Except.toOption]
      · simp [assocGet?, hj, hGet]
    | some w =>
      refine ⟨(k, w) :: r, by simp only [traverseList, hHead, hRest]; rfl, fun j => ?_⟩
      by_cases hj : k = j
      · subst hj
        simp [assocGet?, hHead, Except.toOption]
      · simp [assocGet?, hj, hGet]

theorem traverse_ok {d : Dict κ ν} (h : ∀ k v, d.get? k = some v → ∃ w, f k v = .ok w) :
    ∃ d', d.traverse f = .ok d' ∧
      ∀ k, d'.get? k = (d.get? k).bind fun v => (f k v).toOption.join := by
  obtain ⟨r, hList, hGet⟩ := traverseList_ok d.nodup
    fun e he => h e.1 e.2 (mem_entries_iff.mp he)
  refine ⟨ofPairs r, by rw [traverse, hList]; rfl, fun k => ?_⟩
  have hNodup : (r.map Prod.fst).Nodup := (traverseList_keys hList).nodup d.nodup
  rw [ofPairs, get?_setAll_of_nodup hNodup, get?_empty, Option.or_none]
  exact hGet k

omit [DecidableEq κ] in
theorem traverseList_each {l : List (κ × ν)} {r : List (κ × μ)} (h : traverseList f l = .ok r) :
    ∀ e ∈ l, ∃ w, f e.1 e.2 = .ok w := by
  induction l generalizing r with
  | nil => exact fun e he => absurd he List.not_mem_nil
  | cons first rest ih =>
    obtain ⟨k, v⟩ := first
    rw [traverseList] at h
    intro e he
    cases hHead : f k v with
    | error err =>
      rw [hHead] at h
      cases h
    | ok w =>
      -- the head did not raise, so the rest was gone through
      have hRest : ∃ others, traverseList f rest = .ok others := by
        rw [hHead] at h
        cases w with
        | none => exact ⟨r, h⟩
        | some w =>
          cases hTail : traverseList f rest with
          | error err =>
            simp only [hTail] at h
            cases h
          | ok others => exact ⟨others, rfl⟩
      rcases List.mem_cons.mp he with rfl | hMem
      · exact ⟨w, hHead⟩
      · obtain ⟨others, hTail⟩ := hRest
        exact ih hTail e hMem

/-- A traversal raises unless `f` takes every entry. -/
theorem traverse_ok_iff {d : Dict κ ν} :
    (∃ d', d.traverse f = .ok d') ↔ ∀ k v, d.get? k = some v → ∃ w, f k v = .ok w := by
  constructor
  · rintro ⟨d', hRun⟩ k v hGet
    rw [traverse] at hRun
    cases hList : traverseList f d.entries with
    | error e =>
      rw [hList] at hRun
      cases hRun
    | ok r => exact traverseList_each hList (k, v) (mem_entries_iff.mpr hGet)
  · intro hEach
    obtain ⟨d', hRun, -⟩ := traverse_ok hEach
    exact ⟨d', hRun⟩

/-- What a traversal that returned has at each key. -/
theorem get?_of_traverse {d : Dict κ ν} {d' : Dict κ μ} (h : d.traverse f = .ok d') (k : κ) :
    d'.get? k = (d.get? k).bind fun v => (f k v).toOption.join := by
  obtain ⟨d'', hRun, hGet⟩ := traverse_ok (traverse_ok_iff.mp ⟨d', h⟩)
  obtain rfl := Except.ok.inj (h.symm.trans hRun)
  exact hGet k

/-- Where `f` raises one and the same exception on some of the entries, the
traversal raises it. -/
theorem traverse_error {d : Dict κ ν} {e : ε}
    (hAll : ∀ k v, d.get? k = some v → (∃ w, f k v = .ok w) ∨ f k v = .error e)
    {k : κ} {v : ν} (hGet : d.get? k = some v) (hRaise : f k v = .error e) :
    d.traverse f = .error e := by
  have hList : ∀ l : List (κ × ν), (∀ x ∈ l, x ∈ d.entries) → (k, v) ∈ l →
      traverseList f l = .error e := by
    intro l hSub hMem
    induction l with
    | nil => cases hMem
    | cons x rest ih =>
      obtain ⟨k', v'⟩ := x
      have hHere : d.get? k' = some v' := mem_entries_iff.mp (hSub _ List.mem_cons_self)
      rcases hAll k' v' hHere with ⟨w, hOk⟩ | hError
      · have hRest : traverseList f rest = .error e := by
          refine ih (fun x hx => hSub x (List.mem_cons_of_mem _ hx)) ?_
          rcases List.mem_cons.mp hMem with hEq | hTail
          · obtain ⟨rfl, rfl⟩ := Prod.mk.inj hEq
            rw [hOk] at hRaise
            cases hRaise
          · exact hTail
        cases w <;> simp [traverseList, hOk, hRest, Except.map]
      · rw [traverseList, hError]
  rw [traverse, hList d.entries (fun x hx => hx) (mem_entries_iff.mpr hGet)]
  rfl

end Traversals

/-- Renaming keys keeps the value of a key that no other key is renamed to. -/
theorem get?_setAll_rename {κ' : Type*} [DecidableEq κ'] {d : Dict κ' ν} (g : κ → κ') {i : κ}
    {pairs : List (κ × ν)} (hNodup : (pairs.map Prod.fst).Nodup)
    (hOnly : ∀ k ∈ pairs.map Prod.fst, g k = g i → k = i) :
    (d.setAll (pairs.map fun e => (g e.1, e.2))).get? (g i) =
      (assocGet? i pairs).or (d.get? (g i)) := by
  induction pairs generalizing d with
  | nil => rfl
  | cons e rest ih =>
    obtain ⟨k, v⟩ := e
    rw [List.map_cons, List.nodup_cons] at hNodup
    have hRest := ih (d := d.set (g k) v) hNodup.2
      fun k' hk' => hOnly k' (List.mem_cons_of_mem k hk')
    rw [List.map_cons, setAll, List.foldl_cons, ← setAll, hRest, get?_set]
    by_cases hk : k = i
    · subst hk
      rw [assocGet?_eq_none.mpr hNodup.1]
      simp [assocGet?]
    · have hg : g k ≠ g i := fun h => hk (hOnly k List.mem_cons_self h)
      simp [assocGet?, hk, hg]

-- ---------------------------------------------------------------------------
-- Values in place
-- ---------------------------------------------------------------------------

/-- `{k: f(k, v) for k, v in d.items()}` -/
def mapValues (f : κ → ν → μ) (d : Dict κ ν) : Dict κ μ :=
  ⟨d.entries.map fun e => (e.1, f e.1 e.2), by
    rw [List.map_map]
    exact d.nodup⟩

theorem get?_mapValues (f : κ → ν → μ) (d : Dict κ ν) (k : κ) :
    (d.mapValues f).get? k = (d.get? k).map (f k) :=
  assocGet?_mapValues (fun e => f e.1 e.2) k d.entries

/-- Update the value of a key, if it has one. -/
def adjust (d : Dict κ ν) (k : κ) (f : ν → ν) : Dict κ ν :=
  match d.get? k with
  | some v => d.set k (f v)
  | none   => d

theorem get?_adjust (d : Dict κ ν) (k j : κ) (f : ν → ν) :
    (d.adjust k f).get? j = if k = j then (d.get? j).map f else d.get? j := by
  unfold adjust
  by_cases hk : k = j
  · subst hk
    rw [if_pos rfl]
    cases hGet : d.get? k with
    | none => exact hGet
    | some v => rw [get?_set_self, Option.map_some]
  · rw [if_neg hk]
    cases d.get? k with
    | none => rfl
    | some v => exact get?_set_of_ne d (f v) hk

/-- Update a value for every element of a list that has a key. -/
def adjustAll {ε : Type*} (key : ε → Option κ) (f : ε → ν → ν) (d : Dict κ ν) (l : List ε) :
    Dict κ ν :=
  l.foldl (fun d e =>
    match key e with
    | some k => d.adjust k (f e)
    | none   => d) d

/-- The value of a key is updated by the elements with that key, in turn. -/
theorem get?_adjustAll {ε : Type*} (key : ε → Option κ) (f : ε → ν → ν) (d : Dict κ ν)
    (l : List ε) (k : κ) :
    (adjustAll key f d l).get? k =
      (d.get? k).map fun v =>
        (l.filter fun e => decide (key e = some k)).foldl (fun v e => f e v) v := by
  induction l generalizing d with
  | nil =>
    show d.get? k = (d.get? k).map fun v => v
    rw [Option.map_id']
  | cons e rest ih =>
    rw [adjustAll, List.foldl_cons, ← adjustAll, ih]
    cases hKey : key e with
    | none => rw [List.filter_cons_of_neg (by simp [hKey])]
    | some j =>
      rw [get?_adjust]
      by_cases hj : j = k
      · rw [if_pos hj, List.filter_cons_of_pos (by simp [hKey, hj]), Option.map_map]
        rfl
      · rw [if_neg hj, List.filter_cons_of_neg (by simp [hKey, hj])]

end Dict

end ZagrosNode.Lib
