import Mathlib.Data.List.Forall2
import Mathlib.Data.List.ReduceOption

/-!
# ZagrosNode — results with errors

When a computation that may raise comes to a result: one after another, mapped,
and for each element of a list.

`Except` is what a computation without a state is written in: decoding an entry,
parsing a document, building a configuration. A proof about such code mostly asks
when it returns and what, and both come apart along the code. The lemmas are the
equivalences that take them apart, one for each way in which such computations are
put together, so that a proof can rewrite with them instead of unfolding binds.

For lists there is one more question, how the results belong to the elements:
`mem_of_mapM_left` and `mem_of_mapM_right` find the partner of either,
`exists_mapM_ok_iff` says when there is a result at all.

Main results:

* `bind_ok_iff`, `map_ok_iff`, `mapError_ok_iff` — one computation and another.
* `mapM_ok_iff` — a list of them, element by element.
-/

namespace ZagrosNode.Lib

variable {ε δ α β : Type}

-- ---------------------------------------------------------------------------
-- One computation
-- ---------------------------------------------------------------------------

theorem bind_ok_iff {x : Except ε α} {f : α → Except ε β} {b : β} :
    (x >>= f) = .ok b ↔ ∃ a, x = .ok a ∧ f a = .ok b := by
  cases x with
  | error e => exact iff_of_false (fun h => by cases h) fun ⟨a, h, _⟩ => by cases h
  | ok a =>
    refine ⟨fun h => ⟨a, rfl, h⟩, fun ⟨a', h, h'⟩ => ?_⟩
    obtain rfl := Except.ok.inj h
    exact h'

theorem map_ok_iff {x : Except ε α} {f : α → β} {b : β} :
    x.map f = .ok b ↔ ∃ a, x = .ok a ∧ f a = b := by
  cases x with
  | error e => exact iff_of_false (fun h => by cases h) fun ⟨a, h, _⟩ => by cases h
  | ok a =>
    constructor
    · exact fun h => ⟨a, rfl, Except.ok.inj h⟩
    · rintro ⟨a', hEq, rfl⟩
      rw [Except.ok.inj hEq]
      rfl

theorem mapError_ok_iff {x : Except ε α} {g : ε → δ} {a : α} :
    x.mapError g = .ok a ↔ x = .ok a := by
  cases x with
  | error e => exact iff_of_false (fun h => by cases h) fun h => by cases h
  | ok a' => exact ⟨fun h => congrArg _ (Except.ok.inj h), fun h => congrArg _ (Except.ok.inj h)⟩

-- ---------------------------------------------------------------------------
-- One for each element
-- ---------------------------------------------------------------------------

theorem mapM_cons_ok_iff {f : α → Except ε β} {x : α} {rest : List α} {ys : List β} :
    (x :: rest).mapM f = .ok ys ↔
      ∃ y others, f x = .ok y ∧ rest.mapM f = .ok others ∧ ys = y :: others := by
  rw [List.mapM_cons, bind_ok_iff]
  refine exists_congr fun y => ?_
  rw [bind_ok_iff]
  constructor
  · rintro ⟨hHead, others, hRest, hEq⟩
    exact ⟨others, hHead, hRest, (Except.ok.inj hEq).symm⟩
  · rintro ⟨others, hHead, hRest, rfl⟩
    exact ⟨hHead, others, hRest, rfl⟩

/-- The results stand by their elements. -/
theorem mapM_ok_iff {f : α → Except ε β} {xs : List α} {ys : List β} :
    xs.mapM f = .ok ys ↔ List.Forall₂ (fun x y => f x = .ok y) xs ys := by
  induction xs generalizing ys with
  | nil =>
    rw [List.forall₂_nil_left_iff]
    exact ⟨fun h => (Except.ok.inj h).symm, fun h => by rw [h]; rfl⟩
  | cons x rest ih =>
    rw [mapM_cons_ok_iff, List.forall₂_cons_left_iff]
    exact exists_congr fun y => exists_congr fun others => and_congr_right fun _ =>
      and_congr_left fun _ => ih

/-- Elements of which each has a result have them all. -/
theorem exists_mapM_ok_iff {f : α → Except ε β} {xs : List α} :
    (∃ ys, xs.mapM f = .ok ys) ↔ ∀ x ∈ xs, ∃ y, f x = .ok y := by
  induction xs with
  | nil => exact iff_of_true ⟨[], rfl⟩ fun x hMem => absurd hMem List.not_mem_nil
  | cons x rest ih =>
    rw [List.forall_mem_cons, ← ih]
    constructor
    · rintro ⟨ys, h⟩
      obtain ⟨y, others, hHead, hRest, -⟩ := mapM_cons_ok_iff.mp h
      exact ⟨⟨y, hHead⟩, others, hRest⟩
    · rintro ⟨⟨y, hHead⟩, others, hRest⟩
      exact ⟨_, mapM_cons_ok_iff.mpr ⟨y, others, hHead, hRest, rfl⟩⟩

theorem mem_of_mapM_left {f : α → Except ε β} {xs : List α} {ys : List β} (h : xs.mapM f = .ok ys)
    {x : α} (hMem : x ∈ xs) : ∃ y ∈ ys, f x = .ok y := by
  have hPairs := mapM_ok_iff.mp h
  clear h
  induction hPairs with
  | nil => cases hMem
  | cons hHead _ ih =>
    rcases List.mem_cons.mp hMem with rfl | hRest
    · exact ⟨_, List.mem_cons_self, hHead⟩
    · obtain ⟨y, hY, hEq⟩ := ih hRest
      exact ⟨y, List.mem_cons_of_mem _ hY, hEq⟩

theorem mem_of_mapM_right {f : α → Except ε β} {xs : List α} {ys : List β} (h : xs.mapM f = .ok ys)
    {y : β} (hMem : y ∈ ys) : ∃ x ∈ xs, f x = .ok y := by
  have hPairs := mapM_ok_iff.mp h
  clear h
  induction hPairs with
  | nil => cases hMem
  | cons hHead _ ih =>
    rcases List.mem_cons.mp hMem with rfl | hRest
    · exact ⟨_, List.mem_cons_self, hHead⟩
    · obtain ⟨x, hX, hEq⟩ := ih hRest
      exact ⟨x, List.mem_cons_of_mem _ hX, hEq⟩

/-- What stays of results that may be nothing. -/
theorem mem_reduceOption_iff {f : α → Except ε (Option β)} {xs : List α} {ys : List (Option β)}
    (h : xs.mapM f = .ok ys) {y : β} : y ∈ ys.reduceOption ↔ ∃ x ∈ xs, f x = .ok (some y) := by
  rw [List.reduceOption_mem_iff]
  constructor
  · exact mem_of_mapM_right h
  · rintro ⟨x, hMem, hResult⟩
    obtain ⟨y', hY, hEq⟩ := mem_of_mapM_left h hMem
    rwa [Except.ok.inj (hResult.symm.trans hEq)]

/-- Elements that each have a counterpart have a list of them. -/
theorem exists_forall₂ {R : α → β → Prop} {xs : List α} (h : ∀ x ∈ xs, ∃ y, R x y) :
    ∃ ys, List.Forall₂ R xs ys := by
  induction xs with
  | nil => exact ⟨[], List.Forall₂.nil⟩
  | cons x rest ih =>
    obtain ⟨y, hHead⟩ := h x List.mem_cons_self
    obtain ⟨others, hRest⟩ := ih fun x' hMem => h x' (List.mem_cons_of_mem x hMem)
    exact ⟨y :: others, List.Forall₂.cons hHead hRest⟩

/-- What each element's result has to do with the element's counterpart. -/
theorem exists_mapM_forall₂ {γ : Type} {f : α → Except ε β} {R : α → γ → Prop} {S : β → γ → Prop}
    (h : ∀ x z, R x z → ∃ y, f x = .ok y ∧ S y z) {xs : List α} {zs : List γ}
    (hPairs : List.Forall₂ R xs zs) : ∃ ys, xs.mapM f = .ok ys ∧ List.Forall₂ S ys zs := by
  induction hPairs with
  | nil => exact ⟨[], rfl, List.Forall₂.nil⟩
  | cons hHead _ ih =>
    obtain ⟨y, hY, hS⟩ := h _ _ hHead
    obtain ⟨others, hOthers, hRest⟩ := ih
    exact ⟨y :: others, mapM_cons_ok_iff.mpr ⟨y, others, hY, hOthers, rfl⟩,
      List.Forall₂.cons hS hRest⟩

theorem mapM_ne_nil {f : α → Except ε β} {xs : List α} {ys : List β} (hNe : xs ≠ [])
    (h : xs.mapM f = .ok ys) : ys ≠ [] := by
  rintro rfl
  exact hNe (List.forall₂_nil_right_iff.mp (mapM_ok_iff.mp h))

end ZagrosNode.Lib
