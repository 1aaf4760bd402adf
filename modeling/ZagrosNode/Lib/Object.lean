import ZagrosNode.Lib.Dict
import ZagrosNode.Lib.Py

/-!
# ZagrosNode — JSON objects

Objects are lists of entries. They are read by key, changed by `assocSet`, and
merged with `{**entries, **more}`; two values are the same to a reader if
every way into them finds the same, whatever the order of their entries.

`JSON` objects carry account settings, core settings and documents. The code reads
them with `get`, merges them, copies them and compares nothing but single values,
so the order of their entries is seen by nobody.

`look` follows a path of keys and list positions into a value, and `Same` says that
every path ends at the same scalar or at nothing. It is an equivalence, and for
objects it comes down to the entries (`same_dict_iff`), so that “the same settings”
can be proved without a normal form for objects.

Two lookups are distinguished as in the source: `get?`, which tells a missing key
from `null`, and `getD`, which does not.

Main results:

* `Json.get?_assocSet`, `Json.get?_merge` — what a changed object reads.
* `Json.same_dict_iff` — objects are the same if they read the same under
  every key.
-/

namespace ZagrosNode.Lib.Json

/-- The entries of an object. -/
abbrev Entries := List (String × Json)

theorem get?_eq_assocGet? (entries : Entries) (key : String) :
    get? entries key = assocGet? key entries := by
  induction entries with
  | nil => rfl
  | cons e rest ih =>
    obtain ⟨key', v⟩ := e
    unfold get? at ih ⊢
    by_cases hKey : key' = key
    · simp [assocGet?, hKey]
    · simpa [assocGet?, hKey] using ih

theorem getD_eq (entries : Entries) (key : String) :
    getD entries key = (get? entries key).getD .null := by
  unfold getD get?
  cases entries.find? fun e => e.1 == key <;> rfl

theorem get?_nil (key : String) : get? [] key = none := rfl

theorem get?_cons (key' : String) (v : Json) (rest : Entries) (key : String) :
    get? ((key', v) :: rest) key = if key' = key then some v else get? rest key := by
  rw [get?_eq_assocGet?, assocGet?, get?_eq_assocGet?]

theorem get?_assocSet (key other : String) (v : Json) (entries : Entries) :
    get? (assocSet key v entries) other = if key = other then some v else get? entries other := by
  rw [get?_eq_assocGet?, get?_eq_assocGet?, assocGet?_set]

theorem getD_assocSet_self (key : String) (v : Json) (entries : Entries) :
    getD (assocSet key v entries) key = v := by
  rw [getD_eq, get?_assocSet, if_pos rfl]
  rfl

theorem getD_assocSet_of_ne {key other : String} (h : key ≠ other) (v : Json)
    (entries : Entries) : getD (assocSet key v entries) other = getD entries other := by
  rw [getD_eq, get?_assocSet, if_neg h, ← getD_eq]

/-- Setting a key to what it holds changes nothing. -/
theorem assocSet_self {entries : Entries} {key : String} {v : Json}
    (h : get? entries key = some v) : assocSet key v entries = entries := by
  rw [get?_eq_assocGet?] at h
  exact Lib.assocSet_self h

/-- Of two values that are set under one key the second stays. -/
theorem assocSet_twice (key : String) (v w : Json) (entries : Entries) :
    assocSet key w (assocSet key v entries) = assocSet key w entries := by
  induction entries with
  | nil => simp [assocSet]
  | cons e rest ih =>
    obtain ⟨k, v'⟩ := e
    by_cases hk : k = key
    · simp [assocSet, hk]
    · simp [assocSet, hk, ih]

/-- `{**entries, **more}`; the order of the entries is of no account. -/
def merge (entries more : Entries) : Entries :=
  more.foldr (fun e acc => assocSet e.1 e.2 acc) entries

theorem get?_merge (entries more : Entries) (key : String) :
    get? (merge entries more) key = (get? more key).or (get? entries key) := by
  induction more with
  | nil => rfl
  | cons e rest ih =>
    obtain ⟨key', v⟩ := e
    show get? (assocSet key' v (merge entries rest)) key = _
    rw [get?_assocSet, get?_cons, ih]
    split <;> rfl

theorem get?_append (entries more : Entries) (key : String) :
    get? (entries ++ more) key = (get? entries key).or (get? more key) := by
  induction entries with
  | nil => rfl
  | cons e rest ih =>
    obtain ⟨key', v⟩ := e
    rw [List.cons_append, get?_cons, get?_cons, ih]
    split <;> rfl

theorem get?_eq_none {entries : Entries} {keys : List String} {key : String}
    (hKeys : ∀ e ∈ entries, e.1 ∈ keys) (hKey : key ∉ keys) : get? entries key = none := by
  rw [get?_eq_assocGet?, assocGet?_eq_none]
  intro hMem
  obtain ⟨e, he, rfl⟩ := List.mem_map.mp hMem
  exact hKey (hKeys e he)

/-- A value for each of some keys. -/
theorem get?_tabulate {keys : List String} {key : String} (h : key ∈ keys) (f : String → Json) :
    get? (keys.map fun key => (key, f key)) key = some (f key) := by
  induction keys with
  | nil => cases h
  | cons first rest ih =>
    rw [List.map_cons, get?_cons]
    split
    · rename_i hEq
      rw [hEq]
    · rename_i hNe
      exact ih ((List.mem_cons.mp h).resolve_left (Ne.symm hNe))

theorem getD_congr {entries others : Entries} {key : String}
    (h : get? entries key = get? others key) : getD entries key = getD others key := by
  rw [getD_eq, getD_eq, h]

-- ---------------------------------------------------------------------------
-- What a reader finds
-- ---------------------------------------------------------------------------

/-- One step into a value. -/
inductive Place
  | key (name : String)
  | index (i : Nat)
  deriving DecidableEq

/-- A scalar, or the kind of a container. -/
def head : Json → Json
  | .list _ => .list []
  | .dict _ => .dict []
  | v       => v

/-- What a reader finds at a place. -/
def look : List Place → Json → Option Json
  | [], v                         => some v.head
  | .key name :: rest, .dict entries => (get? entries name).bind (look rest)
  | .index i :: rest, .list xs    => xs[i]?.bind (look rest)
  | _ :: _, _                     => none

/-- The values are the same to every reader. -/
def Same (v w : Json) : Prop := ∀ places, look places v = look places w

theorem Same.refl (v : Json) : Same v v := fun _ => rfl

theorem Same.symm {v w : Json} (h : Same v w) : Same w v := fun places => (h places).symm

theorem Same.trans {u v w : Json} (h : Same u v) (h' : Same v w) : Same u w :=
  fun places => (h places).trans (h' places)

/-- The same under each key, or missing in both. -/
def SameEntry (v w : Option Json) : Prop :=
  ∀ places, v.bind (look places) = w.bind (look places)

theorem SameEntry.refl (v : Option Json) : SameEntry v v := fun _ => rfl

/-- An entry is missing exactly where the other one is. -/
theorem SameEntry.isSome {v w : Option Json} (h : SameEntry v w) : v.isSome = w.isSome := by
  have hHead := h []
  cases v <;> cases w <;> first | rfl | cases hHead

/--
**Objects** are the same if they are the same under every key, in whatever
order the keys stand.
-/
theorem same_dict_iff {entries others : Entries} :
    Same (.dict entries) (.dict others) ↔
      ∀ key, SameEntry (get? entries key) (get? others key) := by
  constructor
  · exact fun h key places => h (.key key :: places)
  · intro h places
    match places with
    | [] => rfl
    | .key name :: rest => exact h name rest
    | .index i :: rest => rfl

end ZagrosNode.Lib.Json
