import ZagrosNode.Lib.JsonRead
import ZagrosNode.Lib.Volume
import ZagrosNode.Usage.Baselines

/-!
# ZagrosNode — saving the baselines, and stopping half way

`_save_usage_baselines` merges what a poll collected over the file and writes
the result where the file is, while its siblings write beside the place and
move. A process that ends in between leaves an empty or a cut-off file, which
`restore_usage_baselines` takes for no baselines.

The file is read back by `json.loads`, and everything else than an object counts as
nothing: a file that cannot be decoded is logged and passed over. So the question
about a stopping point is which first parts of the written text are JSON again, and
the answer is none but the whole (`loads_take_of_closed`), since the text is that of
an object.

`interrupted n` is the file after `n` effects of the save; the first of them empties
it. There are three kinds of stopping points, and `interrupted_cases` names them:
nothing done, everything written, and the ones between (`CutOff`).

The mapping handed over is looked at as a whole and for any list of cores, so that
“the mapping before the save” means what each of the drivers would have got.

Main results:

* `restore_saved` — a save that ran to its end hands over the merged mapping.
* `restore_cut` — a file that was cut off hands over nothing.
* `crash_safe_iff` — when the mapping handed over after a crash is the one
  before the save or the merged one.
* `lost_after_cut` — what the next save leaves of the mapping then.
* `cut_file_forgets` — a crash that empties the mapping.
-/

namespace ZagrosNode.Usage

open ZagrosNode.Lib JsonText Volume

-- ---------------------------------------------------------------------------
-- The file
-- ---------------------------------------------------------------------------

inductive UsageFile
  /-- `usage-baselines.json` -/
  | baselines
  deriving DecidableEq, Repr

abbrev UsageDir := Volume UsageFile Char

variable (fl : Floats)

/-- What the file holds, if it can be read: an empty value is an empty object. -/
def stored (dir : UsageDir) : Option Json :=
  match dir .baselines with
  | none      => some (.dict [])
  | some file =>
    match loads fl file.content with
    | .ok v    => some (v.or (.dict []))
    | .error _ => none

/-- `merged`, before the update. -/
def oldEntries (dir : UsageDir) : Except PyErr JsonEntries :=
  match stored fl dir with
  | none                => .ok []
  | some (.dict entries) => .ok entries
  | some _              => .error ⟨.attribute, "object has no attribute 'update'"⟩

/-- `[int(totals[0]), int(totals[1])]` -/
def totalsJson (totals : Totals) : Json := .list [.num totals.1, .num totals.2]

/-- `merged.update(baselines)` -/
def updateAll (entries : JsonEntries) (baselines : List (String × Totals)) : JsonEntries :=
  baselines.foldl (fun acc e => assocSet e.1 (totalsJson e.2) acc) entries

/-- The text that is written. -/
def savedText (dir : UsageDir) (baselines : Dict String Totals) : Except PyErr (List Char) := do
  let entries ← oldEntries fl dir
  dumps fl (.dict (updateAll entries baselines.entries))

/-- `_save_usage_baselines`: what it does to the file. Its directory is taken
to be there. -/
def saveEffects (dir : UsageDir) (baselines : Dict String Totals) : List (Effect UsageFile Char) :=
  match savedText fl dir baselines with
  | .ok text => overwrite .baselines text
  | .error _ => []

-- ---------------------------------------------------------------------------
-- The next start
-- ---------------------------------------------------------------------------

/-- What the drivers of the listed cores are handed. -/
def handed (listed : String → Bool) (byCore : ByCore) : List (String × Dict String Totals) :=
  byCore.entries.filter fun e => listed e.1

/-- `restore_usage_baselines`, up to its exceptions. -/
def restore (listed : String → Bool) (dir : UsageDir) :
    Except PyErr (List (String × Dict String Totals)) :=
  match stored fl dir with
  | none   => .ok []
  | some v => (readBaselines v).map (handed listed)

/-- The mapping a save that is not interrupted leaves. -/
def mergedMapping (listed : String → Bool) (dir : UsageDir) (baselines : Dict String Totals) :
    Except PyErr (List (String × Dict String Totals)) := do
  let entries ← oldEntries fl dir
  (readBaselines (sorted (.dict (updateAll entries baselines.entries)))).map (handed listed)

variable {fl} {dir other : UsageDir} {baselines : Dict String Totals} {text : List Char}

-- ---------------------------------------------------------------------------
-- What is written
-- ---------------------------------------------------------------------------

theorem or_dict (entries : JsonEntries) : (Json.dict entries).or (.dict []) = .dict entries := by
  unfold Json.or
  cases entries <;> rfl

theorem tidy_stored {v : Json} (h : stored fl dir = some v) : Tidy fl v := by
  have hEmpty : Tidy fl (.dict []) := .dict [] List.nodup_nil fun e he => absurd he List.not_mem_nil
  unfold stored at h
  split at h
  · rw [← Option.some.inj h]
    exact hEmpty
  · split at h
    · rename_i w hLoads
      rw [← Option.some.inj h]
      unfold Json.or
      split
      · exact tidy_of_loads hLoads
      · exact hEmpty
    · cases h

/-- The entries of the file can be written. -/
theorem tidy_oldEntries {entries : JsonEntries} (h : oldEntries fl dir = .ok entries) :
    EntriesTidy fl entries := by
  unfold oldEntries at h
  split at h
  · obtain rfl := Except.ok.inj h
    exact ⟨List.nodup_nil, fun e he => absurd he List.not_mem_nil⟩
  · rename_i entries' hStored
    obtain rfl := Except.ok.inj h
    cases tidy_stored hStored with
    | dict _ hKeys hValues => exact ⟨hKeys, hValues⟩
  · cases h

/-- What an updated object holds is old or new. -/
theorem mem_updateAll {entries : JsonEntries} {l : List (String × Totals)} {e : String × Json}
    (h : e ∈ updateAll entries l) :
    e ∈ entries ∨ ∃ totals, e.2 = totalsJson totals := by
  induction l generalizing entries with
  | nil => exact Or.inl h
  | cons first rest ih =>
    rcases ih h with hOld | hNew
    · rcases mem_of_mem_assocSet hOld with rfl | hOld
      · exact Or.inr ⟨first.2, rfl⟩
      · exact Or.inl hOld
    · exact Or.inr hNew

theorem nodup_updateAll {entries : JsonEntries} (h : (entries.map Prod.fst).Nodup)
    (l : List (String × Totals)) : ((updateAll entries l).map Prod.fst).Nodup := by
  induction l generalizing entries with
  | nil => exact h
  | cons first rest ih => exact ih (assocSet_nodup h)

theorem tidy_totals {totals : Totals} (h : writable (totalsJson totals) = true) :
    Tidy fl (totalsJson totals) := by
  obtain ⟨up, down⟩ := totals
  rw [totalsJson, writable, writableItems_eq, List.all_eq_true] at h
  have hShort : ∀ n : Int, writable (.num n) = true → Tidy fl (.num n) := by
    intro n hn
    rw [writable] at hn
    exact .num n (of_decide_eq_true hn)
  refine .list _ fun x hx => ?_
  rcases List.mem_cons.mp hx with rfl | hx
  · exact hShort up (h _ (by simp))
  · obtain rfl := List.mem_singleton.mp hx
    exact hShort down (h _ (by simp))

/-- What could be written is read back. -/
theorem tidy_updateAll {entries : JsonEntries} (h : EntriesTidy fl entries)
    {l : List (String × Totals)} (hWritable : writable (.dict (updateAll entries l)) = true) :
    Tidy fl (.dict (updateAll entries l)) := by
  rw [writable, writableEntries_eq, List.all_eq_true] at hWritable
  refine .dict _ (nodup_updateAll h.1 l) fun e he => ?_
  rcases mem_updateAll he with hOld | ⟨totals, hNew⟩
  · exact h.2 e hOld
  · have hShort := hWritable e he
    rw [hNew] at hShort ⊢
    exact tidy_totals hShort

/-- The text is that of the merged object, and is read as it. -/
theorem savedText_ok (h : savedText fl dir baselines = .ok text) :
    ∃ entries, oldEntries fl dir = .ok entries ∧
      loads fl text = .ok (sorted (.dict (updateAll entries baselines.entries))) ∧
      ∃ cs, text = cs ++ ['}'] := by
  unfold savedText at h
  cases hOld : oldEntries fl dir with
  | error e =>
    rw [hOld] at h
    cases h
  | ok entries =>
    rw [hOld] at h
    have hDumps : dumps fl (.dict (updateAll entries baselines.entries)) = .ok text := h
    have hWritable : writable (.dict (updateAll entries baselines.entries)) = true := by
      by_contra hLong
      rw [dumps, if_neg hLong] at hDumps
      cases hDumps
    have hTidy := tidy_updateAll (tidy_oldEntries hOld) hWritable
    refine ⟨entries, rfl, loads_dumps hTidy hDumps, ?_⟩
    rw [dumps_of_tidy hTidy, sorted_dict] at hDumps
    rw [← Except.ok.inj hDumps]
    exact text_dict_closed _

-- ---------------------------------------------------------------------------
-- Where a save stops
-- ---------------------------------------------------------------------------

/-- The file after a save that ended with `n` of its effects done. -/
def interrupted (fl : Floats) (dir : UsageDir) (baselines : Dict String Totals) (n : Nat) :
    UsageDir :=
  stopped dir (saveEffects fl dir baselines) n

/-- The save has emptied the file and not written all of its text. -/
def CutOff (fl : Floats) (dir : UsageDir) (baselines : Dict String Totals) (n : Nat) : Prop :=
  ∃ text, savedText fl dir baselines = .ok text ∧ 1 ≤ n ∧ n ≤ text.length

theorem stored_of_content {mode : Nat} (h : dir .baselines = some ⟨text, mode⟩) {v : Json}
    (hLoads : loads fl text = .ok v) : stored fl dir = some (v.or (.dict [])) := by
  unfold stored
  rw [h]
  dsimp only
  rw [hLoads]

/--
**A file that was cut off** hands over nothing. A first part of the text is
never read as a value, and a file that cannot be read is taken for one that is
not there.
-/
theorem stored_cut {n : Nat} (h : CutOff fl dir baselines n) :
    stored fl (interrupted fl dir baselines n) = none := by
  obtain ⟨text, hText, hStarted, hShort⟩ := h
  obtain ⟨entries, -, hLoads, cs, rfl⟩ := savedText_ok hText
  have hContent : interrupted fl dir baselines n .baselines =
      some ⟨(cs ++ ['}']).take (n - 1), modeAt dir .baselines⟩ := by
    unfold interrupted saveEffects
    rw [hText]
    dsimp only
    rw [stopped_overwrite, if_neg (by omega), runAll_overwrite]
  rw [List.length_append, List.length_singleton] at hShort
  obtain ⟨e, hError, -⟩ := loads_take_of_closed hLoads (show n - 1 ≤ cs.length by omega)
  unfold stored
  rw [hContent]
  dsimp only
  rw [hError]

/-- A file that was cut off hands over nothing. -/
theorem restore_cut {n : Nat} (h : CutOff fl dir baselines n) (listed : String → Bool) :
    restore fl listed (interrupted fl dir baselines n) = .ok [] := by
  unfold restore
  rw [stored_cut h]

/--
**A save that ran to its end** hands over the merged mapping: the text reads
back as what was written, and the drivers get the cores' parts of it.
-/
theorem restore_saved (h : savedText fl dir baselines = .ok text) (listed : String → Bool) :
    restore fl listed (runAll dir (saveEffects fl dir baselines)) =
      mergedMapping fl listed dir baselines := by
  obtain ⟨entries, hOld, hLoads, -⟩ := savedText_ok h
  have hContent : runAll dir (saveEffects fl dir baselines) .baselines =
      some ⟨text, modeAt dir .baselines⟩ := by
    unfold saveEffects
    rw [h]
    exact runAll_overwrite text
  unfold restore mergedMapping
  rw [stored_of_content hContent hLoads, hOld, sorted_dict, or_dict, ← sorted_dict]
  rfl

/-- Where a save stops: it has not touched the file, or cut it off, or it is
through. -/
theorem interrupted_cases (n : Nat) :
    interrupted fl dir baselines n = dir ∨ CutOff fl dir baselines n ∨
      ∃ text, savedText fl dir baselines = .ok text ∧
        interrupted fl dir baselines n = runAll dir (saveEffects fl dir baselines) := by
  unfold interrupted
  cases hText : savedText fl dir baselines with
  | error e =>
    left
    unfold saveEffects stopped
    rw [hText]
    dsimp only
    rw [List.take_nil]
    rfl
  | ok text =>
    have hEffects : saveEffects fl dir baselines = overwrite .baselines text := by
      unfold saveEffects
      rw [hText]
    have hLength : (saveEffects fl dir baselines).length = text.length + 1 := by
      rw [hEffects, overwrite, writes, List.length_cons, List.length_map]
    rcases Nat.lt_or_ge n 1 with hFirst | hStarted
    · left
      rw [hEffects, stopped_overwrite, if_pos (by omega)]
    · rcases Nat.lt_or_ge text.length n with hDone | hShort
      · exact Or.inr (Or.inr ⟨text, rfl, stopped_of_length_le (by omega)⟩)
      · exact Or.inr (Or.inl ⟨text, hText, hStarted, hShort⟩)

/-- After a crash the drivers are handed the mapping before the save, or the
merged one. -/
def CrashSafe (fl : Floats) (listed : String → Bool) (dir : UsageDir)
    (baselines : Dict String Totals) (n : Nat) : Prop :=
  restore fl listed (interrupted fl dir baselines n) = restore fl listed dir ∨
    restore fl listed (interrupted fl dir baselines n) = mergedMapping fl listed dir baselines

/--
**Crashes.** For every file there is or is not, every new baselines and every
number of effects after which the process ends: the next start hands the
drivers the mapping before the save or the merged one, **if and only if** it is
not so that the file was emptied and not all of the text written, while neither
of the two mappings is empty.
-/
theorem crash_safe_iff (fl : Floats) (listed : String → Bool) (dir : UsageDir)
    (baselines : Dict String Totals) (n : Nat) :
    CrashSafe fl listed dir baselines n ↔
      ¬ (CutOff fl dir baselines n ∧ restore fl listed dir ≠ .ok [] ∧
        mergedMapping fl listed dir baselines ≠ .ok []) := by
  unfold CrashSafe
  constructor
  · rintro hSafe ⟨hCut, hBefore, hMerged⟩
    rw [restore_cut hCut] at hSafe
    rcases hSafe with hSame | hSame
    · exact hBefore hSame.symm
    · exact hMerged hSame.symm
  · intro h
    rcases @interrupted_cases fl dir baselines n with hSame | hCut | ⟨text, hText, hDone⟩
    · rw [hSame]
      exact Or.inl rfl
    · rw [restore_cut hCut]
      by_cases hBefore : restore fl listed dir = .ok []
      · exact Or.inl hBefore.symm
      · right
        by_contra hMerged
        exact h ⟨hCut, hBefore, fun hEmpty => hMerged hEmpty.symm⟩
    · rw [hDone]
      exact Or.inr (restore_saved hText listed)

-- ---------------------------------------------------------------------------
-- The save after that
-- ---------------------------------------------------------------------------

/--
**What is lost.** On a file that was cut off the next save merges over nothing:
all cursors it has none of its own for are gone. So a crash is not made good by
the saves after it.
-/
theorem lost_after_cut {n : Nat} (h : CutOff fl dir baselines n) (listed : String → Bool)
    (next : Dict String Totals)
    (hText : savedText fl (interrupted fl dir baselines n) next = .ok text) :
    restore fl listed (runAll (interrupted fl dir baselines n)
        (saveEffects fl (interrupted fl dir baselines n) next)) =
      (readBaselines (sorted (.dict (updateAll [] next.entries)))).map (handed listed) := by
  rw [restore_saved hText]
  unfold mergedMapping oldEntries
  rw [stored_cut h]
  rfl

-- ---------------------------------------------------------------------------
-- A file that was cut off
-- ---------------------------------------------------------------------------

theorem half_read (token : List Char) (q : Rat) (_ : isFloatNumeral token = true)
    (h : PyFloat.finite (1 / 2) = .finite q) :
    isFloatNumeral "0.5".toList = true ∧ PyFloat.finite (1 / 2) = .finite q :=
  ⟨by decide, h⟩

/-- Floats that are all one half, for texts without any. -/
def halves : Floats where
  repr  := fun _ => "0.5".toList
  parse := fun _ => .finite (1 / 2)
  parse_repr := half_read

/-- `{"xray:a": [1, 2]}` -/
def oneCursor : UsageDir := fun _ => some ⟨"\x7b\"xray:a\": [1, 2]\x7d".toList, 0o644⟩

def otherCursor : Dict String Totals := .ofPairs [("xray:b", (3, 4))]

/-- How many cores are handed a mapping. -/
def coreCount (calls : Except PyErr (List (String × Dict String Totals))) : Option Nat :=
  match calls with
  | .ok l    => some l.length
  | .error _ => none

theorem ne_nil_of_count {calls : Except PyErr (List (String × Dict String Totals))}
    (h : coreCount calls = some 1) : calls ≠ .ok [] := by
  rintro rfl
  cases h

/-- The length of the text that is written. -/
def savedLength (text : Except PyErr (List Char)) : Option Nat :=
  match text with
  | .ok cs   => some cs.length
  | .error _ => none

theorem cutOff_one {length : Nat} (h : savedLength (savedText fl dir baselines) = some length)
    (hLength : 1 ≤ length) : CutOff fl dir baselines 1 := by
  cases hText : savedText fl dir baselines with
  | error e =>
    rw [hText] at h
    cases h
  | ok text =>
    rw [hText] at h
    obtain rfl : text.length = length := Option.some.inj h
    exact ⟨text, hText, Nat.le_refl 1, hLength⟩

/-- The process ends when the file has just been emptied: the next start hands
nothing to the driver, whose cursor was in the file and is in the merged
mapping. -/
theorem cut_file_forgets : ¬ CrashSafe halves (fun _ => true) oneCursor otherCursor 1 := by
  have hCut : CutOff halves oneCursor otherCursor 1 :=
    cutOff_one (show savedLength (savedText halves oneCursor otherCursor) = some 36 by
      decide +kernel) (by decide)
  have hBefore : coreCount (restore halves (fun _ => true) oneCursor) = some 1 := by
    decide +kernel
  have hMerged :
      coreCount (mergedMapping halves (fun _ => true) oneCursor otherCursor) = some 1 := by
    decide +kernel
  unfold CrashSafe
  rw [restore_cut hCut]
  rintro (hSame | hSame)
  · exact ne_nil_of_count hBefore hSame.symm
  · exact ne_nil_of_count hMerged hSame.symm

end ZagrosNode.Usage
