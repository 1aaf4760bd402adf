import ZagrosNode.Lib.JsonText
import ZagrosNode.Lib.Object

/-!
# ZagrosNode — what is written is read

The reader and the writer of JSON texts belong together: a value that can be
written is read back, a value that was read can be written, and of the text of
an object no first part is the text of anything, so that a file that was cut
off cannot be taken for another one.

The round trip is by induction over the value, and its statement has to say where in
a text the value stands. `Reads` does: from any place a value may begin, the reader
gets over the text of the value to the place after it, with whatever was open still
open. Scalars are closed by the character behind them, which is why numbers are
`arrive`d at and not read.

`Tidy` is what the values have in common that come out of a reader: no key twice in
an object, no number the reader would take for another. It is kept by every step
of the reader (`tidy_step`), so by a run, and a tidy value is one the writer takes.

The last result is about a file that was written in part. The text of an object ends
in a brace, and a reader that could finish before it has nothing open: it is `Over`,
no text leads out of that, and a brace that closes nothing makes it fail. So the
whole text would not have been read.

Main results:

* `loads_text` — a written value is read back.
* `loads_dumps` — and so it is with its keys sorted.
* `tidy_of_loads` — a value that was read can be written.
* `loads_take_of_closed` — no first part of the text of an object is the text
  of a value.
-/

namespace ZagrosNode.Lib.JsonText

variable {fl : Floats}

-- ---------------------------------------------------------------------------
-- Values that can be written
-- ---------------------------------------------------------------------------

variable (fl) in
/-- The value is one a text can have: its integers are short enough, its floats
are doubles, and no key of an object comes twice. -/
inductive Tidy : Json → Prop
  | null : Tidy .null
  | bool (b : Bool) : Tidy (.bool b)
  | num (n : Int) (h : n.natAbs < 10 ^ maxStrDigits) : Tidy (.num n)
  | inf : Tidy (.float .inf)
  | negInf : Tidy (.float .negInf)
  | nan : Tidy (.float .nan)
  | finite (q : Rat) (token : List Char) (h : isFloatNumeral token = true)
      (hParse : fl.parse token = .finite q) : Tidy (.float (.finite q))
  | str (s : String) : Tidy (.str s)
  | list (xs : List Json) (h : ∀ x ∈ xs, Tidy x) : Tidy (.list xs)
  | dict (entries : JsonEntries) (hKeys : (entries.map Prod.fst).Nodup)
      (h : ∀ e ∈ entries, Tidy e.2) : Tidy (.dict entries)

variable (fl) in
/-- Where a reader is once it has read the text of a value: a number may go on. -/
def arrive (v : Json) (around : List Frame) : Reader :=
  match v with
  | .num n             => .number (intChars n) around
  | .float (.finite q) => .number (fl.repr q) around
  | v                  => .done v around

variable (fl) in
/-- The reader reads the text of the value. -/
def Reads (v : Json) : Prop :=
  ∀ around, feed fl (.value around) (text fl v) = arrive fl v around

/-- What comes after a value ends the number it may be. -/
theorem step_arrive {v : Json} (h : Tidy fl v) {c : Char} (hc : isNumberChar c = false)
    (around : List Frame) : step fl (arrive fl v around) c = afterValue v around c := by
  cases h with
  | num n hShort =>
    exact step_number (Or.inl (isIntNumeral_intChars n)) (numberOf_intChars hShort) hc _
  | finite q token hToken hParse =>
    obtain ⟨hNumeral, hSame⟩ := fl.parse_repr token q hToken hParse
    have hNumber : numberOf fl (fl.repr q) = some (.float (.finite q)) := by
      rw [numberOf_float hNumeral, hSame]
    exact step_number (Or.inr hNumeral) hNumber hc around
  | null | bool | inf | negInf | nan | str | list | dict => rfl

theorem finish_arrive {v : Json} (h : Tidy fl v) : finish fl (arrive fl v []) = some v := by
  cases h with
  | num n hShort => exact numberOf_intChars hShort
  | finite q token hToken hParse =>
    obtain ⟨hNumeral, hSame⟩ := fl.parse_repr token q hToken hParse
    show numberOf fl (fl.repr q) = _
    rw [numberOf_float hNumeral, hSame]
  | null | bool | inf | negInf | nan | str | list | dict => rfl

/-- The text of a value begins with a character that starts one. -/
theorem text_head {v : Json} (h : Tidy fl v) :
    ∃ c cs, text fl v = c :: cs ∧ isJsonSpace c = false ∧ c ≠ ']' := by
  -- a numeral begins with a digit or a minus sign
  have hNumeral : ∀ {token : List Char}, IsNumeral token →
      ∃ c cs, token = c :: cs ∧ isJsonSpace c = false ∧ c ≠ ']' := by
    intro token hToken
    obtain ⟨c, cs, hCons, hStart, -⟩ := hToken.head
    refine ⟨c, cs, hCons, ?_, ?_⟩
    · rw [Bool.eq_false_iff]
      intro hSpace
      simp only [isJsonSpace, Bool.or_eq_true, beq_iff_eq] at hSpace
      rcases hSpace with ((rfl | rfl) | rfl) | rfl <;> exact absurd hStart (by decide)
    · rintro rfl
      exact absurd hStart (by decide)
  cases h with
  | num n hShort =>
    rw [text]
    exact hNumeral (Or.inl (isIntNumeral_intChars n))
  | finite q token hToken hParse =>
    rw [text]
    exact hNumeral (Or.inr (fl.parse_repr token q hToken hParse).1)
  | bool b =>
    cases b
    · exact ⟨'f', _, rfl, rfl, by decide⟩
    · exact ⟨'t', _, rfl, rfl, by decide⟩
  | null => exact ⟨'n', _, rfl, rfl, by decide⟩
  | inf => exact ⟨'I', _, rfl, rfl, by decide⟩
  | negInf => exact ⟨'-', _, rfl, rfl, by decide⟩
  | nan => exact ⟨'N', _, rfl, rfl, by decide⟩
  | str s => exact ⟨'"', _, rfl, rfl, by decide⟩
  | list xs _ => cases xs <;> exact ⟨'[', _, rfl, rfl, by decide⟩
  | dict entries _ _ =>
    rcases entries with - | ⟨⟨key, v⟩, rest⟩ <;> exact ⟨'{', _, rfl, rfl, by decide⟩

/-- The first item of a list is read like any value. -/
theorem feed_item {v : Json} (h : Tidy fl v) (hReads : Reads fl v) (around : List Frame)
    (rest : List Char) :
    feed fl (.item around) (text fl v ++ rest) = feed fl (arrive fl v around) rest := by
  obtain ⟨c, cs, hText, hSpace, hClose⟩ := text_head h
  have hStep : step fl (.item around) c = step fl (.value around) c := by
    have hPlain : ¬ isJsonSpace c = true := by rw [hSpace]; decide
    have hValue : step fl (.value around) c = startValue around c := if_neg hPlain
    rw [hValue]
    show (if isJsonSpace c = true then _ else if c = ']' then _ else startValue around c) = _
    rw [if_neg hPlain, if_neg hClose]
  rw [← hReads around, ← feed_append, hText]
  show feed fl (step fl (.item around) c) (cs ++ rest) = _
  rw [hStep]
  rfl

theorem feed_value {v : Json} (hReads : Reads fl v) (around : List Frame) (rest : List Char) :
    feed fl (.value around) (text fl v ++ rest) = feed fl (arrive fl v around) rest := by
  rw [feed_append, hReads around]

theorem step_comma_list {v : Json} (h : Tidy fl v) (items : List Json) (around : List Frame) :
    step fl (arrive fl v (.list items :: around)) ',' =
      .value (.list (items ++ [v]) :: around) := by
  rw [step_arrive h rfl]
  rfl

theorem step_comma_dict {v : Json} (h : Tidy fl v) (entries : JsonEntries) (key : String)
    (around : List Frame) : step fl (arrive fl v (.dict entries key :: around)) ',' =
      .key (assocSet key v entries) false around := by
  rw [step_arrive h rfl]
  rfl

/-- The items after the first, up to the bracket. -/
theorem feed_moreItems {rest : List Json} (hTidy : ∀ x ∈ rest, Tidy fl x)
    (hReads : ∀ x ∈ rest, Reads fl x) {v : Json} (h : Tidy fl v) (items : List Json)
    (around : List Frame) :
    feed fl (arrive fl v (.list items :: around)) (moreItems fl rest) =
      .done (.list (items ++ v :: rest)) around := by
  induction rest generalizing v items with
  | nil =>
    rw [moreItems, feed_cons, step_arrive h rfl]
    rfl
  | cons x rest ih =>
    have hx := hTidy x List.mem_cons_self
    rw [moreItems, feed_cons, step_comma_list h, feed_cons]
    show feed fl (.value (.list (items ++ [v]) :: around)) (text fl x ++ moreItems fl rest) = _
    rw [feed_value (hReads x List.mem_cons_self),
      ih (fun y hy => hTidy y (List.mem_cons_of_mem x hy))
        (fun y hy => hReads y (List.mem_cons_of_mem x hy)) hx, List.append_assoc,
      List.singleton_append]

/-- A key and the colon after it. -/
theorem feed_key (entries : JsonEntries) (first : Bool) (key : String) (around : List Frame)
    (rest : List Char) :
    feed fl (.key entries first around) (quote key ++ [':', ' '] ++ rest) =
      feed fl (.value (.dict entries key :: around)) rest := by
  have hOpen : step fl (.key entries first around) '"' =
      .quoted (.key entries) [] .plain around := by
    cases first <;> rfl
  have hChars : quote key ++ [':', ' '] ++ rest =
      '"' :: (key.toList.flatMap escapeChar ++ '"' :: ':' :: ' ' :: rest) := by
    simp [quote]
  rw [hChars, feed_cons, hOpen, feed_quoted]
  show feed fl (.value (.dict entries (String.ofList key.toList) :: around)) rest = _
  rw [String.ofList_toList]

/-- The entries after the first, up to the brace. -/
theorem feed_moreEntries {rest : JsonEntries} (hTidy : ∀ e ∈ rest, Tidy fl e.2)
    (hReads : ∀ e ∈ rest, Reads fl e.2) {v : Json} (h : Tidy fl v) (entries : JsonEntries)
    (key : String) (hKeys : (entries.map Prod.fst ++ key :: rest.map Prod.fst).Nodup)
    (around : List Frame) :
    feed fl (arrive fl v (.dict entries key :: around)) (moreEntries fl rest) =
      .done (.dict (entries ++ (key, v) :: rest)) around := by
  -- on the entries to come; those read so far are in the frame
  induction rest generalizing v entries key with
  | nil =>
    -- a key that comes again would replace the entry
    have hNew : key ∉ entries.map Prod.fst :=
      fun hMem => (List.nodup_append.mp hKeys).2.2 key hMem key (by simp) rfl
    rw [moreEntries, feed_cons, step_arrive h rfl]
    show Reader.done (.dict (assocSet key v entries)) around = _
    rw [Dict.assocSet_append hNew]
  | cons e rest ih =>
    obtain ⟨key', v'⟩ := e
    have hNew : key ∉ entries.map Prod.fst :=
      fun hMem => (List.nodup_append.mp hKeys).2.2 key hMem key (by simp) rfl
    have hRest : ((entries ++ [(key, v)]).map Prod.fst ++ key' :: rest.map Prod.fst).Nodup := by
      simpa using hKeys
    rw [moreEntries, feed_cons, step_comma_dict h, feed_cons, Dict.assocSet_append hNew]
    show feed fl (.key (entries ++ [(key, v)]) false around)
      (quote key' ++ [':', ' '] ++ text fl v' ++ moreEntries fl rest) = _
    rw [List.append_assoc, feed_key, feed_value (hReads _ List.mem_cons_self),
      ih (fun e he => hTidy e (List.mem_cons_of_mem _ he))
        (fun e he => hReads e (List.mem_cons_of_mem _ he)) (hTidy _ List.mem_cons_self) _ _ hRest,
      List.append_assoc, List.singleton_append]

/--
**The text of a value is read as the value**, whatever stands behind it, and
the reader is then where it was with the value in hand. By induction on the
value; the invariant names the reader's stack.
-/
theorem reads_text {v : Json} (h : Tidy fl v) : Reads fl v := by
  -- on the value, for any frames around it
  induction h with
  | null => exact fun around => rfl
  | bool b => cases b <;> exact fun around => rfl
  | num n hShort =>
    intro around
    rw [text]
    exact feed_numeral (Or.inl (isIntNumeral_intChars n)) around
  | inf => exact fun around => rfl
  | negInf => exact fun around => rfl
  | nan => exact fun around => rfl
  | finite q token hToken hParse =>
    intro around
    rw [text]
    exact feed_numeral (Or.inr (fl.parse_repr token q hToken hParse).1) around
  | str s =>
    intro around
    rw [text]
    show feed fl (.quoted .value [] .plain around) (s.toList.flatMap escapeChar ++ ['"']) = _
    rw [feed_quoted]
    show Reader.done (.str (String.ofList s.toList)) around = _
    rw [String.ofList_toList]
    rfl
  -- the first item, and then the others, each behind a comma
  | list xs hTidy ih =>
    intro around
    cases xs with
    | nil => rfl
    | cons x rest =>
      rw [text, feed_cons]
      show feed fl (.item (.list [] :: around)) (text fl x ++ moreItems fl rest) = _
      rw [feed_item (hTidy x List.mem_cons_self) (ih x List.mem_cons_self),
        feed_moreItems (fun y hy => hTidy y (List.mem_cons_of_mem x hy))
          (fun y hy => ih y (List.mem_cons_of_mem x hy)) (hTidy x List.mem_cons_self)]
      rfl
  -- the same with a key before each value
  | dict entries hKeys hTidy ih =>
    intro around
    cases entries with
    | nil => rfl
    | cons e rest =>
      obtain ⟨key, v⟩ := e
      rw [text, feed_cons]
      show feed fl (.key [] true around)
        (quote key ++ [':', ' '] ++ text fl v ++ moreEntries fl rest) = _
      rw [List.append_assoc, feed_key, feed_value (ih _ List.mem_cons_self),
        feed_moreEntries (fun e he => hTidy e (List.mem_cons_of_mem _ he))
          (fun e he => ih e (List.mem_cons_of_mem _ he)) (hTidy _ List.mem_cons_self) _ _
          (by simpa using hKeys)]
      rfl

/--
**Round trip.** A tidy value, one whose numbers and keys have a text of their
own, is read back from its text.
-/
theorem loads_text {v : Json} (h : Tidy fl v) : loads fl (text fl v) = .ok v := by
  unfold loads
  rw [reads_text h [], finish_arrive h]

-- ---------------------------------------------------------------------------
-- Sorted keys
-- ---------------------------------------------------------------------------

theorem sortedItems_eq (xs : List Json) : sortedItems xs = xs.map sorted := by
  induction xs with
  | nil => rfl
  | cons x rest ih => rw [sortedItems, ih, List.map_cons]

theorem sortedEntries_eq (entries : JsonEntries) :
    sortedEntries entries = entries.map fun e => (e.1, sorted e.2) := by
  induction entries with
  | nil => rfl
  | cons e rest ih => rw [sortedEntries, ih, List.map_cons]

theorem sorted_dict (entries : JsonEntries) :
    sorted (.dict entries) =
      .dict ((entries.map fun e => (e.1, sorted e.2)).insertionSort byKey) := by
  rw [sorted, sortedEntries_eq]

theorem tidy_sorted {v : Json} (h : Tidy fl v) : Tidy fl (sorted v) := by
  induction h with
  | list xs _ ih =>
    rw [sorted, sortedItems_eq]
    refine .list _ fun x hx => ?_
    obtain ⟨y, hy, rfl⟩ := List.mem_map.mp hx
    exact ih y hy
  | dict entries hKeys _ ih =>
    have hPerm := List.perm_insertionSort byKey (entries.map fun e => (e.1, sorted e.2))
    rw [sorted_dict]
    refine .dict _ ?_ fun e he => ?_
    · rw [(hPerm.map Prod.fst).nodup_iff, List.map_map]
      exact hKeys
    · obtain ⟨old, hOld, rfl⟩ := List.mem_map.mp (hPerm.mem_iff.mp he)
      exact ih old hOld
  | null => exact .null
  | bool b => exact .bool b
  | num n hShort => exact .num n hShort
  | inf => exact .inf
  | negInf => exact .negInf
  | nan => exact .nan
  | finite q token hToken hParse => exact .finite q token hToken hParse
  | str s => exact .str s

theorem writableItems_eq (xs : List Json) : writableItems xs = xs.all writable := by
  induction xs with
  | nil => rfl
  | cons x rest ih => rw [writableItems, ih, List.all_cons]

theorem writableEntries_eq (entries : JsonEntries) :
    writableEntries entries = entries.all fun e => writable e.2 := by
  induction entries with
  | nil => rfl
  | cons e rest ih => rw [writableEntries, ih, List.all_cons]

theorem writable_of_tidy {v : Json} (h : Tidy fl v) : writable v = true := by
  induction h with
  | num n hShort =>
    rw [writable]
    exact decide_eq_true hShort
  | list xs _ ih =>
    rw [writable, writableItems_eq, List.all_eq_true]
    exact ih
  | dict entries _ _ ih =>
    rw [writable, writableEntries_eq, List.all_eq_true]
    exact ih
  | null | bool | inf | negInf | nan | finite | str => rfl

theorem dumps_of_tidy {v : Json} (h : Tidy fl v) : dumps fl v = .ok (text fl (sorted v)) := by
  rw [dumps, if_pos (writable_of_tidy h)]

/--
**Round trip**, with the keys in order. `json.dumps` is asked to sort them, so
the value that comes back is the value with its objects sorted.
-/
theorem loads_dumps {v : Json} (h : Tidy fl v) {cs : List Char} (hDumps : dumps fl v = .ok cs) :
    loads fl cs = .ok (sorted v) := by
  rw [dumps_of_tidy h] at hDumps
  rw [← Except.ok.inj hDumps, loads_text (tidy_sorted h)]

/-- What an object with its keys in order holds under a key. -/
theorem get?_sorted {entries : JsonEntries} (h : (entries.map Prod.fst).Nodup) (key : String) :
    Json.get? ((entries.map fun e => (e.1, sorted e.2)).insertionSort byKey) key =
      (Json.get? entries key).map sorted := by
  have hPerm := List.perm_insertionSort byKey (entries.map fun e => (e.1, sorted e.2))
  have hKeys : (((entries.map fun e => (e.1, sorted e.2)).insertionSort byKey).map
      Prod.fst).Nodup := by
    rw [(hPerm.map Prod.fst).nodup_iff, List.map_map]
    exact h
  rw [Json.get?_eq_assocGet?, Json.get?_eq_assocGet?]
  cases hGet : assocGet? key entries with
  | none =>
    rw [assocGet?_eq_none] at hGet
    rw [Option.map_none, assocGet?_eq_none, (hPerm.map Prod.fst).mem_iff, List.map_map]
    exact hGet
  | some v =>
    have hMem := assocGet?_mem hGet
    exact assocGet?_of_mem hKeys (hPerm.mem_iff.mpr (List.mem_map.mpr ⟨(key, v), hMem, rfl⟩))

-- ---------------------------------------------------------------------------
-- First parts of a text
-- ---------------------------------------------------------------------------

/-- Nothing is open, and nothing can be opened any more. -/
def Over : Reader → Prop
  | .done _ []         => True
  | .number _ []       => True
  | .literal left _ [] => '}' ∉ left
  | .failed            => True
  | _                  => False

theorem over_afterValue (v : Json) (c : Char) : Over (afterValue v [] c) := by
  unfold afterValue
  split <;> trivial

theorem over_step {r : Reader} (h : Over r) (c : Char) : Over (step fl r c) := by
  -- only readers outside of every frame are meant
  cases r with
  | done v around =>
    cases around with
    | nil => exact over_afterValue v c
    | cons => exact h.elim
  | number token around =>
    cases around with
    | nil =>
      rw [step_number_eq]
      split
      · trivial
      split
      · show '}' ∉ "nfinity".toList
        decide
      · cases numberOf fl token with
        | some v => exact over_afterValue v c
        | none => trivial
    | cons => exact h.elim
  | literal left v around =>
    cases around with
    | nil =>
      cases left with
      | nil => trivial
      | cons l rest =>
        show Over
          (if c = l then (if rest.isEmpty then .done v [] else .literal rest v []) else .failed)
        split
        · split
          · trivial
          · exact fun hMem => h (List.mem_cons_of_mem l hMem)
        · trivial
    | cons => exact h.elim
  | failed => trivial
  | value | item | key | colon | quoted => exact h.elim

/-- A brace cannot follow. -/
theorem step_brace_of_over {r : Reader} (h : Over r) : step fl r '}' = .failed := by
  cases r with
  | done v around =>
    cases around with
    | nil => rfl
    | cons => exact h.elim
  | number token around =>
    cases around with
    | nil =>
      rw [step_number_eq, if_neg (by decide), if_neg fun hBoth => absurd hBoth.2 (by decide)]
      cases numberOf fl token <;> rfl
    | cons => exact h.elim
  | literal left v around =>
    cases around with
    | nil =>
      cases left with
      | nil => rfl
      | cons l rest =>
        have hNe : '}' ≠ l := fun hEq => h (hEq ▸ List.mem_cons_self)
        exact if_neg hNe
    | cons => exact h.elim
  | failed => rfl
  | value | item | key | colon | quoted => exact h.elim

theorem over_feed {r : Reader} (h : Over r) (cs : List Char) : Over (feed fl r cs) := by
  induction cs generalizing r with
  | nil => exact h
  | cons c cs ih => exact ih (over_step h c)

theorem over_of_finish {r : Reader} {v : Json} (h : finish fl r = some v) : Over r := by
  unfold finish at h
  split at h
  · trivial
  · trivial
  · cases h

/--
**First parts.** No first part of a text that ends with the brace of an object
is the text of a value. So a file that was cut off while it was written is
never read as another, shorter one.
-/
theorem loads_take_of_closed {cs : List Char} {v : Json} (h : loads fl (cs ++ ['}']) = .ok v)
    {n : Nat} (hn : n ≤ cs.length) :
    ∃ e, loads fl ((cs ++ ['}']).take n) = .error e ∧ e.isValueError = true := by
  rw [List.take_append_of_le_length hn]
  unfold loads at h ⊢
  cases hPart : finish fl (feed fl (.value []) (cs.take n)) with
  | none => exact ⟨_, rfl, rfl⟩
  | some w =>
    have hOver : Over (feed fl (.value []) cs) := by
      rw [← List.take_append_drop n cs, feed_append]
      exact over_feed (over_of_finish hPart) _
    have hFailed : feed fl (.value []) (cs ++ ['}']) = .failed := by
      rw [feed_append]
      exact step_brace_of_over hOver
    rw [hFailed] at h
    cases h

/-- The text of an object ends with a brace. -/
theorem text_dict_closed (entries : JsonEntries) :
    ∃ cs, text fl (.dict entries) = cs ++ ['}'] := by
  have hMore : ∀ rest : JsonEntries, ∃ cs, moreEntries fl rest = cs ++ ['}'] := by
    intro rest
    induction rest with
    | nil => exact ⟨[], rfl⟩
    | cons e rest ih =>
      obtain ⟨cs, hcs⟩ := ih
      obtain ⟨key, v⟩ := e
      refine ⟨',' :: ' ' :: (quote key ++ [':', ' '] ++ text fl v ++ cs), ?_⟩
      rw [moreEntries, hcs]
      simp
  cases entries with
  | nil => exact ⟨['{'], rfl⟩
  | cons e rest =>
    obtain ⟨cs, hcs⟩ := hMore rest
    obtain ⟨key, v⟩ := e
    refine ⟨'{' :: (quote key ++ [':', ' '] ++ text fl v ++ cs), ?_⟩
    rw [text, hcs]
    simp

/-- A space after a text is of no account. -/
theorem loads_append_space {cs : List Char} {v : Json} (h : loads fl cs = .ok v) {c : Char}
    (hc : isJsonSpace c = true) : loads fl (cs ++ [c]) = .ok v := by
  unfold loads at h ⊢
  rw [feed_append]
  generalize feed fl (.value []) cs = r at h ⊢
  split at h
  · rename_i w hFinish
    obtain rfl := Except.ok.inj h
    -- at the end of a text the reader is done, or has a numeral before it
    have hDone : step fl r c = .done w [] := by
      unfold finish at hFinish
      split at hFinish
      · obtain rfl := Option.some.inj hFinish
        exact if_pos hc
      · rename_i token
        have hPlain : ¬ isNumberChar c = true := by
          intro hNumber
          simp only [isJsonSpace, Bool.or_eq_true, beq_iff_eq] at hc
          rcases hc with ((rfl | rfl) | rfl) | rfl <;> exact absurd hNumber (by decide)
        have hSign : ¬ (token = ['-'] ∧ c = 'I') := by
          rintro ⟨-, rfl⟩
          exact absurd hc (by decide)
        rw [step_number_eq, if_neg hPlain, if_neg hSign, hFinish]
        exact if_pos hc
      · cases hFinish
    rw [feed_cons, feed_nil, hDone]
    rfl
  · cases h

-- ---------------------------------------------------------------------------
-- What is read can be written
-- ---------------------------------------------------------------------------

variable (fl) in
/-- The entries of an object that is open. -/
def EntriesTidy (entries : JsonEntries) : Prop :=
  (entries.map Prod.fst).Nodup ∧ ∀ e ∈ entries, Tidy fl e.2

variable (fl) in
def FrameTidy : Frame → Prop
  | .list items     => ∀ x ∈ items, Tidy fl x
  | .dict entries _ => EntriesTidy fl entries

variable (fl) in
def Purpose.Tidy : Purpose → Prop
  | .value       => True
  | .key entries => EntriesTidy fl entries

variable (fl) in
/-- Everything a reader holds can be written. -/
def ReaderTidy : Reader → Prop
  | .value around              => ∀ f ∈ around, FrameTidy fl f
  | .item around               => ∀ f ∈ around, FrameTidy fl f
  | .key entries _ around      => EntriesTidy fl entries ∧ ∀ f ∈ around, FrameTidy fl f
  | .colon entries _ around    => EntriesTidy fl entries ∧ ∀ f ∈ around, FrameTidy fl f
  | .quoted purpose _ _ around => purpose.Tidy fl ∧ ∀ f ∈ around, FrameTidy fl f
  | .number _ around           => ∀ f ∈ around, FrameTidy fl f
  | .literal _ v around        => Tidy fl v ∧ ∀ f ∈ around, FrameTidy fl f
  | .done v around             => Tidy fl v ∧ ∀ f ∈ around, FrameTidy fl f
  | .failed                    => True

theorem mem_of_mem_assocSet {key : String} {v : Json} {entries : JsonEntries} {e : String × Json}
    (h : e ∈ assocSet key v entries) : e = (key, v) ∨ e ∈ entries := by
  induction entries with
  | nil => exact Or.inl (List.mem_singleton.mp h)
  | cons first rest ih =>
    rw [assocSet] at h
    split at h
    · rcases List.mem_cons.mp h with hNew | hRest
      · exact Or.inl hNew
      · exact Or.inr (List.mem_cons_of_mem _ hRest)
    · rcases List.mem_cons.mp h with rfl | hRest
      · exact Or.inr List.mem_cons_self
      · exact (ih hRest).imp_right (List.mem_cons_of_mem _)

theorem entriesTidy_assocSet {entries : JsonEntries} (h : EntriesTidy fl entries) (key : String)
    {v : Json} (hv : Tidy fl v) : EntriesTidy fl (assocSet key v entries) := by
  refine ⟨assocSet_nodup h.1, fun e he => ?_⟩
  rcases mem_of_mem_assocSet he with rfl | hOld
  · exact hv
  · exact h.2 e hOld

theorem tidy_numberOf {token : List Char} {v : Json} (h : numberOf fl token = some v) :
    Tidy fl v := by
  unfold numberOf at h
  split at h
  · split at h
    · rename_i n hInt
      obtain rfl := Option.some.inj h
      exact .num n (natAbs_lt_of_intOfChars hInt)
    · cases h
  split at h
  · rename_i hFloat
    obtain rfl := Option.some.inj h
    cases hParse : fl.parse token with
    | finite q => exact .finite q token hFloat hParse
    | inf => exact .inf
    | negInf => exact .negInf
    | nan => exact .nan
  · cases h

theorem tidy_startValue {around : List Frame} (h : ∀ f ∈ around, FrameTidy fl f) (c : Char) :
    ReaderTidy fl (startValue around c) := by
  unfold startValue
  split
  · exact ⟨trivial, h⟩
  split
  · refine fun f hf => ?_
    rcases List.mem_cons.mp hf with rfl | hf
    · exact fun x hx => absurd hx List.not_mem_nil
    · exact h f hf
  split
  · exact ⟨⟨List.nodup_nil, fun e he => absurd he List.not_mem_nil⟩, h⟩
  split
  · exact ⟨.null, h⟩
  split
  · exact ⟨.bool true, h⟩
  split
  · exact ⟨.bool false, h⟩
  split
  · exact ⟨.nan, h⟩
  split
  · exact ⟨.inf, h⟩
  split
  · exact h
  · trivial

theorem tidy_afterValue {v : Json} (hv : Tidy fl v) {around : List Frame}
    (h : ∀ f ∈ around, FrameTidy fl f) (c : Char) : ReaderTidy fl (afterValue v around c) := by
  unfold afterValue
  split
  · exact ⟨hv, h⟩
  -- the frame the value goes into: a list, or an object under a key
  cases around with
  | nil => trivial
  | cons f rest =>
    have hRest : ∀ g ∈ rest, FrameTidy fl g := fun g hg => h g (List.mem_cons_of_mem f hg)
    cases f with
    | list items =>
      have hItems : ∀ x ∈ items ++ [v], Tidy fl x := by
        intro x hx
        rcases List.mem_append.mp hx with hOld | hNew
        · exact h _ List.mem_cons_self x hOld
        · rw [List.mem_singleton.mp hNew]
          exact hv
      dsimp only
      split
      · refine fun g hg => ?_
        rcases List.mem_cons.mp hg with rfl | hg
        · exact hItems
        · exact hRest g hg
      split
      · exact ⟨.list _ hItems, hRest⟩
      · trivial
    | dict entries key =>
      have hEntries := entriesTidy_assocSet (h _ List.mem_cons_self) key hv
      dsimp only
      split
      · exact ⟨hEntries, hRest⟩
      split
      · exact ⟨.dict _ hEntries.1 hEntries.2, hRest⟩
      · trivial

theorem tidy_quoted {purpose : Purpose} (hPurpose : purpose.Tidy fl) {around : List Frame}
    (h : ∀ f ∈ around, FrameTidy fl f) (e : Option (List Char × Escape)) :
    ReaderTidy fl (e.elim .failed fun e => .quoted purpose e.1 e.2 around) := by
  cases e with
  | none => trivial
  | some e => exact ⟨hPurpose, h⟩

theorem tidy_closeQuoted {purpose : Purpose} (hPurpose : purpose.Tidy fl) {around : List Frame}
    (h : ∀ f ∈ around, FrameTidy fl f) (chars : List Char) :
    ReaderTidy fl (closeQuoted chars around purpose) := by
  cases purpose with
  | value => exact ⟨.str _, h⟩
  | key entries => exact ⟨hPurpose, h⟩

/--
**One character.** A reader that has only tidy values on its stack has only
tidy values after it: what a character completes is a number, a key or a value
it can write again.
-/
theorem tidy_step {r : Reader} (h : ReaderTidy fl r) (c : Char) : ReaderTidy fl (step fl r c) := by
  -- what has been read so far is tidy, and one character completes at most one value
  cases r with
  | value around =>
    show ReaderTidy fl (if isJsonSpace c = true then .value around else startValue around c)
    split
    · exact h
    · exact tidy_startValue h c
  | item around =>
    unfold step
    dsimp only
    split
    · exact h
    split
    · cases around with
      | nil => trivial
      | cons f rest =>
        have hRest : ∀ g ∈ rest, FrameTidy fl g := fun g hg => h g (List.mem_cons_of_mem f hg)
        cases f with
        | list items => exact ⟨.list items (h _ List.mem_cons_self), hRest⟩
        | dict => trivial
    · exact tidy_startValue h c
  | key entries first around =>
    unfold step
    dsimp only
    split
    · exact h
    split
    · exact h
    split
    · exact ⟨.dict entries h.1.1 h.1.2, h.2⟩
    · trivial
  | colon entries key around =>
    unfold step
    dsimp only
    split
    · exact h
    split
    · refine fun f hf => ?_
      rcases List.mem_cons.mp hf with rfl | hf
      · exact h.1
      · exact h.2 f hf
    · trivial
  -- inside a text; its end makes a value or a key
  | quoted purpose chars escape around =>
    by_cases hPlain : escape = .plain
    · subst hPlain
      show ReaderTidy fl (if c = '"' then closeQuoted chars around purpose else _)
      split
      · exact tidy_closeQuoted h.1 h.2 chars
      · exact tidy_quoted h.1 h.2 _
    · rw [step_quoted hPlain]
      exact tidy_quoted h.1 h.2 _
  | number token around =>
    rw [step_number_eq]
    split
    · exact h
    split
    · exact ⟨.negInf, h⟩
    · cases hNumber : numberOf fl token with
      | none => trivial
      | some v => exact tidy_afterValue (tidy_numberOf hNumber) h c
  -- the value of a literal is known from its first character on
  | literal left v around =>
    cases left with
    | nil => trivial
    | cons l rest =>
      show ReaderTidy fl (if c = l then
        (if rest.isEmpty then .done v around else .literal rest v around) else .failed)
      split
      · split
        · exact h
        · exact h
      · trivial
  | done v around => exact tidy_afterValue h.1 h.2 c
  | failed => trivial

theorem tidy_feed {r : Reader} (h : ReaderTidy fl r) (cs : List Char) :
    ReaderTidy fl (feed fl r cs) := by
  induction cs generalizing r with
  | nil => exact h
  | cons c cs ih => exact ih (tidy_step h c)

/--
**A value that was read** can be written, and its text is read as it. Reading
keeps the last of two equal keys and the value of a number, so the text need
not be the one that was read.
-/
theorem tidy_of_loads {cs : List Char} {v : Json} (h : loads fl cs = .ok v) : Tidy fl v := by
  unfold loads at h
  have hTidy := @tidy_feed fl (.value []) (fun f hf => absurd hf List.not_mem_nil) cs
  generalize feed fl (.value []) cs = r at h hTidy
  split at h
  · rename_i w hFinish
    obtain rfl := Except.ok.inj h
    unfold finish at hFinish
    split at hFinish
    · obtain rfl := Option.some.inj hFinish
      exact hTidy.1
    · exact tidy_numberOf hFinish
    · cases hFinish
  · cases h

end ZagrosNode.Lib.JsonText
