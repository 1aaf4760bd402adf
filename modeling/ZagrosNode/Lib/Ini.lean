import ZagrosNode.Lib.Text

/-!
# ZagrosNode — INI files

A reader of INI text: sections of `key = value` lines, blank lines, and
comments that end at the line break. Values of some keys are lists, separated
by commas. A line that is none of these is kept as it is, so that nothing in a
file goes unnoticed.

Lines end where `str.splitlines` ends them, which is at more characters than
the line feed; an empty line says nothing, so that a carriage return before a
line feed makes no difference. Text that such a reader reads as meant has no
line break but those between its lines, and a reader that knows the line feed
alone reads it as meant too.

Text is put together from lines, each of which is meant to be read as certain
items. Where no line can be read as fewer items than meant, the text is read
as meant exactly if every line is.

The reader is line by line: `item` says what one line is, `sections` puts the lines
under the last header, and `Section` splits its entries into values. `Meant` pairs a
line with the items it was written for. A writer puts a file together from such
pairs, and the question is whether what is read is the list of the items.

* **One line.** `Kept` are the values a field line gives back: no line break, and no
  blank at an end, since both ends are stripped. `KeptInList` forbids the comma as
  well. `silent` are the lines that say nothing, and so what may follow a line break
  in a comment.
* **The file.** `itemsOf` is a concatenation over the lines, so every line that is
  read as more than it was meant for adds items and nothing takes them away again;
  `length_flatMap_le` is the count, and the equivalence for the file follows.

The module knows nothing of interfaces and peers; which keys are lists is its one
parameter.

Main results:

* `itemsOf_joinLines_iff` — a text is read as meant exactly if each line is.
* `read_eq_iff` — the sections of a text and its items.
* `itemsOf_field_iff`, `itemsOf_listField_iff`, `itemsOf_comment_iff` — which
  values and comments are read back as they were put into a line.
-/

namespace ZagrosNode.Lib.Ini

inductive Entry
  | field (key : List Char) (values : List (List Char))
  /-- a line that is neither -/
  | junk (line : List Char)
  deriving DecidableEq, Repr

inductive Item
  | header (name : List Char)
  | entry (e : Entry)
  deriving DecidableEq, Repr

structure Section where
  name    : List Char
  entries : List Entry
  deriving DecidableEq, Repr

/-- The keys whose values are lists. -/
abbrev ListKeys : Type := List Char → Bool

variable (lists : ListKeys)

-- ---------------------------------------------------------------------------
-- The reader
-- ---------------------------------------------------------------------------

def valuesOf (key value : List Char) : List (List Char) :=
  if lists key then (splitSep ',' value).map strip else [strip value]

/-- A line with something on it. -/
def entryOf (text : List Char) : Entry :=
  if '=' ∈ text then
    let key := strip (text.takeWhile fun c => decide (c ≠ '='))
    .field key (valuesOf lists key (text.dropWhile fun c => decide (c ≠ '=')).tail)
  else .junk text

/-- What a line says, if anything. -/
def item (line : List Char) : Option Item :=
  match line.dropWhile isSpace with
  | []        => none
  | c :: rest =>
    if c = '#' ∨ c = ';' then none
    else if c = '[' then some (.header (strip (rest.takeWhile fun c => decide (c ≠ ']'))))
    else some (.entry (entryOf lists (c :: rest)))

/-- What a piece of text says that may break into several lines. -/
def itemsOf (text : List Char) : List Item := (splitLines text).filterMap (item lists)

/-- The entries before the first header, and the sections. -/
def sections : List Item → List Entry × List Section
  | []                => ([], [])
  | .header n :: rest => ([], ⟨n, (sections rest).1⟩ :: (sections rest).2)
  | .entry e :: rest  => (e :: (sections rest).1, (sections rest).2)

def read (text : List Char) : List Entry × List Section := sections (itemsOf lists text)

-- ---------------------------------------------------------------------------
-- Sections and items
-- ---------------------------------------------------------------------------

/-- The items of a section. -/
def Section.items (s : Section) : List Item := .header s.name :: s.entries.map .entry

/-- The items of what a reader made of a text. -/
def unread (r : List Entry × List Section) : List Item :=
  r.1.map .entry ++ r.2.flatMap Section.items

theorem unread_sections (items : List Item) : unread (sections items) = items := by
  induction items with
  | nil => rfl
  | cons i rest ih =>
    cases i with
    | header n =>
      unfold unread at ih ⊢
      simp only [sections, List.map_nil, List.nil_append, List.flatMap_cons, Section.items,
        List.cons_append, ih]
    | entry e =>
      unfold unread at ih ⊢
      simp only [sections, List.map_cons, List.cons_append, ih]

theorem sections_entries (es : List Entry) (rest : List Item) :
    sections (es.map .entry ++ rest) = (es ++ (sections rest).1, (sections rest).2) := by
  induction es with
  | nil => rfl
  | cons e es ih => simp only [List.map_cons, List.cons_append, sections, ih]

theorem sections_unread (r : List Entry × List Section) : sections (unread r) = r := by
  have hSections : ∀ ss : List Section, sections (ss.flatMap Section.items) = ([], ss) := by
    intro ss
    induction ss with
    | nil => rfl
    | cons s ss ih =>
      rw [List.flatMap_cons, Section.items, List.cons_append, sections, sections_entries, ih,
        List.append_nil]
  rw [unread, sections_entries, hSections, List.append_nil]

/-- A text is read as certain sections exactly if its items are theirs. -/
theorem read_eq_iff {text : List Char} {r : List Entry × List Section} :
    read lists text = r ↔ itemsOf lists text = unread r := by
  constructor
  · rintro rfl
    exact (unread_sections _).symm
  · intro h
    rw [read, h, sections_unread]

-- ---------------------------------------------------------------------------
-- Texts of lines
-- ---------------------------------------------------------------------------

/-- `"\n".join(lines) + "\n"` -/
def joinLines (lines : List (List Char)) : List Char := ['\n'].intercalate lines ++ ['\n']

theorem itemsOf_joinLines {lines : List (List Char)} (h : lines ≠ []) :
    itemsOf lists (joinLines lines) = lines.flatMap (itemsOf lists) := by
  have hBreak : isLineBreak '\n' = true := by decide
  unfold itemsOf splitLines joinLines
  rw [splitWhere_append_sep hBreak, splitWhere_intercalate hBreak h, List.filterMap_append,
    List.filterMap_flatMap]
  exact List.append_nil _

theorem length_flatMap_le {α β : Type*} {f g : α → List β} {l : List α}
    (h : ∀ x ∈ l, (g x).length ≤ (f x).length) : (l.flatMap g).length ≤ (l.flatMap f).length := by
  induction l with
  | nil => exact le_refl _
  | cons x rest ih =>
    have hHead := h x List.mem_cons_self
    have hRest := ih fun y hy => h y (List.mem_cons_of_mem x hy)
    rw [List.flatMap_cons, List.flatMap_cons, List.length_append, List.length_append]
    omega

/-- Where each part is at least as long as it should be, the whole is as it
should be exactly if each part is. -/
theorem flatMap_eq_iff {α β : Type*} {f g : α → List β} {l : List α}
    (h : ∀ x ∈ l, (g x).length ≤ (f x).length) :
    l.flatMap f = l.flatMap g ↔ ∀ x ∈ l, f x = g x := by
  induction l with
  | nil => simp
  | cons x rest ih =>
    have hTail : ∀ y ∈ rest, (g y).length ≤ (f y).length := fun y hy =>
      h y (List.mem_cons_of_mem x hy)
    rw [List.flatMap_cons, List.flatMap_cons, List.forall_mem_cons, ← ih hTail]
    constructor
    · intro hEq
      have hLength := congrArg List.length hEq
      rw [List.length_append, List.length_append] at hLength
      have hHead := h x List.mem_cons_self
      have hRest := length_flatMap_le hTail
      have hSame : (f x).length = (g x).length := by omega
      exact List.append_inj hEq hSame
    · rintro ⟨hHead, hRest⟩
      rw [hHead, hRest]

/-- A line with the items it is meant to be. -/
abbrev Meant : Type := List Char × List Item

/-- A text is read as meant exactly if each of its lines is. -/
theorem itemsOf_joinLines_iff {lines : List Meant} (hNonempty : lines ≠ [])
    (hLength : ∀ l ∈ lines, l.2.length ≤ (itemsOf lists l.1).length) :
    itemsOf lists (joinLines (lines.map Prod.fst)) = lines.flatMap Prod.snd ↔
      ∀ l ∈ lines, itemsOf lists l.1 = l.2 := by
  rw [itemsOf_joinLines lists (by simpa using hNonempty), List.flatMap_map]
  exact flatMap_eq_iff hLength

-- ---------------------------------------------------------------------------
-- Lines
-- ---------------------------------------------------------------------------

/-- A key of a `key = value` line. -/
structure IsKey (key : List Char) : Prop where
  start    : ∃ c rest, key = c :: rest ∧ isSpace c = false ∧ c ≠ '#' ∧ c ≠ ';' ∧ c ≠ '['
  noEquals : '=' ∉ key
  oneLine  : OneLine key
  stripped : strip (key ++ [' ']) = key

/-- A word without blanks and without characters that mean something at the
start of a line or after the key. -/
def isWord (key : List Char) : Bool :=
  !key.isEmpty && key.all fun c => !isSpace c && !(['=', '#', ';', '['].contains c)

theorem isKey_of_word {key : List Char} (h : isWord key = true) : IsKey key := by
  obtain ⟨hNonempty, hAll⟩ := Bool.and_eq_true_iff.mp h
  have hWord : ∀ c ∈ key, isSpace c = false ∧ c ∉ ['=', '#', ';', '['] := by
    intro c hc
    simpa using List.all_eq_true.mp hAll c hc
  have hSome : key ≠ [] := by simpa using hNonempty
  obtain ⟨c, rest, rfl⟩ := List.exists_cons_of_ne_nil hSome
  obtain ⟨hSpace, hMeans⟩ := hWord c List.mem_cons_self
  simp only [List.mem_cons, List.not_mem_nil, or_false, not_or] at hMeans
  refine ⟨⟨c, rest, rfl, hSpace, hMeans.2⟩, fun hMem => ?_, ?_, ?_⟩
  · exact (hWord _ hMem).2 List.mem_cons_self
  · exact oneLine_of_noSpace fun d hd => (hWord d hd).1
  · rw [strip_append_space (by decide), strip_of_noSpace fun c hc => (hWord c hc).1]

/-- `f"{key} = {value}"` -/
def fieldLine (key value : List Char) : List Char := key ++ [' '] ++ '=' :: ' ' :: value

variable {lists} {key : List Char}

theorem item_fieldLine (hKey : IsKey key) (value : List Char) :
    item lists (fieldLine key value) =
      some (.entry (.field key (valuesOf lists key (' ' :: value)))) := by
  -- the first equals sign is the one behind the key
  have hBefore : ∀ x ∈ key ++ [' '], (decide (x ≠ '=')) = true := by
    intro x hx
    rw [decide_eq_true_eq]
    rintro rfl
    rcases List.mem_append.mp hx with hMem | hMem
    · exact hKey.noEquals hMem
    · cases List.mem_singleton.mp hMem
  have hEntry : entryOf lists (fieldLine key value) =
      .field key (valuesOf lists key (' ' :: value)) := by
    have hEquals : '=' ∈ fieldLine key value := by simp [fieldLine]
    have hTake : (fieldLine key value).takeWhile (fun c => decide (c ≠ '=')) = key ++ [' '] := by
      rw [fieldLine, List.takeWhile_append_of_pos hBefore]
      simp
    have hDrop : (fieldLine key value).dropWhile (fun c => decide (c ≠ '=')) =
        '=' :: ' ' :: value := by
      rw [fieldLine, List.dropWhile_append_of_pos hBefore]
      simp
    rw [entryOf, if_pos hEquals, hTake, hDrop, hKey.stripped]
    rfl
  obtain ⟨c, rest, hCons, hSpace, hHash, hSemicolon, hBracket⟩ := hKey.start
  have hLine : fieldLine key value = c :: (rest ++ [' '] ++ '=' :: ' ' :: value) := by
    rw [fieldLine, hCons]
    rfl
  -- a key begins with no blank, and with nothing that begins a comment or a header
  have hStart : (fieldLine key value).dropWhile isSpace = fieldLine key value := by
    rw [hLine]
    exact List.dropWhile_cons_of_neg (by rw [hSpace]; exact Bool.false_ne_true)
  rw [item, hStart, ← hEntry, hLine]
  simp only [hHash, hSemicolon, hBracket, or_self, if_false]

/-- A field line says its field first. -/
theorem itemsOf_fieldLine (hKey : IsKey key) {value first : List Char} {rest : List (List Char)}
    (hSplit : splitLines value = first :: rest) :
    itemsOf lists (fieldLine key value) =
      .entry (.field key (valuesOf lists key (' ' :: first))) :: rest.filterMap (item lists) := by
  have hOneLine : OneLine (key ++ [' ', '=', ' ']) := oneLine_append.mpr ⟨hKey.oneLine, by decide⟩
  have hLine : fieldLine key value = (key ++ [' ', '=', ' ']) ++ value := by simp [fieldLine]
  have hFirst : (key ++ [' ', '=', ' ']) ++ first = fieldLine key first := by simp [fieldLine]
  have hPieces : splitLines ((key ++ [' ', '=', ' ']) ++ value) =
      ((key ++ [' ', '=', ' ']) ++ first) :: rest := splitWhere_append hOneLine hSplit
  rw [itemsOf, hLine, hPieces, hFirst, List.filterMap_cons, item_fieldLine hKey]

/-- A value is read back as it was put in exactly if it is on one line and has
what its kind of value keeps. -/
theorem itemsOf_fieldLine_iff (hKey : IsKey key) {value : List Char} {values : List (List Char)}
    (hBreak : ∀ first, OneLine first → valuesOf lists key (' ' :: first) = values →
      OneLine value) :
    itemsOf lists (fieldLine key value) = [.entry (.field key values)] ↔
      OneLine value ∧ valuesOf lists key (' ' :: value) = values := by
  obtain ⟨first, rest, hSplit⟩ : ∃ first rest, splitLines value = first :: rest :=
    splitWhere_eq_cons _ value
  rw [itemsOf_fieldLine hKey hSplit]
  constructor
  · intro h
    obtain ⟨hHead, hRest⟩ := List.cons.inj h
    have hValues : valuesOf lists key (' ' :: first) = values :=
      (Entry.field.inj (Item.entry.inj hHead)).2
    have hFirst : OneLine first :=
      not_sep_of_mem_splitWhere (hSplit ▸ List.mem_cons_self : first ∈ splitLines value)
    have hNot := hBreak first hFirst hValues
    rw [splitLines, splitWhere_of_noSep hNot] at hSplit
    obtain ⟨rfl, -⟩ := List.cons.inj hSplit
    exact ⟨hNot, hValues⟩
  · rintro ⟨hNot, hValues⟩
    rw [splitLines, splitWhere_of_noSep hNot] at hSplit
    obtain ⟨rfl, rfl⟩ := List.cons.inj hSplit
    rw [hValues]
    rfl

/-- A value that is one line without blanks at its ends. -/
structure Kept (value : List Char) : Prop where
  oneLine  : OneLine value
  stripped : strip value = value

theorem kept_of_noSpace {value : List Char} (h : ∀ c ∈ value, isSpace c = false) : Kept value where
  oneLine  := oneLine_of_noSpace h
  stripped := strip_of_noSpace h

theorem strip_blank (value : List Char) : strip (' ' :: value) = strip value :=
  strip_cons_space (by decide) value

/--
**Values.** A line reads back as its key with the one value exactly if the
value is kept: it breaks no line, and it has no space at either end for the
reader to strip.
-/
theorem itemsOf_field_iff (hKey : IsKey key) (hScalar : lists key = false) {value : List Char} :
    itemsOf lists (fieldLine key value) = [.entry (.field key [value])] ↔ Kept value := by
  have hValues : ∀ v, valuesOf lists key (' ' :: v) = [strip v] := by
    intro v
    rw [valuesOf, hScalar, strip_blank]
    rfl
  have hBreak : ∀ first, OneLine first → valuesOf lists key (' ' :: first) = [value] →
      OneLine value := by
    intro first hFirst hEq c hMem
    rw [hValues] at hEq
    rw [← (List.cons.inj hEq).1] at hMem
    exact hFirst c (mem_of_mem_strip hMem)
  rw [itemsOf_fieldLine_iff hKey hBreak, hValues]
  constructor
  · rintro ⟨hNot, hStrip⟩
    exact ⟨hNot, (List.cons.inj hStrip).1⟩
  · rintro ⟨hNot, hStrip⟩
    rw [hStrip]
    exact ⟨hNot, rfl⟩

/-- `", ".join(values)` -/
def joinList (values : List (List Char)) : List Char := [',', ' '].intercalate values

theorem blank_joinList {values : List (List Char)} (h : values ≠ []) :
    ' ' :: joinList values = [','].intercalate (values.map (' ' :: ·)) := by
  induction values with
  | nil => exact absurd rfl h
  | cons v rest ih =>
    cases rest with
    | nil => simp [joinList]
    | cons w others =>
      have hRest := ih (List.cons_ne_nil w others)
      unfold joinList at hRest ⊢
      rw [List.map_cons, List.map_cons, List.intercalate_cons_cons, List.intercalate_cons_cons,
        ← List.map_cons, ← hRest]
      simp

/-- A value that a list keeps: none of it reads as a separator. -/
structure KeptInList (value : List Char) : Prop extends Kept value where
  noComma : ',' ∉ value

/-- The pieces of a list without commas in its values are its values. -/
theorem valuesOf_joinList (hList : lists key = true) {values : List (List Char)} (h : values ≠ [])
    (hComma : ∀ v ∈ values, ',' ∉ v) :
    valuesOf lists key (' ' :: joinList values) = values.map strip := by
  have hPieces : (values.map (' ' :: ·)).flatMap (splitSep ',') = values.map (' ' :: ·) := by
    rw [List.flatMap_map]
    have hEach : ∀ v ∈ values, splitSep ',' (' ' :: v) = [' ' :: v] := by
      intro v hv
      refine splitSep_of_not_mem fun hMem => ?_
      rcases List.mem_cons.mp hMem with hEq | hRest
      · cases hEq
      · exact hComma v hv hRest
    rw [List.flatMap_congr hEach, ← List.map_eq_flatMap]
  have hBlank : ∀ v ∈ values, (strip ∘ (' ' :: ·)) v = strip v := fun v _ => strip_blank v
  rw [valuesOf, if_pos hList, blank_joinList h, splitSep_intercalate (by simpa using h), hPieces,
    List.map_map, List.map_congr_left hBlank]

/--
**Lists of values.** A line reads back as its key with the values exactly if
there is one at least and each of them is kept in a list, where a comma parts
them.
-/
theorem itemsOf_listField_iff (hKey : IsKey key) (hList : lists key = true)
    {values : List (List Char)} :
    itemsOf lists (fieldLine key (joinList values)) = [.entry (.field key values)] ↔
      values ≠ [] ∧ ∀ v ∈ values, KeptInList v := by
  -- a value that is read is a piece of the text between two commas
  have hPiece : ∀ text v, valuesOf lists key text = values → v ∈ values →
      ∃ piece ∈ splitSep ',' text, strip piece = v := by
    intro text v hEq hv
    rw [valuesOf, if_pos hList] at hEq
    rw [← hEq] at hv
    exact List.mem_map.mp hv
  have hNonempty : ∀ text, valuesOf lists key text = values → values ≠ [] := by
    rintro text hEq rfl
    rw [valuesOf, if_pos hList] at hEq
    exact splitWhere_ne_nil _ text (List.map_eq_nil_iff.mp hEq)
  have hBetweenValues : OneLine [',', ' '] := by decide
  -- so a line break in a value would be one in the text
  have hBreak : ∀ first, OneLine first → valuesOf lists key (' ' :: first) = values →
      OneLine (joinList values) := by
    intro first hFirst hEq c hMem
    rcases mem_intercalate hMem with hBetween | ⟨v, hv, hIn⟩
    · exact hBetweenValues c hBetween
    · obtain ⟨piece, hPieceMem, rfl⟩ := hPiece _ v hEq hv
      have hText := mem_of_mem_splitWhere hPieceMem (mem_of_mem_strip hIn)
      rcases List.mem_cons.mp hText with rfl | hIn
      · decide
      · exact hFirst c hIn
  rw [itemsOf_fieldLine_iff hKey hBreak]
  constructor
  -- each value is stripped, and has no comma and no line break
  · rintro ⟨hNot, hEq⟩
    have hValues := hNonempty _ hEq
    have hComma : ∀ v ∈ values, ',' ∉ v := by
      intro v hv hMem
      obtain ⟨piece, hPieceMem, rfl⟩ := hPiece _ v hEq hv
      exact not_mem_of_mem_splitSep hPieceMem (mem_of_mem_strip hMem)
    rw [valuesOf_joinList hList hValues hComma] at hEq
    refine ⟨hValues, fun v hv => ⟨⟨fun c hMem => hNot c ?_, ?_⟩, hComma v hv⟩⟩
    · exact mem_intercalate_of_mem hv hMem
    · have hSame : values.map strip = values.map id := by rwa [List.map_id]
      exact List.map_inj_left.mp hSame v hv
  · rintro ⟨hValues, hKept⟩
    refine ⟨fun c hMem => ?_, ?_⟩
    · rcases mem_intercalate hMem with hBetween | ⟨v, hv, hIn⟩
      · exact hBetweenValues c hBetween
      · exact (hKept v hv).oneLine c hIn
    · rw [valuesOf_joinList hList hValues fun v hv => (hKept v hv).noComma]
      exact (List.map_congr_left fun v hv => (hKept v hv).stripped).trans (List.map_id values)

/-- A line with nothing on it but a comment, if that. -/
def silent (line : List Char) : Bool :=
  match line.dropWhile isSpace with
  | []     => true
  | c :: _ => decide (c = '#' ∨ c = ';')

theorem item_eq_none_iff {line : List Char} : item lists line = none ↔ silent line = true := by
  unfold item silent
  cases line.dropWhile isSpace with
  | nil => exact iff_of_true rfl rfl
  | cons c rest =>
    simp only [decide_eq_true_eq]
    by_cases hComment : c = '#' ∨ c = ';'
    · exact iff_of_true (if_pos hComment) hComment
    · rw [if_neg hComment]
      refine iff_of_false (fun hNone => ?_) hComment
      by_cases hHeader : c = '['
      · rw [if_pos hHeader] at hNone
        cases hNone
      · rw [if_neg hHeader] at hNone
        cases hNone

/--
**Comments.** The first line of a comment is passed over by the reader.
Whatever it breaks into stands on lines of its own and is read as they are.
-/
theorem itemsOf_comment (comment : List Char) :
    itemsOf lists ('#' :: ' ' :: comment) =
      (splitLines comment).tail.filterMap (item lists) := by
  obtain ⟨first, rest, hSplit⟩ : ∃ first rest, splitLines comment = first :: rest :=
    splitWhere_eq_cons _ comment
  have hOneLine : OneLine ['#', ' '] := by decide
  have hLine : item lists ('#' :: ' ' :: first) = none := by
    have hHash : isSpace '#' = false := by decide
    rw [item, List.dropWhile_cons_of_neg (by rw [hHash]; exact Bool.false_ne_true)]
    simp
  have hPieces : splitLines ('#' :: ' ' :: comment) = ('#' :: ' ' :: first) :: rest :=
    splitWhere_append hOneLine hSplit
  rw [itemsOf, hPieces, hSplit, List.filterMap_cons, hLine]
  rfl

/-- A comment says nothing exactly if none of its lines after the first does. -/
theorem itemsOf_comment_iff {comment : List Char} :
    itemsOf lists ('#' :: ' ' :: comment) = [] ↔
      ∀ line ∈ (splitLines comment).tail, silent line = true := by
  rw [itemsOf_comment, List.filterMap_eq_nil_iff]
  exact forall₂_congr fun _ _ => item_eq_none_iff

end ZagrosNode.Lib.Ini
