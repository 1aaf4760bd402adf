import Mathlib.Data.List.DropRight
import ZagrosNode.Lib.Py

/-!
# ZagrosNode — splitting and stripping text

`split`, `splitlines` and `join` on text as lists of characters, and what
`strip` keeps. A text is split at the characters of a class: one separator for
`split`, and for `splitlines` the ten characters that end a line.

Everything is on lists of characters, since that is what is split and joined; texts
come in by `toList`. `splitWhere` is the general split at a class of characters, and
`splitSep` and `splitLines` are its two instances: `'a\n'.splitlines()` has one
piece in Python and two here, the last of them empty, which no reader of lines that
skips blank ones can tell.

Ten characters end a line for `str.splitlines`, among them the carriage return, the
separators U+001C to U+001E, U+0085 and U+2028; `'\n'` alone is what a file iterator
ends a line at. Code that writes for the one and is read by the other is where the
difference shows.

Joining and splitting are inverse where no piece has a separator, and that is the
condition in every round trip.

Main results:

* `splitWhere_intercalate` — splitting joined pieces splits each piece.
* `intercalate_fields_inj` — joined fields, of which one may hold the separator,
  are those of no other list.
* `strip_of_ends` — which text `strip` leaves alone.
-/

namespace ZagrosNode.Lib

/-- The pieces of a text between the characters that separate. -/
def splitWhere (sep : Char → Bool) : List Char → List (List Char)
  | []      => [[]]
  | c :: cs =>
    if sep c then [] :: splitWhere sep cs
    else
      match splitWhere sep cs with
      | []            => [[c]]
      | piece :: rest => (c :: piece) :: rest

/-- `s.split(sep)` -/
def splitSep (sep : Char) : List Char → List (List Char) := splitWhere fun c => decide (c = sep)

/-- The characters at which `str.splitlines` breaks a text. -/
def isLineBreak (c : Char) : Bool :=
  decide (c.toNat ∈ [0xa, 0xb, 0xc, 0xd, 0x1c, 0x1d, 0x1e, 0x85, 0x2028, 0x2029])

/-- `s.splitlines()`, where a carriage return before a line feed makes an empty
line of its own, and so does the end of a text that ends in a break. -/
def splitLines : List Char → List (List Char) := splitWhere isLineBreak

/-- There is no line break in a text. -/
def OneLine (cs : List Char) : Prop := ∀ c ∈ cs, isLineBreak c = false

instance (cs : List Char) : Decidable (OneLine cs) :=
  decidable_of_iff (cs.all fun c => !isLineBreak c) (by simp [OneLine])

-- ---------------------------------------------------------------------------
-- Splitting
-- ---------------------------------------------------------------------------

section Splitting

variable {sep : Char → Bool}

theorem splitWhere_ne_nil (sep : Char → Bool) (cs : List Char) : splitWhere sep cs ≠ [] := by
  cases cs with
  | nil => exact List.cons_ne_nil _ _
  | cons c cs =>
    unfold splitWhere
    split
    · exact List.cons_ne_nil _ _
    · split <;> exact List.cons_ne_nil _ _

/-- The first piece and the others. -/
theorem splitWhere_eq_cons (sep : Char → Bool) (cs : List Char) :
    ∃ first rest, splitWhere sep cs = first :: rest :=
  List.exists_cons_of_ne_nil (splitWhere_ne_nil sep cs)

/-- No piece contains a separator. -/
theorem not_sep_of_mem_splitWhere {cs piece : List Char} (h : piece ∈ splitWhere sep cs) :
    ∀ c ∈ piece, sep c = false := by
  induction cs generalizing piece with
  | nil =>
    rw [List.mem_singleton.mp h]
    exact fun c hc => absurd hc List.not_mem_nil
  | cons c cs ih =>
    obtain ⟨first, rest, hRest⟩ := splitWhere_eq_cons sep cs
    unfold splitWhere at h
    rw [hRest] at h ih
    by_cases hc : sep c = true
    · rw [if_pos hc] at h
      rcases List.mem_cons.mp h with rfl | hMem
      · exact fun d hd => absurd hd List.not_mem_nil
      · exact ih hMem
    · rw [if_neg hc] at h
      rcases List.mem_cons.mp h with rfl | hMem
      · intro d hd
        rcases List.mem_cons.mp hd with rfl | hFirst
        · exact Bool.not_eq_true _ ▸ hc
        · exact ih List.mem_cons_self d hFirst
      · exact ih (List.mem_cons_of_mem _ hMem)

/-- Pieces are made of the text. -/
theorem mem_of_mem_splitWhere {c : Char} {cs piece : List Char} (h : piece ∈ splitWhere sep cs)
    (hc : c ∈ piece) : c ∈ cs := by
  induction cs generalizing piece with
  | nil =>
    rw [List.mem_singleton.mp h] at hc
    cases hc
  | cons d cs ih =>
    obtain ⟨first, rest, hRest⟩ := splitWhere_eq_cons sep cs
    unfold splitWhere at h
    rw [hRest] at h ih
    by_cases hd : sep d = true
    · rw [if_pos hd] at h
      rcases List.mem_cons.mp h with rfl | hMem
      · cases hc
      · exact List.mem_cons_of_mem d (ih hMem hc)
    · rw [if_neg hd] at h
      rcases List.mem_cons.mp h with rfl | hMem
      · rcases List.mem_cons.mp hc with hEq | hFirst
        · exact hEq ▸ List.mem_cons_self
        · exact List.mem_cons_of_mem d (ih List.mem_cons_self hFirst)
      · exact List.mem_cons_of_mem d (ih (List.mem_cons_of_mem _ hMem) hc)

/-- Text without separators in front belongs to the first piece. -/
theorem splitWhere_append {a b first : List Char} {rest : List (List Char)}
    (hNot : ∀ c ∈ a, sep c = false) (h : splitWhere sep b = first :: rest) :
    splitWhere sep (a ++ b) = (a ++ first) :: rest := by
  induction a with
  | nil => exact h
  | cons c a ih =>
    have hTail := ih fun d hd => hNot d (List.mem_cons_of_mem c hd)
    rw [List.cons_append, splitWhere, hNot c List.mem_cons_self, hTail]
    rfl

theorem splitWhere_of_noSep {cs : List Char} (h : ∀ c ∈ cs, sep c = false) :
    splitWhere sep cs = [cs] := by
  have hAppend := splitWhere_append h (b := []) (a := cs) rfl
  rwa [List.append_nil] at hAppend

/-- There is only one piece exactly if there is no separator. -/
theorem splitWhere_eq_singleton_iff {cs piece : List Char} :
    splitWhere sep cs = [piece] ↔ (∀ c ∈ cs, sep c = false) ∧ cs = piece := by
  constructor
  · intro h
    have hNot : ∀ c ∈ cs, sep c = false := by
      induction cs generalizing piece with
      | nil => exact fun c hc => absurd hc List.not_mem_nil
      | cons c cs ih =>
        obtain ⟨first, rest, hRest⟩ := splitWhere_eq_cons sep cs
        rw [splitWhere, hRest] at h
        by_cases hc : sep c = true
        · rw [if_pos hc] at h
          cases (List.cons.inj h).2
        · rw [if_neg hc] at h
          have hNil : rest = [] := (List.cons.inj h).2
          rw [List.forall_mem_cons]
          exact ⟨Bool.not_eq_true _ ▸ hc, ih (by rw [hRest, hNil])⟩
    rw [splitWhere_of_noSep hNot] at h
    exact ⟨hNot, (List.cons.inj h).1⟩
  · rintro ⟨hNot, rfl⟩
    exact splitWhere_of_noSep hNot

theorem splitWhere_append_sep {c : Char} (hSep : sep c = true) (a b : List Char) :
    splitWhere sep (a ++ c :: b) = splitWhere sep a ++ splitWhere sep b := by
  induction a with
  | nil => simp [splitWhere, hSep]
  | cons d a ih =>
    obtain ⟨first, rest, hFirst⟩ := splitWhere_eq_cons sep a
    rw [hFirst] at ih
    rw [List.cons_append, splitWhere, splitWhere, ih, hFirst]
    by_cases hd : sep d = true <;> simp [hd]

/-- Splitting pieces joined by a separator splits each of them. -/
theorem splitWhere_intercalate {c : Char} (hSep : sep c = true) {pieces : List (List Char)}
    (h : pieces ≠ []) :
    splitWhere sep ([c].intercalate pieces) = pieces.flatMap (splitWhere sep) := by
  induction pieces with
  | nil => exact absurd rfl h
  | cons piece rest ih =>
    cases rest with
    | nil => simp
    | cons next others =>
      have hRest := ih (List.cons_ne_nil next others)
      rw [List.intercalate_cons_cons, List.append_assoc, List.singleton_append,
        splitWhere_append_sep hSep, hRest]
      rfl

end Splitting

/-- None of the characters is the separator. -/
theorem noSep_iff {sep : Char} {cs : List Char} :
    (∀ c ∈ cs, decide (c = sep) = false) ↔ sep ∉ cs := by
  simp only [decide_eq_false_iff_not]
  exact ⟨fun h hMem => h sep hMem rfl, fun h c hc hEq => h (hEq ▸ hc)⟩

theorem splitSep_eq_cons (sep : Char) (cs : List Char) :
    ∃ first rest, splitSep sep cs = first :: rest := splitWhere_eq_cons _ cs

theorem not_mem_of_mem_splitSep {sep : Char} {cs piece : List Char}
    (h : piece ∈ splitSep sep cs) : sep ∉ piece := noSep_iff.mp (not_sep_of_mem_splitWhere h)

theorem splitSep_of_not_mem {sep : Char} {cs : List Char} (h : sep ∉ cs) :
    splitSep sep cs = [cs] := splitWhere_of_noSep (noSep_iff.mpr h)

theorem splitSep_eq_singleton_iff {sep : Char} {cs piece : List Char} :
    splitSep sep cs = [piece] ↔ sep ∉ cs ∧ cs = piece := by
  rw [splitSep, splitWhere_eq_singleton_iff, noSep_iff]

theorem splitSep_append_sep (sep : Char) (a b : List Char) :
    splitSep sep (a ++ sep :: b) = splitSep sep a ++ splitSep sep b :=
  splitWhere_append_sep (decide_eq_true rfl) a b

theorem splitSep_intercalate {sep : Char} {pieces : List (List Char)} (h : pieces ≠ []) :
    splitSep sep ([sep].intercalate pieces) = pieces.flatMap (splitSep sep) :=
  splitWhere_intercalate (decide_eq_true rfl) h

/-- Joined text is made of the pieces and what is between them. -/
theorem mem_intercalate {c : Char} {between : List Char} {pieces : List (List Char)}
    (h : c ∈ between.intercalate pieces) : c ∈ between ∨ ∃ piece ∈ pieces, c ∈ piece := by
  induction pieces with
  | nil => simp at h
  | cons piece rest ih =>
    cases rest with
    | nil => exact Or.inr ⟨piece, List.mem_cons_self, by simpa using h⟩
    | cons next others =>
      rw [List.intercalate_cons_cons, List.mem_append, List.mem_append] at h
      rcases h with (hPiece | hBetween) | hRest
      · exact Or.inr ⟨piece, List.mem_cons_self, hPiece⟩
      · exact Or.inl hBetween
      · rcases ih hRest with hBetween | ⟨found, hFound, hc⟩
        · exact Or.inl hBetween
        · exact Or.inr ⟨found, List.mem_cons_of_mem piece hFound, hc⟩

theorem mem_intercalate_of_mem {c : Char} {between piece : List Char} {pieces : List (List Char)}
    (h : piece ∈ pieces) (hc : c ∈ piece) : c ∈ between.intercalate pieces := by
  induction pieces with
  | nil => cases h
  | cons first rest ih =>
    cases rest with
    | nil =>
      rw [List.mem_singleton.mp h] at hc
      simpa using hc
    | cons next others =>
      rw [List.intercalate_cons_cons, List.mem_append, List.mem_append]
      rcases List.mem_cons.mp h with rfl | hRest
      · exact Or.inl (Or.inl hc)
      · exact Or.inr (ih hRest)

/-- Splitting loses nothing. -/
theorem intercalate_splitSep (sep : Char) (cs : List Char) :
    [sep].intercalate (splitSep sep cs) = cs := by
  induction cs with
  | nil => rfl
  | cons c cs ih =>
    obtain ⟨first, rest, hFirst⟩ := splitSep_eq_cons sep cs
    unfold splitSep at hFirst ih ⊢
    unfold splitWhere
    rw [hFirst] at ih ⊢
    by_cases hc : c = sep
    · rw [if_pos (decide_eq_true hc), List.intercalate_cons_cons, ih, hc]
      rfl
    · rw [if_neg (by simp [hc])]
      show [sep].intercalate ((c :: first) :: rest) = c :: cs
      rw [← ih]
      cases rest with
      | nil => simp
      | cons next others => simp [List.intercalate_cons_cons]

theorem flatMap_splitSep {sep : Char} {pieces : List (List Char)} (h : ∀ p ∈ pieces, sep ∉ p) :
    pieces.flatMap (splitSep sep) = pieces := by
  induction pieces with
  | nil => rfl
  | cons piece rest ih =>
    rw [List.flatMap_cons, splitSep_of_not_mem (h piece List.mem_cons_self),
      ih fun p hp => h p (List.mem_cons_of_mem piece hp)]
    rfl

/-- **Fields.** Of the fields that are joined only the one in the middle may hold
the separator: those before it are read off the front and those after it off the
end. -/
theorem intercalate_fields_inj {sep : Char} {before before' after after' : List (List Char)}
    {field field' : List Char} (hBefore : ∀ p ∈ before, sep ∉ p) (hBefore' : ∀ p ∈ before', sep ∉ p)
    (hAfter : ∀ p ∈ after, sep ∉ p) (hAfter' : ∀ p ∈ after', sep ∉ p)
    (hFirst : before.length = before'.length) (hLast : after.length = after'.length)
    (h : [sep].intercalate (before ++ field :: after) =
      [sep].intercalate (before' ++ field' :: after')) :
    before = before' ∧ field = field' ∧ after = after' := by
  have hSplit := congrArg (splitSep sep) h
  rw [splitSep_intercalate (by simp), splitSep_intercalate (by simp)] at hSplit
  simp only [List.flatMap_append, List.flatMap_cons, flatMap_splitSep hBefore,
    flatMap_splitSep hBefore', flatMap_splitSep hAfter, flatMap_splitSep hAfter'] at hSplit
  obtain ⟨hBefores, hRest⟩ := List.append_inj hSplit hFirst
  obtain ⟨hField, hAfters⟩ := List.append_inj' hRest hLast
  refine ⟨hBefores, ?_, hAfters⟩
  rw [← intercalate_splitSep sep field, hField, intercalate_splitSep]

-- ---------------------------------------------------------------------------
-- Stripping
-- ---------------------------------------------------------------------------

/-- Line breaks are blanks. -/
theorem isSpace_of_isLineBreak {c : Char} (h : isLineBreak c = true) : isSpace c = true := by
  simp only [isLineBreak, isSpace, decide_eq_true_eq, List.mem_cons, List.not_mem_nil, or_false]
    at h ⊢
  omega

theorem oneLine_of_noSpace {cs : List Char} (h : ∀ c ∈ cs, isSpace c = false) : OneLine cs := by
  intro c hc
  cases hBreak : isLineBreak c with
  | false => rfl
  | true => exact (isSpace_of_isLineBreak hBreak).symm.trans (h c hc)

theorem oneLine_append {a b : List Char} : OneLine (a ++ b) ↔ OneLine a ∧ OneLine b := by
  simp only [OneLine, List.mem_append, or_imp, forall_and]

/-- Blanks in front do not matter. -/
theorem strip_cons_space {c : Char} (h : isSpace c = true) (cs : List Char) :
    strip (c :: cs) = strip cs := by
  rw [strip, strip, trim, trim, List.dropWhile_cons_of_pos h]

/-- `strip` only removes. -/
theorem mem_of_mem_strip {c : Char} {cs : List Char} (h : c ∈ strip cs) : c ∈ cs := by
  have hReversed := List.mem_reverse.mp h
  have hBack := (List.dropWhile_sublist isSpace).subset hReversed
  exact (List.dropWhile_sublist isSpace).subset (List.mem_reverse.mp hBack)

/-- Text without blanks at its ends stays as it is. -/
theorem trim_of_ends {blank : Char → Bool} {cs : List Char}
    (hHead : ∀ c ∈ cs.head?, blank c = false) (hLast : ∀ c ∈ cs.getLast?, blank c = false) :
    trim blank cs = cs := by
  have hDrop : ∀ l : List Char, (∀ c ∈ l.head?, blank c = false) → l.dropWhile blank = l := by
    intro l hl
    cases l with
    | nil => rfl
    | cons c rest => simp [List.dropWhile, hl c (by simp)]
  unfold trim
  rw [hDrop cs hHead, hDrop cs.reverse (by simpa using hLast), List.reverse_reverse]

theorem strip_of_ends {cs : List Char} (hHead : ∀ c ∈ cs.head?, isSpace c = false)
    (hLast : ∀ c ∈ cs.getLast?, isSpace c = false) : strip cs = cs :=
  trim_of_ends hHead hLast

/-- Text without any blank stays. -/
theorem strip_of_noSpace {cs : List Char} (h : ∀ c ∈ cs, isSpace c = false) : strip cs = cs :=
  strip_of_ends (fun c hc => h c (List.mem_of_mem_head? hc))
    fun c hc => h c (List.mem_of_mem_getLast? hc)

/-- What is stripped has no more blanks at its ends. -/
theorem strip_strip (cs : List Char) : strip (strip cs) = strip cs := by
  have hEnd : ∀ (l : List Char) (c : Char), c ∈ (l.dropWhile isSpace).head? → isSpace c = false := by
    intro l c hc
    have hNot := List.head?_dropWhile_not isSpace l
    rw [Option.mem_def.mp hc] at hNot
    simpa using hNot
  refine strip_of_ends (fun c hc => ?_) fun c hc => ?_
  · obtain ⟨rest, hRest⟩ : strip cs <+: cs.dropWhile isSpace := List.rdropWhile_prefix isSpace _
    refine hEnd cs c ?_
    rw [← hRest, List.head?_append, Option.mem_def.mp hc]
    rfl
  · rw [strip, trim, List.getLast?_reverse] at hc
    exact hEnd _ c hc

/-- What is no blank for `strip` is none for `int()`. -/
theorem isIntSpace_of_not_isSpace {c : Char} (h : isSpace c = false) : isIntSpace c = false := by
  rw [isIntSpace, h, Bool.false_and]

theorem isSpace_of_isDigit {c : Char} (h : c.isDigit = true) : isSpace c = false := by
  simp only [Char.isDigit, Bool.and_eq_true, decide_eq_true_eq] at h
  have hLow : 48 ≤ c.toNat := h.1
  have hHigh : c.toNat ≤ 57 := h.2
  simp only [isSpace, decide_eq_false_iff_not, List.mem_cons, List.not_mem_nil, or_false]
  omega

/-- A literal whose characters are written out has no blanks. -/
theorem noSpace_ofList {cs : List Char} (h : (cs.all fun c => !isSpace c) = true) :
    ∀ c ∈ (String.ofList cs).toList, isSpace c = false := by
  rw [String.toList_ofList]
  simpa using h

/-- A number is printed in digits. -/
theorem isDigit_of_mem_toString {m : Nat} {c : Char} (h : c ∈ (toString m).toList) :
    c.isDigit = true := by
  rw [Nat.toString_eq_repr, Nat.toList_repr] at h
  exact Nat.isDigit_of_mem_toDigits (by decide) (by decide) h

/-- An integer is printed without blanks. -/
theorem isSpace_of_mem_toString {n : Int} {c : Char} (h : c ∈ (toString n).toList) :
    isSpace c = false := by
  have hNat : ∀ m : Nat, c ∈ (toString m).toList → isSpace c = false :=
    fun m hMem => isSpace_of_isDigit (isDigit_of_mem_toString hMem)
  rw [Int.toString_eq_repr] at h
  cases n with
  | ofNat m => exact hNat m h
  | negSucc m =>
    rw [Int.repr, String.toList_append] at h
    rcases List.mem_append.mp h with hSign | hDigits
    · obtain rfl := List.mem_singleton.mp hSign
      decide
    · exact hNat _ hDigits

/-- A blank at the end does not matter. -/
theorem strip_append_space {cs : List Char} {c : Char} (h : isSpace c = true) :
    strip (cs ++ [c]) = strip cs := by
  unfold strip trim
  rw [List.dropWhile_append, List.dropWhile_cons_of_pos h]
  cases hFront : cs.dropWhile isSpace with
  | nil => rfl
  | cons d rest =>
    rw [if_neg (by simp), List.reverse_append, List.reverse_singleton, List.singleton_append,
      List.dropWhile_cons_of_pos h]

end ZagrosNode.Lib
