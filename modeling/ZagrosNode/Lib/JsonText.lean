import Mathlib.Data.List.Sort
import Mathlib.Data.List.TakeWhile
import ZagrosNode.Lib.Decimal
import ZagrosNode.Lib.Dict

/-!
# ZagrosNode — JSON texts

`json.dumps(v, sort_keys=True)` and `json.loads(text)`. The writer recurses over
the value. The reader goes over the text character by character and keeps what
is open around the place it has come to; it is a pushdown automaton, so what it
makes of a text and what it makes of a first part of the text are one run.

Floats are written and read by `float` itself, which is a parameter; a text
whose strings hold half a surrogate pair has no value here.

The writer is the one of `json.dumps` with its default separators and its default
of ASCII output: everything outside printable ASCII is escaped, and a character
beyond the first plane as two escapes. The reader is that of `json.loads`, which
also takes `NaN` and the two infinities and an integer of any length up to the limit
of `int`.

A state of the reader is a stack of frames and a purpose: what is open around the
place, and what the next character may be. One function `step` makes the next
state, `feed` folds it over a text, `finish` asks whether the text may end here. With
a recursive descent the same text would be read by calls whose results have to be
threaded; a run of an automaton splits where the text splits, and that is used
throughout (`feed_append`).

Two entries with one key are what `json.loads` makes of them: the last one counts,
in the place of the first.

Main results:

* `feed_numeral`, `step_number` — a numeral is read up to the character that
  ends it.
* `feed_escapeChar`, `feed_quoted` — an escaped string is read as the string.
-/

namespace ZagrosNode.Lib

/-- The entries of an object. -/
abbrev JsonEntries := List (String × Json)

-- ---------------------------------------------------------------------------
-- Numerals
-- ---------------------------------------------------------------------------

namespace JsonText

def isDigit (c : Char) : Bool := decide (0x30 ≤ c.toNat ∧ c.toNat ≤ 0x39)

def unsigned : List Char → List Char
  | '-' :: cs => cs
  | cs        => cs

/-- `0|[1-9][0-9]*` -/
def isNatural : List Char → Bool
  | []      => false
  | c :: cs => if c = '0' then cs.isEmpty else isDigit c && cs.all isDigit

/-- `[0-9]+` -/
def isDigits (cs : List Char) : Bool := !cs.isEmpty && cs.all isDigit

/-- `[eE][-+]?[0-9]+` -/
def isExponent : List Char → Bool
  | 'e' :: '-' :: cs => isDigits cs
  | 'e' :: '+' :: cs => isDigits cs
  | 'e' :: cs        => isDigits cs
  | 'E' :: '-' :: cs => isDigits cs
  | 'E' :: '+' :: cs => isDigits cs
  | 'E' :: cs        => isDigits cs
  | _                => false

/-- `(\.[0-9]+)?([eE][-+]?[0-9]+)?`, one of the two at least. -/
def isFraction : List Char → Bool
  | '.' :: cs =>
    isDigits (cs.takeWhile isDigit) &&
      ((cs.dropWhile isDigit).isEmpty || isExponent (cs.dropWhile isDigit))
  | cs        => isExponent cs

def isIntNumeral (cs : List Char) : Bool := isNatural (unsigned cs)

def isFloatNumeral (cs : List Char) : Bool :=
  isNatural ((unsigned cs).takeWhile isDigit) && isFraction ((unsigned cs).dropWhile isDigit)

end JsonText

open JsonText

/-- `float.__repr__` of a double that is finite, and `float()` of a numeral. -/
structure Floats where
  repr  : Rat → List Char
  parse : List Char → PyFloat
  /-- what was read is written as a numeral that reads as the same again -/
  parse_repr : ∀ token q, isFloatNumeral token = true → parse token = .finite q →
    isFloatNumeral (repr q) = true ∧ parse (repr q) = .finite q

-- ---------------------------------------------------------------------------
-- The writer
-- ---------------------------------------------------------------------------

namespace JsonText

def hexDigit (d : Nat) : Char := if d < 10 then Char.ofNat (0x30 + d) else Char.ofNat (0x57 + d)

/-- `'\\u{0:04x}'.format(n)` -/
def unicodeEscape (n : Nat) : List Char :=
  ['\\', 'u', hexDigit (n / 4096), hexDigit (n / 256 % 16), hexDigit (n / 16 % 16),
    hexDigit (n % 16)]

/-- A character of a string: all but printable ASCII is escaped. -/
def escapeChar (c : Char) : List Char :=
  if c = '"' then ['\\', '"']
  else if c = '\\' then ['\\', '\\']
  else if c = '\n' then ['\\', 'n']
  else if c = '\r' then ['\\', 'r']
  else if c = '\t' then ['\\', 't']
  else if c = '\x0c' then ['\\', 'f']
  else if c = '\x08' then ['\\', 'b']
  else if 0x20 ≤ c.toNat ∧ c.toNat ≤ 0x7e then [c]
  else if c.toNat < 0x10000 then unicodeEscape c.toNat
  else unicodeEscape (0xd800 + (c.toNat - 0x10000) / 0x400) ++
    unicodeEscape (0xdc00 + (c.toNat - 0x10000) % 0x400)

def quote (s : String) : List Char := '"' :: (s.toList.flatMap escapeChar ++ ['"'])

variable (fl : Floats)

def floatText : PyFloat → List Char
  | .finite q => fl.repr q
  | .inf      => "Infinity".toList
  | .negInf   => "-Infinity".toList
  | .nan      => "NaN".toList

mutual

/-- `json.dumps(v)` -/
def text : Json → List Char
  | .null                    => "null".toList
  | .bool true               => "true".toList
  | .bool false              => "false".toList
  | .num n                   => intChars n
  | .float x                 => floatText fl x
  | .str s                   => quote s
  | .list []                 => ['[', ']']
  | .list (x :: rest)        => '[' :: (text x ++ moreItems rest)
  | .dict []                 => ['{', '}']
  | .dict ((key, v) :: rest) =>
    '{' :: (quote key ++ [':', ' '] ++ text v ++ moreEntries rest)

/-- The items after the first, and the bracket after them. -/
def moreItems : List Json → List Char
  | []        => [']']
  | x :: rest => ',' :: ' ' :: (text x ++ moreItems rest)

/-- The entries after the first, and the brace after them. -/
def moreEntries : List (String × Json) → List Char
  | []               => ['}']
  | (key, v) :: rest => ',' :: ' ' :: (quote key ++ [':', ' '] ++ text v ++ moreEntries rest)

end

def byKey (a b : String × Json) : Prop := a.1 ≤ b.1

instance : DecidableRel byKey := fun a b => inferInstanceAs (Decidable (a.1 ≤ b.1))

mutual

/-- The value with the keys of all its objects in order. -/
def sorted : Json → Json
  | .list xs      => .list (sortedItems xs)
  | .dict entries => .dict ((sortedEntries entries).insertionSort byKey)
  | v             => v

def sortedItems : List Json → List Json
  | []        => []
  | x :: rest => sorted x :: sortedItems rest

def sortedEntries : List (String × Json) → List (String × Json)
  | []               => []
  | (key, v) :: rest => (key, sorted v) :: sortedEntries rest

end

mutual

/-- No integer in the value is too long to be written. -/
def writable : Json → Bool
  | .num n        => decide (n.natAbs < 10 ^ maxStrDigits)
  | .list xs      => writableItems xs
  | .dict entries => writableEntries entries
  | _             => true

def writableItems : List Json → Bool
  | []        => true
  | x :: rest => writable x && writableItems rest

def writableEntries : List (String × Json) → Bool
  | []             => true
  | (_, v) :: rest => writable v && writableEntries rest

end

/-- `json.dumps(v, sort_keys=True)` -/
def dumps (v : Json) : Except PyErr (List Char) :=
  if writable v then .ok (text fl (sorted v))
  else .error ⟨.value, "Exceeds the limit (4300 digits) for integer string conversion"⟩

-- ---------------------------------------------------------------------------
-- The reader
-- ---------------------------------------------------------------------------

/-- A list or an object that is open. -/
inductive Frame
  | list (items : List Json)
  /-- the value to come belongs to this key -/
  | dict (entries : JsonEntries) (key : String)

/-- What a string is read for. -/
inductive Purpose
  | value
  | key (entries : JsonEntries)

/-- Where in an escape sequence a reader is. -/
inductive Escape
  | plain
  /-- after the backslash -/
  | slash
  /-- a code unit, with this many digits to come after the next one -/
  | hex (high : Option Nat) (left value : Nat)
  /-- after the first half of a surrogate pair -/
  | high (unit : Nat)
  /-- after the backslash of the second -/
  | highSlash (unit : Nat)

/-- What a reader has read: the kind of place it has come to, and the lists and
objects that are open around it. -/
inductive Reader
  | value (around : List Frame)
  /-- a value, or the end of a list that is empty -/
  | item (around : List Frame)
  /-- a key, or the end of an object that is empty -/
  | key (entries : JsonEntries) (first : Bool) (around : List Frame)
  | colon (entries : JsonEntries) (key : String) (around : List Frame)
  | quoted (purpose : Purpose) (chars : List Char) (escape : Escape) (around : List Frame)
  | number (token : List Char) (around : List Frame)
  /-- a constant, of which this is left to come -/
  | literal (left : List Char) (v : Json) (around : List Frame)
  /-- after a value -/
  | done (v : Json) (around : List Frame)
  | failed

def isJsonSpace (c : Char) : Bool := c == ' ' || c == '\t' || c == '\n' || c == '\r'

def isNumberChar (c : Char) : Bool :=
  isDigit c || c == '-' || c == '+' || c == '.' || c == 'e' || c == 'E'

/-- The value of a numeral, if it is one and not too long. -/
def numberOf (token : List Char) : Option Json :=
  if isIntNumeral token then
    match intOfChars token with
    | .ok n    => some (.num n)
    | .error _ => none
  else if isFloatNumeral token then some (.float (fl.parse token))
  else none

/-- The first character of a value. -/
def startValue (around : List Frame) (c : Char) : Reader :=
  if c = '"' then .quoted .value [] .plain around
  else if c = '[' then .item (.list [] :: around)
  else if c = '{' then .key [] true around
  else if c = 'n' then .literal "ull".toList .null around
  else if c = 't' then .literal "rue".toList (.bool true) around
  else if c = 'f' then .literal "alse".toList (.bool false) around
  else if c = 'N' then .literal "aN".toList (.float .nan) around
  else if c = 'I' then .literal "nfinity".toList (.float .inf) around
  else if c = '-' || isDigit c then .number [c] around
  else .failed

/-- A character after a value. -/
def afterValue (v : Json) (around : List Frame) (c : Char) : Reader :=
  if isJsonSpace c then .done v around
  else
    match around with
    | []                       => .failed
    | .list items :: rest      =>
      if c = ',' then .value (.list (items ++ [v]) :: rest)
      else if c = ']' then .done (.list (items ++ [v])) rest
      else .failed
    | .dict entries key :: rest =>
      if c = ',' then .key (assocSet key v entries) false rest
      else if c = '}' then .done (.dict (assocSet key v entries)) rest
      else .failed

def hexValue (c : Char) : Option Nat :=
  if 0x30 ≤ c.toNat ∧ c.toNat ≤ 0x39 then some (c.toNat - 0x30)
  else if 0x61 ≤ c.toNat ∧ c.toNat ≤ 0x66 then some (c.toNat - 0x57)
  else if 0x41 ≤ c.toNat ∧ c.toNat ≤ 0x46 then some (c.toNat - 0x37)
  else none

/-- The character of a short escape sequence. -/
def shortEscape (c : Char) : Option Char :=
  if c = '"' then some '"'
  else if c = '\\' then some '\\'
  else if c = '/' then some '/'
  else if c = 'b' then some '\x08'
  else if c = 'f' then some '\x0c'
  else if c = 'n' then some '\n'
  else if c = 'r' then some '\r'
  else if c = 't' then some '\t'
  else none

/-- A code unit is complete: a character, the second half of one, or the first. -/
def codeUnit (chars : List Char) (unit : Nat) : Option Nat → Option (List Char × Escape)
  | none      =>
    if 0xd800 ≤ unit ∧ unit < 0xdc00 then some (chars, .high unit)
    else if 0xdc00 ≤ unit ∧ unit < 0xe000 then none
    else some (chars ++ [Char.ofNat unit], .plain)
  | some high =>
    if 0xdc00 ≤ unit ∧ unit < 0xe000 then
      some (chars ++ [Char.ofNat (0x10000 + (high - 0xd800) * 0x400 + (unit - 0xdc00))], .plain)
    else none

/-- A character within a string that does not end it. -/
def stepQuoted (chars : List Char) (c : Char) : Escape → Option (List Char × Escape)
  | .plain =>
    if c = '\\' then some (chars, .slash)
    else if c.toNat < 0x20 then none
    else some (chars ++ [c], .plain)
  | .slash =>
    if c = 'u' then some (chars, .hex none 3 0)
    else (shortEscape c).map fun d => (chars ++ [d], .plain)
  | .hex high left value =>
    match hexValue c, left with
    | none, _          => none
    | some d, 0        => codeUnit chars (16 * value + d) high
    | some d, left + 1 => some (chars, .hex high left (16 * value + d))
  | .high unit => if c = '\\' then some (chars, .highSlash unit) else none
  | .highSlash unit => if c = 'u' then some (chars, .hex (some unit) 3 0) else none

def closeQuoted (chars : List Char) (around : List Frame) : Purpose → Reader
  | .value       => .done (.str (String.ofList chars)) around
  | .key entries => .colon entries (String.ofList chars) around

/-- One character. -/
def step (r : Reader) (c : Char) : Reader :=
  match r with
  | .value around => if isJsonSpace c then .value around else startValue around c
  | .item around =>
    if isJsonSpace c then .item around
    else if c = ']' then
      match around with
      | .list items :: rest => .done (.list items) rest
      | _                   => .failed
    else startValue around c
  | .key entries first around =>
    if isJsonSpace c then .key entries first around
    else if c = '"' then .quoted (.key entries) [] .plain around
    else if c = '}' && first then .done (.dict entries) around
    else .failed
  | .colon entries key around =>
    if isJsonSpace c then .colon entries key around
    else if c = ':' then .value (.dict entries key :: around)
    else .failed
  | .quoted purpose chars .plain around =>
    if c = '"' then closeQuoted chars around purpose
    else (stepQuoted chars c .plain).elim .failed fun e => .quoted purpose e.1 e.2 around
  | .quoted purpose chars escape around =>
    (stepQuoted chars c escape).elim .failed fun e => .quoted purpose e.1 e.2 around
  | .number token around =>
    if isNumberChar c then .number (token ++ [c]) around
    else if token = ['-'] ∧ c = 'I' then .literal "nfinity".toList (.float .negInf) around
    else
      match numberOf fl token with
      | some v => afterValue v around c
      | none   => .failed
  | .literal left v around =>
    match left with
    | []        => .failed
    | l :: rest => if c = l then (if rest.isEmpty then .done v around else .literal rest v around)
      else .failed
  | .done v around => afterValue v around c
  | .failed => .failed

/-- What was read is a value, and nothing is open. -/
def finish : Reader → Option Json
  | .done v []       => some v
  | .number token [] => numberOf fl token
  | _                => none

def feed (r : Reader) (cs : List Char) : Reader := cs.foldl (step fl) r

/-- `json.loads(text)` -/
def loads (cs : List Char) : Except PyErr Json :=
  match finish fl (feed fl (.value []) cs) with
  | some v => .ok v
  | none   => .error ⟨.value, "Expecting value"⟩

variable {fl : Floats}

theorem feed_nil (r : Reader) : feed fl r [] = r := rfl

theorem feed_cons (r : Reader) (c : Char) (cs : List Char) :
    feed fl r (c :: cs) = feed fl (step fl r c) cs := rfl

theorem feed_append (r : Reader) (cs ds : List Char) :
    feed fl r (cs ++ ds) = feed fl (feed fl r cs) ds := List.foldl_append

-- ---------------------------------------------------------------------------
-- Numerals
-- ---------------------------------------------------------------------------

/-- What `json` takes for a number. -/
def IsNumeral (token : List Char) : Prop := isIntNumeral token = true ∨ isFloatNumeral token = true

theorem isNumberChar_of_digit {c : Char} (h : isDigit c = true) : isNumberChar c = true := by
  simp [isNumberChar, h]

theorem all_of_isNatural {cs : List Char} (h : isNatural cs = true) : cs.all isDigit = true := by
  cases cs with
  | nil => rfl
  | cons c cs =>
    rw [isNatural] at h
    by_cases hZero : c = '0'
    · rw [if_pos hZero, List.isEmpty_iff] at h
      rw [h, hZero]
      rfl
    · rwa [if_neg hZero] at h

theorem mem_digits {cs : List Char} (h : cs.all isDigit = true) :
    ∀ c ∈ cs, isNumberChar c = true :=
  fun c hc => isNumberChar_of_digit (List.all_eq_true.mp h c hc)

theorem mem_isDigits {cs : List Char} (h : isDigits cs = true) :
    ∀ c ∈ cs, isNumberChar c = true := by
  unfold isDigits at h
  rw [Bool.and_eq_true] at h
  exact mem_digits h.2

theorem mem_isExponent {cs : List Char} (h : isExponent cs = true) :
    ∀ c ∈ cs, isNumberChar c = true := by
  have hSigned : ∀ {e sign : Char} {ds : List Char}, isNumberChar e = true →
      isNumberChar sign = true → isDigits ds = true →
        ∀ c ∈ e :: sign :: ds, isNumberChar c = true := by
    intro e sign ds he hSign hDigits c hc
    rcases List.mem_cons.mp hc with rfl | hc
    · exact he
    · rcases List.mem_cons.mp hc with rfl | hc
      · exact hSign
      · exact mem_isDigits hDigits c hc
  have hPlain : ∀ {e : Char} {ds : List Char}, isNumberChar e = true → isDigits ds = true →
      ∀ c ∈ e :: ds, isNumberChar c = true := by
    intro e ds he hDigits c hc
    rcases List.mem_cons.mp hc with rfl | hc
    · exact he
    · exact mem_isDigits hDigits c hc
  unfold isExponent at h
  split at h
  · exact hSigned rfl rfl h
  · exact hSigned rfl rfl h
  · exact hPlain rfl h
  · exact hSigned rfl rfl h
  · exact hSigned rfl rfl h
  · exact hPlain rfl h
  · cases h

theorem mem_isFraction {cs : List Char} (h : isFraction cs = true) :
    ∀ c ∈ cs, isNumberChar c = true := by
  unfold isFraction at h
  split at h
  · rename_i rest
    rw [Bool.and_eq_true, Bool.or_eq_true] at h
    intro c hc
    rcases List.mem_cons.mp hc with rfl | hc
    · rfl
    · rw [← List.takeWhile_append_dropWhile (p := isDigit) (l := rest)] at hc
      rcases List.mem_append.mp hc with hc | hc
      · exact mem_isDigits h.1 c hc
      · rcases h.2 with hEmpty | hExponent
        · rw [List.isEmpty_iff] at hEmpty
          rw [hEmpty] at hc
          cases hc
        · exact mem_isExponent hExponent c hc
  · exact mem_isExponent h

theorem mem_unsigned {token : List Char} (h : ∀ c ∈ unsigned token, isNumberChar c = true) :
    ∀ c ∈ token, isNumberChar c = true := by
  unfold unsigned at h
  split at h
  · intro c hc
    rcases List.mem_cons.mp hc with rfl | hc
    · rfl
    · exact h c hc
  · exact h

theorem IsNumeral.chars {token : List Char} (h : IsNumeral token) :
    ∀ c ∈ token, isNumberChar c = true := by
  refine mem_unsigned ?_
  rcases h with hInt | hFloat
  · exact mem_digits (all_of_isNatural hInt)
  · unfold isFloatNumeral at hFloat
    rw [Bool.and_eq_true] at hFloat
    intro c hc
    rw [← List.takeWhile_append_dropWhile (p := isDigit) (l := unsigned token)] at hc
    rcases List.mem_append.mp hc with hc | hc
    · exact mem_digits (all_of_isNatural hFloat.1) c hc
    · exact mem_isFraction hFloat.2 c hc

/-- A numeral begins with a sign or a digit, and is more than a sign. -/
theorem IsNumeral.head {token : List Char} (h : IsNumeral token) :
    ∃ c cs, token = c :: cs ∧ (c = '-' || isDigit c) = true ∧ token ≠ ['-'] := by
  have hUnsigned : ∃ d ds, unsigned token = d :: ds ∧ isDigit d = true := by
    -- the integer part begins with a digit
    have hHead : ∀ {cs : List Char}, isNatural cs = true →
        ∃ d ds, cs = d :: ds ∧ isDigit d = true := by
      intro cs hNatural
      cases cs with
      | nil => cases hNatural
      | cons d ds =>
        have hAll := all_of_isNatural hNatural
        rw [List.all_cons, Bool.and_eq_true] at hAll
        exact ⟨d, ds, rfl, hAll.1⟩
    rcases h with hInt | hFloat
    · exact hHead hInt
    · unfold isFloatNumeral at hFloat
      rw [Bool.and_eq_true] at hFloat
      obtain ⟨d, ds, hTake, hDigit⟩ := hHead hFloat.1
      refine ⟨d, ds ++ (unsigned token).dropWhile isDigit, ?_, hDigit⟩
      rw [← List.cons_append, ← hTake, List.takeWhile_append_dropWhile]
  obtain ⟨d, ds, hRest, hDigit⟩ := hUnsigned
  unfold unsigned at hRest
  split at hRest
  · rename_i cs
    exact ⟨'-', cs, rfl, rfl, by rw [hRest]; simp⟩
  · rename_i cs hMinus
    refine ⟨d, ds, hRest, by rw [hDigit, Bool.or_true], ?_⟩
    rintro hEq
    exact hMinus [] hEq

/-- A numeral with a fraction or an exponent is none of an integer. -/
theorem not_int_of_float {token : List Char} (h : isFloatNumeral token = true) :
    isIntNumeral token = false := by
  unfold isFloatNumeral at h
  rw [Bool.and_eq_true] at h
  rw [Bool.eq_false_iff]
  intro hInt
  have hAll := all_of_isNatural hInt
  have hNone : (unsigned token).dropWhile isDigit = [] :=
    List.dropWhile_eq_nil_iff.mpr (List.all_eq_true.mp hAll)
  rw [hNone] at h
  exact absurd h.2 (by decide)

theorem isDigit_digitChar {d : Nat} (h : d < 10) : isDigit (digitChar d) = true := by
  interval_cases d <;> rfl

theorem digitChar_ne_zero {d : Nat} (h : d < 10) (hd : d ≠ 0) : digitChar d ≠ '0' := by
  interval_cases d <;> first | exact absurd rfl hd | decide

theorem isNatural_natChars (n : Nat) : isNatural (natChars n) = true := by
  unfold natChars
  by_cases hZero : n = 0
  · rw [if_pos hZero]
    rfl
  · rw [if_neg hZero]
    have hNe : Nat.digits 10 n ≠ [] := Nat.digits_ne_nil_iff_ne_zero.mpr hZero
    have hLast : (Nat.digits 10 n).getLast hNe ≠ 0 := Nat.getLast_digit_ne_zero 10 hZero
    have hLt : ∀ d ∈ Nat.digits 10 n, d < 10 := fun d hd => Nat.digits_lt_base (by decide) hd
    rw [← List.dropLast_append_getLast hNe, List.reverse_append, List.map_append]
    have hTop := hLt _ (List.getLast_mem hNe)
    show isNatural (digitChar _ :: _) = true
    rw [isNatural, if_neg (digitChar_ne_zero hTop hLast), isDigit_digitChar hTop, Bool.true_and,
      List.all_eq_true]
    intro c hc
    obtain ⟨d, hd, rfl⟩ := List.mem_map.mp hc
    exact isDigit_digitChar (hLt d (List.mem_of_mem_dropLast (List.mem_reverse.mp hd)))

theorem unsigned_of_natural {cs : List Char} (h : isNatural cs = true) : unsigned cs = cs := by
  unfold unsigned
  split
  · exact absurd (all_of_isNatural h) (by simp [isDigit])
  · rfl

theorem isIntNumeral_intChars (n : Int) : isIntNumeral (intChars n) = true := by
  cases n with
  | ofNat m =>
    show isNatural (unsigned (natChars m)) = true
    rw [unsigned_of_natural (isNatural_natChars m)]
    exact isNatural_natChars m
  | negSucc m => exact isNatural_natChars (m + 1)

theorem numberOf_intChars {n : Int} (h : n.natAbs < 10 ^ maxStrDigits) :
    numberOf fl (intChars n) = some (.num n) := by
  unfold numberOf
  rw [if_pos (isIntNumeral_intChars n), intOfChars_intChars h]

theorem numberOf_float {token : List Char} (h : isFloatNumeral token = true) :
    numberOf fl token = some (.float (fl.parse token)) := by
  have hInt : ¬ isIntNumeral token = true := by rw [not_int_of_float h]; decide
  unfold numberOf
  rw [if_neg hInt, if_pos h]

theorem feed_number {token more : List Char} {around : List Frame}
    (h : ∀ c ∈ more, isNumberChar c = true) :
    feed fl (.number token around) more = .number (token ++ more) around := by
  induction more generalizing token with
  | nil => rw [feed_nil, List.append_nil]
  | cons c cs ih =>
    rw [feed_cons, step, if_pos (h c List.mem_cons_self),
      ih fun d hd => h d (List.mem_cons_of_mem c hd), List.append_assoc, List.singleton_append]

/-- A digit or a sign starts a number. -/
theorem step_value_number {c : Char} (h : (c = '-' || isDigit c) = true) (around : List Frame) :
    step fl (.value around) c = .number [c] around := by
  have hNot : ∀ d : Char, (d = '-' || isDigit d) = false → c ≠ d := by
    rintro d hd rfl
    rw [hd] at h
    cases h
  have hSpace : isJsonSpace c = false := by
    simp [isJsonSpace, hNot ' ' (by decide), hNot '\t' (by decide), hNot '\n' (by decide),
      hNot '\r' (by decide)]
  unfold step startValue
  simp [hSpace, h, hNot '"' (by decide), hNot '[' (by decide), hNot '{' (by decide),
    hNot 'n' (by decide), hNot 't' (by decide), hNot 'f' (by decide), hNot 'N' (by decide),
    hNot 'I' (by decide)]

theorem feed_numeral {token : List Char} (h : IsNumeral token) (around : List Frame) :
    feed fl (.value around) token = .number token around := by
  obtain ⟨c, cs, rfl, hStart, -⟩ := h.head
  rw [feed_cons, step_value_number hStart,
    feed_number fun d hd => h.chars d (List.mem_cons_of_mem c hd)]
  rfl

theorem step_number_eq (token : List Char) (around : List Frame) (c : Char) :
    step fl (.number token around) c =
      if isNumberChar c then .number (token ++ [c]) around
      else if token = ['-'] ∧ c = 'I' then
        .literal "nfinity".toList (.float .negInf) around
      else (numberOf fl token).elim .failed fun v => afterValue v around c := by
  unfold step
  dsimp only
  cases numberOf fl token <;> rfl

/-- A character that is no part of a number ends it. -/
theorem step_number {token : List Char} {v : Json} (h : IsNumeral token)
    (hNumber : numberOf fl token = some v) {c : Char} (hc : isNumberChar c = false)
    (around : List Frame) : step fl (.number token around) c = afterValue v around c := by
  obtain ⟨-, -, -, -, hSign⟩ := h.head
  have hPlain : ¬ isNumberChar c = true := by rw [hc]; decide
  rw [step_number_eq, if_neg hPlain, if_neg fun hBoth => hSign hBoth.1, hNumber]
  rfl

-- ---------------------------------------------------------------------------
-- Strings
-- ---------------------------------------------------------------------------

theorem hexValue_hexDigit {d : Nat} (h : d < 16) : hexValue (hexDigit d) = some d := by
  interval_cases d <;> decide

variable {purpose : Purpose} {chars : List Char} {around : List Frame}

/-- Within an escape sequence no character ends the string. -/
theorem step_quoted {escape : Escape} (h : escape ≠ .plain) (c : Char) :
    step fl (.quoted purpose chars escape around) c =
      (stepQuoted chars c escape).elim .failed fun e => .quoted purpose e.1 e.2 around := by
  cases escape with
  | plain => exact absurd rfl h
  | slash | hex | high | highSlash => rfl

theorem stepQuoted_hex {c : Char} {d : Nat} (h : hexValue c = some d) (high : Option Nat)
    (left value : Nat) : stepQuoted chars c (.hex high left value) =
      if left = 0 then codeUnit chars (16 * value + d) high
      else some (chars, .hex high (left - 1) (16 * value + d)) := by
  cases left <;> simp [stepQuoted, h]

theorem step_hex {high : Option Nat} {left value d : Nat} (hd : d < 16) :
    step fl (.quoted purpose chars (.hex high (left + 1) value) around) (hexDigit d) =
      .quoted purpose chars (.hex high left (16 * value + d)) around := by
  rw [step_quoted (by simp), stepQuoted_hex (hexValue_hexDigit hd), if_neg (by omega)]
  rfl

/-- Four digits are a code unit. -/
theorem feed_unit {n : Nat} (hn : n < 0x10000) (high : Option Nat) (rest : List Char) :
    feed fl (.quoted purpose chars (.hex high 3 0) around)
        ([hexDigit (n / 4096), hexDigit (n / 256 % 16), hexDigit (n / 16 % 16),
          hexDigit (n % 16)] ++ rest) =
      feed fl ((codeUnit chars n high).elim .failed fun e => .quoted purpose e.1 e.2 around)
        rest := by
  have hValue :
      16 * (16 * (16 * (16 * 0 + n / 4096) + n / 256 % 16) + n / 16 % 16) + n % 16 = n := by
    omega
  rw [feed_append, feed_cons, step_hex (by omega), feed_cons, step_hex (by omega), feed_cons,
    step_hex (by omega), feed_cons, step_quoted (by simp),
    stepQuoted_hex (hexValue_hexDigit (by omega)), if_pos rfl, hValue]
  rfl

theorem feed_slash (c : Char) (rest : List Char) (hc : c ≠ 'u') {d : Char}
    (hd : shortEscape c = some d) :
    feed fl (.quoted purpose chars .plain around) ('\\' :: c :: rest) =
      feed fl (.quoted purpose (chars ++ [d]) .plain around) rest := by
  rw [feed_cons, feed_cons]
  have hSlash : step fl (.quoted purpose chars .plain around) '\\' =
      .quoted purpose chars .slash around := rfl
  rw [hSlash, step_quoted (by simp), stepQuoted, if_neg hc, hd]
  rfl

theorem feed_unicode {n : Nat} (hn : n < 0x10000) (rest : List Char) :
    feed fl (.quoted purpose chars .plain around) (unicodeEscape n ++ rest) =
      feed fl ((codeUnit chars n none).elim .failed fun e => .quoted purpose e.1 e.2 around)
        rest :=
  feed_unit hn none rest

theorem feed_unicode_second {n : Nat} (hn : n < 0x10000) (unit : Nat) (rest : List Char) :
    feed fl (.quoted purpose chars (.high unit) around) (unicodeEscape n ++ rest) =
      feed fl ((codeUnit chars n (some unit)).elim .failed fun e =>
        .quoted purpose e.1 e.2 around) rest :=
  feed_unit hn (some unit) rest

/-- A code unit that is no half of a pair. -/
theorem feed_unicodeEscape {c : Char} (hc : c.toNat < 0x10000) (rest : List Char) :
    feed fl (.quoted purpose chars .plain around) (unicodeEscape c.toNat ++ rest) =
      feed fl (.quoted purpose (chars ++ [c]) .plain around) rest := by
  have hValid : c.toNat < 0xd800 ∨ 0xdfff < c.toNat := by
    rcases c.valid with h | h
    · exact Or.inl h
    · exact Or.inr h.1
  have hUnit : codeUnit chars c.toNat none = some (chars ++ [c], .plain) := by
    rw [codeUnit, if_neg (by omega), if_neg (by omega), Char.ofNat_toNat]
  rw [feed_unicode hc, hUnit]
  rfl

theorem toNat_lt (c : Char) : c.toNat < 0x110000 := by
  rcases c.valid with h | h
  · have hBelow : c.toNat < 0xd800 := h
    omega
  · exact h.2

/-- The first half of a pair is kept. -/
theorem codeUnit_high {high : Nat} (h : 0xd800 ≤ high ∧ high < 0xdc00) :
    codeUnit chars high none = some (chars, .high high) := by
  rw [codeUnit, if_pos h]

/-- The second half completes a character. -/
theorem codeUnit_low {high low : Nat} {c : Char} (h : 0xdc00 ≤ low ∧ low < 0xe000)
    (hc : 0x10000 + (high - 0xd800) * 0x400 + (low - 0xdc00) = c.toNat) :
    codeUnit chars low (some high) = some (chars ++ [c], .plain) := by
  rw [codeUnit, if_pos h, hc, Char.ofNat_toNat]

/-- The two halves of a pair. -/
theorem feed_surrogates {c : Char} (hc : 0x10000 ≤ c.toNat) (rest : List Char) :
    feed fl (.quoted purpose chars .plain around)
        (unicodeEscape (0xd800 + (c.toNat - 0x10000) / 0x400) ++
          unicodeEscape (0xdc00 + (c.toNat - 0x10000) % 0x400) ++ rest) =
      feed fl (.quoted purpose (chars ++ [c]) .plain around) rest := by
  have hRange := toNat_lt c
  have hHigh : 0xd800 ≤ 0xd800 + (c.toNat - 0x10000) / 0x400 ∧
      0xd800 + (c.toNat - 0x10000) / 0x400 < 0xdc00 := by omega
  have hLow : 0xdc00 ≤ 0xdc00 + (c.toNat - 0x10000) % 0x400 ∧
      0xdc00 + (c.toNat - 0x10000) % 0x400 < 0xe000 := by omega
  have hPair : 0x10000 + (0xd800 + (c.toNat - 0x10000) / 0x400 - 0xd800) * 0x400 +
      (0xdc00 + (c.toNat - 0x10000) % 0x400 - 0xdc00) = c.toNat := by omega
  generalize 0xd800 + (c.toNat - 0x10000) / 0x400 = high at hHigh hPair ⊢
  generalize 0xdc00 + (c.toNat - 0x10000) % 0x400 = low at hLow hPair ⊢
  rw [List.append_assoc, feed_unicode (by omega), codeUnit_high hHigh]
  show feed fl (.quoted purpose chars (.high high) around) (unicodeEscape low ++ rest) = _
  rw [feed_unicode_second (by omega), codeUnit_low hLow hPair]
  rfl

/-- An escaped character is read as the character. -/
theorem feed_escapeChar (c : Char) (rest : List Char) :
    feed fl (.quoted purpose chars .plain around) (escapeChar c ++ rest) =
      feed fl (.quoted purpose (chars ++ [c]) .plain around) rest := by
  unfold escapeChar
  -- the seven characters that have an escape of their own
  split
  · rename_i h
    rw [h]
    exact feed_slash '"' rest (by decide) rfl
  split
  · rename_i h
    rw [h]
    exact feed_slash '\\' rest (by decide) rfl
  split
  · rename_i h
    rw [h]
    exact feed_slash 'n' rest (by decide) rfl
  split
  · rename_i h
    rw [h]
    exact feed_slash 'r' rest (by decide) rfl
  split
  · rename_i h
    rw [h]
    exact feed_slash 't' rest (by decide) rfl
  split
  · rename_i h
    rw [h]
    exact feed_slash 'f' rest (by decide) rfl
  split
  · rename_i h
    rw [h]
    exact feed_slash 'b' rest (by decide) rfl
  split
  -- a character that is written as it is
  · rename_i hQuote hSlash _ _ _ _ _ hPlain
    show feed fl (step fl (.quoted purpose chars .plain around) c) rest = _
    have hStep : step fl (.quoted purpose chars .plain around) c =
        .quoted purpose (chars ++ [c]) .plain around := by
      rw [step, if_neg hQuote, stepQuoted, if_neg hSlash, if_neg (by omega)]
      rfl
    rw [hStep]
  split
  · rename_i h
    exact feed_unicodeEscape h rest
  · rename_i h
    -- outside the basic plane, where it takes two escapes
    exact feed_surrogates (by omega) rest

theorem feed_escaped (cs rest : List Char) :
    feed fl (.quoted purpose chars .plain around) (cs.flatMap escapeChar ++ rest) =
      feed fl (.quoted purpose (chars ++ cs) .plain around) rest := by
  induction cs generalizing chars with
  | nil => rw [List.append_nil]; rfl
  | cons c cs ih =>
    rw [List.flatMap_cons, List.append_assoc, feed_escapeChar, ih, List.append_assoc,
      List.singleton_append]

/-- A string is read up to its second quotation mark. -/
theorem feed_quoted (s : String) (rest : List Char) :
    feed fl (.quoted purpose [] .plain around) (s.toList.flatMap escapeChar ++ '"' :: rest) =
      feed fl (closeQuoted s.toList around purpose) rest := by
  rw [feed_escaped, List.nil_append]
  rfl

end JsonText

end ZagrosNode.Lib
