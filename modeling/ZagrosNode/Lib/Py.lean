import Mathlib.Data.List.Basic
import Mathlib.Data.Rat.Floor

/-!
# ZagrosNode — the host language: exceptions, `int()`, JSON values

What the modelled code uses of its language: the built-in exception classes,
`int()` on text and on JSON values, truth testing, and the values `json`
decodes. Floats are rationals with the two infinities and not-a-number, since
`json` accepts and produces those three as well.

The text operations are those of `str` and `int` as they are documented, with the
differences that matter for what may be pushed: `str.strip` takes off the separators
from U+001C to U+001F and `int()` does not, decimal digits are those of every script,
an underscore may stand between two digits, and a text of more than 4300 digits is
refused. `isSpace` and `isIntSpace` are the two notions of white space.

Exceptions carry their class and the part of their text that reaches an answer. The
classes are those the code tells apart in an `except` clause, so `isValueError` holds
of `UnicodeError` as well, whose class is below that of `ValueError`.

`Json` are the values after decoding. `truthy` is `bool(v)`, `or` the operator, and
`get?` and `getD` are `dict.get` without and with a default; a key that is not there
and one with `null` are different for the first only.

Main results:

* `intOfStr_error` — `int()` of a text raises nothing but value errors.
* `int_num` — an integer converts to itself.
-/

namespace ZagrosNode.Lib

/-- The built-in exception classes the modelled code tells apart. `unicode`
is a subclass of `ValueError`. -/
inductive PyKind
  | value | unicode | type | overflow | key | attribute | notFound | os | recursion
  deriving DecidableEq, Repr

/-- An exception of the language itself with the start of its text. -/
structure PyErr where
  kind : PyKind
  text : String
  deriving DecidableEq, Repr

namespace PyErr

/-- `isinstance(e, ValueError)` -/
def isValueError (e : PyErr) : Bool :=
  match e.kind with
  | .value | .unicode => true
  | _ => false

end PyErr

-- ---------------------------------------------------------------------------
-- Characters
-- ---------------------------------------------------------------------------

/-- Code points at which a run of ten decimal digits starts (category `Nd`). -/
def digitZeros : List Nat :=
  [0x30, 0x660, 0x6f0, 0x7c0, 0x966, 0x9e6, 0xa66, 0xae6, 0xb66, 0xbe6, 0xc66, 0xce6,
   0xd66, 0xde6, 0xe50, 0xed0, 0xf20, 0x1040, 0x1090, 0x17e0, 0x1810, 0x1946, 0x19d0,
   0x1a80, 0x1a90, 0x1b50, 0x1bb0, 0x1c40, 0x1c50, 0xa620, 0xa8d0, 0xa900, 0xa9d0,
   0xa9f0, 0xaa50, 0xabf0, 0xff10, 0x104a0, 0x10d30, 0x11066, 0x110f0, 0x11136, 0x111d0,
   0x112f0, 0x11450, 0x114d0, 0x11650, 0x116c0, 0x11730, 0x118e0, 0x11950, 0x11c50,
   0x11d50, 0x11da0, 0x11f50, 0x16a60, 0x16ac0, 0x16b50, 0x1d7ce, 0x1d7d8, 0x1d7e2,
   0x1d7ec, 0x1d7f6, 0x1e140, 0x1e2f0, 0x1e4f0, 0x1e950, 0x1fbf0]

/-- The decimal value of a character, if it has one. -/
def digitValue (c : Char) : Option Nat :=
  (digitZeros.find? fun z => decide (z ≤ c.toNat ∧ c.toNat < z + 10)).map fun z => c.toNat - z

/-- The runs of characters that `str.isdigit` takes for digits besides those of
`digitZeros`: superscripts and subscripts, circled and parenthesised digits. They
have no decimal value, so `int()` refuses them. -/
def otherDigits : List (Nat × Nat) :=
  [(0xb2, 0xb3), (0xb9, 0xb9), (0x1369, 0x1371), (0x19da, 0x19da), (0x2070, 0x2070),
   (0x2074, 0x2079), (0x2080, 0x2089), (0x2460, 0x2468), (0x2474, 0x247c), (0x2488, 0x2490),
   (0x24ea, 0x24ea), (0x24f5, 0x24fd), (0x24ff, 0x24ff), (0x2776, 0x277e), (0x2780, 0x2788),
   (0x278a, 0x2792), (0x10a40, 0x10a43), (0x10e60, 0x10e68), (0x11052, 0x1105a),
   (0x1f100, 0x1f10a)]

/-- `str.isdigit` -/
def isDigits (s : String) : Bool :=
  decide (s ≠ "") && s.toList.all fun c =>
    (digitValue c).isSome || otherDigits.any fun run => decide (run.1 ≤ c.toNat ∧ c.toNat ≤ run.2)

/-- `str.isspace` of one character. -/
def isSpace (c : Char) : Bool :=
  decide ((0x9 ≤ c.toNat ∧ c.toNat ≤ 0xd) ∨ (0x1c ≤ c.toNat ∧ c.toNat ≤ 0x20) ∨
    c.toNat ∈ [0x85, 0xa0, 0x1680, 0x2028, 0x2029, 0x202f, 0x205f, 0x3000] ∨
    (0x2000 ≤ c.toNat ∧ c.toNat ≤ 0x200a))

/-- `str.isalnum` of one character of the Latin-1 range, the range header
values are decoded from. -/
def isAlnumLatin1 (c : Char) : Bool :=
  decide ((0x30 ≤ c.toNat ∧ c.toNat ≤ 0x39) ∨ (0x41 ≤ c.toNat ∧ c.toNat ≤ 0x5a) ∨
    (0x61 ≤ c.toNat ∧ c.toNat ≤ 0x7a) ∨
    c.toNat ∈ [0xaa, 0xb2, 0xb3, 0xb5, 0xb9, 0xba, 0xbc, 0xbd, 0xbe] ∨
    (0xc0 ≤ c.toNat ∧ c.toNat ≤ 0xff ∧ c.toNat ≠ 0xd7 ∧ c.toNat ≠ 0xf7))

/-- `str.isascii` -/
def isAscii (s : String) : Bool := s.toList.all fun c => decide (c.toNat < 128)

/-- Drop what is blank at both ends. -/
def trim (blank : Char → Bool) (cs : List Char) : List Char :=
  ((cs.dropWhile blank).reverse.dropWhile blank).reverse

/-- `str.strip` -/
def strip (cs : List Char) : List Char := trim isSpace cs

/-- What `int()` passes over at the ends of a text. The separators U+001C to
U+001F are blanks for `strip` and for nothing of `int()`, which leaves the
characters below U+007F as they are and then skips the blanks of C. -/
def isIntSpace (c : Char) : Bool := isSpace c && !decide (0x1c ≤ c.toNat ∧ c.toNat ≤ 0x1f)

-- ---------------------------------------------------------------------------
-- `int()`
-- ---------------------------------------------------------------------------

/-- Digits with single underscores between them. -/
def digitsOfChars : List Char → Option (List Nat)
  | []      => none
  | c :: cs =>
    match digitValue c, cs with
    | none, _           => none
    | some d, []        => some [d]
    | some d, '_' :: cs => (digitsOfChars cs).map (d :: ·)
    | some d, c :: cs   => (digitsOfChars (c :: cs)).map (d :: ·)

/-- Longest digit string `int()` converts. -/
def maxStrDigits : Nat := 4300

def invalidLiteral : PyErr := ⟨.value, "invalid literal for int() with base 10"⟩

/-- The sign of a number and the text after it. -/
def splitSign : List Char → Int × List Char
  | '-' :: rest => (-1, rest)
  | '+' :: rest => (1, rest)
  | rest        => (1, rest)

/-- `int(s)` -/
def intOfChars (cs : List Char) : Except PyErr Int :=
  let signed := splitSign (trim isIntSpace cs)
  match digitsOfChars signed.2 with
  | none    => .error invalidLiteral
  | some ds =>
    if maxStrDigits < ds.length then
      .error ⟨.value, "Exceeds the limit (4300 digits) for integer string conversion"⟩
    else
      .ok (signed.1 * (ds.foldl (fun acc d => 10 * acc + d) 0 : Nat))

def intOfStr (s : String) : Except PyErr Int := intOfChars s.toList

/-- The only exceptions of `int(s)` are value errors. -/
theorem intOfStr_error {s : String} {e : PyErr} (h : intOfStr s = .error e) :
    e.isValueError = true := by
  unfold intOfStr intOfChars at h
  simp only at h
  split at h
  · cases h
    rfl
  · split at h
    · cases h
      rfl
    · cases h

/-- White space around the digits is skipped, and a file separator is none. -/
example : intOfStr " 5\n" = .ok 5 ∧ intOfStr "\x1c5" = .error invalidLiteral :=
  ⟨rfl, rfl⟩

-- ---------------------------------------------------------------------------
-- JSON values
-- ---------------------------------------------------------------------------

/-- A float, up to the choice of binary representation. -/
inductive PyFloat
  | finite (q : Rat)
  | inf
  | negInf
  | nan
  deriving DecidableEq, Repr

/-- What `json.loads` returns. -/
inductive Json
  | null
  | bool (b : Bool)
  | num (n : Int)
  | float (x : PyFloat)
  | str (s : String)
  | list (xs : List Json)
  | dict (entries : List (String × Json))

namespace Json

/-- `bool(v)` -/
def truthy : Json → Bool
  | .null              => false
  | .bool b            => b
  | .num n             => n != 0
  | .float (.finite q) => q != 0
  | .float _           => true
  | .str s             => s != ""
  | .list xs           => !xs.isEmpty
  | .dict entries      => !entries.isEmpty

/-- `v or w` -/
def or (v w : Json) : Json := if v.truthy then v else w

/-- `d.get(key)` on the entries of an object: `None` for an absent key. -/
def getD (entries : List (String × Json)) (key : String) : Json :=
  match entries.find? fun e => e.1 == key with
  | some e => e.2
  | none   => .null

/-- The value under `key` in the entries of an object. -/
def get? (entries : List (String × Json)) (key : String) : Option Json :=
  (entries.find? fun e => e.1 == key).map Prod.snd

/-- The value can be in a set or be a key. -/
def hashable : Json → Bool
  | .list _ => false
  | .dict _ => false
  | _       => true

/-- `isinstance(v, dict)` -/
def isDict : Json → Bool
  | .dict _ => true
  | _       => false

/-- `int(v)` -/
def int : Json → Except PyErr Int
  | .bool b            => .ok (if b then 1 else 0)
  | .num n             => .ok n
  | .float (.finite q) => .ok (if 0 ≤ q then ⌊q⌋ else ⌈q⌉)
  | .float .nan        => .error ⟨.value, "cannot convert float NaN to integer"⟩
  | .float _           => .error ⟨.overflow, "cannot convert float infinity to integer"⟩
  | .str s             => intOfStr s
  | .null              => .error ⟨.type, "int() argument must be a string or a number"⟩
  | .list _            => .error ⟨.type, "int() argument must be a string or a number"⟩
  | .dict _            => .error ⟨.type, "int() argument must be a string or a number"⟩

@[simp] theorem int_num (n : Int) : Json.int (.num n) = .ok n := rfl

end Json

end ZagrosNode.Lib
