import Mathlib.Data.Nat.Digits.Lemmas
import ZagrosNode.Lib.Text

/-!
# ZagrosNode — decimal text of integers

`str(n)` of an integer, and that `int()` reads it back. `int()` refuses texts
of more than 4300 digits, so the round trip holds below that size; and every
integer `int()` returns is below it.

Python turns an integer into text by its decimal digits with a minus sign in front
of a negative one, and `int` reads digits, an underscore between two of them and a
sign. So what is written here is a small part of what is read, and the round trip
is one way only: `int("1_0")` is 10 and is not written so.

The digits come from `Nat.digits`, whose order is the other one; `natChars_eq` says
what the text is, and `ofDigitList_natDigits` that reading it from the left gives
the number back. The limit on the number of digits is that of the interpreter
(`maxStrDigits`). It makes `int` a partial function of the text of a number, and it
is why a number that came out of `int` can always be written and read again.

Identifiers are the users: a user id is a key of a JSON object and so a text, and
the usage rows, the limits and the statistics of the drivers all carry it there and
back.

Main results:

* `intOfChars_intChars` — `int(str(n)) == n`.
* `natAbs_lt_of_intOfChars` — the integers `int()` returns are small enough.
-/

namespace ZagrosNode.Lib

/-- The character of a decimal digit. -/
def digitChar (d : Nat) : Char := Char.ofNat (48 + d)

def natChars (n : Nat) : List Char :=
  if n = 0 then ['0'] else (Nat.digits 10 n).reverse.map digitChar

/-- `str(n)` -/
def intChars : Int → List Char
  | .ofNat n   => natChars n
  | .negSucc n => '-' :: natChars (n + 1)

/-- The value of a digit string, most significant digit first. -/
def ofDigitList (ds : List Nat) : Nat := ds.foldl (fun acc d => 10 * acc + d) 0

-- ---------------------------------------------------------------------------
-- Digits
-- ---------------------------------------------------------------------------

theorem digitChar_spec {d : Nat} (h : d < 10) :
    digitValue (digitChar d) = some d ∧ isSpace (digitChar d) = false ∧
      digitChar d ≠ '_' ∧ digitChar d ≠ '-' ∧ digitChar d ≠ '+' ∧
      digitChar d ≠ ':' ∧ digitChar d ≠ 'n' := by
  interval_cases d <;> decide

theorem ofDigitList_reverse (ds : List Nat) : ofDigitList ds.reverse = Nat.ofDigits 10 ds := by
  unfold ofDigitList
  rw [List.foldl_reverse, Nat.ofDigits_eq_foldr]
  congr 1
  funext d acc
  exact Nat.add_comm _ _

/-- The digits of `n`, most significant first. -/
def natDigits (n : Nat) : List Nat := if n = 0 then [0] else (Nat.digits 10 n).reverse

theorem natChars_eq (n : Nat) : natChars n = (natDigits n).map digitChar := by
  unfold natChars natDigits
  split <;> rfl

theorem natDigits_lt {n d : Nat} (h : d ∈ natDigits n) : d < 10 := by
  unfold natDigits at h
  split at h
  · rw [List.mem_singleton] at h
    omega
  · exact Nat.digits_lt_base (by decide) (List.mem_reverse.mp h)

theorem natDigits_ne_nil (n : Nat) : natDigits n ≠ [] := by
  unfold natDigits
  split
  · exact List.cons_ne_nil 0 []
  · rename_i hNe
    rw [ne_eq, List.reverse_eq_nil_iff]
    exact Nat.digits_ne_nil_iff_ne_zero.mpr hNe

theorem ofDigitList_natDigits (n : Nat) : ofDigitList (natDigits n) = n := by
  unfold natDigits
  split
  · rename_i hZero
    rw [hZero]
    rfl
  · rw [ofDigitList_reverse, Nat.ofDigits_digits]

theorem length_natDigits {n k : Nat} (hk : 0 < k) (h : n < 10 ^ k) :
    (natDigits n).length ≤ k := by
  unfold natDigits
  split
  · exact hk
  · rw [List.length_reverse]
    exact (Nat.digits_length_le_iff (by decide) n).mpr h

theorem digitsOfChars_cons {c c' : Char} {cs : List Char} {d : Nat} (hc : digitValue c = some d)
    (hNext : c' ≠ '_') :
    digitsOfChars (c :: c' :: cs) = (digitsOfChars (c' :: cs)).map (d :: ·) := by
  simp [digitsOfChars, hc]

theorem digitsOfChars_underscore {c : Char} {cs : List Char} {d : Nat}
    (hc : digitValue c = some d) :
    digitsOfChars (c :: '_' :: cs) = (digitsOfChars cs).map (d :: ·) := by
  simp [digitsOfChars, hc]

/-- A digit string has the digits it is made of. -/
theorem digitsOfChars_map {ds : List Nat} (hNe : ds ≠ []) (hLt : ∀ d ∈ ds, d < 10) :
    digitsOfChars (ds.map digitChar) = some ds := by
  induction ds with
  | nil => exact absurd rfl hNe
  | cons d rest ih =>
    have hDigit := digitChar_spec (hLt d List.mem_cons_self)
    cases rest with
    | nil => simp [digitsOfChars, hDigit.1]
    | cons d' rest =>
      have hNext := digitChar_spec (hLt d' (by simp))
      have hRest := ih (List.cons_ne_nil d' rest) fun x hx => hLt x (List.mem_cons_of_mem d hx)
      simp only [List.map_cons] at hRest ⊢
      rw [digitsOfChars_cons hDigit.1 hNext.2.2.1, hRest]
      rfl

-- ---------------------------------------------------------------------------
-- The round trip
-- ---------------------------------------------------------------------------

theorem intOfChars_natDigits {ds : List Nat} (hNe : ds ≠ []) (hLt : ∀ d ∈ ds, d < 10)
    (hLen : ds.length ≤ maxStrDigits) :
    intOfChars (ds.map digitChar) = .ok (ofDigitList ds) ∧
      intOfChars ('-' :: ds.map digitChar) = .ok (-(ofDigitList ds : Int)) := by
  have hEnds : ∀ c ∈ ds.map digitChar, isIntSpace c = false := by
    intro c hc
    obtain ⟨d, hd, rfl⟩ := List.mem_map.mp hc
    exact isIntSpace_of_not_isSpace (digitChar_spec (hLt d hd)).2.1
  -- no digit is a blank, so nothing is stripped
  have hStrip : trim isIntSpace (ds.map digitChar) = ds.map digitChar :=
    trim_of_ends (fun c hc => hEnds c (List.mem_of_mem_head? hc))
      fun c hc => hEnds c (List.mem_of_mem_getLast? hc)
  have hStripNeg : trim isIntSpace ('-' :: ds.map digitChar) = '-' :: ds.map digitChar := by
    refine trim_of_ends (fun c hc => ?_) fun c hc => ?_
    · simp only [List.head?_cons, Option.mem_def, Option.some.injEq] at hc
      rw [← hc]
      decide
    · rcases List.mem_cons.mp (List.mem_of_mem_getLast? hc) with rfl | hMem
      · decide
      · exact hEnds c hMem
  have hDigits := digitsOfChars_map hNe hLt
  constructor
  · unfold intOfChars
    simp only [hStrip]
    cases ds with
    | nil => exact absurd rfl hNe
    | cons d rest =>
      obtain ⟨-, -, -, hMinus, hPlus, -⟩ := digitChar_spec (hLt d List.mem_cons_self)
      -- a digit is no sign
      have hSign : splitSign ((d :: rest).map digitChar) = (1, (d :: rest).map digitChar) := by
        rw [List.map_cons]
        unfold splitSign
        split
        · rename_i hEq
          exact absurd (List.cons.inj hEq).1 hMinus
        · rename_i hEq
          exact absurd (List.cons.inj hEq).1 hPlus
        · rfl
      rw [hSign]
      simp only [hDigits]
      rw [if_neg (by omega), one_mul]
      rfl
  · unfold intOfChars
    simp only [hStripNeg, splitSign, hDigits]
    rw [if_neg (by omega), neg_one_mul]
    rfl

/--
**`int(str(n)) == n`**, for integers short enough to be written. Python refuses
longer ones both ways, with one limit, so what can be written can be read.
-/
theorem intOfChars_intChars {n : Int} (h : n.natAbs < 10 ^ maxStrDigits) :
    intOfChars (intChars n) = .ok n := by
  have hSize : 0 < maxStrDigits := by decide
  cases n with
  | ofNat m =>
    show intOfChars (natChars m) = _
    rw [natChars_eq, (intOfChars_natDigits (natDigits_ne_nil m) (fun _ => natDigits_lt)
      (length_natDigits hSize h)).1, ofDigitList_natDigits]
    rfl
  | negSucc m =>
    show intOfChars ('-' :: natChars (m + 1)) = _
    rw [natChars_eq, (intOfChars_natDigits (natDigits_ne_nil (m + 1)) (fun _ => natDigits_lt)
      (length_natDigits hSize h)).2, ofDigitList_natDigits]
    rfl

theorem digitsOfChars_lt {cs : List Char} {ds : List Nat} (h : digitsOfChars cs = some ds) :
    ∀ d ∈ ds, d < 10 := by
  have hValue : ∀ {c d}, digitValue c = some d → d < 10 := by
    intro c d hc
    unfold digitValue at hc
    obtain ⟨z, hFind, rfl⟩ := Option.map_eq_some_iff.mp hc
    have hRange := List.find?_some hFind
    rw [decide_eq_true_eq] at hRange
    omega
  induction cs using digitsOfChars.induct generalizing ds with
  | case1 => cases h
  | case2 c cs hNone => simp [digitsOfChars, hNone] at h
  | case3 c d hSome =>
    simp only [digitsOfChars, hSome, Option.some.injEq] at h
    rw [← h]
    simpa using hValue hSome
  | case4 c d cs hSome ih =>
    rw [digitsOfChars_underscore hSome] at h
    obtain ⟨rest, hRest, rfl⟩ := Option.map_eq_some_iff.mp h
    simpa using ⟨hValue hSome, ih hRest⟩
  | case5 c d c' cs hNext hSome ih =>
    rw [digitsOfChars_cons hSome hNext] at h
    obtain ⟨rest, hRest, rfl⟩ := Option.map_eq_some_iff.mp h
    simpa using ⟨hValue hSome, ih hRest⟩

/-- The integers `int()` returns can be written. -/
theorem natAbs_lt_of_intOfChars {cs : List Char} {n : Int} (h : intOfChars cs = .ok n) :
    n.natAbs < 10 ^ maxStrDigits := by
  unfold intOfChars at h
  simp only at h
  split at h
  · cases h
  rename_i ds hDigits
  split at h
  · cases h
  rename_i hLen
  have hBound : ofDigitList ds < 10 ^ maxStrDigits := by
    rw [← List.reverse_reverse ds, ofDigitList_reverse]
    refine lt_of_lt_of_le (Nat.ofDigits_lt_base_pow_length (by decide) fun d hd =>
      digitsOfChars_lt hDigits d (List.mem_reverse.mp hd)) ?_
    rw [List.length_reverse]
    exact Nat.pow_le_pow_right (by decide) (not_lt.mp hLen)
  have hSign : (splitSign (trim isIntSpace cs)).1.natAbs = 1 := by
    unfold splitSign
    split <;> rfl
  rw [← Except.ok.inj h, Int.natAbs_mul, hSign, one_mul, Int.natAbs_natCast]
  exact hBound

end ZagrosNode.Lib
