/-
Numerals and integers.

Writing an integer gives a numeral of its decimal digits, and reading that
numeral gives the integer back. The other way round, writing the integer
that a numeral denotes gives the numeral back, but for `-0`: its value is
zero, and zero is written without a sign. `tidy` is that one change.

Everything rests on one fact about digit strings: a string that does not
begin with zero is the digit string of its own value. It is proved from
the left, with the digits already passed kept as a number: the digits of
that number followed by the digits still to come are the digits of what
they denote together.
-/
import RobotLang.Numeral

namespace RobotLang.Numeral

-- ====================================================== digit strings

/-- A digit's value is less than ten. -/
theorem digit_lt_ten {c : Char} (hc : c.isDigit = true) :
    c.toNat - '0'.toNat < 10 := by
  have hrange := Char.isDigit_iff_toNat.1 hc
  have h0 : '0'.toNat = 48 := rfl
  have h9 : '9'.toNat = 57 := rfl
  omega

/-- A digit's value has that digit for its digit string. -/
theorem toDigits_digit {c : Char} (hc : c.isDigit = true) :
    Nat.toDigits 10 (c.toNat - '0'.toNat) = [c] := by
  have hrange := Char.isDigit_iff_toNat.1 hc
  have h0 : '0'.toNat = 48 := rfl
  have hlt := digit_lt_ten hc
  rw [Nat.toDigits_of_lt_base hlt]
  congr 1
  apply Char.toNat_inj.1
  rw [Nat.toNat_digitChar_of_lt_ten hlt]
  omega

/-- A digit other than zero has a positive value. -/
theorem digit_pos {c : Char} (hc : c.isDigit = true) (h0 : c ≠ '0') :
    0 < c.toNat - '0'.toNat := by
  have hrange := Char.isDigit_iff_toNat.1 hc
  have hne : c.toNat ≠ '0'.toNat := fun he => h0 (Char.toNat_inj.1 he)
  omega

/-- The digits of a positive number, followed by further digits, are the
digits of what they denote together. -/
theorem toDigits_append {cs : List Char} {n : Nat} (hn : 0 < n)
    (hcs : cs.all Char.isDigit = true) :
    Nat.toDigits 10 n ++ cs = Nat.toDigits 10 (Nat.ofDigitChars 10 cs n) := by
  induction cs generalizing n with
  | nil => rw [List.append_nil, Nat.ofDigitChars_nil]
  | cons c cs ih =>
      rw [List.all_cons, Bool.and_eq_true] at hcs
      have hsnoc := Nat.toDigits_append_toDigits (by decide : 1 < 10) hn
        (digit_lt_ten hcs.1)
      rw [toDigits_digit hcs.1] at hsnoc
      rw [Nat.ofDigitChars_cons, ← ih (by omega) hcs.2, ← hsnoc,
        List.append_assoc, List.singleton_append]

/-- Zero, or a digit string that does not begin with zero, is the digit
string of its value. -/
theorem toDigits_ofDigitChars {cs : List Char}
    (hcs : isUnsigned cs = true) :
    Nat.toDigits 10 (Nat.ofDigitChars 10 cs 0) = cs := by
  cases cs with
  | nil => cases hcs
  | cons c cs =>
      rw [isUnsigned] at hcs
      split at hcs
      · next h0 =>
        rw [h0, List.isEmpty_iff.1 hcs]
        rfl
      · next h0 =>
        rw [Bool.and_eq_true] at hcs
        rw [Nat.ofDigitChars_cons, Nat.mul_zero, Nat.zero_add,
          ← toDigits_append (digit_pos hcs.1 h0) hcs.2,
          toDigits_digit hcs.1, List.singleton_append]

/-- A digit string stays one without a zero in front when a digit is put
behind it, unless it is zero itself. -/
theorem isUnsigned_snoc {cs : List Char} {c : Char}
    (hcs : isUnsigned cs = true) (h0 : cs ≠ ['0'])
    (hc : c.isDigit = true) : isUnsigned (cs ++ [c]) = true := by
  cases cs with
  | nil => cases hcs
  | cons d ds =>
      rw [isUnsigned] at hcs
      split at hcs
      · next hd =>
        rw [hd, List.isEmpty_iff.1 hcs] at h0
        exact absurd rfl h0
      · next hd =>
        rw [List.cons_append, isUnsigned, if_neg hd, List.all_append]
        simpa [hc] using hcs

/-- The decimal digits of a number have no zero in front. -/
theorem isUnsigned_toDigits (n : Nat) :
    isUnsigned (Nat.toDigits 10 n) = true := by
  induction n using Nat.strongRecOn with
  | ind n ih =>
      by_cases hn : n < 10
      · rw [Nat.toDigits_of_lt_base hn, isUnsigned]
        split
        · rfl
        · rw [Nat.isDigit_digitChar, decide_eq_true hn]
          rfl
      · rw [Nat.toDigits_of_base_le (by decide) (by omega)]
        apply isUnsigned_snoc (ih (n / 10) (by omega))
        · -- the digits of a positive number are not those of zero
          intro he
          have hval := congrArg (Nat.ofDigitChars 10 · 0) he
          rw [Nat.ofDigitChars_ten_toDigits] at hval
          have : Nat.ofDigitChars 10 ['0'] 0 = 0 := rfl
          omega
        · rw [Nat.isDigit_digitChar, decide_eq_true (by omega)]

-- ============================================== numerals of integers

/-- A numeral begins with a minus sign just when its integer is negative,
and the rest of it is the digits of the magnitude. -/
theorem toList_write (n : Int) :
    (write n).toList
      = if 0 ≤ n then Nat.toDigits 10 n.natAbs
        else '-' :: Nat.toDigits 10 n.natAbs := by
  rw [write, Int.toString_eq_repr, Int.repr_eq_if]
  split
  · next h => rw [Nat.toList_repr, show n.toNat = n.natAbs by omega]
  · next h =>
    rw [String.toList_append, Nat.toList_repr,
      show (-n).toNat = n.natAbs by omega]
    rfl

/-- No digit string begins with a minus sign. -/
theorem toDigits_ne_minus (n : Nat) (cs : List Char) :
    Nat.toDigits 10 n ≠ '-' :: cs := by
  intro he
  have hmem : '-' ∈ Nat.toDigits 10 n := by
    rw [he]
    exact List.mem_cons_self ..
  exact absurd (Nat.isDigit_of_mem_toDigits (by decide) (by decide) hmem)
    (by decide)

/-- A numeral is a word whose digits have no zero in front. -/
theorem isNumeral_eq (w : String) : isNumeral w = isUnsigned (digits w) := by
  unfold isNumeral digits
  split <;> rfl

theorem digits_write (n : Int) :
    digits (write n) = Nat.toDigits 10 n.natAbs := by
  rw [digits, toList_write]
  split
  · next cs he =>
    split at he
    · exact absurd he (toDigits_ne_minus _ _)
    · injection he with _ he
      exact he.symm
  · next hne =>
    split at hne
    · next h => rw [if_pos h]
    · exact absurd rfl (hne _)

theorem isNegative_write (n : Int) :
    isNegative (write n) = decide (n < 0) := by
  rw [isNegative, toList_write]
  split
  · next h =>
    rw [decide_eq_false (by omega : ¬n < 0), decide_eq_false_iff_not]
    intro he
    obtain ⟨cs, hcs⟩ := List.head?_eq_some_iff.1 he
    exact toDigits_ne_minus _ _ hcs
  · next h => rw [decide_eq_true (by omega : n < 0)]; rfl

/-- Every integer is written as a numeral. -/
theorem isNumeral_write (n : Int) : isNumeral (write n) = true := by
  rw [isNumeral_eq, digits_write]
  exact isUnsigned_toDigits _

/-- Reading a written integer gives it back. -/
theorem value_write (n : Int) : value (write n) = n := by
  rw [value, isNegative_write, digits_write, Nat.ofDigitChars_ten_toDigits]
  by_cases hn : n < 0
  · simp only [hn, decide_true, if_true]
    omega
  · simp only [hn, decide_false, Bool.false_eq_true, if_false]
    omega

-- ============================================== integers of numerals

/-- The word with a minus sign in front of zero left out. -/
def tidy (w : String) : String := if w = "-0" then "0" else w

theorem tidy_of_ne {w : String} (h : w ≠ "-0") : tidy w = w := if_neg h

/-- Writing the integer that a numeral denotes gives the numeral back, but
for a minus sign in front of zero. -/
theorem write_value {w : String} (hw : isNumeral w = true) :
    write (value w) = tidy w := by
  have hdigits := toDigits_ofDigitChars ((isNumeral_eq w).symm.trans hw)
  apply String.toList_inj.1
  rw [toList_write]
  by_cases hneg : isNegative w = true
  · -- the digits behind the sign are either those of zero or positive
    obtain ⟨cs, hcs⟩ := List.head?_eq_some_iff.1 (of_decide_eq_true hneg)
    have hd : digits w = cs := by
      rw [digits, hcs]
      rfl
    rw [hd] at hdigits
    have hval : value w = -(Nat.ofDigitChars 10 cs 0 : Int) := by
      rw [value, hd, if_pos hneg]
    rw [hval, Int.natAbs_neg, Int.natAbs_natCast, hdigits]
    by_cases h0 : Nat.ofDigitChars 10 cs 0 = 0
    · rw [h0] at hdigits
      have hw0 : w = "-0" := by
        apply String.toList_inj.1
        rw [hcs, ← hdigits]
        rfl
      rw [if_pos (by omega), ← hdigits, hw0]
      rfl
    · rw [if_neg (by omega), tidy_of_ne, hcs]
      intro he
      rw [he] at hd
      exact h0 (by rw [← hd]; rfl)
  · have hd : digits w = w.toList := by
      rw [digits]
      split
      · next cs hcs => exact absurd (by rw [isNegative, hcs]; rfl) hneg
      · rfl
    rw [hd] at hdigits
    have hval : value w = (Nat.ofDigitChars 10 w.toList 0 : Int) := by
      rw [value, hd, if_neg hneg]
    rw [hval, if_pos (by omega), Int.natAbs_natCast, hdigits, tidy_of_ne]
    intro he
    rw [he] at hneg
    exact hneg rfl

end RobotLang.Numeral
