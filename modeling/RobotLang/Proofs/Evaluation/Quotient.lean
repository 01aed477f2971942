/-
Division that drops the fraction.

The quotient of two integers has the quotient of their magnitudes for its
magnitude, and is negative if just one of the two is; zero counts as not
negative. It is told by what it leaves: a remainder that is smaller than
the divisor and, unless it is zero, on the same side of zero as the
dividend. Such remainders fill a range as long as the divisor, from zero
upwards or downwards, and there a division with remainder has one quotient
only. The side is that of the dividend, so there are two cases.
-/
import Mathlib.Algebra.Order.Group.Unbundled.Int
import RobotLang.Evaluation

namespace RobotLang

variable {a b r : Int}

-- ========================================================== magnitudes

/-- The quotient of the magnitudes, with a minus sign if just one of the two
integers is negative. -/
def quotientOfMagnitudes (a b : Int) : Int :=
  let magnitude : Int := (a.natAbs / b.natAbs : Nat)
  if a < 0 ↔ b < 0 then magnitude else -magnitude

theorem tdiv_eq_quotientOfMagnitudes (a b : Int) :
    a.tdiv b = quotientOfMagnitudes a b := by
  have hmagnitude : ((a.natAbs / b.natAbs : Nat) : Int)
      = (a.natAbs : Int).tdiv b.natAbs := Int.ofNat_tdiv _ _
  unfold quotientOfMagnitudes
  rw [hmagnitude]
  by_cases ha : a < 0
  · have hdividend : (a.natAbs : Int) = -a := by omega
    by_cases hb : b < 0
    · have hdivisor : (b.natAbs : Int) = -b := by omega
      rw [if_pos (iff_of_true ha hb), hdividend, hdivisor, Int.neg_tdiv,
        Int.tdiv_neg, Int.neg_neg]
    · have hdivisor : (b.natAbs : Int) = b := by omega
      rw [if_neg (fun h => hb (h.1 ha)), hdividend, hdivisor, Int.neg_tdiv,
        Int.neg_neg]
  · have hdividend : (a.natAbs : Int) = a := by omega
    by_cases hb : b < 0
    · have hdivisor : (b.natAbs : Int) = -b := by omega
      rw [if_neg (fun h => ha (h.2 hb)), hdividend, hdivisor, Int.tdiv_neg,
        Int.neg_neg]
    · have hdivisor : (b.natAbs : Int) = b := by omega
      rw [if_pos (iff_of_false ha hb), hdividend, hdivisor]

-- ========================================================== remainders

/-- What may be left of a dividend: less than the divisor, and nothing on
the other side of zero. -/
def IsRemainder (a b r : Int) : Prop :=
  |r| < |b| ∧ (r = 0 ∨ r.sign = a.sign)

theorem zero_or_sign_eq_iff :
    r = 0 ∨ r.sign = a.sign ↔ (0 ≤ a → 0 ≤ r) ∧ (a ≤ 0 → r ≤ 0) := by
  rcases Int.lt_trichotomy a 0 with ha | ha | ha
  · rw [Int.sign_eq_neg_one_of_neg ha, Int.sign_eq_neg_one_iff_neg]
    omega
  · rw [ha, Int.sign_zero, Int.sign_eq_zero_iff_zero]
    omega
  · rw [Int.sign_eq_one_of_pos ha, Int.sign_eq_one_iff_pos]
    omega

theorem isRemainder_iff :
    IsRemainder a b r ↔ r.natAbs < b.natAbs
      ∧ (0 ≤ a → 0 ≤ r) ∧ (a ≤ 0 → r ≤ 0) := by
  unfold IsRemainder
  rw [zero_or_sign_eq_iff, Int.abs_eq_natAbs, Int.abs_eq_natAbs,
    Int.ofNat_lt]

/-- Division leaves a remainder. -/
theorem isRemainder_tmod (hb : b ≠ 0) : IsRemainder a b (a.tmod b) := by
  refine isRemainder_iff.2 ⟨?_, Int.tmod_nonneg b, fun ha => ?_⟩
  · rw [Int.natAbs_tmod]
    exact Nat.mod_lt _ (by omega)
  · have hopposite := Int.tmod_nonneg (a := -a) b (by omega)
    rw [Int.neg_tmod] at hopposite
    omega

/-- A quotient leaves a remainder only if it is the one without the
fraction. -/
theorem isRemainder_iff_eq_tdiv (hb : b ≠ 0) (q : Int) :
    IsRemainder a b (a - b * q) ↔ q = a.tdiv b := by
  constructor
  · intro h
    obtain ⟨hless, habove, hbelow⟩ := isRemainder_iff.1 h
    rcases Int.le_total 0 a with ha | ha
    · have hpos := habove ha
      exact ((Int.tdiv_tmod_unique ha hb).2
        ⟨Int.sub_add_cancel a (b * q), hpos, by omega⟩).1.symm
    · have hneg := hbelow ha
      exact ((Int.tdiv_tmod_unique' ha hb).2
        ⟨Int.sub_add_cancel a (b * q), by omega, hneg⟩).1.symm
  · rintro rfl
    rw [← Int.tmod_def]
    exact isRemainder_tmod hb

-- ============================================================= division

/-- The division of the language, for any dividend and any divisor but zero.
Its quotient is the only integer that leaves a remainder smaller than the
divisor and with the sign of the dividend, if it is not zero. It changes sign
with either operand, is no larger than the dividend, and is the quotient of
the magnitudes with the sign that goes with it; and it is the value of a
division of two numbers, on every robot. -/
theorem Operation.division_truncates (a b : Int) (hb : b ≠ 0) :
    (∀ q, |a - b * q| < |b|
        ∧ (a - b * q = 0 ∨ (a - b * q).sign = a.sign) ↔ q = div.apply a b)
    ∧ div.apply (-a) b = -div.apply a b
    ∧ div.apply a (-b) = -div.apply a b
    ∧ |div.apply a b| ≤ |a|
    ∧ div.apply a b = quotientOfMagnitudes a b
    ∧ ∀ (σ : Type) (robot : Robot σ),
      (Expr.arith .div (.number a) (.number b)).eval robot
        = return div.apply a b := by
  refine ⟨isRemainder_iff_eq_tdiv hb, Int.neg_tdiv a b, Int.tdiv_neg a b, ?_,
    tdiv_eq_quotientOfMagnitudes a b, fun σ robot => ?_⟩
  · rw [Int.abs_eq_natAbs, Int.abs_eq_natAbs, Int.ofNat_le]
    exact Int.natAbs_tdiv_le_natAbs a b
  · show (if div = div ∧ b = 0 then _ else _) = _
    rw [if_neg (fun h => hb h.2)]

/-- Seven below zero by two, which leaves one below zero. -/
theorem Operation.division_truncates_below :
    (2 : Int) ≠ 0
    ∧ (|-7 - 2 * (-3 : Int)| < |2|
        ∧ (-7 - 2 * (-3 : Int) = 0 ∨ (-7 - 2 * -3 : Int).sign = Int.sign (-7))
      ↔ -3 = div.apply (-7) 2)
    ∧ div.apply (-7) 2 = -3 ∧ div.apply 7 2 = 3 ∧ div.apply (-7) (-2) = 3 := by
  have hb : (2 : Int) ≠ 0 := by decide
  obtain ⟨hunique, hleft, hright, -⟩ := division_truncates (-7) 2 hb
  exact ⟨hb, hunique (-3), rfl, hleft, hright⟩

end RobotLang
