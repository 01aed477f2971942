/-
What expressions and conditions mean.

An expression stands for an integer once there is a reading for each of its
sensors. Sensors are counted from the left, and every occurrence has a
reading of its own, so the meaning of an operand depends on how many
sensors stand to the left of it. Quotients are meant as rational numbers
and then lose their fraction.

A division means nothing if its right operand means zero. Divisions are
listed from left to right, those in the operands of a division before the
division itself; the list also says how many sensors stand to the left of
each.
-/
import Mathlib.Data.Rat.Floor
import RobotLang.Evaluation

namespace RobotLang

-- =========================================================== arithmetic

/-- A rational number without its fraction. -/
def towardZero (q : ℚ) : Int := if 0 ≤ q then ⌊q⌋ else ⌈q⌉

theorem tdiv_natCast (a : Int) (n : Nat) :
    a.tdiv n = towardZero ((a : ℚ) / n) := by
  unfold towardZero
  by_cases hq : (0 : ℚ) ≤ a / n
  · rw [if_pos hq, Rat.floor_intCast_div_natCast]
    by_cases ha : 0 ≤ a
    · exact Int.tdiv_eq_ediv_of_nonneg ha
    · -- a quotient of a negative number that is none is one by zero
      have hn : n = 0 := by
        by_contra hn
        have hneg : (a : ℚ) < 0 := Int.cast_lt_zero.2 (by omega)
        have hpos : (0 : ℚ) < n := Nat.cast_pos.2 (by omega)
        exact absurd hq (not_le.2 (div_neg_of_neg_of_pos hneg hpos))
      rw [hn]
      simp
  · have ha : 0 ≤ -a := by
      by_contra ha
      have hnonneg : (0 : ℚ) ≤ a := Int.cast_nonneg (by omega)
      exact hq (div_nonneg hnonneg (Nat.cast_nonneg n))
    rw [if_neg hq, Rat.ceil_intCast_div_natCast,
      ← Int.tdiv_eq_ediv_of_nonneg ha, Int.neg_tdiv, neg_neg]

/-- Division that drops the fraction is division of rational numbers, of
which the fraction is dropped. -/
theorem tdiv_eq_towardZero (a b : Int) :
    a.tdiv b = towardZero ((a : ℚ) / b) := by
  obtain ⟨n, rfl | rfl⟩ := b.eq_nat_or_neg
  · rw [tdiv_natCast, Int.cast_natCast]
  · rw [Int.tdiv_neg, ← Int.neg_tdiv, tdiv_natCast]
    push_cast
    rw [neg_div, div_neg]

/-- What an operation is on integers. -/
def Operation.denote : Operation → Int → Int → Int
  | add, a, b => a + b
  | sub, a, b => a - b
  | mul, a, b => a * b
  | div, a, b => towardZero ((a : ℚ) / b)

theorem Operation.apply_eq_denote (o : Operation) (a b : Int) :
    o.apply a b = o.denote a b := by
  cases o with
  | add | sub | mul => rfl
  | div => exact tdiv_eq_towardZero a b

/-- What a relation is between integers. -/
def Relation.Relates : Relation → Int → Int → Prop
  | lt, a, b => a < b
  | gt, a, b => b < a
  | eq, a, b => a = b

theorem Relation.holds_iff {p : Relation} {a b : Int} :
    p.holds a b = true ↔ p.Relates a b := by
  cases p <;> simp [holds, Relates]

-- ============================================================= meanings

/-- The sensors of an expression, from left to right. -/
def Expr.sensors : Expr → List Sensor
  | .number _ => []
  | .sensor s => [s]
  | .arith _ l r => l.sensors ++ r.sensors

/-- The sensors of a condition, from left to right. -/
def Cond.sensors : Cond → List Sensor
  | .compare _ l r => l.sensors ++ r.sensors
  | .both l r => l.sensors ++ r.sensors
  | .either l r => l.sensors ++ r.sensors
  | .negate c => c.sensors

/-- The integer that an expression stands for if its sensors stand for the
readings from number `i` on. -/
def Expr.denote (reading : Nat → Int) (i : Nat) : Expr → Int
  | .number n => n
  | .sensor _ => reading i
  | .arith o l r =>
    o.denote (l.denote reading i) (r.denote reading (i + l.sensors.length))

/-- Whether a condition is true if its sensors stand for the readings from
number `i` on. -/
def Cond.Holds (reading : Nat → Int) (i : Nat) : Cond → Prop
  | .compare p l r =>
    p.Relates (l.denote reading i) (r.denote reading (i + l.sensors.length))
  | .both l r => l.Holds reading i ∧ r.Holds reading (i + l.sensors.length)
  | .either l r => l.Holds reading i ∨ r.Holds reading (i + l.sensors.length)
  | .negate c => ¬ c.Holds reading i

-- ============================================================ divisions

/-- A division in an expression or a condition: the number of the first
reading that it needs, and its operands. -/
structure Division where
  first : Nat
  left : Expr
  right : Expr
  deriving DecidableEq, Repr

namespace Division

/-- The division as an expression. -/
def tree (d : Division) : Expr := .arith .div d.left d.right

/-- Whether the right operand means zero. -/
def ByZero (reading : Nat → Int) (d : Division) : Prop :=
  d.right.denote reading (d.first + d.left.sensors.length) = 0

instance (reading : Nat → Int) (d : Division) :
    Decidable (d.ByZero reading) := inferInstanceAs (Decidable (_ = (0 : Int)))

end Division

/-- The divisions of an expression from left to right, operands first. -/
def Expr.divisions (i : Nat) : Expr → List Division
  | .number _ | .sensor _ => []
  | .arith o l r =>
    l.divisions i ++ (r.divisions (i + l.sensors.length)
      ++ if o = .div then [⟨i, l, r⟩] else [])

/-- The divisions of a condition from left to right, operands first. -/
def Cond.divisions (i : Nat) : Cond → List Division
  | .compare _ l r => l.divisions i ++ r.divisions (i + l.sensors.length)
  | .both l r => l.divisions i ++ r.divisions (i + l.sensors.length)
  | .either l r => l.divisions i ++ r.divisions (i + l.sensors.length)
  | .negate c => c.divisions i

end RobotLang
