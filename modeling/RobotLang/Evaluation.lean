/-
The values of expressions and conditions. Operands are evaluated from left
to right, both of them always, the conditions of a connective included.
Division drops the fraction, and a division by zero ends the evaluation;
it is reported by the division that met it. Reporting writes the division
out, which cannot be done if it has a number in it that is too long.
-/
import RobotLang.Activity

namespace RobotLang

/-- What ends an evaluation without a value: the robot, a division by
zero, or a division by zero that cannot be written out. -/
inductive Fault
  | stopped (why : Stop)
  | divisionByZero (left right : Expr)
  | unwritable
  deriving DecidableEq, Repr

/-- The fault in words. -/
def Fault.message : Fault → String
  | stopped s => s.message
  | divisionByZero l r =>
    "Division by zero in " ++ (Expr.arith .div l r).text
  | unwritable =>
    "Exceeds the limit (" ++ toString Numeral.digitLimit
      ++ " digits) for integer string conversion"
      ++ "; use sys.set_int_max_str_digits() to increase the limit"

/-- The fault of a division by zero, which is to name the division. -/
def Fault.byZero (left right : Expr) : Fault :=
  match (Expr.arith .div left right).written? with
  | some _ => .divisionByZero left right
  | none => .unwritable

theorem Fault.byZero_ne_stopped {l r : Expr} {why : Stop} :
    byZero l r ≠ .stopped why := by
  unfold byZero
  split <;> nofun

/-- The operation on integers; a quotient by zero is not asked for. -/
def Operation.apply : Operation → Int → Int → Int
  | add, a, b => a + b
  | sub, a, b => a - b
  | mul, a, b => a * b
  | div, a, b => a.tdiv b

namespace Robot

variable {σ : Type} (robot : Robot σ)

/-- Has the robot do an action. -/
def perform (a : Action) : Activity σ Fault Unit :=
  .request (robot.act a) (fun _ => .did a) .stopped

/-- Reads a sensor and notes the reading. -/
def sense (s : Sensor) : Activity σ Fault Int := do
  let v ← .request (robot.read s) (.told s) .stopped
  .note (.reading s v)
  return v

end Robot

variable {σ : Type}

/-- The value of an expression. -/
def Expr.eval (robot : Robot σ) : Expr → Activity σ Fault Int
  | .number n => return n
  | .sensor s => robot.sense s
  | .arith o l r => do
    let a ← l.eval robot
    let b ← r.eval robot
    if o = .div ∧ b = 0 then .fail (.byZero l r)
    else return o.apply a b

/-- Whether a condition holds. -/
def Cond.eval (robot : Robot σ) : Cond → Activity σ Fault Bool
  | .compare p l r => do
    let a ← l.eval robot
    let b ← r.eval robot
    return p.holds a b
  | .both l r => do
    let a ← l.eval robot
    let b ← r.eval robot
    return a && b
  | .either l r => do
    let a ← l.eval robot
    let b ← r.eval robot
    return a || b
  | .negate c => return !(← c.eval robot)

end RobotLang
