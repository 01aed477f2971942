/-
Running programs. A statement is an activity without a value.

An endless loop ends only with an error. So that running is a function,
every loop may take a given number of rounds, each execution of it anew;
one that would take more ends with an error of its own, `unfinished`. A
round that calls the robot not at all leaves it as it was and is followed
by the like round, for ever; so on a robot that answers at most `n` calls
the number `n + 1` cuts nothing short that would have ended.
-/
import RobotLang.Evaluation

namespace RobotLang

/-- What ends a program before its time. -/
inductive Halt
  | fault (why : Fault)
  | unfinished
  deriving DecidableEq, Repr

variable {σ : Type}

-- ================================================================ loops

namespace Activity

/-- Does an activity so many times. -/
def repeated {ε : Type} (x : Activity σ ε Unit) : Nat → Activity σ ε Unit
  | 0 => return ()
  | n + 1 => do
    x
    repeated x n

/-- Does an activity for ever, but at most so many times. -/
def forever (x : Activity σ Halt Unit) : Nat → Activity σ Halt Unit
  | 0 => .fail .unfinished
  | n + 1 => do
    x
    forever x n

/-- Does an activity as long as a condition holds, after `done` rounds and
for fewer than so many more. Each round is noted before it begins. -/
def rounds (condition : Cond) (test : Activity σ Halt Bool)
    (x : Activity σ Halt Unit) (done : Nat) : Nat → Activity σ Halt Unit
  | 0 => .fail .unfinished
  | n + 1 => do
    if ← test then
      .note (.round condition (done + 1))
      x
      rounds condition test x (done + 1) n
    else return ()

end Activity

-- =========================================================== statements

mutual

/-- What a statement does, if no loop takes more rounds than `limit`. -/
def Stmt.exec (robot : Robot σ) (limit : Nat) : Stmt → Activity σ Halt Unit
  | .once a => (robot.perform a).mapError .fault
  | .times a e => do
    let n ← (e.eval robot).mapError .fault
    ((robot.perform a.action).mapError .fault).repeated n.toNat
  | .loop b => (Stmt.execAll robot limit b).forever limit
  | .whileDo c b =>
    .rounds c ((c.eval robot).mapError .fault)
      (Stmt.execAll robot limit b) 0 limit
  | .ifThen c b => do
    if ← (c.eval robot).mapError .fault then Stmt.execAll robot limit b
    else return ()
  | .ifElse c b o => do
    if ← (c.eval robot).mapError .fault then Stmt.execAll robot limit b
    else Stmt.execAll robot limit o

/-- What some statements do one after another. -/
def Stmt.execAll (robot : Robot σ) (limit : Nat) :
    List Stmt → Activity σ Halt Unit
  | [] => return ()
  | s :: ss => do
    Stmt.exec robot limit s
    Stmt.execAll robot limit ss

end

-- ============================================================= programs

/-- Runs some statements on a robot: whether they came to their end. That
the robot interrupts them is no error, and is noted. -/
def Stmt.run (robot : Robot σ) (limit : Nat) (ss : List Stmt) :
    Activity σ Halt Bool := fun s =>
  let r := Stmt.execAll robot limit ss s
  match r.result with
  | .ok () => ⟨r.trace, r.state, .ok true⟩
  | .error (.fault (.stopped (.interrupted m))) =>
    ⟨r.trace ++ [.note (.stopped m)], r.state, .ok false⟩
  | .error h => ⟨r.trace, r.state, .error h⟩

/-- Runs a program. -/
def Program.run (robot : Robot σ) (limit : Nat) (p : Program) :
    Activity σ Halt Bool :=
  Stmt.run robot limit p.statements

end RobotLang
