/-
A robot that counts. It answers each sensor from a supply of readings and
stops when a supply, its allowance of actions or its allowance of calls is
used up. It may be without an allowance of actions, and a tireless one is
without an allowance of calls. A call that it stops at is not counted and
changes nothing.
-/
import RobotLang.Robot

namespace RobotLang

/-- Where the readings of a sensor come from: one value for ever, or a
queue that is used up from the front. -/
inductive Supply
  | constant (value : Int)
  | queue (values : List Int)
  deriving DecidableEq, Repr

/-- The state of a counting robot. A sensor without a supply reads
zero. -/
structure Meter where
  supplies : List (Sensor × Supply)
  maxActions : Option Int
  maxCalls : Int
  crashes : Bool
  actions : Nat
  reads : Nat
  tireless : Bool := false
  deriving DecidableEq, Repr

namespace Meter

/-- The calls answered so far. -/
def calls (m : Meter) : Nat := m.actions + m.reads

/-- The allowance of calls, if there is one. -/
def callLimit (m : Meter) : Option Int :=
  if m.tireless then none else some m.maxCalls

/-- The supply of a sensor. -/
def supply (m : Meter) (s : Sensor) : Supply :=
  ((m.supplies.find? (·.1 == s)).map Prod.snd).getD (.constant 0)

/-- The meter with another supply for a sensor that has one. -/
def resupply (m : Meter) (s : Sensor) (supply : Supply) : Meter :=
  { m with
    supplies := m.supplies.map fun p => if p.1 = s then (s, supply) else p }

/-- The readings left for each sensor that has a queue. -/
def left (m : Meter) : List (Sensor × List Int) :=
  m.supplies.filterMap fun p =>
    match p.2 with
    | .constant _ => none
    | .queue vs => some (p.1, vs)

/-- The robot's way to stop. -/
def stop {α : Type} (message : String) : EStateM Stop Meter α := fun m =>
  .error (if m.crashes then .crashed message else .interrupted message) m

/-- Stops if the allowance of calls is used up. -/
def checkCalls : EStateM Stop Meter Unit := do
  let m ← get
  if m.callLimit.any (· ≤ (m.calls : Int)) then
    stop ("out of events after " ++ toString m.calls)

/-- Stops if the allowance of actions is used up. -/
def checkActions : EStateM Stop Meter Unit := do
  let m ← get
  if m.maxActions.any (· ≤ (m.actions : Int)) then
    stop ("out of actions after " ++ toString m.actions)

/-- Counts an action. -/
def act (_ : Action) : EStateM Stop Meter Unit := do
  checkActions
  checkCalls
  modify fun m => { m with actions := m.actions + 1 }

/-- Counts a read and gives the next reading. -/
def read (s : Sensor) : EStateM Stop Meter Int := do
  checkCalls
  match (← get).supply s with
  | .queue [] => stop ("no more readings for " ++ s.word)
  | .queue (v :: vs) =>
    modify fun m => { m.resupply s (.queue vs) with reads := m.reads + 1 }
    return v
  | .constant v =>
    modify fun m => { m with reads := m.reads + 1 }
    return v

/-- The counting robot. -/
def robot : Robot Meter := ⟨act, read⟩

end Meter

end RobotLang
