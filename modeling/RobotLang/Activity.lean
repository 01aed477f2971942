/-
Activities: computations that use a robot. An activity leaves a trace, in
order, of the calls that the robot answered and the notes that were taken;
it ends with a value or with an error, and in either case with a state of
the robot.

One activity after another has the trace of the first followed by that of
the second, and the second does not happen if the first ends with an
error.
-/
import RobotLang.Log.Record
import RobotLang.Robot
import RobotLang.Tree.Text

namespace RobotLang

-- =============================================================== traces

/-- What is noted as a program runs: a reading, the start of a round of a
loop under a condition, or that the robot stopped the program. -/
inductive Note
  | reading (sensor : Sensor) (value : Int)
  | round (condition : Cond) (count : Nat)
  | stopped (message : String)
  deriving DecidableEq, Repr

/-- The log record of a note. The message is given in full, also where a
number in it is too long to be written. -/
def Note.record : Note → Record
  | reading s v =>
    ⟨"nodes", .debug, "sensor " ++ s.word ++ " -> " ++ toString v⟩
  | round c n =>
    ⟨"nodes", .debug, "while " ++ c.text ++ ": iteration " ++ toString n⟩
  | stopped m => ⟨"logic", .info, "Robot stopped: " ++ m⟩

/-- An entry of a trace. -/
inductive Entry
  | call (c : Call)
  | note (n : Note)
  deriving DecidableEq, Repr

/-- What happened in the course of an activity. -/
abbrev Trace := List Entry

namespace Trace

/-- The calls that the robot answered. -/
def calls (t : Trace) : List Call :=
  t.filterMap fun
    | .call c => some c
    | .note _ => none

/-- The notes that were taken. -/
def notes (t : Trace) : List Note :=
  t.filterMap fun
    | .call _ => none
    | .note n => some n

end Trace

-- ============================================================ activities

/-- What there is when an activity has ended. -/
structure Report (σ ε α : Type) where
  trace : Trace
  state : σ
  result : Except ε α

/-- An activity of a robot with states in `σ` that ends with a value in `α`
or an error in `ε`. -/
def Activity (σ ε α : Type) : Type := σ → Report σ ε α

/-- Goes on from a report with another activity, unless it ended with an
error. -/
def Report.followedBy {σ ε α β : Type} (r : Report σ ε α)
    (next : α → Activity σ ε β) : Report σ ε β :=
  match r.result with
  | .error e => ⟨r.trace, r.state, .error e⟩
  | .ok a =>
    let q := next a r.state
    ⟨r.trace ++ q.trace, q.state, q.result⟩

namespace Activity

variable {σ ε δ α : Type}

instance : Monad (Activity σ ε) where
  pure a := fun s => ⟨[], s, .ok a⟩
  bind x f := fun s => (x s).followedBy f

/-- How activities follow one another does not depend on how they are
grouped. -/
instance : LawfulMonad (Activity σ ε) := LawfulMonad.mk' _
  (by
    intro α x
    funext s
    show (x s).followedBy (fun a s => ⟨[], s, .ok a⟩) = x s
    unfold Report.followedBy
    rcases x s with ⟨trace, state, _ | a⟩ <;> simp)
  (by
    intro α β a f
    funext s
    show Report.followedBy ⟨[], s, .ok a⟩ f = f a s
    simp [Report.followedBy])
  (by
    intro α β γ x f g
    funext s
    show ((x s).followedBy f).followedBy g
      = (x s).followedBy fun a s => (f a s).followedBy g
    unfold Report.followedBy
    rcases x s with ⟨trace, state, _ | a⟩
    · rfl
    · dsimp only
      rcases f a state with ⟨trace', state', _ | b⟩ <;> simp)

/-- Ends with an error. -/
def fail (e : ε) : Activity σ ε α := fun s => ⟨[], s, .error e⟩

/-- Takes a note. -/
def note (n : Note) : Activity σ ε Unit := fun s => ⟨[.note n], s, .ok ()⟩

/-- The same activity with its errors as another kind of error. -/
def mapError (x : Activity σ ε α) (f : ε → δ) : Activity σ δ α := fun s =>
  let r := x s
  ⟨r.trace, r.state, r.result.mapError f⟩

/-- Calls a robot. A call that it answers goes into the trace. -/
def request (ask : EStateM Stop σ α) (answered : α → Call)
    (refused : Stop → ε) : Activity σ ε α := fun s =>
  match ask s with
  | .ok a s => ⟨[.call (answered a)], s, .ok a⟩
  | .error e s => ⟨[], s, .error (refused e)⟩

end Activity

end RobotLang
