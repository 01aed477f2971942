/-
Activities step by step.

What a conduct does depends on the robot only through the robot's answers.
To say so, a conduct is given for robots of every kind at once, and a
stepwise one is put together from the steps that there are: to end with a
value or an error, to take a note, to have the robot do an action, to read
a sensor, and to go on with another conduct. A call that the robot does not
answer ends the conduct with an error that carries the robot's stop, and no
other step ends with such an error.

Expressions, conditions and statements are stepwise conducts, so whatever
the steps keep, every run of a program keeps.
-/
import RobotLang.Execution

namespace RobotLang

variable {σ ε δ α β : Type}

-- =============================================================== traces

namespace Trace

@[simp] theorem calls_append (t u : Trace) :
    calls (t ++ u) = calls t ++ calls u := List.filterMap_append

end Trace

-- ============================================== one activity after another

namespace Report

/-- A report of what happened behind something else. -/
def behind (before : Trace) (r : Report σ ε α) : Report σ ε α :=
  ⟨before ++ r.trace, r.state, r.result⟩

theorem behind_behind (t u : Trace) (r : Report σ ε α) :
    (r.behind u).behind t = r.behind (t ++ u) :=
  congrArg (Report.mk · r.state r.result) (List.append_assoc t u _).symm

end Report

namespace Activity

theorem bind_of_ok {x : Activity σ ε α} {f : α → Activity σ ε β} {s u : σ}
    {trace : Trace} {a : α} (h : x s = ⟨trace, u, .ok a⟩) :
    (x >>= f) s
      = ⟨trace ++ (f a u).trace, (f a u).state, (f a u).result⟩ := by
  show (x s).followedBy f = _
  rw [h]
  rfl

theorem bind_eq_behind {x : Activity σ ε α} {f : α → Activity σ ε β}
    {s u : σ} {trace : Trace} {a : α} (h : x s = ⟨trace, u, .ok a⟩) :
    (x >>= f) s = (f a u).behind trace := bind_of_ok h

theorem bind_of_error {x : Activity σ ε α} {f : α → Activity σ ε β}
    {s u : σ} {trace : Trace} {e : ε} (h : x s = ⟨trace, u, .error e⟩) :
    (x >>= f) s = ⟨trace, u, .error e⟩ := by
  show (x s).followedBy f = _
  rw [h]
  rfl

theorem request_of_ok {ask : EStateM Stop σ α} {answered : α → Call}
    {refused : Stop → ε} {s u : σ} {a : α} (h : ask s = .ok a u) :
    request ask answered refused s = ⟨[.call (answered a)], u, .ok a⟩ := by
  unfold request
  rw [h]

theorem request_of_error {ask : EStateM Stop σ α} {answered : α → Call}
    {refused : Stop → ε} {s u : σ} {why : Stop} (h : ask s = .error why u) :
    request ask answered refused s = ⟨[], u, .error (refused why)⟩ := by
  unfold request
  rw [h]

-- ------------------------------------------------ errors of another kind

theorem mapError_of_ok {x : Activity σ ε α} {s u : σ} {trace : Trace}
    {a : α} (h : x s = ⟨trace, u, .ok a⟩) (g : ε → δ) :
    x.mapError g s = ⟨trace, u, .ok a⟩ := by
  unfold mapError
  rw [h]
  rfl

theorem mapError_of_error {x : Activity σ ε α} {s u : σ} {trace : Trace}
    {e : ε} (h : x s = ⟨trace, u, .error e⟩) (g : ε → δ) :
    x.mapError g s = ⟨trace, u, .error (g e)⟩ := by
  unfold mapError
  rw [h]
  rfl

theorem mapError_bind (x : Activity σ ε α) (f : α → Activity σ ε β)
    (g : ε → δ) :
    (x >>= f).mapError g = x.mapError g >>= fun a => (f a).mapError g := by
  funext s
  cases hx : x s with
  | mk trace u result =>
      cases result with
      | ok a =>
          rw [bind_of_ok (mapError_of_ok hx g)]
          unfold mapError
          rw [bind_of_ok hx]
      | error e =>
          rw [bind_of_error (mapError_of_error hx g),
            mapError_of_error (bind_of_error hx) g]

theorem mapError_request (ask : EStateM Stop σ α) (answered : α → Call)
    (refused : Stop → ε) (g : ε → δ) :
    (request ask answered refused).mapError g
      = request ask answered fun why => g (refused why) := by
  funext s
  unfold mapError request
  cases ask s <;> rfl

end Activity

-- ============================================================= conducts

/-- What ends a program when the robot stops it. -/
abbrev Halt.stopped (why : Stop) : Halt := .fault (.stopped why)

theorem Halt.unfinished_ne_stopped (why : Stop) :
    Halt.unfinished ≠ .stopped why := by
  intro h
  cases h

/-- What to do with a robot of any kind. -/
abbrev Conduct (ε α : Type) : Type 1 :=
  (σ : Type) → Robot σ → Activity σ ε α

/-- The conducts that are put together from steps, where a call that is not
answered ends with the error `refused`. -/
inductive Conduct.Stepwise (refused : Stop → ε) :
    {α : Type} → Conduct ε α → Prop
  | pure {α : Type} (a : α) : Stepwise refused fun _ _ => Pure.pure a
  | fail {α : Type} (e : ε) (he : ∀ why, e ≠ refused why) :
      Stepwise refused fun _ _ => (.fail e : Activity _ ε α)
  | note (n : Note) : Stepwise refused fun _ _ => .note n
  | act (a : Action) :
      Stepwise refused fun _ robot =>
        .request (robot.act a) (fun _ => .did a) refused
  | read (x : Sensor) :
      Stepwise refused fun _ robot =>
        .request (robot.read x) (.told x) refused
  | bind {α β : Type} {x : Conduct ε α} {f : α → Conduct ε β}
      (hx : Stepwise refused x) (hf : ∀ a, Stepwise refused (f a)) :
      Stepwise refused fun σ robot => x σ robot >>= fun a => f a σ robot

namespace Conduct.Stepwise

variable {refused : Stop → ε}

theorem ite {c : Prop} [Decidable c] {x y : Conduct ε α}
    (hx : Stepwise refused x) (hy : Stepwise refused y) :
    Stepwise refused fun σ robot => if c then x σ robot else y σ robot := by
  split
  · exact hx
  · exact hy

/-- With errors of another kind, as long as the new ones tell the old ones
apart. -/
theorem mapError {x : Conduct ε α} (hx : Stepwise refused x) {g : ε → δ}
    (hg : ∀ {d e}, g d = g e → d = e) :
    Stepwise (fun why => g (refused why))
      fun σ robot => (x σ robot).mapError g := by
  induction hx with
  | pure a => exact .pure a
  | fail e he => exact .fail (g e) fun why h => he why (hg h)
  | note n => exact .note n
  | act a =>
      simp only [Activity.mapError_request]
      exact .act a
  | read x =>
      simp only [Activity.mapError_request]
      exact .read x
  | bind hx hf ihx ihf =>
      simp only [Activity.mapError_bind]
      exact .bind ihx ihf

-- ======================================================= doing it again

theorem repeated {x : Conduct ε Unit} (hx : Stepwise refused x) (n : Nat) :
    Stepwise refused fun σ robot => (x σ robot).repeated n := by
  induction n with
  | zero => exact .pure ()
  | succ n ih => exact .bind hx fun _ => ih

theorem forever {x : Conduct Halt Unit} (hx : Stepwise Halt.stopped x)
    (n : Nat) :
    Stepwise Halt.stopped fun σ robot => (x σ robot).forever n := by
  induction n with
  | zero => exact .fail Halt.unfinished Halt.unfinished_ne_stopped
  | succ n ih => exact .bind hx fun _ => ih

theorem rounds {c : Cond} {test : Conduct Halt Bool} {x : Conduct Halt Unit}
    (htest : Stepwise Halt.stopped test) (hx : Stepwise Halt.stopped x)
    (done n : Nat) :
    Stepwise Halt.stopped fun σ robot =>
      .rounds c (test σ robot) (x σ robot) done n := by
  induction n generalizing done with
  | zero => exact .fail Halt.unfinished Halt.unfinished_ne_stopped
  | succ n ih =>
      refine .bind htest fun go => ?_
      cases go with
      | false => exact .pure ()
      | true => exact .bind (.note _) fun _ => .bind hx fun _ => ih _

end Conduct.Stepwise

-- ============================================================= programs

open Conduct

theorem Expr.stepwise_eval (e : Expr) :
    Stepwise Fault.stopped fun _ robot => e.eval robot := by
  induction e with
  | number n => exact .pure n
  | sensor x => exact .bind (.read x) fun v => .bind (.note _) fun _ => .pure v
  | arith o l r hl hr =>
      refine .bind hl fun a => .bind hr fun b => .ite ?_ (.pure _)
      exact .fail (Fault.byZero l r) fun _ => Fault.byZero_ne_stopped

theorem Cond.stepwise_eval (c : Cond) :
    Stepwise Fault.stopped fun _ robot => c.eval robot := by
  induction c with
  | compare p l r =>
      exact .bind l.stepwise_eval fun a => .bind r.stepwise_eval fun b =>
        .pure _
  | both l r hl hr => exact .bind hl fun a => .bind hr fun b => .pure _
  | either l r hl hr => exact .bind hl fun a => .bind hr fun b => .pure _
  | negate c hc => exact .bind hc fun a => .pure _

/-- What is stepwise as an evaluation is so in a program. -/
theorem Conduct.Stepwise.inProgram {x : Conduct Fault α}
    (hx : Stepwise Fault.stopped x) :
    Stepwise Halt.stopped fun σ robot => (x σ robot).mapError .fault :=
  hx.mapError fun h => Halt.fault.inj h

mutual

theorem Stmt.stepwise_exec (limit : Nat) :
    (s : Stmt) → Stepwise Halt.stopped fun _ robot => s.exec robot limit
  | .once a => by
      unfold Stmt.exec
      exact .inProgram (.act a)
  | .times a e => by
      unfold Stmt.exec
      refine .bind e.stepwise_eval.inProgram fun n => ?_
      exact .repeated (.inProgram (.act a.action)) _
  | .loop b => by
      unfold Stmt.exec
      exact .forever (Stmt.stepwise_execAll limit b) _
  | .whileDo c b => by
      unfold Stmt.exec
      exact .rounds c.stepwise_eval.inProgram
        (Stmt.stepwise_execAll limit b) _ _
  | .ifThen c b => by
      unfold Stmt.exec
      refine .bind c.stepwise_eval.inProgram fun go => ?_
      exact .ite (Stmt.stepwise_execAll limit b) (.pure ())
  | .ifElse c b o => by
      unfold Stmt.exec
      refine .bind c.stepwise_eval.inProgram fun go => ?_
      exact .ite (Stmt.stepwise_execAll limit b)
        (Stmt.stepwise_execAll limit o)

/-- What statements do with a robot they do step by step. -/
theorem Stmt.stepwise_execAll (limit : Nat) :
    (ss : List Stmt) →
      Stepwise Halt.stopped fun _ robot => Stmt.execAll robot limit ss
  | [] => by
      unfold Stmt.execAll
      exact .pure ()
  | s :: ss => by
      unfold Stmt.execAll
      exact .bind (Stmt.stepwise_exec limit s) fun _ =>
        Stmt.stepwise_execAll limit ss

end

end RobotLang
