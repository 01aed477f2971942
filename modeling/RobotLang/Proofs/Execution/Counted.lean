/-
Actions that are done a number of times.

The number is evaluated once, before anything is done; if that ends with an
error, nothing is done. Then the action is called so many times, not at all
for a number below zero, or until the robot does not answer, and nothing is
read any more (`Stmt.counted_action_acts_so_often`).

Calls that are not answered count, so they are taken from the robot
recorded. There, doing an action a number of times is followed call by
call, by induction on the number, whatever was recorded before.

That an action is done `m` times and then `n` times is, on every robot, the
same as that it is done `m + n` times: the first `m` calls are the same
ones, and if the robot stops one of them, no other call is made on either
side.
-/
import RobotLang.Proofs.Evaluation.Reads
import RobotLang.Proofs.Execution.Ends

namespace RobotLang

open Activity

variable {σ ε α : Type} {robot : Robot σ} {a : Action} {n : Nat} {s t : σ}

-- ============================================================ repeating

/-- Doing something so many times and then so many times. -/
theorem Activity.repeated_add (x : Activity σ ε Unit) (m n : Nat) :
    x.repeated (m + n) = x.repeated m >>= fun _ => x.repeated n := by
  induction m with
  | zero => rw [Nat.zero_add, repeated, pure_bind]
  | succ m ih => rw [Nat.succ_add, repeated, ih, repeated, bind_assoc]

/-- How an action that is to be done `n` times is over, and the calls that
have then been made: all of them were answered, or some and the next one
was not. -/
inductive Robot.Repeats (robot : Robot σ) (a : Action) (n : Nat) (s : σ) :
    Report σ Halt Unit → List Attempt → Prop
  | done {t : σ} (h : robot.Answers s (.replicate n (.did a)) t) :
      Repeats robot a n s ⟨.replicate n (.call (.did a)), t, .ok ()⟩
        (.replicate n (.act a true))
  | stopped {k : Nat} {t u : σ} {why : Stop} (hk : k < n)
      (h : robot.Answers s (.replicate k (.did a)) t)
      (hstop : robot.act a t = .error why u) :
      Repeats robot a n s
        ⟨.replicate k (.call (.did a)), u, .error (.stopped why)⟩
        (.replicate k (.act a true) ++ [.act a false])

/-- An answered call in front makes one time more. -/
theorem Robot.Repeats.again (hact : robot.act a s = .ok () t)
    {r : Report σ Halt Unit} {made : List Attempt}
    (h : robot.Repeats a n t r made) :
    robot.Repeats a (n + 1) s
      ⟨.call (.did a) :: r.trace, r.state, r.result⟩
      (.act a true :: made) := by
  cases h with
  | done h => exact .done (.did hact h)
  | @stopped k v u why hk h hstop =>
      exact .stopped (Nat.succ_lt_succ hk) (.did hact h) hstop

/-- Having the robot do an action so many times, with what was recorded
before. -/
theorem Robot.repeats_perform (robot : Robot σ) (a : Action) (n : Nat)
    (t : σ × List Attempt) :
    ∃ r made, robot.Repeats a n t.1 r made
      ∧ ((robot.recorded.perform a).mapError Halt.fault).repeated n t
        = ⟨r.trace, (r.state, t.2 ++ made), r.result⟩ := by
  induction n generalizing t with
  | zero =>
      refine ⟨_, _, .done (.none t.1), ?_⟩
      show _ = Report.mk [] (t.1, t.2 ++ []) _
      rw [List.append_nil]
      rfl
  | succ n ih =>
      rw [repeated, perform, mapError_request]
      cases hask : robot.act a t.1 with
      | ok v s =>
          have hact : robot.recorded.act a t
              = .ok v (s, t.2 ++ [.act a true]) :=
            Attempt.recorded_of_ok (.act a) hask
          obtain ⟨r, made, hr, hrun⟩ := ih (s, t.2 ++ [.act a true])
          rw [perform, mapError_request] at hrun
          refine ⟨_, _, hr.again hask, ?_⟩
          rw [bind_of_ok (request_of_ok hact), hrun]
          simp
      | error why s =>
          have hact : robot.recorded.act a t
              = .error why (s, t.2 ++ [.act a false]) :=
            Attempt.recorded_of_error (.act a) hask
          rw [bind_of_error (request_of_error hact)]
          exact ⟨_, _, .stopped n.succ_pos (.none t.1) hask, rfl⟩

-- ============================================================= counting

/-- The calls made in executing a statement. -/
def Stmt.attempts (stmt : Stmt) (robot : Robot σ) (limit : Nat) (s : σ) :
    List Attempt :=
  Conduct.attempts (fun _ robot => stmt.exec robot limit) robot s

section

variable {times : Repeatable} {e : Expr} (limit : Nat)

/-- A number that cannot be evaluated ends the action before it begins. -/
theorem Stmt.exec_times_of_error {fault : Fault}
    (h : (e.eval robot s).result = .error fault) :
    (Stmt.times times e).exec robot limit s
        = ⟨(e.eval robot s).trace, (e.eval robot s).state,
          .error (.fault fault)⟩
      ∧ ∀ b answered,
        .act b answered ∉ (Stmt.times times e).attempts robot limit s := by
  have hinquiry := e.stepwise_eval.inquiry robot s (e.inquires_eval robot 0)
  cases hres : e.eval robot.recorded (s, []) with
  | mk trace t result =>
      obtain ⟨heval, hmade⟩ := e.stepwise_eval.of_recorded hres
      rw [heval] at h ⊢
      obtain rfl : result = .error fault := h
      have hrun : (Stmt.times times e).exec robot.recorded limit (s, [])
          = ⟨trace, t, .error (.fault fault)⟩ := by
        rw [Stmt.exec]
        exact bind_of_error (mapError_of_error hres _)
      obtain ⟨hexec, hattempts⟩ :=
        (stepwise_exec limit (.times times e)).of_recorded hrun
      refine ⟨hexec, ?_⟩
      rw [attempts, hattempts, ← hmade]
      exact hinquiry.act_notMem

/-- A number that is evaluated is followed by as many actions. -/
theorem Stmt.exec_times_of_ok {v : Int}
    (h : (e.eval robot s).result = .ok v) :
    ∃ r made,
      robot.Repeats times.action v.toNat (e.eval robot s).state r made
      ∧ (Stmt.times times e).exec robot limit s
        = ⟨(e.eval robot s).trace ++ r.trace, r.state, r.result⟩
      ∧ (Stmt.times times e).attempts robot limit s
        = Attempt.reads e.sensors ++ made := by
  have hreads := (e.stepwise_eval.readsInOrder fun robot =>
    e.inquires_eval robot 0).value robot s v h
  cases hres : e.eval robot.recorded (s, []) with
  | mk trace t result =>
      obtain ⟨heval, hmade⟩ := e.stepwise_eval.of_recorded hres
      rw [heval] at h ⊢
      obtain rfl : result = .ok v := h
      obtain ⟨r, made, hr, hrepeats⟩ :=
        robot.repeats_perform times.action v.toNat t
      have hrun : (Stmt.times times e).exec robot.recorded limit (s, [])
          = ⟨trace ++ r.trace, (r.state, t.2 ++ made), r.result⟩ := by
        rw [Stmt.exec, bind_of_ok (mapError_of_ok hres _), hrepeats]
      obtain ⟨hexec, hattempts⟩ :=
        (stepwise_exec limit (.times times e)).of_recorded hrun
      rw [hmade] at hreads
      refine ⟨r, made, hr, hexec, ?_⟩
      rw [attempts, hattempts, hreads]

end

-- ============================================================== merging

/-- An action that is done `m` times and then `n` times is done `m + n`
times. -/
inductive Stmt.Merges : List Stmt → List Stmt → Prop
  | sum (a : Repeatable) {m n : Int} (hm : 0 ≤ m) (hn : 0 ≤ n)
      (rest : List Stmt) :
      Merges (.times a (.number m) :: .times a (.number n) :: rest)
        (.times a (.arith .add (.number m) (.number n)) :: rest)

/-- With a number that is evaluated without the robot. -/
theorem Stmt.exec_times_of_pure (a : Repeatable) {e : Expr} {v : Int}
    (h : e.eval robot = pure v) (limit : Nat) :
    (Stmt.times a e).exec robot limit
      = ((robot.perform a.action).mapError .fault).repeated v.toNat := by
  rw [exec, h]
  rfl

theorem Stmt.Merges.execAll_eq {ss ts : List Stmt} (h : Merges ss ts) :
    Stmt.execAll robot n ss = Stmt.execAll robot n ts := by
  cases h with
  | @sum a m k hm hk rest =>
      have hsum : (Expr.arith .add (.number m) (.number k)).eval robot
          = pure (m + k) := rfl
      rw [execAll, execAll, execAll, exec_times_of_pure a hsum,
        exec_times_of_pure a rfl, exec_times_of_pure a rfl,
        Int.toNat_add hm hk, repeated_add, bind_assoc]

-- =========================================================== so often

/-- An action with a number is done that often. If the number cannot be
evaluated, no action is called; else the sensors in it are read in order,
and then the action is called so many times, not at all below zero, or
until the robot stops it, and nothing is read any more. So it makes no
difference, wherever it is in a program, whether an action is done `m` times
and then `n` times or `m + n` times. -/
theorem Stmt.counted_action_acts_so_often (robot : Robot σ) :
    (∀ (a : Repeatable) (e : Expr) (limit : Nat) (s : σ) (fault : Fault),
      (e.eval robot s).result = .error fault →
        (Stmt.times a e).exec robot limit s
            = ⟨(e.eval robot s).trace, (e.eval robot s).state,
              .error (.fault fault)⟩
          ∧ ∀ b answered,
            .act b answered ∉ (Stmt.times a e).attempts robot limit s)
    ∧ (∀ (a : Repeatable) (e : Expr) (limit : Nat) (s : σ) (v : Int),
      (e.eval robot s).result = .ok v →
        ∃ r made,
          robot.Repeats a.action v.toNat (e.eval robot s).state r made
          ∧ (Stmt.times a e).exec robot limit s
            = ⟨(e.eval robot s).trace ++ r.trace, r.state, r.result⟩
          ∧ (Stmt.times a e).attempts robot limit s
            = Attempt.reads e.sensors ++ made)
    ∧ ∀ p q : Program,
      Stmt.Somewhere Stmt.Merges p.statements q.statements →
        ∀ limit, p.run robot limit = q.run robot limit :=
  ⟨fun _ _ limit _ _ => Stmt.exec_times_of_error limit,
    fun _ _ limit _ _ => Stmt.exec_times_of_ok limit,
    fun _ _ h _ =>
      Program.run_eq_of_somewhere (fun _ _ => Stmt.Merges.execAll_eq) h⟩

/-- A robot that is out of actions at the third of three moves; a number
that cannot be evaluated; and waiting twice and then three times in a
loop. -/
theorem Stmt.counted_action_acts_so_often_twice :
    let m : Meter := ⟨[(.fuelLeft, .queue [4])], some 2, 9, false, 0, 0, false⟩
    let less : Expr := .arith .sub (.sensor .fuelLeft) (.number 1)
    let quotient : Expr := .arith .div (.sensor .fuelLeft) (.number 0)
    let p : Program := ⟨[.once .turnLeft,
      .loop [.times .wait (.number 2), .times .wait (.number 3)]]⟩
    let q : Program := ⟨[.once .turnLeft,
      .loop [.times .wait (.arith .add (.number 2) (.number 3))]]⟩
    ((quotient.eval Meter.robot m).result
        = .error (.divisionByZero (.sensor .fuelLeft) (.number 0))
      ∧ .act .move true
        ∉ (Stmt.times .move quotient).attempts Meter.robot 1 m)
    ∧ ((less.eval Meter.robot m).result = .ok 3
      ∧ (∃ r made,
        Meter.robot.Repeats .move 3 (less.eval Meter.robot m).state r made
          ∧ (Stmt.times .move less).attempts Meter.robot 1 m
            = Attempt.reads less.sensors ++ made)
      ∧ (Stmt.times .move less).attempts Meter.robot 1 m
        = [.read .fuelLeft true, .act .move true, .act .move true,
          .act .move false])
    ∧ p.run Meter.robot 9 = q.run Meter.robot 9 := by
  intro m less quotient p q
  obtain ⟨herror, hok, hmerged⟩ := counted_action_acts_so_often Meter.robot
  have hquotient : (quotient.eval Meter.robot m).result
      = .error (.divisionByZero (.sensor .fuelLeft) (.number 0)) := by
    decide +kernel
  have hless : (less.eval Meter.robot m).result = .ok 3 := by
    decide +kernel
  obtain ⟨r, made, hrepeats, -, hmade⟩ := hok .move less 1 m 3 hless
  exact ⟨⟨hquotient, (herror .move quotient 1 m _ hquotient).2 .move true⟩,
    ⟨hless, ⟨r, made, hrepeats, hmade⟩, by decide +kernel⟩,
    hmerged p q (.later _ (.inLoop (.here
      (.sum .wait (by decide) (by decide) [])) [])) 9⟩

end RobotLang
