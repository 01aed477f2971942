/-
Runs on a robot that answers only so many calls.

A loop may run for ever, and what ends it in general is the robot. If each
round of each loop calls the robot, a robot that answers `n` calls ends
every loop in round `n + 1` at the latest. That a round calls the robot is
read off the program: an activity touches if it does not end with a value
before the robot has answered a call, and a program is steady if each of
its endless loops has a block that touches, and each loop under a condition
has a condition or a block that does.

Nothing is said of how a round ends. One that goes on with a value has used
up a call of the bound, so with each round less of the bound is left, and
so much more of the rounds that are allowed; this is the induction, for a
loop over its rounds and for a program over its syntax. Blocks touch if one
of their statements does, since the statements before it end with a value
or end the run.
-/
import RobotLang.Proofs.Execution.Ends
import RobotLang.Proofs.Robot.Metered

namespace RobotLang

variable {σ ε δ α β : Type} {robot : Robot σ}

-- ====================================================== touching phrases

/-- Whether an expression reads a sensor. -/
def Expr.touches : Expr → Bool
  | .number _ => false
  | .sensor _ => true
  | .arith _ l r => l.touches || r.touches

/-- Whether an expression is a literal above zero. -/
def Expr.isPositive : Expr → Bool
  | .number n => 0 < n
  | _ => false

/-- Whether a condition reads a sensor. -/
def Cond.touches : Cond → Bool
  | .compare _ l r => l.touches || r.touches
  | .both l r => l.touches || r.touches
  | .either l r => l.touches || r.touches
  | .negate c => c.touches

mutual

/-- Whether a statement is sure to call the robot. -/
def Stmt.touches : Stmt → Bool
  | .once _ => true
  | .times _ e => e.isPositive || e.touches
  | .loop _ => true
  | .whileDo c _ => c.touches
  | .ifThen c _ => c.touches
  | .ifElse c b o => c.touches || (Stmt.anyTouches b && Stmt.anyTouches o)

/-- Whether one of several statements is sure to call the robot. -/
def Stmt.anyTouches : List Stmt → Bool
  | [] => false
  | s :: ss => s.touches || Stmt.anyTouches ss

end

mutual

/-- Whether every loop in a statement calls the robot in every round. -/
def Stmt.steady : Stmt → Bool
  | .once _ => true
  | .times _ _ => true
  | .loop b => Stmt.anyTouches b && Stmt.allSteady b
  | .whileDo c b => (c.touches || Stmt.anyTouches b) && Stmt.allSteady b
  | .ifThen _ b => Stmt.allSteady b
  | .ifElse _ b o => Stmt.allSteady b && Stmt.allSteady o

/-- Whether every loop in several statements calls the robot in every
round. -/
def Stmt.allSteady : List Stmt → Bool
  | [] => true
  | s :: ss => s.steady && Stmt.allSteady ss

end

-- =================================================== touching activities

/-- The activity ends with a value only after the robot has answered a
call. -/
def Activity.Touches (x : Activity σ ε α) : Prop :=
  ∀ s trace t a, x s = ⟨trace, t, .ok a⟩ → trace.calls ≠ []

namespace Activity.Touches

theorem fail (e : ε) : Touches (.fail e : Activity σ ε α) := by
  intro s trace t a h
  cases h

theorem request (ask : EStateM Stop σ α) (answered : α → Call)
    (refused : Stop → ε) : Touches (.request ask answered refused) := by
  intro s trace t a h
  cases hres : ask s with
  | ok b u =>
      rw [request_of_ok hres] at h
      cases h
      exact List.cons_ne_nil _ _
  | error why u =>
      rw [request_of_error hres] at h
      cases h

/-- A sequence that ends with a value has gone through both its parts. -/
theorem of_parts {x : Activity σ ε α} {f : α → Activity σ ε β}
    (h : Touches x ∨ ∀ a, Touches (f a)) : Touches (x >>= f) := by
  intro s trace t b hres
  cases hx : x s with
  | mk before u result =>
      cases result with
      | error e =>
          rw [bind_of_error hx] at hres
          cases hres
      | ok a =>
          rw [bind_of_ok hx] at hres
          cases hf : f a u with
          | mk behind v result' =>
              rw [hf] at hres
              cases hres
              rw [Trace.calls_append]
              intro hnil
              obtain ⟨hbefore, hbehind⟩ := List.append_eq_nil_iff.1 hnil
              rcases h with hfirst | hsecond
              · exact hfirst _ _ _ _ hx hbefore
              · exact hsecond _ _ _ _ _ hf hbehind

theorem first {x : Activity σ ε α} {f : α → Activity σ ε β}
    (h : Touches x) : Touches (x >>= f) := of_parts (.inl h)

theorem second {x : Activity σ ε α} {f : α → Activity σ ε β}
    (h : ∀ a, Touches (f a)) : Touches (x >>= f) := of_parts (.inr h)

theorem mapError {x : Activity σ ε α} (h : Touches x) (g : ε → δ) :
    Touches (x.mapError g) := by
  intro s trace t a hres
  cases hx : x s with
  | mk before u result =>
      cases result with
      | error e =>
          rw [mapError_of_error hx] at hres
          cases hres
      | ok b =>
          rw [mapError_of_ok hx] at hres
          cases hres
          exact h _ _ _ _ hx

theorem ite {c : Prop} [Decidable c] {x y : Activity σ ε α}
    (hx : Touches x) (hy : Touches y) : Touches (if c then x else y) := by
  split
  · exact hx
  · exact hy

theorem repeated {x : Activity σ ε Unit} (h : Touches x) {n : Nat}
    (hn : 0 < n) : Touches (x.repeated n) := by
  obtain ⟨n, rfl⟩ := Nat.exists_eq_add_one.2 hn
  exact first h

/-- An endless loop never ends with a value. -/
theorem forever (x : Activity σ Halt Unit) (n : Nat) :
    Touches (x.forever n) := by
  induction n with
  | zero => exact fail _
  | succ n ih => exact second fun _ => ih

/-- A loop tests its condition at least once. -/
theorem rounds {c : Cond} {test : Activity σ Halt Bool}
    {x : Activity σ Halt Unit} (h : Touches test) (done n : Nat) :
    Touches (.rounds c test x done n) := by
  cases n with
  | zero => exact fail _
  | succ n => exact first h

end Activity.Touches

open Activity

theorem Expr.touches_eval (e : Expr) (h : e.touches = true) :
    Touches (e.eval robot) := by
  induction e with
  | number n => cases h
  | sensor x => exact .first (.request _ _ _)
  | arith o l r hl hr =>
      rw [Expr.touches, Bool.or_eq_true] at h
      rcases h with h | h
      · exact .first (hl h)
      · exact .second fun _ => .first (hr h)

theorem Cond.touches_eval (c : Cond) (h : c.touches = true) :
    Touches (c.eval robot) := by
  induction c with
  | compare p l r =>
      rw [Cond.touches, Bool.or_eq_true] at h
      rcases h with h | h
      · exact .first (l.touches_eval h)
      · exact .second fun _ => .first (r.touches_eval h)
  | both l r hl hr | either l r hl hr =>
      rw [Cond.touches, Bool.or_eq_true] at h
      rcases h with h | h
      · exact .first (hl h)
      · exact .second fun _ => .first (hr h)
  | negate c hc => exact .first (hc h)

/-- An action is done at least once if its amount is a literal above zero;
any other amount has to read a sensor. -/
theorem Stmt.touches_times (limit : Nat) (a : Repeatable) (e : Expr)
    (h : (e.isPositive || e.touches) = true) :
    Touches ((Stmt.times a e).exec robot limit) := by
  unfold Stmt.exec
  rw [Bool.or_eq_true] at h
  rcases h with hpos | htouches
  · cases e with
    | number n =>
        have hn : 0 < n.toNat := by
          have hlt : 0 < n := by simpa [Expr.isPositive] using hpos
          omega
        exact (Touches.mapError (.request _ _ _) _).repeated hn
    | sensor x => cases hpos
    | arith o l r => cases hpos
  · exact .first ((e.touches_eval htouches).mapError _)

mutual

theorem Stmt.touches_exec (limit : Nat) :
    (s : Stmt) → s.touches = true → Touches (s.exec robot limit)
  | .once a, _ => by
      unfold Stmt.exec
      exact .mapError (.request _ _ _) _
  | .times a e, h => Stmt.touches_times limit a e h
  | .loop b, _ => by
      unfold Stmt.exec
      exact .forever _ _
  | .whileDo c b, h => by
      unfold Stmt.exec
      exact .rounds ((c.touches_eval h).mapError _) _ _
  | .ifThen c b, h => by
      unfold Stmt.exec
      exact .first ((c.touches_eval h).mapError _)
  | .ifElse c b o, h => by
      unfold Stmt.exec
      rw [Stmt.touches, Bool.or_eq_true, Bool.and_eq_true] at h
      rcases h with hc | ⟨hb, ho⟩
      · exact .first ((c.touches_eval hc).mapError _)
      · exact .second fun _ =>
          .ite (Stmt.touches_execAll limit b hb)
            (Stmt.touches_execAll limit o ho)

theorem Stmt.touches_execAll (limit : Nat) :
    (ss : List Stmt) → Stmt.anyTouches ss = true →
      Touches (Stmt.execAll robot limit ss)
  | [], h => by cases h
  | s :: ss, h => by
      unfold Stmt.execAll
      rw [Stmt.anyTouches, Bool.or_eq_true] at h
      rcases h with hs | hss
      · exact .first (Stmt.touches_exec limit s hs)
      · exact .second fun _ => Stmt.touches_execAll limit ss hss

end

-- ================================================== finishing activities

/-- The activity is not left unfinished by a robot that answers fewer than
so many calls. -/
def Activity.Finishes (robot : Robot σ) (limit : Nat)
    (x : Activity σ Halt α) : Prop :=
  ∀ s n, n < limit → robot.Bounded n s →
    (x s).result ≠ .error .unfinished

namespace Activity.Finishes

variable {limit : Nat}

theorem result_bind_ne {x : Activity σ ε α} {f : α → Activity σ ε β}
    {s : σ} {e : ε} (hx : (x s).result ≠ .error e)
    (hf : ∀ trace t a, x s = ⟨trace, t, .ok a⟩ →
      (f a t).result ≠ .error e) :
    ((x >>= f) s).result ≠ .error e := by
  cases hres : x s with
  | mk trace t result =>
      cases result with
      | error d =>
          rw [hres] at hx
          rw [bind_of_error hres]
          intro h
          cases h
          exact hx rfl
      | ok a =>
          rw [bind_of_ok hres]
          exact hf trace t a hres

theorem pure (a : α) : Finishes robot limit (Pure.pure a) := by
  intro s n hn hs h
  cases h

/-- An evaluation comes to its end. -/
theorem mapError (x : Activity σ Fault α) :
    Finishes robot limit (x.mapError .fault) := by
  intro s n hn hs h
  cases hres : x s with
  | mk trace t result =>
      cases result with
      | ok a =>
          rw [mapError_of_ok hres] at h
          cases h
      | error e =>
          rw [mapError_of_error hres] at h
          cases h

theorem bind {x : Activity σ Halt α} {f : α → Activity σ Halt β}
    (hx : Finishes robot limit x) (ha : x.Answered robot)
    (hf : ∀ a, Finishes robot limit (f a)) :
    Finishes robot limit (x >>= f) := by
  intro s n hn hs
  refine result_bind_ne (hx s n hn hs) fun trace t a hres => ?_
  obtain ⟨k, hk, ht⟩ := hs.after ha hres
  exact hf a t k (by omega) ht

theorem ite {c : Prop} [Decidable c] {x y : Activity σ Halt α}
    (hx : Finishes robot limit x) (hy : Finishes robot limit y) :
    Finishes robot limit (if c then x else y) := by
  split
  · exact hx
  · exact hy

theorem repeated {x : Activity σ Halt Unit} (hx : Finishes robot limit x)
    (ha : x.Answered robot) (n : Nat) :
    Finishes robot limit (x.repeated n) := by
  induction n with
  | zero => exact pure ()
  | succ n ih => exact bind hx ha fun _ => ih

variable {x : Activity σ Halt Unit}

/-- With each round of an endless loop less is left of the bound. -/
theorem forever (hx : Finishes robot limit x) (ha : x.Answered robot)
    (ht : Touches x) : Finishes robot limit (x.forever limit) := by
  have hrounds : ∀ k s n, n < k → n < limit → robot.Bounded n s →
      (x.forever k s).result ≠ .error .unfinished := by
    intro k
    induction k with
    | zero => exact fun s n hn => absurd hn (Nat.not_lt_zero n)
    | succ k ih =>
        intro s n hk hn hs
        refine result_bind_ne (hx s n hn hs) fun trace t a hres => ?_
        obtain ⟨m, hm, hleft⟩ := hs.after ha hres
        have hcalls := List.length_pos_iff.2 (ht _ _ _ _ hres)
        exact ih t m (by omega) (by omega) hleft
  exact fun s n hn hs => hrounds limit s n hn hn hs

/-- With each round of a loop under a condition less is left of the bound,
since the condition or the block touches. -/
theorem rounds {c : Cond} {test : Activity σ Halt Bool}
    (htest : Finishes robot limit test) (hta : test.Answered robot)
    (hx : Finishes robot limit x) (ha : x.Answered robot)
    (ht : Touches test ∨ Touches x) :
    Finishes robot limit (.rounds c test x 0 limit) := by
  have hrounds : ∀ k done s n, n < k → n < limit → robot.Bounded n s →
      (Activity.rounds c test x done k s).result
        ≠ .error .unfinished := by
    intro k
    induction k with
    | zero => exact fun _ s n hn => absurd hn (Nat.not_lt_zero n)
    | succ k ih =>
        intro done s n hk hn hs
        refine result_bind_ne (htest s n hn hs) fun before t go hgo => ?_
        obtain ⟨m, hm, hleft⟩ := hs.after hta hgo
        cases go with
        | false =>
            intro h
            cases h
        | true =>
            refine result_bind_ne (fun h => by cases h)
              fun noted t' _ hnote => ?_
            cases hnote
            refine result_bind_ne (hx t m (by omega) hleft)
              fun behind u _ hres => ?_
            obtain ⟨l, hl, hless⟩ := hleft.after ha hres
            have hcalls : 0 < before.calls.length + behind.calls.length := by
              rcases ht with h | h
              · have hpos := List.length_pos_iff.2 (h _ _ _ _ hgo)
                omega
              · have hpos := List.length_pos_iff.2 (h _ _ _ _ hres)
                omega
            exact ih (done + 1) u l (by omega) (by omega) hless
  exact fun s n hn hs => hrounds limit 0 s n hn hn hs

end Activity.Finishes

mutual

theorem Stmt.finishes_exec (limit : Nat) :
    (s : Stmt) → s.steady = true →
      Finishes robot limit (s.exec robot limit)
  | .once a, _ => by
      unfold Stmt.exec
      exact .mapError _
  | .times a e, _ => by
      unfold Stmt.exec
      have hact : Answered robot
          ((robot.perform a.action).mapError Halt.fault) :=
        Conduct.Stepwise.answered (.inProgram (.act a.action)) robot
      exact .bind (.mapError _) (e.stepwise_eval.inProgram.answered robot)
        fun _ => .repeated (.mapError _) hact _
  | .loop b, h => by
      unfold Stmt.exec
      rw [Stmt.steady, Bool.and_eq_true] at h
      exact .forever (Stmt.finishes_execAll limit b h.2)
        ((Stmt.stepwise_execAll limit b).answered robot)
        (Stmt.touches_execAll limit b h.1)
  | .whileDo c b, h => by
      unfold Stmt.exec
      rw [Stmt.steady, Bool.and_eq_true, Bool.or_eq_true] at h
      refine .rounds (.mapError _) (c.stepwise_eval.inProgram.answered robot)
        (Stmt.finishes_execAll limit b h.2)
        ((Stmt.stepwise_execAll limit b).answered robot) ?_
      rcases h.1 with hc | hb
      · exact .inl ((c.touches_eval hc).mapError _)
      · exact .inr (Stmt.touches_execAll limit b hb)
  | .ifThen c b, h => by
      unfold Stmt.exec
      exact .bind (.mapError _) (c.stepwise_eval.inProgram.answered robot)
        fun _ => .ite (Stmt.finishes_execAll limit b h) (.pure ())
  | .ifElse c b o, h => by
      unfold Stmt.exec
      rw [Stmt.steady, Bool.and_eq_true] at h
      exact .bind (.mapError _) (c.stepwise_eval.inProgram.answered robot)
        fun _ => .ite (Stmt.finishes_execAll limit b h.1)
          (Stmt.finishes_execAll limit o h.2)

/-- A bounded robot leaves no steady statements unfinished. -/
theorem Stmt.finishes_execAll (limit : Nat) :
    (ss : List Stmt) → Stmt.allSteady ss = true →
      Finishes robot limit (Stmt.execAll robot limit ss)
  | [], _ => by
      unfold Stmt.execAll
      exact .pure ()
  | s :: ss, h => by
      unfold Stmt.execAll
      rw [Stmt.allSteady, Bool.and_eq_true] at h
      exact .bind (Stmt.finishes_exec limit s h.1)
        ((Stmt.stepwise_exec limit s).answered robot)
        fun _ => Stmt.finishes_execAll limit ss h.2

end

-- ============================================================ programs

/-- If every loop of a program calls the robot in every round, then on a
robot that answers only so many calls its execution ends, with a value or
with an error, and with no more calls answered. -/
theorem Program.ends_on_bounded_robot (p : Program)
    (hp : Stmt.allSteady p.statements = true) (robot : Robot σ) (s : σ)
    (n : Nat) (hs : robot.Bounded n s) :
    ∃ r, Stmt.Ends robot p.statements s r
      ∧ r.trace.calls.length ≤ n := by
  have hfinishes : Finishes robot (n + 1)
      (Stmt.execAll robot (n + 1) p.statements) :=
    Stmt.finishes_execAll (n + 1) p.statements hp
  have hanswered : Answered robot
      (Stmt.execAll robot (n + 1) p.statements) :=
    (Stmt.stepwise_execAll (n + 1) p.statements).answered robot
  exact ⟨Stmt.execAll robot (n + 1) p.statements s,
    ⟨hfinishes s n (Nat.lt_succ_self n) hs, n + 1, rfl⟩,
    hs.length_calls_le hanswered⟩

/-- A loop without end around one that reads the fuel and a branch of
which both blocks act. -/
def Program.endless : Program :=
  ⟨[.loop [
    .whileDo (.compare .gt (.sensor .fuelLeft) (.number 0)) [],
    .ifElse (.compare .eq (.number 1) (.number 2))
      [.loop [.once .wait]] [.times .move (.number 2)]]]⟩

theorem Program.ends_on_bounded_robot_endless :
    Stmt.allSteady endless.statements = true
    ∧ Meter.robot.Bounded 7 ⟨[], none, 7, false, 0, 0, false⟩
    ∧ ∃ r, Stmt.Ends Meter.robot endless.statements
        ⟨[], none, 7, false, 0, 0, false⟩ r
      ∧ r.trace.calls.length ≤ 7 := by
  have hsteady : Stmt.allSteady endless.statements = true := rfl
  have hbounded : Meter.robot.Bounded (7 - (0 : Int)).toNat
      ⟨[], none, 7, false, 0, 0, false⟩ := Meter.bounded rfl
  exact ⟨hsteady, hbounded,
    ends_on_bounded_robot endless hsteady Meter.robot _ 7 hbounded⟩

end RobotLang
