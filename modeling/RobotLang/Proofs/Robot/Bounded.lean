/-
Robots that answer only so many calls.

A robot answers calls one after another, each of which may change it. It is
bounded by a number if, having answered that many calls, it answers no
other. Whatever a stepwise conduct leaves in its trace the robot has
answered, in that order (`Conduct.Stepwise.answered`), so on a bounded
robot no conduct has more calls than the bound; and where it has ended with
a value, the robot is bounded by what the calls have left over.
-/
import RobotLang.Proofs.Activity.Steps

namespace RobotLang

variable {σ ε α β : Type} {robot : Robot σ}

-- ============================================================== answers

/-- Some calls, with their answers, that the robot answers one after
another, and the state that they leave it in. -/
inductive Robot.Answers (robot : Robot σ) : σ → List Call → σ → Prop
  | none (s : σ) : Answers robot s [] s
  | did {s t u : σ} {a : Action} {cs : List Call}
      (h : robot.act a s = .ok () t) (hcs : Answers robot t cs u) :
      Answers robot s (.did a :: cs) u
  | told {s t u : σ} {x : Sensor} {v : Int} {cs : List Call}
      (h : robot.read x s = .ok v t) (hcs : Answers robot t cs u) :
      Answers robot s (.told x v :: cs) u

theorem Robot.Answers.append {s t u : σ} {cs ds : List Call}
    (hcs : robot.Answers s cs t) (hds : robot.Answers t ds u) :
    robot.Answers s (cs ++ ds) u := by
  induction hcs with
  | none s => exact hds
  | did h _ ih => exact .did h (ih hds)
  | told h _ ih => exact .told h (ih hds)

/-- The calls in the trace of an activity are calls that the robot answers
from where it began; where the activity ends with a value, they leave the
robot as it does. -/
def Activity.Answered (robot : Robot σ) (x : Activity σ ε α) : Prop :=
  ∀ s, ∃ t, robot.Answers s (x s).trace.calls t
    ∧ ∀ a, (x s).result = .ok a → t = (x s).state

namespace Activity.Answered

theorem pure (a : α) :
    Answered robot (Pure.pure a : Activity σ ε α) :=
  fun s => ⟨s, .none s, fun _ _ => rfl⟩

theorem fail (e : ε) : Answered robot (.fail e : Activity σ ε α) :=
  fun s => ⟨s, .none s, fun _ h => by cases h⟩

theorem note (n : Note) : Answered robot (.note n : Activity σ ε Unit) :=
  fun s => ⟨s, .none s, fun _ _ => rfl⟩

variable (refused : Stop → ε)

theorem act (a : Action) :
    Answered robot (.request (robot.act a) (fun _ => .did a) refused) := by
  intro s
  cases h : robot.act a s with
  | ok v u =>
      rw [request_of_ok h]
      exact ⟨u, .did h (.none u), fun _ _ => rfl⟩
  | error why u =>
      rw [request_of_error h]
      exact ⟨s, .none s, fun _ h => by cases h⟩

theorem read (x : Sensor) :
    Answered robot (.request (robot.read x) (.told x) refused) := by
  intro s
  cases h : robot.read x s with
  | ok v u =>
      rw [request_of_ok h]
      exact ⟨u, .told h (.none u), fun _ _ => rfl⟩
  | error why u =>
      rw [request_of_error h]
      exact ⟨s, .none s, fun _ h => by cases h⟩

theorem bind {x : Activity σ ε α} {f : α → Activity σ ε β}
    (hx : Answered robot x) (hf : ∀ a, Answered robot (f a)) :
    Answered robot (x >>= f) := by
  intro s
  obtain ⟨t, hcalls, ht⟩ := hx s
  cases hres : x s with
  | mk trace u result =>
      rw [hres] at hcalls ht
      cases result with
      | error e =>
          rw [bind_of_error hres]
          exact ⟨t, hcalls, fun _ h => by cases h⟩
      | ok a =>
          have hstate : t = u := ht a rfl
          subst hstate
          obtain ⟨w, hmore, hw⟩ := hf a t
          rw [bind_of_ok hres]
          refine ⟨w, ?_, hw⟩
          rw [Trace.calls_append]
          exact hcalls.append hmore

end Activity.Answered

/-- The robot answers every call in the trace of a stepwise conduct. -/
theorem Conduct.Stepwise.answered {refused : Stop → ε} {x : Conduct ε α}
    (hx : Stepwise refused x) (robot : Robot σ) :
    Activity.Answered robot (x σ robot) := by
  induction hx with
  | pure a => exact .pure a
  | fail e he => exact .fail e
  | note n => exact .note n
  | act a => exact .act refused a
  | read x => exact .read refused x
  | bind hx hf ihx ihf => exact .bind ihx ihf

-- ======================================================= bounded robots

/-- The robot answers no call at all. -/
def Robot.Refuses (robot : Robot σ) (s : σ) : Prop :=
  (∀ a, ∃ why t, robot.act a s = .error why t)
    ∧ ∀ x, ∃ why t, robot.read x s = .error why t

/-- After answering so many calls the robot answers no other. -/
def Robot.Bounded (robot : Robot σ) (n : Nat) (s : σ) : Prop :=
  ∀ cs t, robot.Answers s cs t → cs.length = n → robot.Refuses t

namespace Robot.Bounded

variable {n : Nat} {s t : σ}

/-- Every answer uses up one call of the bound. -/
theorem left (h : robot.Bounded n s) {cs : List Call}
    (hcs : robot.Answers s cs t) :
    ∃ k, n = cs.length + k ∧ robot.Bounded k t := by
  induction hcs generalizing n with
  | none s => exact ⟨n, (Nat.zero_add n).symm, h⟩
  | @did s t u a cs hact _ ih =>
      cases n with
      | zero =>
          obtain ⟨why, w, hw⟩ := (h [] s (.none s) rfl).1 a
          rw [hact] at hw
          cases hw
      | succ n =>
          have ht : robot.Bounded n t := fun ds w hds hlen =>
            h (.did a :: ds) w (.did hact hds) (congrArg (· + 1) hlen)
          obtain ⟨k, hk, hu⟩ := ih ht
          exact ⟨k, by rw [List.length_cons]; omega, hu⟩
  | @told s t u x v cs hread _ ih =>
      cases n with
      | zero =>
          obtain ⟨why, w, hw⟩ := (h [] s (.none s) rfl).2 x
          rw [hread] at hw
          cases hw
      | succ n =>
          have ht : robot.Bounded n t := fun ds w hds hlen =>
            h (.told x v :: ds) w (.told hread hds) (congrArg (· + 1) hlen)
          obtain ⟨k, hk, hu⟩ := ih ht
          exact ⟨k, by rw [List.length_cons]; omega, hu⟩

variable {x : Activity σ ε α}

/-- No activity has more calls answered than the bound. -/
theorem length_calls_le (h : robot.Bounded n s)
    (hx : x.Answered robot) : (x s).trace.calls.length ≤ n := by
  obtain ⟨t, hcalls, -⟩ := hx s
  obtain ⟨k, hk, -⟩ := h.left hcalls
  omega

/-- What an activity that ends with a value leaves of the bound. -/
theorem after (h : robot.Bounded n s) (hx : x.Answered robot)
    {trace : Trace} {a : α} (hres : x s = ⟨trace, t, .ok a⟩) :
    ∃ k, n = trace.calls.length + k ∧ robot.Bounded k t := by
  obtain ⟨u, hcalls, hu⟩ := hx s
  rw [hres] at hcalls hu
  have hstate : u = t := hu a rfl
  rw [hstate] at hcalls
  exact h.left hcalls

end Robot.Bounded

end RobotLang
