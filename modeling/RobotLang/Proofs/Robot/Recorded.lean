/-
Every call that is made to a robot.

A trace has the calls that a robot answered. To speak of those that it did
not answer as well, a robot can be recorded: it keeps a list of the calls
made to it, each with whether it was answered, and is otherwise as before.
No conduct can tell (`Conduct.Stepwise.recorded_eq`). What it makes of the
list is the calls of its trace, all answered, and behind them, if the robot
stopped it, the one call that was not (`Conduct.Stepwise.attempted`): after
a call that is not answered, no other is made.
-/
import RobotLang.Proofs.Activity.Coupling

namespace RobotLang

variable {σ ε α β : Type}

/-- A call as it is made, and whether it is answered. -/
inductive Attempt
  | act (a : Action) (answered : Bool)
  | read (x : Sensor) (answered : Bool)
  deriving DecidableEq, Repr

/-- Whether a call that was made was answered. -/
def Attempt.answered : Attempt → Bool
  | .act _ b => b
  | .read _ b => b

/-- An answered call as it was made. -/
def Call.attempt : Call → Attempt
  | .did a => .act a true
  | .told x _ => .read x true

/-- Makes a call and writes down whether it was answered. -/
def Attempt.recorded (attempt : Bool → Attempt) (ask : EStateM Stop σ α) :
    EStateM Stop (σ × List Attempt) α := fun t =>
  match ask t.1 with
  | .ok a s => .ok a (s, t.2 ++ [attempt true])
  | .error why s => .error why (s, t.2 ++ [attempt false])

/-- The robot that keeps a list of the calls made to it. -/
def Robot.recorded (robot : Robot σ) : Robot (σ × List Attempt) where
  act a := Attempt.recorded (.act a) (robot.act a)
  read x := Attempt.recorded (.read x) (robot.read x)

namespace Attempt

variable {ask : EStateM Stop σ α} {t : σ × List Attempt} {s : σ}
  (attempt : Bool → Attempt)

theorem recorded_of_ok {a : α} (h : ask t.1 = .ok a s) :
    recorded attempt ask t = .ok a (s, t.2 ++ [attempt true]) := by
  unfold recorded
  rw [h]

theorem recorded_of_error {why : Stop} (h : ask t.1 = .error why s) :
    recorded attempt ask t
      = .error why (s, t.2 ++ [attempt false]) := by
  unfold recorded
  rw [h]

end Attempt

/-- The calls that a conduct makes, whether they are answered or not. -/
def Conduct.attempts (x : Conduct ε α) (robot : Robot σ) (s : σ) :
    List Attempt :=
  (x _ robot.recorded (s, [])).state.2

-- ============================================== recording is not noticed

/-- A robot beside the same robot recorded. -/
def recording (σ : Type) : Coupling σ (σ × List Attempt) where
  states s t := t.1 = s
  stops e f := f = e
  cut _ := False

theorem Attempt.answer_recorded (attempt : Bool → Attempt)
    (ask : EStateM Stop σ α) (s : σ) (t : σ × List Attempt)
    (h : (recording σ).states s t) :
    (recording σ).Answer (ask s) (recorded attempt ask t) := by
  have hs : t.1 = s := h
  subst hs
  cases hask : ask t.1 with
  | ok a u =>
      rw [recorded_of_ok attempt hask]
      exact .same a rfl
  | error why u =>
      rw [recorded_of_error attempt hask]
      exact .stop rfl rfl

theorem Robot.recording_holds (robot : Robot σ) :
    (recording σ).Holds robot robot.recorded where
  act a := Attempt.answer_recorded (.act a) (robot.act a)
  read x := Attempt.answer_recorded (.read x) (robot.read x)

/-- A conduct goes the same way with a robot as with the robot recorded. -/
theorem Conduct.Stepwise.recorded_eq {refused : Stop → ε} {x : Conduct ε α}
    (hx : Stepwise refused x) (robot : Robot σ) (t : σ × List Attempt) :
    x σ robot t.1 = ⟨(x _ robot.recorded t).trace,
      (x _ robot.recorded t).state.1,
      (x _ robot.recorded t).result⟩ := by
  have hending := robot.recording_holds.coupled hx t.1 t rfl
  cases hres : x σ robot t.1 with
  | mk trace s result =>
      cases hres' : x _ robot.recorded t with
      | mk trace' u result' =>
          rw [hres, hres'] at hending
          cases hending with
          | value trace a h =>
              have hs : u.1 = s := h
              rw [hs]
          | error trace he h =>
              have hs : u.1 = s := h
              rw [hs]
          | stop trace he h =>
              have hs : u.1 = s := h
              have hwhy : _ = _ := he
              rw [hs, hwhy]
          | cut he h => exact he.elim

/-- What a run with the robot recorded tells about the run without. -/
theorem Conduct.Stepwise.of_recorded {refused : Stop → ε}
    {x : Conduct ε α} (hx : Stepwise refused x) {robot : Robot σ} {s : σ}
    {trace : Trace} {t : σ × List Attempt} {result : Except ε α}
    (h : x _ robot.recorded (s, []) = ⟨trace, t, result⟩) :
    x σ robot s = ⟨trace, t.1, result⟩ ∧ x.attempts robot s = t.2 := by
  have hplain := hx.recorded_eq robot (s, [])
  unfold attempts
  rw [h] at hplain ⊢
  exact ⟨hplain, rfl⟩

-- ==================================================== what is recorded

/-- The call, if any, that ends an activity by not being answered. -/
def Closes (refused : Stop → ε) : Except ε α → List Attempt → Prop
  | .ok _, tail => tail = []
  | .error e, tail =>
    (∃ why q, e = refused why ∧ q.answered = false ∧ tail = [q])
      ∨ ((∀ why, e ≠ refused why) ∧ tail = [])

/-- The calls that an activity makes are those of its trace, and one more
if it ends because that one is not answered. -/
def Activity.Attempted (refused : Stop → ε)
    (x : Activity (σ × List Attempt) ε α) : Prop :=
  ∀ t, ∃ tail, Closes refused (x t).result tail
    ∧ (x t).state.2
      = t.2 ++ ((x t).trace.calls.map Call.attempt ++ tail)

namespace Activity.Attempted

variable {refused : Stop → ε}

theorem pure (a : α) :
    Attempted refused (Pure.pure a : Activity (σ × _) ε α) :=
  fun t => ⟨[], rfl, (List.append_nil t.2).symm⟩

theorem fail {e : ε} (he : ∀ why, e ≠ refused why) :
    Attempted refused (.fail e : Activity (σ × _) ε α) :=
  fun t => ⟨[], .inr ⟨he, rfl⟩, (List.append_nil t.2).symm⟩

theorem note (n : Note) :
    Attempted refused (.note n : Activity (σ × _) ε Unit) :=
  fun t => ⟨[], rfl, (List.append_nil t.2).symm⟩

theorem request {attempt : Bool → Attempt} {ask : EStateM Stop σ α}
    {answered : α → Call}
    (hanswered : ∀ a, (answered a).attempt = attempt true)
    (hfalse : (attempt false).answered = false) :
    Attempted refused
      (.request (Attempt.recorded attempt ask) answered refused) := by
  intro t
  cases hask : ask t.1 with
  | ok a s =>
      rw [request_of_ok (Attempt.recorded_of_ok attempt hask)]
      refine ⟨[], rfl, ?_⟩
      show t.2 ++ [attempt true] = t.2 ++ [(answered a).attempt]
      rw [hanswered a]
  | error why s =>
      rw [request_of_error (Attempt.recorded_of_error attempt hask)]
      exact ⟨[attempt false], .inl ⟨why, _, rfl, hfalse, rfl⟩, rfl⟩

theorem bind {x : Activity (σ × List Attempt) ε α}
    {f : α → Activity (σ × List Attempt) ε β} (hx : Attempted refused x)
    (hf : ∀ a, Attempted refused (f a)) : Attempted refused (x >>= f) := by
  intro t
  obtain ⟨tail, hcloses, hmade⟩ := hx t
  cases hres : x t with
  | mk trace u result =>
      rw [hres] at hcloses hmade
      cases result with
      | error e =>
          rw [bind_of_error hres]
          exact ⟨tail, hcloses, hmade⟩
      | ok a =>
          have hnil : tail = [] := hcloses
          have hmid : u.2 = t.2 ++ trace.calls.map Call.attempt := by
            rw [hnil, List.append_nil] at hmade
            exact hmade
          obtain ⟨more, hcloses', hmade'⟩ := hf a u
          rw [bind_of_ok hres]
          refine ⟨more, hcloses', ?_⟩
          show (f a u).state.2 = _
          rw [hmade', hmid, Trace.calls_append, List.map_append]
          simp only [List.append_assoc]

end Activity.Attempted

/-- The calls made in the course of a stepwise conduct. -/
theorem Conduct.Stepwise.attempted {refused : Stop → ε} {x : Conduct ε α}
    (hx : Stepwise refused x) (robot : Robot σ) :
    Activity.Attempted refused (x _ robot.recorded) := by
  induction hx with
  | pure a => exact .pure a
  | fail e he => exact .fail he
  | note n => exact .note n
  | act a => exact .request (fun _ => rfl) rfl
  | read x => exact .request (fun _ => rfl) rfl
  | bind hx hf ihx ihf => exact .bind ihx ihf

/-- A conduct that the robot does not stop makes the calls of its trace. -/
theorem Conduct.Stepwise.attempts_eq {refused : Stop → ε}
    {x : Conduct ε α} (hx : Stepwise refused x) (robot : Robot σ) (s : σ)
    (h : ∀ why, (x σ robot s).result ≠ .error (refused why)) :
    x.attempts robot s = (x σ robot s).trace.calls.map Call.attempt := by
  obtain ⟨tail, hcloses, hmade⟩ := hx.attempted robot (s, [])
  have hplain := hx.recorded_eq robot (s, [])
  rw [hplain] at h ⊢
  cases hres : (x _ robot.recorded (s, [])).result with
  | ok a =>
      rw [hres] at hcloses
      have htail : tail = [] := hcloses
      rw [htail, List.append_nil] at hmade
      exact hmade
  | error e =>
      rw [hres] at hcloses
      rcases hcloses with ⟨why, -, rfl, -, -⟩ | ⟨-, htail⟩
      · exact absurd hres (h why)
      · rw [htail, List.append_nil] at hmade
        exact hmade

end RobotLang
