/-
What the robot's limits and its manner to stop do to a run.

A limit only cuts a run short. Beside a robot with the same supplies and
wider allowances the run goes the same way to the point where the first
robot is out of an allowance, and if it never is, to the end. No statement
does anything after a call that is not answered: of all the calls that a
run makes, only the last one can be such. And the manner in which a robot
stops changes nothing before it does; it decides whether the run of the
program is over without completion or ends with an error.

Each of these is read off a coupling of two robots, or off a robot that is
recorded, for the statements of the program; what is noted when the robot
interrupts a program comes behind.
-/
import RobotLang.Proofs.Execution.Ends
import RobotLang.Proofs.Robot.Metered
import RobotLang.Proofs.Robot.Recorded

namespace RobotLang

variable {σ τ : Type}

-- ========================================================= what is left

namespace Report

/-- What the robot said if it stopped the program. -/
def stopMessage? (r : Report σ Halt Bool) : Option String :=
  match r.result, r.trace.getLast? with
  | .error (.fault (.stopped why)), _ => some why.message
  | .ok false, some (.note (.stopped message)) => some message
  | _, _ => none

/-- How a program is over does not depend on the state of the robot. -/
theorem concluded_map (f : σ → τ) (r : Report σ Halt Unit) :
    concluded ⟨r.trace, f r.state, r.result⟩
      = ⟨r.concluded.trace, f r.concluded.state, r.concluded.result⟩ := by
  obtain ⟨trace, state, result⟩ := r
  unfold concluded
  dsimp only
  split <;> rfl

theorem concluded_congr {r : Report σ Halt Unit} {q : Report τ Halt Unit}
    (htrace : r.trace = q.trace) (hresult : r.result = q.result) :
    r.concluded.trace = q.concluded.trace
      ∧ r.concluded.result = q.concluded.result := by
  have hr : r = ⟨q.trace, (fun _ => r.state) q.state, q.result⟩ := by
    rw [← htrace, ← hresult]
  have hconcluded := concluded_map (fun _ => r.state) q
  rw [← hr] at hconcluded
  rw [hconcluded]
  exact ⟨rfl, rfl⟩

theorem state_concluded (r : Report σ Halt Unit) :
    r.concluded.state = r.state := by
  unfold concluded
  split <;> rfl

theorem calls_concluded (r : Report σ Halt Unit) :
    r.concluded.trace.calls = r.trace.calls := by
  unfold concluded
  split
  · rfl
  · rw [Trace.calls_append]
    exact List.append_nil _
  · rfl

/-- The robot stopped the program with what it stopped the statements. -/
theorem stopMessage?_concluded (r : Report σ Halt Unit) :
    r.concluded.stopMessage?
      = match r.result with
        | .error (.fault (.stopped why)) => some why.message
        | _ => none := by
  obtain ⟨trace, state, result⟩ := r
  cases result with
  | ok u => rfl
  | error h =>
      cases h with
      | unfinished => rfl
      | fault e =>
          cases e with
          | divisionByZero l r => rfl
          | unwritable => rfl
          | stopped why =>
              cases why with
              | crashed message => rfl
              | interrupted message =>
                  show stopMessage? ⟨trace ++ [_], state, .ok false⟩ = _
                  unfold stopMessage?
                  rw [List.getLast?_concat]
                  rfl

theorem stopMessage?_eq_none {r : Report σ Halt Unit}
    (h : ∀ why, r.result ≠ .error (.stopped why)) :
    r.concluded.stopMessage? = none := by
  rw [stopMessage?_concluded]
  split
  · next why hwhy => exact absurd hwhy (h why)
  · rfl

end Report

namespace Coupling

variable {C : Coupling σ τ} {robot : Robot σ} {other : Robot τ} {s : σ}
  {t : τ} {ss : List Stmt} {r : Report σ Halt Unit}

/-- How ended runs with coupled robots compare. -/
theorem Holds.ending (hC : C.Holds robot other) (hst : C.states s t)
    {q : Report τ Halt Unit} (hr : Stmt.Ends robot ss s r)
    (hq : Stmt.Ends other ss t q) : C.Ending Halt.stopped r q := by
  obtain ⟨n, hn⟩ := hr.eventually
  obtain ⟨m, hm⟩ := hq.eventually
  rw [← hn (max n m) (Nat.le_max_left n m),
    ← hm (max n m) (Nat.le_max_right n m)]
  exact hC.coupled (Stmt.stepwise_execAll _ ss) s t hst

/-- If the first robot is never cut short, a run ends with the second one
if it does with the first. -/
theorem Holds.ends (hC : C.Holds robot other) (hst : C.states s t)
    (hcut : ∀ e, ¬ C.cut e) (hr : Stmt.Ends robot ss s r) :
    ∃ q, Stmt.Ends other ss t q := by
  obtain ⟨hne, n, rfl⟩ := hr
  refine ⟨Stmt.execAll other n ss t, fun hun => ?_, n, rfl⟩
  have hending := hC.coupled (Stmt.stepwise_execAll n ss) s t hst
  cases hres : Stmt.execAll robot n ss s with
  | mk trace u result =>
      cases hres' : Stmt.execAll other n ss t with
      | mk trace' v result' =>
          rw [hres, hres'] at hending
          rw [hres] at hne
          rw [hres'] at hun
          -- a second run that is unfinished has an unfinished first one
          cases hending with
          | value trace a h => cases hun
          | error trace he h => exact hne hun
          | stop trace he h => cases hun
          | cut he h => exact hcut _ he

end Coupling

-- ====================================================== wider allowances

namespace Meter

variable {a b : Meter} {ss : List Stmt} {r q : Report Meter Halt Unit}

/-- With wider allowances a run has the same calls and maybe more. -/
theorem Within.calls_prefix (h : a.Within b) (hr : Stmt.Ends robot ss a r)
    (hq : Stmt.Ends robot ss b q) : r.trace.calls <+: q.trace.calls := by
  have hending := (allowances_hold a.crashes b.crashes).ending
    ⟨h, rfl, rfl⟩ hr hq
  cases hending with
  | value trace u h => exact List.prefix_refl _
  | error trace he h => exact List.prefix_refl _
  | stop trace he h => exact List.prefix_refl _
  | cut he h => exact h.filterMap _

/-- With wider allowances a run that is not out of an allowance is the
same; how it is over depends on the manner to stop as well. -/
theorem Within.same_run (h : a.Within b) (hr : Stmt.Ends robot ss a r)
    (hq : Stmt.Ends robot ss b q)
    (hnot : ∀ why, r.result = .error (.stopped why) →
      ¬ IsOutOf why.message) :
    r.trace = q.trace ∧ r.state.left = q.state.left
      ∧ (a.crashes = b.crashes → r.result = q.result) := by
  have hending := (allowances_hold a.crashes b.crashes).ending
    ⟨h, rfl, rfl⟩ hr hq
  -- a stop that both runs have comes of the supplies
  cases hending with
  | value trace u h => exact ⟨rfl, h.1.left, fun _ => rfl⟩
  | error trace he h => exact ⟨rfl, h.1.left, fun _ => rfl⟩
  | stop trace he h =>
      obtain ⟨message, rfl, rfl⟩ := he
      refine ⟨rfl, h.1.left, fun hcrashes => ?_⟩
      rw [hcrashes]
  | cut he h =>
      obtain ⟨message, hout, rfl⟩ := he
      refine absurd ?_ (hnot _ rfl)
      rw [Stop.message_ofKind]
      exact hout

-- =================================================== manners of stopping

/-- The manner to stop changes nothing but how a stopped run is over. -/
theorem same_run_of_manners {k k' : Bool} (m : Meter)
    (hr : Stmt.Ends robot ss (m.inManner k) r)
    (hq : Stmt.Ends robot ss (m.inManner k') q) :
    r.trace = q.trace ∧ r.state.left = q.state.left
      ∧ ((r.result = q.result ∧ ∀ why, r.result ≠ .error (.stopped why))
        ∨ ∃ message, r.result = .error (.stopped (.ofKind k message))
          ∧ q.result = .error (.stopped (.ofKind k' message))) := by
  have hending := (manners_hold k k').ending ⟨m, rfl, rfl⟩ hr hq
  cases hending with
  | value trace u h =>
      obtain ⟨m', rfl, rfl⟩ := h
      exact ⟨rfl, rfl, .inl ⟨rfl, fun why h => by cases h⟩⟩
  | error trace he h =>
      obtain ⟨m', rfl, rfl⟩ := h
      exact ⟨rfl, rfl, .inl ⟨rfl, fun why h => he why (Except.error.inj h)⟩⟩
  | stop trace he h =>
      obtain ⟨m', rfl, rfl⟩ := h
      obtain ⟨message, rfl, rfl⟩ := he
      exact ⟨rfl, rfl, .inr ⟨message, rfl, rfl⟩⟩
  | cut he h => exact he.elim

end Meter

-- ====================================================== the last call

/-- The calls made in a run are those that were answered, in order, and
behind them, if the robot stopped the run, the one that was not. -/
def Report.EndsAtStop (r : Report (σ × List Attempt) Halt Bool) : Prop :=
  (r.stopMessage? = none ∧ r.state.2 = r.trace.calls.map Call.attempt)
    ∨ ∃ message q, r.stopMessage? = some message ∧ q.answered = false
      ∧ r.state.2 = r.trace.calls.map Call.attempt ++ [q]

namespace Program

variable {p : Program} {robot : Robot σ} {s : σ}

theorem run_recorded (limit : Nat) :
    p.run robot limit s = ⟨(p.run robot.recorded limit (s, [])).trace,
      (p.run robot.recorded limit (s, [])).state.1,
      (p.run robot.recorded limit (s, [])).result⟩ := by
  have hrun := (Stmt.stepwise_execAll limit p.statements).recorded_eq
    robot (s, [])
  rw [run_eq_concluded, run_eq_concluded, hrun]
  exact Report.concluded_map Prod.fst _

theorem run_endsAtStop (limit : Nat) :
    (p.run robot.recorded limit (s, [])).EndsAtStop := by
  obtain ⟨tail, hcloses, hmade⟩ :=
    (Stmt.stepwise_execAll limit p.statements).attempted robot (s, [])
  rw [run_eq_concluded]
  unfold Report.EndsAtStop
  rw [Report.state_concluded, Report.calls_concluded, hmade,
    List.nil_append]
  cases hres : (Stmt.execAll robot.recorded limit p.statements
      (s, [])).result with
  | ok u =>
      rw [hres] at hcloses
      have htail : tail = [] := hcloses
      rw [htail, List.append_nil]
      refine .inl ⟨Report.stopMessage?_eq_none fun why h => ?_, rfl⟩
      rw [hres] at h
      cases h
  | error e =>
      rw [hres] at hcloses
      -- the robot stopped the statements, or answered all that it was asked
      rcases hcloses with ⟨why, q, rfl, hq, htail⟩ | ⟨hnot, htail⟩
      · rw [htail]
        refine .inr ⟨why.message, q, ?_, hq, rfl⟩
        rw [Report.stopMessage?_concluded, hres]
      · rw [htail, List.append_nil]
        refine .inl ⟨Report.stopMessage?_eq_none fun why h => ?_, rfl⟩
        exact hnot why (Except.error.inj (hres.symm.trans h))

-- =========================================================== two runs

variable {a b m : Meter} {r q : Report Meter Halt Bool}

theorem calls_prefix_of_within (h : a.Within b)
    (hr : p.Ends Meter.robot a r) (hq : p.Ends Meter.robot b q) :
    r.trace.calls <+: q.trace.calls := by
  obtain ⟨r', hr', rfl⟩ := ends_iff.1 hr
  obtain ⟨q', hq', rfl⟩ := ends_iff.1 hq
  rw [Report.calls_concluded, Report.calls_concluded]
  exact h.calls_prefix hr' hq'

theorem same_run_of_within (h : a.Within b)
    (hr : p.Ends Meter.robot a r) (hq : p.Ends Meter.robot b q)
    (hnot : ∀ message, r.stopMessage? = some message →
      ¬ Meter.IsOutOf message) :
    r.trace.calls = q.trace.calls ∧ r.state.left = q.state.left
      ∧ (a.crashes = b.crashes →
        r.trace = q.trace ∧ r.result = q.result) := by
  obtain ⟨r', hr', rfl⟩ := ends_iff.1 hr
  obtain ⟨q', hq', rfl⟩ := ends_iff.1 hq
  obtain ⟨htrace, hleft, hresult⟩ := h.same_run hr' hq' fun why hwhy =>
    hnot _ (by rw [Report.stopMessage?_concluded, hwhy])
  rw [Report.calls_concluded, Report.calls_concluded,
    Report.state_concluded, Report.state_concluded, htrace]
  exact ⟨rfl, hleft, fun hcrashes =>
    Report.concluded_congr htrace (hresult hcrashes)⟩

/-- A robot that interrupts and one that crashes leave the same programs
without an end. -/
theorem ends_in_manner {k : Bool} (k' : Bool)
    (h : ∃ r, p.Ends Meter.robot (m.inManner k) r) :
    ∃ r, p.Ends Meter.robot (m.inManner k') r := by
  obtain ⟨r, hr⟩ := h
  obtain ⟨r', hr', -⟩ := ends_iff.1 hr
  obtain ⟨q', hq'⟩ := (Meter.manners_hold k k').ends ⟨m, rfl, rfl⟩
    (fun _ h => h) hr'
  exact ⟨q'.concluded, ends_iff.2 ⟨q', hq', rfl⟩⟩

/-- Of a run with a robot that interrupts and one with a robot that
crashes: they are the same, except that being stopped is noted and is a
value in the first and an error in the second. -/
def StopsAlike (r q : Report Meter Halt Bool) : Prop :=
  (r.trace = q.trace ∧ r.result = q.result ∧ r.stopMessage? = none
      ∧ q.stopMessage? = none)
    ∨ ∃ message, r.result = .ok false
      ∧ r.trace = q.trace ++ [.note (.stopped message)]
      ∧ q.result = .error (.stopped (.crashed message))

theorem same_run_of_manners (hr : p.Ends Meter.robot (m.inManner false) r)
    (hq : p.Ends Meter.robot (m.inManner true) q) :
    r.trace.calls = q.trace.calls ∧ r.state.left = q.state.left
      ∧ StopsAlike r q := by
  obtain ⟨r', hr', rfl⟩ := ends_iff.1 hr
  obtain ⟨q', hq', rfl⟩ := ends_iff.1 hq
  obtain ⟨htrace, hleft, hresult⟩ := Meter.same_run_of_manners m hr' hq'
  rw [Report.calls_concluded, Report.calls_concluded,
    Report.state_concluded, Report.state_concluded, htrace]
  refine ⟨rfl, hleft, ?_⟩
  rcases hresult with ⟨hsame, hnot⟩ | ⟨message, hstop, hcrash⟩
  · obtain ⟨htrace', hresult'⟩ := Report.concluded_congr htrace hsame
    exact .inl ⟨htrace', hresult', Report.stopMessage?_eq_none hnot,
      Report.stopMessage?_eq_none fun why h => hnot why (hsame.trans h)⟩
  · obtain ⟨trace, state, result⟩ := r'
    obtain ⟨trace', state', result'⟩ := q'
    cases hstop
    cases hcrash
    cases htrace
    exact .inr ⟨message, rfl, rfl, rfl⟩

end Program

/-- A limit only cuts a run short. With wider allowances a run goes on from
where it was cut, or is the same if it was not; a call that the robot does
not answer is the last one made; and the manner in which the robot stops
decides only how the run is over. -/
theorem Program.allowances_cut_short (p : Program) :
    (∀ a b : Meter, a.Within b → ∀ r q, p.Ends Meter.robot a r →
      p.Ends Meter.robot b q →
        r.trace.calls <+: q.trace.calls
          ∧ ((∀ message, r.stopMessage? = some message →
              ¬ Meter.IsOutOf message) →
            r.trace.calls = q.trace.calls ∧ r.state.left = q.state.left
              ∧ (a.crashes = b.crashes →
                r.trace = q.trace ∧ r.result = q.result)))
    ∧ (∀ (σ : Type) (robot : Robot σ) (s : σ) (limit : Nat) r,
        p.run robot.recorded limit (s, []) = r →
          p.run robot limit s = ⟨r.trace, r.state.1, r.result⟩
            ∧ r.EndsAtStop)
    ∧ ∀ m : Meter,
        ((∃ r, p.Ends Meter.robot (m.inManner false) r)
          ↔ ∃ r, p.Ends Meter.robot (m.inManner true) r)
        ∧ ∀ r q, p.Ends Meter.robot (m.inManner false) r →
          p.Ends Meter.robot (m.inManner true) q →
            r.trace.calls = q.trace.calls ∧ r.state.left = q.state.left
              ∧ StopsAlike r q := by
  refine ⟨fun a b h r q hr hq => ?_, fun σ robot s limit r hr => ?_,
    fun m => ⟨?_, fun r q hr hq => same_run_of_manners hr hq⟩⟩
  · exact ⟨calls_prefix_of_within h hr hq, same_run_of_within h hr hq⟩
  · rw [← hr]
    exact ⟨run_recorded limit, run_endsAtStop limit⟩
  · exact ⟨ends_in_manner true, ends_in_manner false⟩

/-- Moves as long as there is fuel. -/
def Program.moveOn : Program :=
  ⟨[.whileDo (.compare .gt (.sensor .fuelLeft) (.number 0)) [.once .move]]⟩

/-- A robot with fuel for one round. -/
def Meter.oneRound (maxActions : Option Int) : Meter :=
  ⟨[(.fuelLeft, .queue [1, 0])], maxActions, 9, false, 0, 0, false⟩

theorem Program.allowances_cut_short_moveOn :
    (Meter.oneRound (some 0)).Within (.oneRound none)
    ∧ (Meter.oneRound (some 1)).Within (.oneRound none)
    ∧ (∃ r q, moveOn.Ends Meter.robot (.oneRound (some 0)) r
      ∧ moveOn.Ends Meter.robot (.oneRound none) q
      ∧ r.trace.calls = [.told .fuelLeft 1]
      ∧ q.trace.calls = [.told .fuelLeft 1, .did .move, .told .fuelLeft 0]
      ∧ r.trace.calls <+: q.trace.calls)
    ∧ (∃ r q, moveOn.Ends Meter.robot (.oneRound (some 1)) r
      ∧ moveOn.Ends Meter.robot (.oneRound none) q
      ∧ r.stopMessage? = none ∧ r.trace = q.trace ∧ r.result = q.result)
    ∧ (moveOn.run Meter.robot.recorded 2
        (.oneRound (some 0), [])).EndsAtStop
    ∧ ∃ r q,
      moveOn.Ends Meter.robot ((Meter.oneRound (some 0)).inManner false) r
      ∧ moveOn.Ends Meter.robot ((Meter.oneRound (some 0)).inManner true) q
      ∧ r.result = .ok false ∧ StopsAlike r q := by
  obtain ⟨hwider, hlast, hmanner⟩ := allowances_cut_short moveOn
  have hwithin : ∀ n : Int,
      (Meter.oneRound (some n)).Within (Meter.oneRound none) :=
    fun n => ⟨rfl, rfl, rfl, trivial, Int.le_refl 9⟩
  have hends : ∀ a, (moveOn.run Meter.robot 2 a).result
      ≠ .error .unfinished → moveOn.Ends Meter.robot a
        (moveOn.run Meter.robot 2 a) := fun a h => ⟨h, 2, rfl⟩
  have hnone := hends (.oneRound none) fun h => nomatch h
  refine ⟨hwithin 0, hwithin 1, ?_, ?_, (hlast _ _ _ 2 _ rfl).2, ?_⟩
  · have hzero := hends (.oneRound (some 0)) fun h => nomatch h
    exact ⟨_, _, hzero, hnone, rfl, rfl,
      (hwider _ _ (hwithin 0) _ _ hzero hnone).1⟩
  · have hone := hends (.oneRound (some 1)) fun h => nomatch h
    obtain ⟨-, -, hsame⟩ := (hwider _ _ (hwithin 1) _ _ hone hnone).2
      fun _ h => nomatch h
    exact ⟨_, _, hone, hnone, rfl, hsame rfl⟩
  · have hstop := hends ((Meter.oneRound (some 0)).inManner false)
      fun h => nomatch h
    have hcrash := hends ((Meter.oneRound (some 0)).inManner true)
      fun h => nomatch h
    exact ⟨_, _, hstop, hcrash, rfl,
      ((hmanner _).2 _ _ hstop hcrash).2.2⟩

end RobotLang
