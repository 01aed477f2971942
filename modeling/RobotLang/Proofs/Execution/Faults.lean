/-
Where a division by zero comes from.

A run that divides by zero ends with a fault that names a division of the
program: it stands in an amount or in a condition, and the calls that the
run made last are reads, of the sensors that stand there to the left of the
division or in it (`Program.fault_names_division`). If the program was read
from a text, the division is read back from the message. A program that was
not may have a division that cannot be written, and then the fault does not
name it; that one, too, is in the program
(`Stmt.not_allShort_of_unwritable`).

A run that fails does so as the last activity in it does, in the state that
this one leaves, however often it went through the program before. So of
which errors a run may end with, and in which states, one only has to know
how the actions, amounts and conditions fail that it is put together from
(`Stmt.failsAs_execAll`). That the last calls were such and such is said of
the state here, which has the calls in it if the robot is recorded.
-/
import RobotLang.Proofs.Evaluation.Denotation
import RobotLang.Proofs.Evaluation.Reads
import RobotLang.Proofs.Execution.CutShort
import RobotLang.Proofs.Source

namespace RobotLang

open Activity

variable {σ ε δ α β : Type}

-- ============================================================== queries

/-- What is evaluated as a program runs: an amount or a condition. -/
inductive Query
  | amount (e : Expr)
  | condition (c : Cond)
  deriving DecidableEq, Repr

namespace Query

/-- The sensors in a query, from left to right. -/
def sensors : Query → List Sensor
  | amount e => e.sensors
  | condition c => c.sensors

/-- The divisions in a query, from left to right, operands first. -/
def divisions : Query → List Division
  | amount e => e.divisions 0
  | condition c => c.divisions 0

/-- The numbers in a query, in order. -/
def numbers : Query → List Int
  | amount e => e.numbers
  | condition c => c.numbers

end Query

mutual

/-- The amounts and conditions in a statement, in order. -/
def Stmt.queries : Stmt → List Query
  | .once _ => []
  | .times _ e => [.amount e]
  | .loop b => Stmt.allQueries b
  | .whileDo c b => .condition c :: Stmt.allQueries b
  | .ifThen c b => .condition c :: Stmt.allQueries b
  | .ifElse c b o =>
    .condition c :: (Stmt.allQueries b ++ Stmt.allQueries o)

/-- The amounts and conditions in several statements, in order. -/
def Stmt.allQueries : List Stmt → List Query
  | [] => []
  | s :: ss => s.queries ++ Stmt.allQueries ss

end

-- ============================================================== failing

/-- Whenever the activity fails, the error and the state are as wanted. -/
def Activity.FailsAs (wanted : ε → σ → Prop) (x : Activity σ ε α) : Prop :=
  ∀ s e, (x s).result = .error e → wanted e (x s).state

namespace Activity.FailsAs

variable {wanted : ε → σ → Prop}

theorem pure (a : α) : FailsAs wanted (Pure.pure a) := by
  intro s e h
  cases h

theorem note (n : Note) : FailsAs wanted (.note n) := by
  intro s e h
  cases h

theorem bind {x : Activity σ ε α} {f : α → Activity σ ε β}
    (hx : FailsAs wanted x) (hf : ∀ a, FailsAs wanted (f a)) :
    FailsAs wanted (x >>= f) := by
  intro s e h
  have hfirst := hx s
  cases hres : x s with
  | mk trace t result =>
      rw [hres] at hfirst
      cases result with
      | error d =>
          rw [bind_of_error hres] at h ⊢
          cases h
          exact hfirst e rfl
      | ok a =>
          rw [bind_of_ok hres] at h ⊢
          exact hf a t e h

theorem ite {c : Prop} [Decidable c] {x y : Activity σ ε α}
    (hx : FailsAs wanted x) (hy : FailsAs wanted y) :
    FailsAs wanted (if c then x else y) := by
  split
  · exact hx
  · exact hy

theorem mapError {x : Activity σ δ α} {g : δ → ε}
    (hx : FailsAs (fun e => wanted (g e)) x) :
    FailsAs wanted (x.mapError g) := by
  intro s e h
  have hfirst := hx s
  cases hres : x s with
  | mk trace t result =>
      rw [hres] at hfirst
      cases result with
      | error d =>
          rw [mapError_of_error hres] at h ⊢
          cases h
          exact hfirst d rfl
      | ok a =>
          rw [mapError_of_ok hres] at h
          cases h

theorem repeated {x : Activity σ ε Unit} (hx : FailsAs wanted x) (n : Nat) :
    FailsAs wanted (x.repeated n) := by
  induction n with
  | zero => exact pure ()
  | succ n ih => exact bind hx fun _ => ih

variable {ending : Halt → σ → Prop} {x : Activity σ Halt Unit}

theorem unfinished (h : ∀ s, ending .unfinished s) :
    FailsAs ending (.fail .unfinished : Activity σ Halt α) := by
  intro s e he
  cases he
  exact h s

theorem forever (h : ∀ s, ending .unfinished s) (hx : FailsAs ending x)
    (n : Nat) : FailsAs ending (x.forever n) := by
  induction n with
  | zero => exact unfinished h
  | succ n ih => exact bind hx fun _ => ih

theorem rounds (h : ∀ s, ending .unfinished s) {c : Cond}
    {test : Activity σ Halt Bool} (htest : FailsAs ending test)
    (hx : FailsAs ending x) (done n : Nat) :
    FailsAs ending (.rounds c test x done n) := by
  induction n generalizing done with
  | zero => exact unfinished h
  | succ n ih =>
      refine bind htest fun go => ?_
      cases go with
      | false => exact pure ()
      | true => exact bind (note _) fun _ => bind hx fun _ => ih _

end Activity.FailsAs

/-- How a query fails in a program. -/
def Query.FailsAs (robot : Robot σ) (wanted : Halt → σ → Prop) :
    Query → Prop
  | amount e => Activity.FailsAs wanted ((e.eval robot).mapError .fault)
  | condition c => Activity.FailsAs wanted ((c.eval robot).mapError .fault)

/-- How the steps of a program fail that are not queries. -/
structure Robot.ActsAs (robot : Robot σ) (wanted : Halt → σ → Prop) :
    Prop where
  unfinished : ∀ s, wanted .unfinished s
  act : ∀ a, Activity.FailsAs wanted ((robot.perform a).mapError .fault)

section

variable {robot : Robot σ} {wanted : Halt → σ → Prop}

mutual

theorem Stmt.failsAs_exec (h : robot.ActsAs wanted) (limit : Nat) :
    (s : Stmt) → (∀ q ∈ s.queries, q.FailsAs robot wanted) →
      FailsAs wanted (s.exec robot limit)
  | .once a, _ => by
      unfold Stmt.exec
      exact h.act a
  | .times a e, hq => by
      unfold Stmt.exec
      have he : Query.FailsAs robot wanted (.amount e) :=
        hq _ (List.mem_singleton_self _)
      exact .bind he fun n => .repeated (h.act a.action) _
  | .loop b, hq => by
      unfold Stmt.exec
      exact .forever h.unfinished (Stmt.failsAs_execAll h limit b hq) _
  | .whileDo c b, hq => by
      unfold Stmt.exec
      obtain ⟨hc, hb⟩ := List.forall_mem_cons.1 hq
      exact .rounds h.unfinished hc (Stmt.failsAs_execAll h limit b hb) _ _
  | .ifThen c b, hq => by
      unfold Stmt.exec
      obtain ⟨hc, hb⟩ := List.forall_mem_cons.1 hq
      refine .bind hc fun go => ?_
      exact .ite (Stmt.failsAs_execAll h limit b hb) (.pure ())
  | .ifElse c b o, hq => by
      unfold Stmt.exec
      obtain ⟨hc, hbo⟩ := List.forall_mem_cons.1 hq
      obtain ⟨hb, ho⟩ := List.forall_mem_append.1 hbo
      refine .bind hc fun go => ?_
      exact .ite (Stmt.failsAs_execAll h limit b hb)
        (Stmt.failsAs_execAll h limit o ho)

/-- Statements fail as the actions and queries in them do. -/
theorem Stmt.failsAs_execAll (h : robot.ActsAs wanted) (limit : Nat) :
    (ss : List Stmt) →
      (∀ q ∈ Stmt.allQueries ss, q.FailsAs robot wanted) →
        FailsAs wanted (Stmt.execAll robot limit ss)
  | [], _ => by
      unfold Stmt.execAll
      exact .pure ()
  | s :: ss, hq => by
      unfold Stmt.execAll
      obtain ⟨hs, hss⟩ := List.forall_mem_append.1 hq
      exact .bind (Stmt.failsAs_exec h limit s hs) fun _ =>
        Stmt.failsAs_execAll h limit ss hss

end

end

-- ====================================================== where it stands

namespace Division

variable {i : Nat} {d : Division} {xs ys : List Sensor}

/-- The sensors of a division stand among others, the first of which is
number `i`. -/
def StandsIn (d : Division) (i : Nat) (xs : List Sensor) : Prop :=
  ∃ before after, xs = before ++ (d.tree.sensors ++ after)
    ∧ d.first = i + before.length

theorem StandsIn.left (h : d.StandsIn i xs) (ys : List Sensor) :
    d.StandsIn i (xs ++ ys) := by
  obtain ⟨before, after, rfl, hfirst⟩ := h
  exact ⟨before, after ++ ys, by simp only [List.append_assoc], hfirst⟩

theorem StandsIn.right (h : d.StandsIn (i + xs.length) ys) :
    d.StandsIn i (xs ++ ys) := by
  obtain ⟨before, after, rfl, hfirst⟩ := h
  refine ⟨xs ++ before, after, by simp only [List.append_assoc], ?_⟩
  rw [hfirst, List.length_append, Nat.add_assoc]

/-- What stands to the left of a division and then what stands in it. -/
theorem StandsIn.take_reach (h : d.StandsIn 0 xs) :
    xs.take d.reach = xs.take d.first ++ d.tree.sensors := by
  obtain ⟨before, after, rfl, hfirst⟩ := h
  rw [Nat.zero_add] at hfirst
  rw [reach, hfirst, List.take_left, ← List.append_assoc,
    ← List.length_append, List.take_left]

end Division

theorem Expr.standsIn_of_mem_divisions {e : Expr} {i : Nat} {d : Division}
    (hd : d ∈ e.divisions i) : d.StandsIn i e.sensors := by
  induction e generalizing i with
  | number n => cases hd
  | sensor x => cases hd
  | arith o l r hl hr =>
      rcases List.mem_append.1 hd with hd | hd
      · exact (hl hd).left _
      rcases List.mem_append.1 hd with hd | hd
      · exact (hr hd).right
      by_cases ho : o = .div
      · rw [if_pos ho, List.mem_singleton] at hd
        rw [hd]
        exact ⟨[], [], (List.append_nil _).symm, rfl⟩
      · rw [if_neg ho] at hd
        cases hd

theorem Cond.standsIn_of_mem_divisions {c : Cond} {i : Nat} {d : Division}
    (hd : d ∈ c.divisions i) : d.StandsIn i c.sensors := by
  induction c generalizing i with
  | compare p l r =>
      rcases List.mem_append.1 hd with hd | hd
      · exact (Expr.standsIn_of_mem_divisions hd).left _
      · exact (Expr.standsIn_of_mem_divisions hd).right
  | both l r hl hr | either l r hl hr =>
      rcases List.mem_append.1 hd with hd | hd
      · exact (hl hd).left _
      · exact (hr hd).right
  | negate c hc => exact hc hd

theorem Query.standsIn_of_mem_divisions {q : Query} {d : Division}
    (hd : d ∈ q.divisions) : d.StandsIn 0 q.sensors := by
  cases q with
  | amount e => exact Expr.standsIn_of_mem_divisions hd
  | condition c => exact Cond.standsIn_of_mem_divisions hd

-- ============================================================== blaming

/-- A fault that has ended a program without the robot is that of a
division by zero. It is a division in one of the queries, and the calls that
were made last are reads of the sensors that stand there to the left of it
and then of those in it. -/
def Halt.Blames (qs : List Query) (made : List Attempt) (h : Halt) : Prop :=
  ∀ e, h = .fault e → (∀ why, e ≠ .stopped why) →
    ∃ q ∈ qs, ∃ d ∈ q.divisions, e = .byZero d.left d.right
      ∧ Attempt.reads (q.sensors.take d.first ++ d.tree.sensors) <:+ made

variable {qs : List Query}

theorem Activity.Inquires.failsAs {q : Query} (hq : q ∈ qs)
    {x : Activity (σ × List Attempt) Fault α}
    (hx : Inquires 0 q.sensors q.divisions x) :
    FailsAs (fun e t => (Halt.fault e).Blames qs t.2) x := by
  intro t e h e' he hnot
  obtain ⟨made, hmade, hinquiry⟩ := hx t
  rw [h, Halt.fault.inj he] at hinquiry
  cases hinquiry with
  | fault hd hys hreach he' =>
      refine ⟨q, hq, _, hd, he', ?_⟩
      rw [← (Query.standsIn_of_mem_divisions hd).take_reach, ← hreach,
        Nat.zero_add, ← List.prefix_iff_eq_take.1 hys, hmade]
      exact List.suffix_append _ _
  | stopped why hys => exact absurd rfl (hnot why)

theorem Query.failsAs_recorded {q : Query} (hq : q ∈ qs)
    (robot : Robot σ) :
    q.FailsAs robot.recorded fun h t => h.Blames qs t.2 := by
  cases q with
  | amount e =>
      dsimp only [FailsAs]
      exact .mapError
        (Activity.Inquires.failsAs hq (e.inquires_eval robot 0))
  | condition c =>
      dsimp only [FailsAs]
      exact .mapError
        (Activity.Inquires.failsAs hq (c.inquires_eval robot 0))

/-- No other step divides. -/
theorem Robot.actsAs_recorded (robot : Robot σ) :
    robot.recorded.ActsAs fun h t => h.Blames qs t.2 where
  unfinished s e h := by cases h
  act a := by
    refine .mapError ?_
    intro t e h e' he hnot
    rw [Halt.fault.inj he] at h
    cases hask : robot.recorded.act a t with
    | ok u s =>
        rw [Robot.perform, request_of_ok hask] at h
        cases h
    | error why s =>
        rw [Robot.perform, request_of_error hask] at h
        cases h
        exact absurd rfl (hnot why)

-- ====================================================== short numbers

mutual

theorem Stmt.allShort_of_mem_queries {q : Query} :
    (s : Stmt) → q ∈ s.queries → AllShort s.numbers → AllShort q.numbers
  | .once _, hq, _ => by cases hq
  | .times a e, hq, h => by
      rw [List.mem_singleton.1 hq]
      exact h
  | .loop b, hq, h => Stmt.allShort_of_mem_allQueries b hq h
  | .whileDo c b, hq, h | .ifThen c b, hq, h => by
      obtain ⟨hc, hb⟩ := allShort_append.1 h
      rcases List.mem_cons.1 hq with rfl | hq
      · exact hc
      · exact Stmt.allShort_of_mem_allQueries b hq hb
  | .ifElse c b o, hq, h => by
      obtain ⟨hc, hbo⟩ := allShort_append.1 h
      obtain ⟨hb, ho⟩ := allShort_append.1 hbo
      rcases List.mem_cons.1 hq with rfl | hq
      · exact hc
      rcases List.mem_append.1 hq with hq | hq
      · exact Stmt.allShort_of_mem_allQueries b hq hb
      · exact Stmt.allShort_of_mem_allQueries o hq ho

theorem Stmt.allShort_of_mem_allQueries {q : Query} :
    (ss : List Stmt) → q ∈ Stmt.allQueries ss →
      AllShort (Stmt.allNumbers ss) → AllShort q.numbers
  | [], hq, _ => by cases hq
  | s :: ss, hq, h => by
      obtain ⟨hs, hss⟩ := allShort_append.1 h
      rcases List.mem_append.1 hq with hq | hq
      · exact Stmt.allShort_of_mem_queries s hq hs
      · exact Stmt.allShort_of_mem_allQueries ss hq hss

end

theorem Query.allShort_of_mem_divisions {q : Query} {d : Division}
    (hd : d ∈ q.divisions) (h : AllShort q.numbers) :
    AllShort d.tree.numbers := by
  cases q with
  | amount e => exact Expr.allShort_of_mem_divisions hd h
  | condition c => exact Cond.allShort_of_mem_divisions hd h

/-- Legible words stay so without the sign of a zero. -/
theorem Legible.map_tidy {ws : List String} (h : Legible ws) :
    Legible (ws.map Numeral.tidy) := by
  intro v hv hnumeral
  obtain ⟨w, hw, rfl⟩ := List.mem_map.1 hv
  by_cases hzero : w = "-0"
  · subst hzero
    decide
  · rw [Numeral.tidy_of_ne hzero] at hnumeral ⊢
    exact h w hw hnumeral

/-- A program that was read has only numbers that can be read. -/
theorem Program.allShort_of_ofText {text : String} {p : Program}
    (h : Program.ofText text = .ok p) :
    AllShort (Stmt.allNumbers p.statements) := by
  obtain ⟨-, hderives, hlegible⟩ := Program.ofTokens_eq_ok_iff.1 h
  have hwords : Legible (Tree.program p).words := by
    rw [hderives.words_eq]
    exact hlegible.map_tidy
  exact (Tree.program p).legible_words_iff.1 hwords

-- ================================================================= runs

/-- Where a fault comes from if it is not the robot that has ended the
statements with it. -/
theorem Stmt.blames_execAll {robot : Robot σ} {limit : Nat}
    {ss : List Stmt} {s : σ} {h : Halt}
    (hrun : (Stmt.execAll robot limit ss s).result = .error h) :
    h.Blames (Stmt.allQueries ss)
      (Stmt.execAll robot.recorded limit ss (s, [])).state.2 := by
  rw [(Stmt.stepwise_execAll limit ss).recorded_eq robot (s, [])] at hrun
  exact Stmt.failsAs_execAll robot.actsAs_recorded limit ss
    (fun q hq => Query.failsAs_recorded hq robot) _ _ hrun

/-- A division that cannot be written out has a number that is too long. -/
theorem Stmt.not_allShort_of_unwritable {robot : Robot σ} {limit : Nat}
    {ss : List Stmt} {s : σ}
    (hrun : (Stmt.execAll robot limit ss s).result
      = .error (.fault .unwritable)) :
    ¬ AllShort (Stmt.allNumbers ss) := by
  obtain ⟨q, hq, d, hd, he, -⟩ :=
    Stmt.blames_execAll hrun _ rfl fun _ => nofun
  intro hshort
  have hnumbers : AllShort d.tree.numbers :=
    Query.allShort_of_mem_divisions hd
      (Stmt.allShort_of_mem_allQueries ss hq hshort)
  rw [Division.byZero_of_allShort hnumbers] at he
  cases he

/-- Only statements that a division by zero has ended are concluded with
it. -/
theorem Report.result_of_concluded {r : Report σ Halt Unit} {l e : Expr}
    (h : r.concluded.result = .error (.fault (.divisionByZero l e))) :
    r.result = .error (.fault (.divisionByZero l e)) := by
  obtain ⟨trace, state, result⟩ := r
  unfold concluded at h
  split at h
  · cases h
  · cases h
  · next why _ hwhy =>
    cases h
    exact hwhy

/-- A division by zero that ends a run of a program is in the program. The
fault names a division in an amount or a condition of it, which is read
back from the message, and the calls that the run made last are the reads
of the sensors that stand there to the left of the division or in it. -/
theorem Program.fault_names_division {text : String} {p : Program}
    (hp : (Source.parseText text).2 = .ok p) (robot : Robot σ) (s : σ)
    (limit : Nat) {l r : Expr}
    (h : (p.run robot limit s).result
      = .error (.fault (.divisionByZero l r))) :
    (Fault.divisionByZero l r).message
        = "Division by zero in " ++ (Expr.arith .div l r).text
      ∧ Rule.expr.read (tokenize (Expr.arith .div l r).text)
        = .ok (.expr (.arith .div l r)) []
      ∧ ∃ q ∈ Stmt.allQueries p.statements, ∃ d ∈ q.divisions,
        d.tree = .arith .div l r
          ∧ Attempt.reads (q.sensors.take d.first ++ d.tree.sensors)
            <:+ Conduct.attempts (fun _ robot => p.run robot limit) robot
              s := by
  have hrun : (Stmt.execAll robot limit p.statements s).result
      = .error (.fault (.divisionByZero l r)) := by
    rw [run_eq_concluded] at h
    exact Report.result_of_concluded h
  obtain ⟨q, hq, d, hd, he, hreads⟩ :=
    Stmt.blames_execAll hrun _ rfl fun _ => nofun
  have hshort : AllShort d.tree.numbers :=
    Query.allShort_of_mem_divisions hd
      (Stmt.allShort_of_mem_allQueries p.statements hq
        (allShort_of_ofText (Source.parseText_result text ▸ hp)))
  have htree : d.tree = .arith .div l r := by
    rw [Division.byZero_of_allShort hshort] at he
    cases he
    rfl
  refine ⟨rfl, htree ▸ Division.read_text hshort, q, hq, d, hd, htree, ?_⟩
  show _ <:+ (p.run robot.recorded limit (s, [])).state.2
  rw [run_eq_concluded, Report.state_concluded]
  exact hreads

/-- Moves by a quotient as long as there is fuel. -/
def Program.approach : Program :=
  ⟨[.whileDo (.compare .gt (.sensor .fuelLeft) (.number 0))
    [.times .move (.arith .add (.sensor .numBarrels) (.arith .div
      (.number 8) (.arith .sub (.sensor .wallDist) (.sensor .oppFB))))]]⟩

/-- A robot that meets its opponent at the wall in the second round. -/
def Meter.cornered : Meter :=
  ⟨[(.fuelLeft, .constant 9), (.wallDist, .queue [7, 5]),
    (.oppFB, .queue [3, 5])], none, 50, false, 0, 0, false⟩

theorem Program.fault_names_division_approach :
    let divisor : Expr := .arith .sub (.sensor .wallDist) (.sensor .oppFB)
    (Source.parseText approach.text).2 = .ok approach
    ∧ (approach.run Meter.robot 2 .cornered).result
      = .error (.fault (.divisionByZero (.number 8) divisor))
    ∧ (Fault.divisionByZero (.number 8) divisor).message
      = "Division by zero in " ++ (Expr.arith .div (.number 8) divisor).text
    ∧ Rule.expr.read (tokenize (Expr.arith .div (.number 8) divisor).text)
      = .ok (.expr (.arith .div (.number 8) divisor)) []
    ∧ ∃ q ∈ Stmt.allQueries approach.statements, ∃ d ∈ q.divisions,
      d.tree = .arith .div (.number 8) divisor
        ∧ Attempt.reads (q.sensors.take d.first ++ d.tree.sensors)
          <:+ Conduct.attempts (fun _ robot => approach.run robot 2)
            Meter.robot .cornered := by
  intro divisor
  have hread : (Source.parseText approach.text).2 = .ok approach := by
    decide +kernel
  have hzero : (approach.run Meter.robot 2 .cornered).result
      = .error (.fault (.divisionByZero (.number 8) divisor)) := by
    decide +kernel
  obtain ⟨hmessage, hexpr, hreads⟩ :=
    fault_names_division hread Meter.robot .cornered 2 hzero
  exact ⟨hread, hzero, hmessage, hexpr, hreads⟩

end RobotLang
