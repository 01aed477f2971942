/-
Evaluation gives the meaning.

The robot answers the sensors of an expression one after another. With its
answers for readings, evaluating comes to the integer that the expression
stands for, or to the fault of a division by zero: of the first one, in the
order in which divisions are listed. A condition is dealt with in the same
way. The fault names the division if this can be written, which is to say
that its numbers are short.

An activity computes a value over some divisions if it ends with the value
unless one of them is by zero, and else with the fault of the first of
these; the robot may also stop it. Two such activities, one after the other,
compute over the divisions of both, the second with readings from where the
first one left off. So it takes one step for every form of an expression.
-/
import RobotLang.Proofs.Activity.Steps
import RobotLang.Proofs.Evaluation.Meaning
import RobotLang.Proofs.Tree.Writing
import RobotLang.Robot.Metered

namespace RobotLang

open Activity

variable {σ α β : Type} {reading : Nat → Int} {i n m : Nat}

-- ============================================================= readings

namespace Trace

/-- The readings that the robot gave, in order. -/
def readings (t : Trace) : List Int :=
  t.calls.filterMap fun
    | .told _ v => some v
    | .did _ => none

theorem readings_append (t u : Trace) :
    readings (t ++ u) = readings t ++ readings u := by
  unfold readings
  rw [calls_append, List.filterMap_append]

/-- The readings that the robot gave are those from number `i` on. -/
def Gives (t : Trace) (reading : Nat → Int) (i : Nat) : Prop :=
  ∀ k v, t.readings[k]? = some v → reading (i + k) = v

theorem Gives.left {t u : Trace} (h : Gives (t ++ u) reading i) :
    t.Gives reading i := by
  intro k v hk
  obtain ⟨hlt, -⟩ := List.getElem?_eq_some_iff.1 hk
  refine h k v ?_
  rw [readings_append, List.getElem?_append_left hlt, hk]

theorem Gives.right {t u : Trace} (h : Gives (t ++ u) reading i) :
    u.Gives reading (i + t.readings.length) := by
  intro k v hk
  rw [Nat.add_assoc]
  refine h _ v ?_
  rw [readings_append, List.getElem?_append_right (by omega),
    Nat.add_sub_cancel_left, hk]

end Trace

-- ============================================================ computing

/-- The first of some divisions that is by zero. -/
def firstByZero (reading : Nat → Int) (ds : List Division) :
    Option Division :=
  ds.find? fun d => decide (d.ByZero reading)

theorem firstByZero_append (ds es : List Division) :
    firstByZero reading (ds ++ es)
      = (firstByZero reading ds).or (firstByZero reading es) :=
  List.find?_append

/-- How an evaluation with so many sensors may end: with a value as wanted
if no division is by zero, with the fault of the first that is, or because
the robot stops it. -/
inductive Report.Settles (reading : Nat → Int) (n : Nat)
    (ds : List Division) (wanted : α → Prop) : Report σ Fault α → Prop
  | value {trace : Trace} {s : σ} {a : α}
      (hds : firstByZero reading ds = none)
      (hlen : trace.readings.length = n) (ha : wanted a) :
      Settles reading n ds wanted ⟨trace, s, .ok a⟩
  | fault {trace : Trace} {s : σ} {d : Division}
      (hds : firstByZero reading ds = some d) :
      Settles reading n ds wanted
        ⟨trace, s, .error (.byZero d.left d.right)⟩
  | stopped (trace : Trace) (s : σ) (why : Stop) :
      Settles reading n ds wanted ⟨trace, s, .error (.stopped why)⟩

variable {x : Activity σ Fault α} {f : α → Activity σ Fault β} {a : α}
  {P : α → Prop} {Q : β → Prop} {ds es : List Division}

/-- Behind an evaluation that ended with a value. -/
theorem Report.Settles.behind {r : Report σ Fault β} {trace : Trace}
    (hds : firstByZero reading ds = none) (hlen : trace.readings.length = n)
    (h : r.Settles reading m es Q) :
    Settles reading (n + m) (ds ++ es) Q
      ⟨trace ++ r.trace, r.state, r.result⟩ := by
  have hboth : firstByZero reading (ds ++ es) = firstByZero reading es := by
    rw [firstByZero_append, hds, Option.none_or]
  cases h with
  | value hes hlen' ha =>
      refine .value (hboth.trans hes) ?_ ha
      rw [Trace.readings_append, List.length_append, hlen, hlen']
  | fault hes => exact .fault (hboth.trans hes)
  | stopped trace' s why => exact .stopped (trace ++ trace') s why

/-- The activity ends as an evaluation does if the robot gives the readings
from number `i` on. -/
def Activity.Computes (reading : Nat → Int) (i : Nat)
    (x : Activity σ Fault α) (n : Nat) (ds : List Division)
    (wanted : α → Prop) : Prop :=
  ∀ s, (x s).trace.Gives reading i → (x s).Settles reading n ds wanted

namespace Activity.Computes

theorem pure (h : P a) :
    Computes reading i (Pure.pure a : Activity σ Fault α) 0 [] P :=
  fun _ _ => .value rfl rfl h

theorem bind (hx : Computes reading i x n ds P)
    (hf : ∀ a, P a → Computes reading (i + n) (f a) m es Q) :
    Computes reading i (x >>= f) (n + m) (ds ++ es) Q := by
  intro s hgives
  have hfirst := hx s
  cases hres : x s with
  | mk trace u result =>
      rw [hres] at hfirst
      cases result with
      | error e =>
          rw [bind_of_error hres] at hgives ⊢
          cases hfirst hgives with
          | @fault _ _ d hds =>
              refine .fault ?_
              rw [firstByZero_append, hds, Option.some_or]
          | stopped _ _ why => exact .stopped trace u why
      | ok a =>
          rw [bind_of_ok hres] at hgives ⊢
          cases hfirst hgives.left with
          | value hds hlen ha =>
              have hright := hgives.right
              rw [hlen] at hright
              exact .behind hds hlen (hf a ha u hright)

/-- With the value changed at the end. -/
theorem andReturn {g : α → β} (hx : Computes reading i x n ds P)
    (hg : ∀ a, P a → Q (g a)) :
    Computes reading i (x >>= fun a => Pure.pure (g a)) n ds Q := by
  have hbind := hx.bind (f := fun a => Pure.pure (g a)) fun a ha =>
    .pure (hg a ha)
  rwa [List.append_nil] at hbind

/-- Two operands and what is made of them. -/
theorem operands {γ : Type} {y : Activity σ Fault β} {g : α → β → γ}
    {R : γ → Prop} (hx : Computes reading i x n ds P)
    (hy : Computes reading (i + n) y m es Q)
    (hg : ∀ a b, P a → Q b → R (g a b)) :
    Computes reading i
      (do
        let a ← x
        let b ← y
        return g a b) (n + m) (ds ++ es) R :=
  hx.bind fun a ha => hy.andReturn fun b hb => hg a b ha hb

/-- Reading a sensor. -/
theorem sense (robot : Robot σ) (x : Sensor) :
    Computes reading i (robot.sense x) 1 [] (· = reading i) := by
  intro s hgives
  unfold Robot.sense at hgives ⊢
  cases hask : robot.read x s with
  | error why u =>
      rw [bind_of_error (request_of_error hask)]
      exact .stopped [] u why
  | ok v u =>
      rw [bind_of_ok (request_of_ok hask)] at hgives ⊢
      exact .value rfl rfl (hgives 0 v rfl).symm

/-- The last step of an operation, when its operands have been computed. -/
theorem operate {o : Operation} {d : Division} {a b : Int}
    (hb : d.ByZero reading ↔ b = 0) :
    Computes reading i
      (if o = .div ∧ b = 0 then .fail (.byZero d.left d.right)
        else Pure.pure (o.apply a b) : Activity σ Fault Int) 0
      (if o = .div then [d] else []) (· = o.denote a b) := by
  intro s hgives
  by_cases hdiv : o = .div
  · rw [if_pos hdiv]
    by_cases hzero : b = 0
    · rw [if_pos ⟨hdiv, hzero⟩]
      exact .fault (by simp [firstByZero, hb.2 hzero])
    · rw [if_neg fun h => hzero h.2]
      have hnone : ¬ d.ByZero reading := fun h => hzero (hb.1 h)
      exact .value (by simp [firstByZero, hnone]) rfl (o.apply_eq_denote a b)
  · rw [if_neg (fun h : o = .div ∧ b = 0 => hdiv h.1), if_neg hdiv]
    exact .value rfl rfl (o.apply_eq_denote a b)

end Activity.Computes

-- =========================================================== evaluation

/-- Evaluating an expression computes what it stands for, over its
divisions. -/
theorem Expr.computes_eval (robot : Robot σ) (e : Expr) (i : Nat) :
    Computes reading i (e.eval robot) e.sensors.length (e.divisions i)
      (· = e.denote reading i) := by
  induction e generalizing i with
  | number n => exact .pure rfl
  | sensor s => exact .sense robot s
  | arith o l r hl hr =>
      unfold Expr.eval Expr.sensors
      rw [List.length_append]
      refine .bind (hl i) fun a ha => .bind (m := 0) (hr _) fun b hb => ?_
      rw [Expr.denote, ← ha, ← hb]
      have hzero : Division.ByZero reading ⟨i, l, r⟩ ↔ b = 0 := by
        rw [hb]
        exact .rfl
      exact .operate hzero

/-- Evaluating a condition computes whether it is true, over its
divisions. -/
theorem Cond.computes_eval (robot : Robot σ) (c : Cond) (i : Nat) :
    Computes reading i (c.eval robot) c.sensors.length (c.divisions i)
      fun b => b = true ↔ c.Holds reading i := by
  induction c generalizing i with
  | compare p l r =>
      unfold Cond.eval Cond.sensors
      rw [List.length_append]
      refine .operands (l.computes_eval robot i) (r.computes_eval robot _) ?_
      intro a b ha hb
      rw [Cond.Holds, ← ha, ← hb]
      exact Relation.holds_iff
  | both l r hl hr =>
      unfold Cond.eval Cond.sensors
      rw [List.length_append]
      refine .operands (hl i) (hr _) fun a b ha hb => ?_
      rw [Cond.Holds, ← ha, ← hb, Bool.and_eq_true]
  | either l r hl hr =>
      unfold Cond.eval Cond.sensors
      rw [List.length_append]
      refine .operands (hl i) (hr _) fun a b ha hb => ?_
      rw [Cond.Holds, ← ha, ← hb, Bool.or_eq_true]
  | negate c hc =>
      unfold Cond.eval Cond.sensors
      refine .andReturn (hc i) fun a ha => ?_
      rw [Cond.Holds, ← ha, Bool.not_eq_true', Bool.not_eq_true]

-- ======================================================== the divisions

theorem Expr.allShort_of_mem_divisions {e : Expr} {d : Division}
    (hd : d ∈ e.divisions i) (hshort : AllShort e.numbers) :
    AllShort d.tree.numbers := by
  induction e generalizing i with
  | number n => cases hd
  | sensor s => cases hd
  | arith o l r hl hr =>
      obtain ⟨hleft, hright⟩ := allShort_append.1 hshort
      rcases List.mem_append.1 hd with hd | hd
      · exact hl hd hleft
      rcases List.mem_append.1 hd with hd | hd
      · exact hr hd hright
      by_cases ho : o = .div
      · rw [if_pos ho, List.mem_singleton] at hd
        rw [hd]
        exact hshort
      · rw [if_neg ho] at hd
        cases hd

theorem Cond.allShort_of_mem_divisions {c : Cond} {d : Division}
    (hd : d ∈ c.divisions i) (hshort : AllShort c.numbers) :
    AllShort d.tree.numbers := by
  induction c generalizing i with
  | compare p l r =>
      obtain ⟨hleft, hright⟩ := allShort_append.1 hshort
      rcases List.mem_append.1 hd with hd | hd
      · exact Expr.allShort_of_mem_divisions hd hleft
      · exact Expr.allShort_of_mem_divisions hd hright
  | both l r hl hr | either l r hl hr =>
      obtain ⟨hleft, hright⟩ := allShort_append.1 hshort
      rcases List.mem_append.1 hd with hd | hd
      · exact hl hd hleft
      · exact hr hd hright
  | negate c hc => exact hc hd hshort

theorem Division.byZero_of_allShort {d : Division}
    (h : AllShort d.tree.numbers) :
    Fault.byZero d.left d.right = .divisionByZero d.left d.right := by
  have hwritten : (Expr.arith .div d.left d.right).written?
      = some d.tree.text := d.tree.writes.of_allShort h
  rw [Fault.byZero, hwritten]

theorem Division.byZero_of_not_allShort {d : Division}
    (h : ¬ AllShort d.tree.numbers) :
    Fault.byZero d.left d.right = .unwritable := by
  have hwritten : (Expr.arith .div d.left d.right).written? = none :=
    d.tree.writes.of_not_allShort h
  rw [Fault.byZero, hwritten]

/-- A division is read back from its text. -/
theorem Division.read_text {d : Division} (h : AllShort d.tree.numbers) :
    Rule.expr.read (tokenize d.tree.text) = .ok (.expr d.tree) [] :=
  Tree.read_of_written (t := .expr d.tree) (fun h => nomatch h)
    (d.tree.writes.of_allShort h)

/-- How an evaluation ends that the division has ended: with a fault that
names the division, which is read back from its text, or if it has a number
that is too long, with the fault of writing it. -/
structure Division.Reported (d : Division) (result : Except Fault α) :
    Prop where
  named : AllShort d.tree.numbers →
    result = .error (.divisionByZero d.left d.right)
      ∧ (Fault.divisionByZero d.left d.right).message
        = "Division by zero in " ++ d.tree.text
      ∧ Rule.expr.read (tokenize d.tree.text) = .ok (.expr d.tree) []
  unnamed : ¬ AllShort d.tree.numbers → result = .error .unwritable

theorem Division.reported (d : Division) :
    d.Reported (.error (.byZero d.left d.right) : Except Fault α) where
  named h := by
    rw [byZero_of_allShort h]
    exact ⟨rfl, rfl, read_text h⟩
  unnamed h := by rw [byZero_of_not_allShort h]

theorem firstByZero_eq_none {ds : List Division}
    (h : ∀ d ∈ ds, ¬ d.ByZero reading) : firstByZero reading ds = none :=
  List.find?_eq_none.2 fun d hd => by simp [h d hd]

-- ============================================================= meaning

/-- What a computation that the robot does not stop comes to. -/
theorem Activity.Computes.outcome {x : Activity σ Fault α}
    {P : α → Prop} {ds : List Division} {s : σ}
    (h : Computes reading i x n ds P) (hgives : (x s).trace.Gives reading i)
    (hstop : ∀ why, (x s).result ≠ .error (.stopped why)) :
    ((∀ d ∈ ds, ¬ d.ByZero reading) → ∃ a, (x s).result = .ok a ∧ P a)
    ∧ ∀ d, firstByZero reading ds = some d →
      (x s).result = .error (.byZero d.left d.right) := by
  have hend := h s hgives
  cases hres : x s with
  | mk trace u result =>
      rw [hres] at hend hstop
      cases hend with
      | value hds hlen ha =>
          refine ⟨fun _ => ⟨_, rfl, ha⟩, fun d hd => ?_⟩
          cases hds.symm.trans hd
      | fault hds =>
          refine ⟨fun hnone => ?_, fun d hd => ?_⟩
          · cases hds.symm.trans (firstByZero_eq_none hnone)
          · obtain rfl := Option.some.inj (hds.symm.trans hd)
            rfl
      | stopped _ _ why => exact absurd rfl (hstop why)

/-- Evaluation gives the meaning. Unless the robot stops it, and with the
robot's answers for readings, an expression evaluates to the integer that it
stands for and a condition to whether it is true, if no division in it is by
zero; else the first division that is ends the evaluation and is reported,
by name if it can be written. -/
theorem Robot.evaluation_means (robot : Robot σ) (s : σ)
    (reading : Nat → Int) :
    (∀ e : Expr, (∀ why, (e.eval robot s).result ≠ .error (.stopped why)) →
      (∀ i v, (e.eval robot s).trace.readings[i]? = some v →
        reading i = v) →
      ((∀ d ∈ e.divisions 0, ¬ d.ByZero reading) →
        (e.eval robot s).result = .ok (e.denote reading 0))
      ∧ ∀ d, firstByZero reading (e.divisions 0) = some d →
        d.Reported (e.eval robot s).result)
    ∧ ∀ c : Cond, (∀ why, (c.eval robot s).result ≠ .error (.stopped why)) →
      (∀ i v, (c.eval robot s).trace.readings[i]? = some v →
        reading i = v) →
      ((∀ d ∈ c.divisions 0, ¬ d.ByZero reading) →
        ∃ b, (c.eval robot s).result = .ok b
          ∧ (b = true ↔ c.Holds reading 0))
      ∧ ∀ d, firstByZero reading (c.divisions 0) = some d →
        d.Reported (c.eval robot s).result := by
  have hgives : ∀ {t : Trace}, (∀ i v, t.readings[i]? = some v →
      reading i = v) → t.Gives reading 0 := by
    intro t h i v hv
    rw [Nat.zero_add]
    exact h i v hv
  constructor
  · intro e hstop hread
    obtain ⟨hvalue, hfault⟩ :=
      (e.computes_eval robot 0).outcome (hgives hread) hstop
    refine ⟨fun hnone => ?_, fun d hd => ?_⟩
    · obtain ⟨a, ha, rfl⟩ := hvalue hnone
      exact ha
    · rw [hfault d hd]
      exact d.reported
  · intro c hstop hread
    obtain ⟨hvalue, hfault⟩ :=
      (c.computes_eval robot 0).outcome (hgives hread) hstop
    refine ⟨hvalue, fun d hd => ?_⟩
    rw [hfault d hd]
    exact d.reported

/-- Minus seven by two, which loses its fraction, and a quotient divided by
the second reading of a sensor, which is zero where the first was not. -/
theorem Robot.evaluation_means_quotient :
    let m : Meter :=
      ⟨[(.fuelLeft, .constant 7), (.oppLR, .queue [5, 0])], none, 500, false,
        0, 0, false⟩
    let answers (vs : List Int) : Nat → Int := fun i => vs[i]?.getD 0
    let half : Expr :=
      .arith .div (.arith .sub (.number 0) (.sensor .fuelLeft)) (.number 2)
    let d : Division :=
      ⟨0, .arith .div (.number 7) (.sensor .oppLR), .sensor .oppLR⟩
    let c : Cond := .negate (.compare .lt half (.sensor .oppLR))
    ((half.eval Meter.robot m).result = .ok (half.denote (answers [7]) 0)
      ∧ half.denote (answers [7]) 0 = -3)
    ∧ ((d.tree.eval Meter.robot m).trace.readings = [5, 0]
      ∧ (d.tree.eval Meter.robot m).result
        = .error (.divisionByZero d.left d.right)
      ∧ Rule.expr.read (tokenize d.tree.text) = .ok (.expr d.tree) [])
    ∧ ∃ b, (c.eval Meter.robot m).result = .ok b
      ∧ (b = true ↔ c.Holds (answers [7, 5]) 0) := by
  intro m answers half d c
  have hanswers : ∀ {t : Trace} {vs : List Int}, t.readings = vs →
      ∀ i v, t.readings[i]? = some v → answers vs i = v := by
    intro t vs ht i v hv
    rw [ht] at hv
    show vs[i]?.getD 0 = v
    rw [hv, Option.getD_some]
  have hhalf := (evaluation_means Meter.robot m (answers [7])).1 half
    (fun why h => nomatch h) (hanswers (by decide +kernel))
  have hquotient : half.denote (answers [7]) 0 = -3 :=
    (Operation.apply_eq_denote .div _ _).symm.trans rfl
  have hd := (evaluation_means Meter.robot m (answers [5, 0])).1 d.tree
    (fun why h => nomatch h) (hanswers (by decide +kernel))
  have hfirst : firstByZero (answers [5, 0]) (d.tree.divisions 0) = some d := by
    decide
  obtain ⟨hfault, -, hread⟩ := (hd.2 d hfirst).named (by decide)
  have hc := (evaluation_means Meter.robot m (answers [7, 5])).2 c
    (fun why h => nomatch h) (hanswers (by decide +kernel))
  exact ⟨⟨hhalf.1 (by decide), hquotient⟩,
    ⟨by decide +kernel, hfault, hread⟩, hc.1 (by decide)⟩

/-- The least number that is too long, divided by zero. -/
def Division.long : Division :=
  ⟨0, .number (10 ^ Numeral.digitLimit : Nat), .number 0⟩

theorem Division.byZero_long : Fault.byZero long.left long.right
    = .unwritable :=
  byZero_of_not_allShort fun h =>
    Numeral.not_isShort_pow (h _ (List.mem_cons_self ..))

/-- The robot does not stop the evaluation, and yet the fault does not name
the division. -/
theorem Robot.evaluation_hides_long_division :
    let d := Division.long
    let m : Meter := ⟨[], none, 500, false, 0, 0, false⟩
    firstByZero (fun _ => 0) (d.tree.divisions 0) = some d
      ∧ (d.tree.eval Meter.robot m).result = .error .unwritable
      ∧ (d.tree.eval Meter.robot m).result
        ≠ .error (.divisionByZero d.left d.right) := by
  intro d m
  have hresult : (d.tree.eval Meter.robot m).result = .error .unwritable := by
    rw [← Division.byZero_long]
    rfl
  refine ⟨rfl, hresult, ?_⟩
  rw [hresult]
  nofun

end RobotLang
