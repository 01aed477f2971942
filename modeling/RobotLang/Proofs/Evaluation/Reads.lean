/-
What an evaluation reads.

Which sensors are read in an evaluation, and in which order, is seen from
the expression or the condition: its sensors from left to right, each of
them once. The robot's answers decide only how far the evaluation comes. It
gets to the end if it has a value; before that it may meet a division by
zero, when it has read what stands to the left of the division or in it, or
a read that the robot does not answer.

Calls that are not answered count, so they are taken from the robot
recorded. The induction is on an inquiry, which says this of an evaluation
together with the divisions that there are: two inquiries in a row are an
inquiry after the sensors of both, the second with its sensors numbered
from where the first one left off.
-/
import Mathlib.Data.List.Count
import RobotLang.Proofs.Evaluation.Meaning
import RobotLang.Proofs.Robot.Metered
import RobotLang.Proofs.Robot.Recorded

namespace RobotLang

open Activity

variable {σ α β γ : Type} {i : Nat} {xs ys : List Sensor}
  {ds es : List Division}

-- ================================================================ reads

/-- Reads of some sensors, all of them answered. -/
def Attempt.reads (xs : List Sensor) : List Attempt :=
  xs.map fun x => .read x true

theorem Attempt.reads_append (xs ys : List Sensor) :
    reads (xs ++ ys) = reads xs ++ reads ys := List.map_append

/-- How many sensors stand to the left of a division or in it. -/
def Division.reach (d : Division) : Nat := d.first + d.tree.sensors.length

/-- How an evaluation of something with some sensors, the first of them
number `i`, and some divisions may end, and the calls that it has then
made. -/
inductive Inquiry (i : Nat) (xs : List Sensor) (ds : List Division) :
    Except Fault α → List Attempt → Prop
  | value (a : α) : Inquiry i xs ds (.ok a) (Attempt.reads xs)
  | fault {ys : List Sensor} {d : Division} {e : Fault} (hd : d ∈ ds)
      (hys : ys <+: xs) (hreach : i + ys.length = d.reach)
      (he : e = .byZero d.left d.right) :
      Inquiry i xs ds (.error e) (Attempt.reads ys)
  | stopped {ys : List Sensor} {x : Sensor} (why : Stop)
      (hys : ys ++ [x] <+: xs) :
      Inquiry i xs ds (.error (.stopped why))
        (Attempt.reads ys ++ [.read x false])

namespace Inquiry

/-- An inquiry that came to nothing does not go on. -/
theorem cut {e : Fault} {made : List Attempt}
    (h : Inquiry i xs ds (.error e : Except Fault α) made) :
    Inquiry i (xs ++ ys) (ds ++ es) (.error e : Except Fault β) made := by
  cases h with
  | fault hd hys hreach he =>
      exact .fault (List.mem_append_left es hd)
        (hys.trans (List.prefix_append xs ys)) hreach he
  | stopped why hys =>
      exact .stopped why (hys.trans (List.prefix_append xs ys))

/-- An inquiry behind one that came to its end. -/
theorem behind {result : Except Fault α} {made : List Attempt}
    (h : Inquiry (i + xs.length) ys es result made) :
    Inquiry i (xs ++ ys) (ds ++ es) result (Attempt.reads xs ++ made) := by
  cases h with
  | value a =>
      rw [← Attempt.reads_append]
      exact .value a
  | fault hd hys hreach he =>
      rw [← Attempt.reads_append]
      refine .fault (List.mem_append_right ds hd)
        ((List.prefix_append_right_inj xs).2 hys) ?_ he
      rw [List.length_append, ← Nat.add_assoc, hreach]
  | stopped why hys =>
      rw [← List.append_assoc, ← Attempt.reads_append]
      refine .stopped why ?_
      rw [List.append_assoc]
      exact (List.prefix_append_right_inj xs).2 hys

/-- An inquiry only reads. -/
theorem act_notMem {result : Except Fault α} {made : List Attempt}
    (h : Inquiry i xs ds result made) (a : Action) (answered : Bool) :
    .act a answered ∉ made := by
  cases h <;> simp [Attempt.reads]

end Inquiry

-- ============================================================ inquiring

/-- The calls that the activity makes are those of an inquiry. -/
def Activity.Inquires (i : Nat) (xs : List Sensor) (ds : List Division)
    (x : Activity (σ × List Attempt) Fault α) : Prop :=
  ∀ t, ∃ made, (x t).state.2 = t.2 ++ made
    ∧ Inquiry i xs ds (x t).result made

namespace Activity.Inquires

variable {x : Activity (σ × List Attempt) Fault α}

theorem pure (a : α) :
    Inquires i [] [] (Pure.pure a : Activity (σ × _) Fault α) :=
  fun t => ⟨[], (List.append_nil t.2).symm, .value a⟩

theorem bind {f : α → Activity (σ × List Attempt) Fault β}
    (hx : Inquires i xs ds x)
    (hf : ∀ a, Inquires (i + xs.length) ys es (f a)) :
    Inquires i (xs ++ ys) (ds ++ es) (x >>= f) := by
  intro t
  obtain ⟨made, hmade, hfirst⟩ := hx t
  cases hres : x t with
  | mk trace u result =>
      rw [hres] at hmade hfirst
      cases result with
      | error e =>
          rw [bind_of_error hres]
          exact ⟨made, hmade, hfirst.cut⟩
      | ok a =>
          cases hfirst
          obtain ⟨more, hmore, hsecond⟩ := hf a u
          rw [bind_of_ok hres]
          refine ⟨Attempt.reads xs ++ more, ?_, hsecond.behind⟩
          have hmid : u.2 = t.2 ++ Attempt.reads xs := hmade
          rw [← List.append_assoc, ← hmid]
          exact hmore

/-- With the value changed at the end. -/
theorem andReturn (hx : Inquires i xs ds x) (g : α → β) :
    Inquires i xs ds (x >>= fun a => Pure.pure (g a)) := by
  have hbind := hx.bind (f := fun a => Pure.pure (g a)) fun a =>
    .pure (g a)
  rwa [List.append_nil, List.append_nil] at hbind

/-- Two operands and what is made of them. -/
theorem operands {y : Activity (σ × List Attempt) Fault β} {g : α → β → γ}
    (hx : Inquires i xs ds x) (hy : Inquires (i + xs.length) ys es y) :
    Inquires i (xs ++ ys) (ds ++ es)
      (do
        let a ← x
        let b ← y
        return g a b) :=
  hx.bind fun a => hy.andReturn (g a)

/-- Reading a sensor. -/
theorem sense (robot : Robot σ) (x : Sensor) :
    Inquires i [x] [] (robot.recorded.sense x) := by
  intro t
  unfold Robot.sense
  cases hask : robot.read x t.1 with
  | ok v s =>
      have hread : robot.recorded.read x t
          = .ok v (s, t.2 ++ [.read x true]) :=
        Attempt.recorded_of_ok (.read x) hask
      rw [bind_of_ok (request_of_ok hread)]
      exact ⟨[.read x true], rfl, .value v⟩
  | error why s =>
      have hread : robot.recorded.read x t
          = .error why (s, t.2 ++ [.read x false]) :=
        Attempt.recorded_of_error (.read x) hask
      rw [bind_of_error (request_of_error hread)]
      exact ⟨Attempt.reads [] ++ [.read x false], rfl,
        .stopped why (List.prefix_refl [x])⟩

/-- The last step of an operation, behind both its operands. -/
theorem operate {o : Operation} {l r : Expr} (a b : Int) :
    Inquires (i + l.sensors.length + r.sensors.length) []
      (if o = .div then [⟨i, l, r⟩] else [])
      (if o = .div ∧ b = 0 then .fail (.byZero l r)
        else Pure.pure (o.apply a b) : Activity (σ × _) Fault Int) := by
  by_cases hzero : o = .div ∧ b = 0
  · rw [if_pos hzero, if_pos hzero.1]
    intro t
    refine ⟨[], (List.append_nil t.2).symm, .fault
      (List.mem_singleton_self (⟨i, l, r⟩ : Division)) List.nil_prefix ?_
      rfl⟩
    show i + l.sensors.length + r.sensors.length + 0
      = i + (l.sensors ++ r.sensors).length
    rw [List.length_append, Nat.add_zero, Nat.add_assoc]
  · rw [if_neg hzero]
    exact fun t => ⟨[], (List.append_nil t.2).symm, .value _⟩

end Activity.Inquires

/-- Evaluating an expression inquires after its sensors. -/
theorem Expr.inquires_eval (robot : Robot σ) (e : Expr) (i : Nat) :
    Inquires i e.sensors (e.divisions i) (e.eval robot.recorded) := by
  induction e generalizing i with
  | number n => exact .pure n
  | sensor x => exact .sense robot x
  | arith o l r hl hr =>
      have hboth := (hl i).bind fun a => (hr (i + l.sensors.length)).bind
        fun b => .operate (o := o) (i := i) (l := l) (r := r) a b
      rwa [List.append_nil] at hboth

/-- Evaluating a condition inquires after its sensors. -/
theorem Cond.inquires_eval (robot : Robot σ) (c : Cond) (i : Nat) :
    Inquires i c.sensors (c.divisions i) (c.eval robot.recorded) := by
  induction c generalizing i with
  | compare p l r =>
      exact .operands (l.inquires_eval robot i) (r.inquires_eval robot _)
  | both l r hl hr | either l r hl hr => exact .operands (hl i) (hr _)
  | negate c hc => exact .andReturn (hc i) _

-- ======================================================== in this order

/-- As many readings of a sensor as there were answered reads of it. -/
theorem Sensor.length_given (x : Sensor) (cs : List Call) :
    (x.given cs).length = (cs.map Call.attempt).count (.read x true) := by
  induction cs with
  | nil => rfl
  | cons c cs ih =>
      cases c with
      | did a => simpa [given, Call.attempt] using ih
      | told y v =>
          by_cases hx : y = x
          · subst hx
            simpa [given, Call.attempt] using ih
          · simpa [given, Call.attempt, hx] using ih

theorem Attempt.count_reads (x : Sensor) (xs : List Sensor) :
    (reads xs).count (.read x true) = xs.count x :=
  List.count_map_of_injective xs _ (fun _ _ h => (Attempt.read.inj h).1) x

/-- The calls that an evaluation makes are reads of the given sensors, in
their order: of all of them, each once, if it ends with a value; of the
first ones if it ends without one and not because of the robot, that is,
with a division by zero; and if the robot stops it, of the first ones as
well, the last of which is not answered. So two evaluations with values
read the same, and use up as many readings of each sensor. -/
structure Conduct.ReadsInOrder (x : Conduct Fault α) (xs : List Sensor) :
    Prop where
  value : ∀ {σ : Type} (robot : Robot σ) (s : σ) (a : α),
    (x σ robot s).result = .ok a → x.attempts robot s = Attempt.reads xs
  fault : ∀ {σ : Type} (robot : Robot σ) (s : σ) (e : Fault),
    (x σ robot s).result = .error e → (∀ why, e ≠ .stopped why) →
      ∃ ys, ys <+: xs ∧ x.attempts robot s = Attempt.reads ys
  stopped : ∀ {σ : Type} (robot : Robot σ) (s : σ) (why : Stop),
    (x σ robot s).result = .error (.stopped why) →
      ∃ ys y, ys ++ [y] <+: xs
        ∧ x.attempts robot s = Attempt.reads ys ++ [.read y false]
  same : ∀ {σ τ : Type} (robot : Robot σ) (other : Robot τ) (s : σ) (t : τ)
    (a b : α), (x σ robot s).result = .ok a → (x τ other t).result = .ok b →
      (x σ robot s).trace.calls.map Call.attempt
        = (x τ other t).trace.calls.map Call.attempt
  used : ∀ (m : Meter) (a : α), (x Meter Meter.robot m).result = .ok a →
    ∀ y vs, m.supply y = .queue vs →
      ∃ given left, vs = given ++ left ∧ given.length = xs.count y
        ∧ (x Meter Meter.robot m).state.supply y = .queue left

namespace Conduct.Stepwise

variable {x : Conduct Fault α}

/-- What an inquiry that begins with nothing recorded has made. -/
theorem inquiry (hx : Stepwise Fault.stopped x) (robot : Robot σ) (s : σ)
    (hreads : Inquires 0 xs ds (x _ robot.recorded)) :
    Inquiry 0 xs ds (x σ robot s).result (x.attempts robot s) := by
  obtain ⟨made, hmade, hinquiry⟩ := hreads (s, [])
  have hplain := hx.recorded_eq robot (s, [])
  have hattempts : x.attempts robot s = made := hmade
  rw [hplain, hattempts]
  exact hinquiry

/-- A conduct that inquires after sensors reads them in order. -/
theorem readsInOrder (hx : Stepwise Fault.stopped x)
    (hreads : ∀ {σ : Type} (robot : Robot σ),
      Inquires 0 xs ds (x _ robot.recorded)) : x.ReadsInOrder xs := by
  have hvalue {σ : Type} (robot : Robot σ) (s : σ) (a : α)
      (h : (x σ robot s).result = .ok a) :
      x.attempts robot s = Attempt.reads xs := by
    have hinquiry := hx.inquiry robot s (hreads robot)
    rw [h] at hinquiry
    generalize x.attempts robot s = made at hinquiry ⊢
    cases hinquiry
    rfl
  have hcalls {σ : Type} (robot : Robot σ) (s : σ) (a : α)
      (h : (x σ robot s).result = .ok a) :
      (x σ robot s).trace.calls.map Call.attempt = Attempt.reads xs := by
    rw [← hx.attempts_eq robot s fun why hwhy => by cases h.symm.trans hwhy]
    exact hvalue robot s a h
  refine ⟨hvalue, fun robot s e h hnot => ?_, fun robot s why h => ?_,
    fun robot other s t a b h h' => ?_, fun m a h y vs hvs => ?_⟩
  · have hinquiry := hx.inquiry robot s (hreads robot)
    rw [h] at hinquiry
    generalize x.attempts robot s = made at hinquiry ⊢
    cases hinquiry with
    | fault hd hys hreach he => exact ⟨_, hys, rfl⟩
    | stopped why hys => exact absurd rfl (hnot why)
  · have hinquiry := hx.inquiry robot s (hreads robot)
    rw [h] at hinquiry
    generalize x.attempts robot s = made at hinquiry ⊢
    cases hinquiry with
    | fault hd hys hreach he => exact absurd he.symm Fault.byZero_ne_stopped
    | stopped why hys => exact ⟨_, _, hys, rfl⟩
  · rw [hcalls robot s a h, hcalls other t b h']
  · obtain ⟨t, hanswers, ht⟩ := hx.answered Meter.robot m
    obtain ⟨left, hleft, hgiven⟩ := Meter.supply_of_answers hanswers hvs
    refine ⟨_, left, hgiven, ?_, ht a h ▸ hleft⟩
    rw [Sensor.length_given, hcalls Meter.robot m a h, Attempt.count_reads]

end Conduct.Stepwise

/-- Which sensors an evaluation reads does not depend on what it reads: an
expression or a condition has its sensors read from left to right, each of
them once, as far as the evaluation comes. -/
theorem Robot.evaluation_reads_in_order :
    (∀ e : Expr,
      Conduct.ReadsInOrder (fun _ robot => e.eval robot) e.sensors)
    ∧ ∀ c : Cond,
      Conduct.ReadsInOrder (fun _ robot => c.eval robot) c.sensors :=
  ⟨fun e => e.stepwise_eval.readsInOrder fun robot =>
      e.inquires_eval robot 0,
    fun c => c.stepwise_eval.readsInOrder fun robot =>
      c.inquires_eval robot 0⟩

/-- Both sides of a conjunction are read though the first one is false; and
the same evaluation on a robot for which the quotient is by zero, and on one
that has too few readings. -/
theorem Robot.evaluation_reads_in_order_both :
    let quotient : Expr := .arith .div (.number 1) (.sensor .oppLR)
    let c : Cond := .both (.compare .lt (.sensor .fuelLeft) (.number 0))
      (.compare .eq quotient (.sensor .fuelLeft))
    let x : Conduct Fault Bool := fun _ robot => c.eval robot
    let m (fuel opponent : List Int) : Meter :=
      ⟨[(.fuelLeft, .queue fuel), (.oppLR, .queue opponent)], none, 9, false,
        0, 0, false⟩
    ((c.eval Meter.robot (m [5, 7, 8] [2])).result = .ok false
      ∧ x.attempts Meter.robot (m [5, 7, 8] [2])
        = Attempt.reads [.fuelLeft, .oppLR, .fuelLeft]
      ∧ ∃ given left, [5, 7, 8] = given ++ left ∧ given.length = 2
        ∧ (c.eval Meter.robot (m [5, 7, 8] [2])).state.supply .fuelLeft
          = .queue left)
    ∧ ((c.eval Meter.robot (m [5, 7] [0])).result
        = .error (.divisionByZero (.number 1) (.sensor .oppLR))
      ∧ ∃ ys, ys <+: c.sensors
        ∧ x.attempts Meter.robot (m [5, 7] [0]) = Attempt.reads ys)
    ∧ ((c.eval Meter.robot (m [5] [2])).result
        = .error (.stopped (.interrupted "no more readings for fuelLeft"))
      ∧ ∃ ys y, ys ++ [y] <+: c.sensors
        ∧ x.attempts Meter.robot (m [5] [2])
          = Attempt.reads ys ++ [.read y false]) := by
  intro quotient c x m
  have hreads : x.ReadsInOrder c.sensors := evaluation_reads_in_order.2 c
  have hvalue : (c.eval Meter.robot (m [5, 7, 8] [2])).result
      = .ok false := by decide +kernel
  have hzero : (c.eval Meter.robot (m [5, 7] [0])).result
      = .error (.divisionByZero (.number 1) (.sensor .oppLR)) := by
    decide +kernel
  have hstopped : (c.eval Meter.robot (m [5] [2])).result
      = .error (.stopped (.interrupted "no more readings for fuelLeft")) := by
    decide +kernel
  exact ⟨⟨hvalue, hreads.value Meter.robot _ _ hvalue,
      hreads.used _ _ hvalue .fuelLeft [5, 7, 8] rfl⟩,
    ⟨hzero, hreads.fault Meter.robot _ _ hzero fun _ => nofun⟩,
    ⟨hstopped, hreads.stopped Meter.robot _ _ hstopped⟩⟩

end RobotLang
