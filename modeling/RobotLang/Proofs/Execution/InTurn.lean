/-
One program behind another.

To execute the statements of two programs in one list is to execute the
first program and, if it came to its end, the second one from the state in
which the first left the robot. A run that the robot stops, or that divides
by zero, is over where it would have been over by itself.

Both runs are given the same number of rounds, so this holds number by
number (`Stmt.execAll_append`), for runs that are left unfinished as well.
A run that ends does so with some number, and with every greater one; so
the ends of the whole are the ends of the two parts in turn
(`Stmt.ends_append_iff`), also as they are concluded when the program is
over (`Program.ends_append_iff`).
-/
import RobotLang.Proofs.Execution.Ends

namespace RobotLang

open Activity

variable {σ α : Type}

/-- How two runs in turn end: as the first, unless that came to its end,
and else as the second, with the trace of both. -/
inductive InTurn (done : α) (first : Report σ Halt α → Prop)
    (second : σ → Report σ Halt α → Prop) : Report σ Halt α → Prop
  | cut {r : Report σ Halt α} (hr : first r) (hdone : r.result ≠ .ok done) :
      InTurn done first second r
  | both {r q : Report σ Halt α} (hr : first r)
      (hdone : r.result = .ok done) (hq : second r.state q) :
      InTurn done first second ⟨r.trace ++ q.trace, q.state, q.result⟩

variable {robot : Robot σ} {s : σ} {ss ts : List Stmt}

/-- Statements behind others end as both do in turn. -/
theorem Stmt.ends_append_iff {r : Report σ Halt Unit} :
    Stmt.Ends robot (ss ++ ts) s r
      ↔ InTurn () (Stmt.Ends robot ss s) (Stmt.Ends robot ts) r := by
  constructor
  · intro h
    obtain ⟨hne, n, rfl⟩ := h
    rw [execAll_append] at hne ⊢
    cases hres : Stmt.execAll robot n ss s with
    | mk trace u result =>
        cases result with
        | error e =>
            rw [bind_of_error hres] at hne ⊢
            exact .cut ⟨hne, n, hres⟩ (by simp)
        | ok _ =>
            rw [bind_of_ok hres] at hne ⊢
            have hfirst : Stmt.Ends robot ss s ⟨trace, u, .ok ()⟩ :=
              ⟨by simp, n, hres⟩
            exact .both hfirst rfl ⟨hne, n, rfl⟩
  · intro h
    cases h with
    | cut hr hdone =>
        obtain ⟨hne, n, hres⟩ := hr
        refine ⟨hne, n, ?_⟩
        obtain ⟨trace, u, result⟩ := r
        cases result with
        | error e => rw [execAll_append, bind_of_error hres]
        | ok _ => exact absurd rfl hdone
    | @both q q' hr hdone hq =>
        -- a number with which both parts end
        obtain ⟨n, hn⟩ := hr.eventually
        obtain ⟨m, hm⟩ := hq.eventually
        obtain ⟨trace, u, result⟩ := q
        obtain rfl : result = .ok () := hdone
        have hfirst := hn (max n m) (Nat.le_max_left n m)
        refine ⟨hq.1, max n m, ?_⟩
        rw [execAll_append, bind_of_ok hfirst,
          hm _ (Nat.le_max_right n m)]

namespace Report

/-- Only what came to its end is concluded as completed. -/
theorem concluded_eq_ok_true_iff {r : Report σ Halt Unit} :
    r.concluded.result = .ok true ↔ r.result = .ok () := by
  obtain ⟨trace, state, result⟩ := r
  unfold concluded
  split <;> simp_all

/-- How a run is concluded does not depend on what was done before. -/
theorem concluded_behind (before : Trace) (r : Report σ Halt Unit) :
    concluded ⟨before ++ r.trace, r.state, r.result⟩
      = ⟨before ++ r.concluded.trace, r.concluded.state,
          r.concluded.result⟩ := by
  obtain ⟨trace, state, result⟩ := r
  unfold concluded
  dsimp only
  split <;> simp

theorem concluded_of_ok {r : Report σ Halt Unit} (h : r.result = .ok ()) :
    r.concluded = ⟨r.trace, r.state, .ok true⟩ := by
  obtain ⟨trace, state, result⟩ := r
  obtain rfl : result = .ok () := h
  rfl

end Report

/-- A program of the statements of two ends as both do in turn. -/
theorem Program.ends_append_iff {r : Report σ Halt Bool} :
    Program.Ends robot ⟨ss ++ ts⟩ s r
      ↔ InTurn true (Program.Ends robot ⟨ss⟩ s) (Program.Ends robot ⟨ts⟩)
        r := by
  constructor
  · intro h
    obtain ⟨e, he, rfl⟩ := ends_iff.1 h
    cases Stmt.ends_append_iff.1 he with
    | cut hr hdone =>
        exact .cut (ends_iff.2 ⟨e, hr, rfl⟩)
          (mt Report.concluded_eq_ok_true_iff.1 hdone)
    | @both q q' hr hdone hq =>
        have hfirst := ends_iff.2 ⟨q, hr, rfl⟩
        rw [Report.concluded_of_ok hdone] at hfirst
        rw [Report.concluded_behind]
        exact .both hfirst rfl (ends_iff.2 ⟨q', hq, rfl⟩)
  · intro h
    cases h with
    | cut hr hdone =>
        obtain ⟨e, he, rfl⟩ := ends_iff.1 hr
        refine ends_iff.2 ⟨e, Stmt.ends_append_iff.2 (.cut he ?_), rfl⟩
        exact mt Report.concluded_eq_ok_true_iff.2 hdone
    | both hr hdone hq =>
        obtain ⟨e, he, rfl⟩ := ends_iff.1 hr
        have hok := Report.concluded_eq_ok_true_iff.1 hdone
        rw [Report.concluded_of_ok hok] at hq ⊢
        obtain ⟨e', he', rfl⟩ := ends_iff.1 hq
        refine ends_iff.2 ⟨_, Stmt.ends_append_iff.2 (.both he hok he'), ?_⟩
        exact Report.concluded_behind e.trace e'

end RobotLang
