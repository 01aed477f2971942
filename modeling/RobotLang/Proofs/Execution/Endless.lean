/-
Endless loops and what stands behind them.

An endless loop is never done: each of its rounds is followed by another
one, so it is over only if a round ends with an error, as it is when the
robot stops it or a division is by zero, whether or not the division can be
written out. What stands behind such a loop in a list of statements is
therefore not executed, and the list may as well end with the loop. This is
so in any block of a program, because statements that do the same may be
exchanged wherever they stand (`Stmt.Somewhere.execAll_eq`).

That a run comes to an endless loop is defined along the run: the loop
stands there, or what stands in front of it is done, or a condition holds
and the loop is in the block that is chosen. By induction on this no such
run is done; a loop under a condition is dealt with in its unrolled form,
in which the next round stands behind the block.
-/
import RobotLang.Proofs.Execution.Faults
import RobotLang.Proofs.Execution.InTurn
import RobotLang.Proofs.Execution.Unrolling

namespace RobotLang

open Activity

variable {σ ε α β : Type} {robot : Robot σ}

-- ======================================================== never done

/-- The activity never ends with a value. -/
def Activity.Endless (x : Activity σ ε α) : Prop :=
  ∀ s a, (x s).result ≠ .ok a

namespace Activity.Endless

/-- It makes no difference what is to follow. -/
theorem bind_eq {x : Activity σ ε α} (h : Endless x)
    (f g : α → Activity σ ε β) : x >>= f = x >>= g := by
  funext s
  cases hres : x s with
  | mk trace t result =>
      cases result with
      | error e => rw [bind_of_error hres, bind_of_error hres]
      | ok a => exact absurd (congrArg Report.result hres) (h s a)

theorem behind {x : Activity σ ε α} {f : α → Activity σ ε β}
    (h : ∀ a, Endless (f a)) : Endless (x >>= f) := by
  intro s b
  cases hres : x s with
  | mk trace t result =>
      cases result with
      | error e =>
          rw [bind_of_error hres]
          intro he
          cases he
      | ok a =>
          rw [bind_of_ok hres]
          exact h a t b

theorem forever (x : Activity σ Halt Unit) (n : Nat) :
    Endless (x.forever n) := by
  induction n with
  | zero =>
      intro s a h
      cases h
  | succ n ih => exact behind fun _ => ih

end Activity.Endless

theorem Stmt.endless_exec_loop (limit : Nat) (b : Block) :
    Endless ((Stmt.loop b).exec robot limit) := by
  unfold Stmt.exec
  exact .forever _ _

/-- Executing an endless loop is over only with a fault. -/
theorem Stmt.Ends.of_loop {b : Block} {s : σ} {r : Report σ Halt Unit}
    (h : Stmt.Ends robot [.loop b] s r) :
    ∃ fault, r.result = .error (.fault fault) := by
  obtain ⟨hne, limit, rfl⟩ := h
  rw [Stmt.execAll_singleton] at hne ⊢
  cases hres : ((Stmt.loop b).exec robot limit s).result with
  | ok u => exact absurd hres (Stmt.endless_exec_loop limit b s u)
  | error e =>
      cases e with
      | fault why => exact ⟨why, rfl⟩
      | unfinished => exact absurd hres hne

/-- A loop that is over with a division that cannot be written has a number
that is too long. -/
theorem Stmt.Ends.not_allShort {b : Block} {s : σ} {r : Report σ Halt Unit}
    (h : Stmt.Ends robot [.loop b] s r)
    (hr : r.result = .error (.fault .unwritable)) :
    ¬ AllShort (Stmt.allNumbers b) := by
  obtain ⟨-, limit, rfl⟩ := h
  have hlong := Stmt.not_allShort_of_unwritable hr
  rwa [Stmt.allNumbers, Stmt.numbers, Stmt.allNumbers, List.append_nil]
    at hlong

-- ============================================================ dead ends

/-- What stands behind an endless loop is dropped. -/
inductive Stmt.DropsDead : List Stmt → List Stmt → Prop
  | behind (before : List Stmt) (b : Block) (dead : List Stmt) :
      DropsDead (before ++ .loop b :: dead) (before ++ [.loop b])

theorem Stmt.DropsDead.execAll_eq {n : Nat} {ss ts : List Stmt}
    (h : DropsDead ss ts) :
    Stmt.execAll robot n ss = Stmt.execAll robot n ts := by
  cases h with
  | behind before b dead =>
      rw [execAll_append, execAll_append]
      refine congrArg (Stmt.execAll robot n before >>= ·) ?_
      funext _
      rw [Stmt.execAll, Stmt.execAll]
      exact (Stmt.endless_exec_loop n b).bind_eq _ _

/-- Without what stands behind an endless loop a program ends as before. -/
theorem Program.ends_iff_of_dropsDead {p q : Program}
    (h : Stmt.Somewhere Stmt.DropsDead p.statements q.statements) (s : σ)
    (r : Report σ Halt Bool) : p.Ends robot s r ↔ q.Ends robot s r := by
  have hrun (limit : Nat) : p.run robot limit = q.run robot limit :=
    run_eq_of_somewhere (fun _ _ => Stmt.DropsDead.execAll_eq) h
  unfold Ends
  simp only [hrun]

-- ==================================================== coming to a loop

/-- Executing the statements comes to an endless loop, here or in their
course. -/
inductive Stmt.ComesToLoop (robot : Robot σ) : List Stmt → σ → Prop
  | loop (b : Block) (s : σ) : ComesToLoop robot [.loop b] s
  | first {ss : List Stmt} {s : σ} (h : ComesToLoop robot ss s)
      (ts : List Stmt) : ComesToLoop robot (ss ++ ts) s
  | later {ss ts : List Stmt} {s : σ} {r : Report σ Halt Unit}
      (hr : Stmt.Ends robot ss s r) (hdone : r.result = .ok ())
      (h : ComesToLoop robot ts r.state) : ComesToLoop robot (ss ++ ts) s
  | whileDo {c : Cond} {b : Block} {s : σ}
      (hc : (c.eval robot s).result = .ok true)
      (h : ComesToLoop robot (b ++ [.whileDo c b]) (c.eval robot s).state) :
      ComesToLoop robot [.whileDo c b] s
  | ifThen {c : Cond} {b : Block} {s : σ}
      (hc : (c.eval robot s).result = .ok true)
      (h : ComesToLoop robot b (c.eval robot s).state) :
      ComesToLoop robot [.ifThen c b] s
  | ifElse {c : Cond} {b o : Block} {s : σ} {go : Bool}
      (hc : (c.eval robot s).result = .ok go)
      (h : ComesToLoop robot (if go then b else o) (c.eval robot s).state) :
      ComesToLoop robot [.ifElse c b o] s

/-- Statements that come to an endless loop are never done. -/
theorem Stmt.ComesToLoop.not_done {ss : List Stmt} {s : σ}
    (h : ComesToLoop robot ss s) {r : Report σ Halt Unit}
    (hr : Stmt.Ends robot ss s r) : r.result ≠ .ok () := by
  induction h generalizing r with
  | loop b s =>
      obtain ⟨fault, hfault⟩ := hr.of_loop
      rw [hfault]
      intro h
      cases h
  | first h ts ih =>
      cases Stmt.ends_append_iff.1 hr with
      | cut hq hdone => exact hdone
      | both hq hdone hmore => exact absurd hdone (ih hq)
  | later hfirst hdone h ih =>
      cases Stmt.ends_append_iff.1 hr with
      | cut hq hnot => exact hnot
      | both hq hdone' hmore =>
          rw [← hfirst.unique hq] at hmore
          have hnot := ih hmore
          exact hnot
  | whileDo hc h ih =>
      obtain ⟨q, hq, hquiet⟩ := Stmt.Within.whileDo_ifThen.ends hr
      obtain ⟨q', hq', rfl⟩ := hq.of_ifThen hc
      have hsame : r.quiet.result = q'.result := by
        rw [hquiet]
        rfl
      have hnot := ih hq'
      rw [← hsame] at hnot
      exact hnot
  | ifThen hc h ih =>
      obtain ⟨q, hq, rfl⟩ := hr.of_ifThen hc
      have hnot := ih hq
      exact hnot
  | ifElse hc h ih =>
      obtain ⟨q, hq, rfl⟩ := hr.of_ifElse hc
      have hnot := ih hq
      exact hnot

/-- An endless loop is never done: it is over only because the robot stops
it or a division in it is by zero, and the fault names the division unless
the loop has a number that is too long to be written. So whatever stands
behind one, anywhere in a program, may be dropped, and a run that comes to
one never completes the program. -/
theorem Program.endless_loop_never_done (robot : Robot σ) :
    (∀ (b : Block) (s : σ) (r : Report σ Halt Unit),
      Stmt.Ends robot [.loop b] s r →
        (∃ why, r.result = .error (.fault (.stopped why)))
          ∨ (∃ left right,
            r.result = .error (.fault (.divisionByZero left right)))
          ∨ (r.result = .error (.fault .unwritable)
            ∧ ¬ AllShort (Stmt.allNumbers b)))
    ∧ (∀ p q : Program,
      Stmt.Somewhere Stmt.DropsDead p.statements q.statements →
        ∀ s r, p.Ends robot s r ↔ q.Ends robot s r)
    ∧ ∀ (p : Program) (s : σ), Stmt.ComesToLoop robot p.statements s →
      ∀ r, p.Ends robot s r → r.result ≠ .ok true := by
  refine ⟨fun b s r h => ?_, fun p q h => Program.ends_iff_of_dropsDead h,
    fun p s h r hr => ?_⟩
  · obtain ⟨fault, hfault⟩ := h.of_loop
    cases fault with
    | stopped why => exact .inl ⟨why, hfault⟩
    | divisionByZero left right => exact .inr (.inl ⟨left, right, hfault⟩)
    | unwritable => exact .inr (.inr ⟨hfault, h.not_allShort hfault⟩)
  · obtain ⟨q, hq, rfl⟩ := ends_iff.1 hr
    exact mt Report.concluded_eq_ok_true_iff.1 (h.not_done hq)

/-- Turns for ever when it has moved up to the wall, and has some statements
behind the loop that does this. -/
def Program.atWall (dead : List Stmt) : Program :=
  ⟨[.once .move,
    .ifThen (.compare .lt (.sensor .wallDist) (.number 2))
      (.loop [.once .turnLeft] :: dead),
    .once .takeFuel]⟩

/-- A robot with the wall in front of it. -/
def Meter.nearWall : Meter :=
  ⟨[(.wallDist, .constant 1)], none, 4, false, 0, 0, false⟩

theorem Program.endless_loop_never_done_atWall :
    Stmt.Somewhere Stmt.DropsDead (atWall [.once .wait]).statements
      (atWall []).statements
    ∧ Stmt.ComesToLoop Meter.robot (atWall [.once .wait]).statements
      .nearWall
    ∧ (∃ r, (atWall [.once .wait]).Ends Meter.robot .nearWall r
      ∧ (atWall []).Ends Meter.robot .nearWall r
      ∧ r.trace.calls = [.did .move, .told .wallDist 1, .did .turnLeft,
        .did .turnLeft]
      ∧ r.result ≠ .ok true)
    ∧ ∃ r, Stmt.Ends Meter.robot [.loop [.once .wait]] .nearWall r
      ∧ ((∃ why, r.result = .error (.fault (.stopped why)))
        ∨ (∃ left right,
          r.result = .error (.fault (.divisionByZero left right)))
        ∨ (r.result = .error (.fault .unwritable)
          ∧ ¬ AllShort (Stmt.allNumbers [.once .wait]))) := by
  obtain ⟨hover, hdead, hnever⟩ := endless_loop_never_done Meter.robot
  have hdrops : Stmt.Somewhere Stmt.DropsDead
      (atWall [.once .wait]).statements (atWall []).statements :=
    .later _ (.inThen _ (.here (.behind [] _ [.once .wait])) _)
  have hmove : Stmt.Ends Meter.robot [.once .move] .nearWall
      ⟨[.call (.did .move)], { Meter.nearWall with actions := 1 }, .ok ()⟩ :=
    ⟨by simp, 1, rfl⟩
  have hwall : Stmt.ComesToLoop Meter.robot
      [.ifThen (.compare .lt (.sensor .wallDist) (.number 2))
        [.loop [.once .turnLeft], .once .wait]]
      { Meter.nearWall with actions := 1 } :=
    .ifThen rfl (.first (.loop [.once .turnLeft] _) [.once .wait])
  have hcomes : Stmt.ComesToLoop Meter.robot
      (atWall [.once .wait]).statements .nearWall :=
    .later hmove rfl (.first hwall [.once .takeFuel])
  have hends : (atWall [.once .wait]).Ends Meter.robot .nearWall
      ((atWall [.once .wait]).run Meter.robot 5 .nearWall) :=
    ⟨(fun h => nomatch h), 5, rfl⟩
  have hloop : Stmt.Ends Meter.robot [.loop [.once .wait]] .nearWall
      (Stmt.execAll Meter.robot 5 [.loop [.once .wait]] .nearWall) :=
    ⟨(fun h => nomatch h), 5, rfl⟩
  exact ⟨hdrops, hcomes,
    ⟨_, hends, (hdead _ _ hdrops _ _).1 hends, by decide +kernel,
      hnever _ _ hcomes _ hends⟩,
    ⟨_, hloop, hover _ _ _ hloop⟩⟩

/-- A loop that divides the least number that is too long by zero is over
for neither of the two reasons. -/
theorem Program.endless_loop_over_unwritable :
    let b : Block := [.times .move Division.long.tree]
    ∃ r, Stmt.Ends Meter.robot [.loop b] .nearWall r
      ∧ r.result = .error (.fault .unwritable)
      ∧ (∀ why, r.result ≠ .error (.fault (.stopped why)))
      ∧ ∀ left right,
        r.result ≠ .error (.fault (.divisionByZero left right)) := by
  intro b
  have hresult : (Stmt.execAll Meter.robot 1 [.loop b] .nearWall).result
      = .error (.fault .unwritable) := by
    rw [← Division.byZero_long]
    rfl
  refine ⟨_, ⟨?_, 1, rfl⟩, hresult, ?_, ?_⟩ <;> rw [hresult] <;> nofun

end RobotLang
