/-
When a run ends.

A run is given a number, and a loop that would take as many rounds is left
unfinished. A run that is not left unfinished is the same with every
greater number, so it is the run without any (`Stmt.execAll_eq_of_le`). A
run ends with a report if it does so with some number, and then with every
number from some point on; so it ends in one way only.

The induction compares a number with a greater one: an activity
approximates another if it does the same wherever it is not left
unfinished. All ways to put activities together keep this, the loops
included, because a loop that is given more rounds goes through the same
ones first.

With one and the same number, statements that do the same may be exchanged
wherever they stand (`Stmt.Somewhere.execAll_eq`).
-/
import RobotLang.Proofs.Activity.Steps

namespace RobotLang

variable {σ α β : Type}

namespace Activity

/-- Where the first activity is not left unfinished, the second does the
same. -/
def Approximates (x y : Activity σ Halt α) : Prop :=
  ∀ s, (x s).result = .error .unfinished ∨ x s = y s

namespace Approximates

theorem refl (x : Activity σ Halt α) : Approximates x x :=
  fun _ => .inr rfl

theorem unfinished (y : Activity σ Halt α) :
    Approximates (.fail .unfinished) y := fun _ => .inl rfl

theorem bind {x y : Activity σ Halt α} {f g : α → Activity σ Halt β}
    (hx : Approximates x y) (hf : ∀ a, Approximates (f a) (g a)) :
    Approximates (x >>= f) (y >>= g) := by
  intro s
  cases hres : x s with
  | mk trace u result =>
      rcases hx s with hun | heq
      · rw [hres] at hun
        have hresult : result = .error .unfinished := hun
        rw [hresult] at hres
        rw [bind_of_error hres]
        exact .inl rfl
      · rw [hres] at heq
        cases result with
        | error e =>
            rw [bind_of_error hres, bind_of_error heq.symm]
            exact .inr rfl
        | ok a =>
            rw [bind_of_ok hres, bind_of_ok heq.symm]
            rcases hf a u with hun | hsame
            · exact .inl hun
            · rw [hsame]
              exact .inr rfl

theorem ite {c : Prop} [Decidable c] {x y x' y' : Activity σ Halt α}
    (hx : Approximates x x') (hy : Approximates y y') :
    Approximates (if c then x else y) (if c then x' else y') := by
  split
  · exact hx
  · exact hy

variable {x y : Activity σ Halt Unit} {n m : Nat}

/-- More rounds begin with the same ones. -/
theorem forever (h : Approximates x y) (hn : n ≤ m) :
    Approximates (x.forever n) (y.forever m) := by
  induction n generalizing m with
  | zero => exact .unfinished _
  | succ n ih =>
      obtain ⟨m, rfl⟩ := Nat.exists_eq_add_one.2 (by omega : 0 < m)
      exact .bind h fun _ => ih (Nat.le_of_succ_le_succ hn)

/-- More rounds begin with the same ones. -/
theorem rounds {c : Cond} {test : Activity σ Halt Bool}
    (h : Approximates x y) (hn : n ≤ m) (done : Nat) :
    Approximates (.rounds c test x done n) (.rounds c test y done m) := by
  induction n generalizing m done with
  | zero => exact .unfinished _
  | succ n ih =>
      obtain ⟨m, rfl⟩ := Nat.exists_eq_add_one.2 (by omega : 0 < m)
      refine .bind (.refl test) fun go => ?_
      cases go with
      | false => exact .refl _
      | true =>
          refine .bind (.refl _) fun _ => .bind h fun _ => ?_
          exact ih (Nat.le_of_succ_le_succ hn) (done + 1)

end Approximates

end Activity

open Activity

variable {robot : Robot σ} {n m : Nat}

mutual

theorem Stmt.approximates_exec (hn : n ≤ m) :
    (s : Stmt) → Approximates (s.exec robot n) (s.exec robot m)
  | .once a => by
      unfold Stmt.exec
      exact .refl _
  | .times a e => by
      unfold Stmt.exec
      exact .refl _
  | .loop b => by
      unfold Stmt.exec
      exact .forever (Stmt.approximates_execAll hn b) hn
  | .whileDo c b => by
      unfold Stmt.exec
      exact .rounds (Stmt.approximates_execAll hn b) hn 0
  | .ifThen c b => by
      unfold Stmt.exec
      exact .bind (.refl _) fun _ =>
        .ite (Stmt.approximates_execAll hn b) (.refl _)
  | .ifElse c b o => by
      unfold Stmt.exec
      exact .bind (.refl _) fun _ =>
        .ite (Stmt.approximates_execAll hn b)
          (Stmt.approximates_execAll hn o)

/-- With a greater number statements do the same, unless they are left
unfinished with the smaller one. -/
theorem Stmt.approximates_execAll (hn : n ≤ m) :
    (ss : List Stmt) →
      Approximates (Stmt.execAll robot n ss) (Stmt.execAll robot m ss)
  | [] => by
      unfold Stmt.execAll
      exact .refl _
  | s :: ss => by
      unfold Stmt.execAll
      exact .bind (Stmt.approximates_exec hn s) fun _ =>
        Stmt.approximates_execAll hn ss

end

variable {ss : List Stmt} {s : σ}

theorem Stmt.execAll_eq_of_le (hn : n ≤ m)
    (h : (Stmt.execAll robot n ss s).result ≠ .error .unfinished) :
    Stmt.execAll robot m ss s = Stmt.execAll robot n ss s := by
  have happrox : Approximates (Stmt.execAll robot n ss)
      (Stmt.execAll robot m ss) := Stmt.approximates_execAll hn ss
  rcases happrox s with hun | heq
  · exact absurd hun h
  · exact heq.symm

theorem Stmt.execAll_singleton (robot : Robot σ) (n : Nat) (s : Stmt) :
    Stmt.execAll robot n [s] = s.exec robot n := by
  rw [Stmt.execAll, Stmt.execAll, bind_pure]

/-- Statements behind others are executed behind them. -/
theorem Stmt.execAll_append (robot : Robot σ) (n : Nat)
    (ss ts : List Stmt) :
    Stmt.execAll robot n (ss ++ ts)
      = Stmt.execAll robot n ss >>= fun _ => Stmt.execAll robot n ts := by
  induction ss with
  | nil => rw [List.nil_append, Stmt.execAll, pure_bind]
  | cons s ss ih =>
      rw [List.cons_append, Stmt.execAll, ih, Stmt.execAll, bind_assoc]

-- ==================================================== somewhere in others

/-- Statements that stand somewhere in others are replaced there. -/
inductive Stmt.Somewhere (replaced : List Stmt → List Stmt → Prop) :
    List Stmt → List Stmt → Prop
  | here {ss ts : List Stmt} (h : replaced ss ts) : Somewhere replaced ss ts
  | later (s : Stmt) {ss ts : List Stmt} (h : Somewhere replaced ss ts) :
      Somewhere replaced (s :: ss) (s :: ts)
  | inLoop {b b' : List Stmt} (h : Somewhere replaced b b')
      (rest : List Stmt) :
      Somewhere replaced (.loop b :: rest) (.loop b' :: rest)
  | inWhile (c : Cond) {b b' : List Stmt} (h : Somewhere replaced b b')
      (rest : List Stmt) :
      Somewhere replaced (.whileDo c b :: rest) (.whileDo c b' :: rest)
  | inThen (c : Cond) {b b' : List Stmt} (h : Somewhere replaced b b')
      (rest : List Stmt) :
      Somewhere replaced (.ifThen c b :: rest) (.ifThen c b' :: rest)
  | inFirst (c : Cond) {b b' : List Stmt} (h : Somewhere replaced b b')
      (o rest : List Stmt) :
      Somewhere replaced (.ifElse c b o :: rest) (.ifElse c b' o :: rest)
  | inOther (c : Cond) (b : List Stmt) {o o' : List Stmt}
      (h : Somewhere replaced o o') (rest : List Stmt) :
      Somewhere replaced (.ifElse c b o :: rest) (.ifElse c b o' :: rest)

/-- Statements that do the same may be exchanged wherever they stand. -/
theorem Stmt.Somewhere.execAll_eq
    {replaced : List Stmt → List Stmt → Prop}
    (hsame : ∀ ss ts, replaced ss ts →
      Stmt.execAll robot n ss = Stmt.execAll robot n ts)
    {ss ts : List Stmt} (h : Somewhere replaced ss ts) :
    Stmt.execAll robot n ss = Stmt.execAll robot n ts := by
  induction h with
  | here h => exact hsame _ _ h
  | later s h ih => rw [Stmt.execAll, ih, Stmt.execAll]
  | inLoop h rest ih | inWhile c h rest ih | inThen c h rest ih
  | inFirst c h o rest ih | inOther c b h rest ih =>
      rw [Stmt.execAll, Stmt.exec, ih, Stmt.execAll, Stmt.exec]

/-- Programs run alike whose statements differ somewhere by some that do the
same. -/
theorem Program.run_eq_of_somewhere
    {replaced : List Stmt → List Stmt → Prop}
    (hsame : ∀ ss ts, replaced ss ts →
      Stmt.execAll robot n ss = Stmt.execAll robot n ts)
    {p q : Program}
    (h : Stmt.Somewhere replaced p.statements q.statements) :
    p.run robot n = q.run robot n := by
  unfold run Stmt.run
  rw [h.execAll_eq hsame]

-- ========================================================= ended runs

/-- Executing statements ends, with a report. -/
def Stmt.Ends (robot : Robot σ) (ss : List Stmt) (s : σ)
    (r : Report σ Halt Unit) : Prop :=
  r.result ≠ .error .unfinished
    ∧ ∃ limit, Stmt.execAll robot limit ss s = r

/-- From some number on an ended run is the same. -/
theorem Stmt.Ends.eventually {r : Report σ Halt Unit}
    (h : Stmt.Ends robot ss s r) :
    ∃ n, ∀ m, n ≤ m → Stmt.execAll robot m ss s = r := by
  obtain ⟨hr, n, rfl⟩ := h
  exact ⟨n, fun m hm => Stmt.execAll_eq_of_le hm hr⟩

/-- An ended run is the only one. -/
theorem Stmt.Ends.unique {r q : Report σ Halt Unit}
    (hr : Stmt.Ends robot ss s r) (hq : Stmt.Ends robot ss s q) :
    r = q := by
  obtain ⟨n, hn⟩ := hr.eventually
  obtain ⟨m, hm⟩ := hq.eventually
  rw [← hn (max n m) (Nat.le_max_left n m), hm _ (Nat.le_max_right n m)]

/-- A choice ends as the block that is chosen, behind the test. -/
theorem Stmt.Ends.of_ifElse {c : Cond} {b o : List Stmt} {go : Bool}
    {r : Report σ Halt Unit} (hc : (c.eval robot s).result = .ok go)
    (h : Stmt.Ends robot [.ifElse c b o] s r) :
    ∃ q, Stmt.Ends robot (if go then b else o) (c.eval robot s).state q
      ∧ r = q.behind (c.eval robot s).trace := by
  obtain ⟨hne, limit, rfl⟩ := h
  have hchoice : Stmt.execAll robot limit [.ifElse c b o] s
      = (Stmt.execAll robot limit (if go then b else o)
        (c.eval robot s).state).behind (c.eval robot s).trace := by
    rw [Stmt.execAll_singleton, Stmt.exec]
    cases hres : c.eval robot s with
    | mk trace t result =>
        rw [hres] at hc
        obtain rfl : result = .ok go := hc
        rw [bind_eq_behind (mapError_of_ok hres _)]
        cases go <;> rfl
  rw [hchoice] at hne
  exact ⟨Stmt.execAll robot limit _ _, ⟨hne, limit, rfl⟩, hchoice⟩

/-- A choice without another block has an empty one. -/
theorem Stmt.execAll_ifThen (limit : Nat) (c : Cond) (b : List Stmt) :
    Stmt.execAll robot limit [.ifThen c b]
      = Stmt.execAll robot limit [.ifElse c b []] := by
  simp only [Stmt.execAll, Stmt.exec]

theorem Stmt.Ends.of_ifThen {c : Cond} {b : List Stmt}
    {r : Report σ Halt Unit} (hc : (c.eval robot s).result = .ok true)
    (h : Stmt.Ends robot [.ifThen c b] s r) :
    ∃ q, Stmt.Ends robot b (c.eval robot s).state q
      ∧ r = q.behind (c.eval robot s).trace := by
  obtain ⟨hne, limit, hrun⟩ := h
  rw [execAll_ifThen] at hrun
  exact Stmt.Ends.of_ifElse hc ⟨hne, limit, hrun⟩

/-- What a run leaves when the program is over: whether it came to its end.
That the robot interrupted it is noted. -/
def Report.concluded (r : Report σ Halt Unit) : Report σ Halt Bool :=
  match r.result with
  | .ok () => ⟨r.trace, r.state, .ok true⟩
  | .error (.fault (.stopped (.interrupted m))) =>
    ⟨r.trace ++ [.note (.stopped m)], r.state, .ok false⟩
  | .error h => ⟨r.trace, r.state, .error h⟩

theorem Program.run_eq_concluded (p : Program) (limit : Nat) :
    p.run robot limit s
      = (Stmt.execAll robot limit p.statements s).concluded := rfl

theorem Report.concluded_ne_unfinished_iff {r : Report σ Halt Unit} :
    r.concluded.result ≠ .error .unfinished
      ↔ r.result ≠ .error .unfinished := by
  obtain ⟨trace, state, result⟩ := r
  unfold Report.concluded
  split <;> simp_all

/-- Running a program ends, with a report. -/
def Program.Ends (robot : Robot σ) (p : Program) (s : σ)
    (r : Report σ Halt Bool) : Prop :=
  r.result ≠ .error .unfinished ∧ ∃ limit, p.run robot limit s = r

/-- A program ends as its statements do. -/
theorem Program.ends_iff {p : Program} {r : Report σ Halt Bool} :
    p.Ends robot s r
      ↔ ∃ q, Stmt.Ends robot p.statements s q ∧ q.concluded = r := by
  constructor
  · intro h
    obtain ⟨hr, limit, rfl⟩ := h
    exact ⟨Stmt.execAll robot limit p.statements s,
      ⟨Report.concluded_ne_unfinished_iff.1 hr, limit, rfl⟩, rfl⟩
  · intro h
    obtain ⟨q, ⟨hq, limit, rfl⟩, rfl⟩ := h
    exact ⟨Report.concluded_ne_unfinished_iff.2 hq, limit, rfl⟩

end RobotLang
