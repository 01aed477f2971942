/-
Loops and their unrolled forms.

A loop under a condition does what a choice does whose block ends with the
loop again; an endless loop does what its statements and then itself do, or
a loop under a condition that always holds. This is so wherever the loop
stands in a program: the program that has the other form in its place ends
on the same robots, after the same calls and readings, in the same state
and with the same result (`Program.unrolling_keeps_behaviour`). Only the
rounds that are noted are not the same, since a round that is written out
is not noted, so the comparison is of quiet activities, which note no
rounds.

Runs are given a number of rounds, and the two forms do not spend it alike:
an unrolled loop has one round more. So the relation that all the ways to
put statements together keep is that one activity, with one round more,
does quietly what the other does, wherever that is not left unfinished. It
holds in both directions for each form of a loop by itself, and then, by
induction on where the loop stands, for the whole program.
-/
import RobotLang.Proofs.Execution.Ends
import RobotLang.Robot.Metered

namespace RobotLang

variable {σ ε δ α β : Type}

-- ====================================================== quiet activities

/-- What happened, but for the rounds that were noted. -/
def Trace.withoutRounds (t : Trace) : Trace :=
  t.filter fun
    | .note (.round _ _) => false
    | _ => true

@[simp] theorem Trace.withoutRounds_append (t u : Trace) :
    (t ++ u).withoutRounds = t.withoutRounds ++ u.withoutRounds :=
  List.filter_append ..

/-- The calls are all there without the rounds. -/
theorem Trace.calls_withoutRounds (t : Trace) :
    t.withoutRounds.calls = t.calls := by
  induction t with
  | nil => rfl
  | cons e t ih =>
      rw [← List.singleton_append, withoutRounds_append, calls_append,
        calls_append, ih]
      cases e with
      | call c => rfl
      | note n => cases n <;> rfl

/-- A report without the rounds that were noted. -/
def Report.quiet (r : Report σ ε α) : Report σ ε α :=
  ⟨r.trace.withoutRounds, r.state, r.result⟩

/-- Reports that are the same but for the rounds that were noted. The calls
are among what is the same. -/
structure Report.Alike (r q : Report σ ε α) : Prop where
  entries : r.trace.withoutRounds = q.trace.withoutRounds
  calls : r.trace.calls = q.trace.calls
  state : r.state = q.state
  result : r.result = q.result

theorem Report.alike_of_quiet {r q : Report σ ε α}
    (h : r.quiet = q.quiet) : r.Alike q := by
  obtain ⟨htrace, hstate, hresult⟩ := Report.mk.inj h
  refine ⟨htrace, ?_, hstate, hresult⟩
  rw [← Trace.calls_withoutRounds, htrace, Trace.calls_withoutRounds]

/-- How a program is over has no rounds to it. -/
theorem Report.quiet_concluded (r : Report σ Halt Unit) :
    r.concluded.quiet = r.quiet.concluded := by
  obtain ⟨trace, state, result⟩ := r
  unfold concluded
  dsimp only [quiet]
  split
  · rfl
  · rw [Trace.withoutRounds_append]
    rfl
  · rfl

namespace Activity

/-- The same activity, noting no rounds. -/
def quiet (x : Activity σ ε α) : Activity σ ε α := fun s => (x s).quiet

@[simp] theorem quiet_round (c : Cond) (n : Nat) :
    (note (.round c n) : Activity σ ε Unit).quiet = pure () := rfl

@[simp] theorem quiet_bind (x : Activity σ ε α)
    (f : α → Activity σ ε β) :
    (x >>= f).quiet = x.quiet >>= fun a => (f a).quiet := by
  funext s
  cases hx : x s with
  | mk trace u result =>
      have hquiet : x.quiet s = ⟨trace.withoutRounds, u, result⟩ :=
        congrArg Report.quiet hx
      cases result with
      | ok a =>
          rw [bind_of_ok hquiet, quiet, bind_of_ok hx]
          exact congrArg (Report.mk · _ _) (Trace.withoutRounds_append ..)
      | error e => rw [bind_of_error hquiet, quiet, bind_of_error hx]; rfl

theorem quiet_ite {c : Prop} [Decidable c] (x y : Activity σ ε α) :
    (if c then x else y).quiet = if c then x.quiet else y.quiet :=
  apply_ite quiet c x y

@[simp] theorem quiet_forever (x : Activity σ Halt Unit) (n : Nat) :
    (x.forever n).quiet = x.quiet.forever n := by
  induction n with
  | zero => rfl
  | succ n ih => rw [forever, quiet_bind, ih, forever]

/-- Does an activity as long as a condition holds and for fewer than so
many rounds, without a note. -/
def during (test : Activity σ Halt Bool) (x : Activity σ Halt Unit) :
    Nat → Activity σ Halt Unit
  | 0 => .fail .unfinished
  | n + 1 => do
    if ← test then
      x
      during test x n
    else return ()

@[simp] theorem quiet_rounds (c : Cond) (test : Activity σ Halt Bool)
    (x : Activity σ Halt Unit) (done n : Nat) :
    (rounds c test x done n).quiet = during test.quiet x.quiet n := by
  induction n generalizing done with
  | zero => rfl
  | succ n ih =>
      rw [rounds, quiet_bind, during]
      refine congrArg (test.quiet >>= ·) (funext fun go => ?_)
      cases go with
      | false => rfl
      | true => simp [ih]

/-- A test that always succeeds makes an endless loop. -/
theorem during_true (x : Activity σ Halt Unit) (n : Nat) :
    during (pure true) x n = x.forever n := by
  induction n with
  | zero => rfl
  | succ n ih => rw [during, pure_bind, if_pos rfl, ih, forever]

namespace Approximates

theorem quiet {x y : Activity σ Halt α} (h : Approximates x y) :
    Approximates x.quiet y.quiet :=
  fun s => (h s).imp id (congrArg Report.quiet)

/-- More rounds begin with the same ones. -/
theorem during {test : Activity σ Halt Bool} {x y : Activity σ Halt Unit}
    {n m : Nat} (h : Approximates x y) (hn : n ≤ m) :
    Approximates (during test x n) (during test y m) := by
  induction n generalizing m with
  | zero => exact .unfinished _
  | succ n ih =>
      obtain ⟨m, rfl⟩ := Nat.exists_eq_add_one.2 (by omega : 0 < m)
      refine .bind (.refl test) fun _ => .ite ?_ (.refl _)
      exact .bind h fun _ => ih (Nat.le_of_succ_le_succ hn)

end Approximates

end Activity

open Activity

-- ===================================================== quiet statements

section

variable (robot : Robot σ) (n : Nat) (c : Cond) (s : Stmt)
  (b o ss ts : List Stmt)

/-- A condition as a statement tests it, quietly. -/
def Cond.test : Activity σ Halt Bool :=
  ((c.eval robot).mapError .fault).quiet

/-- What some statements do quietly. -/
def Stmt.quietly : Activity σ Halt Unit :=
  (Stmt.execAll robot n ss).quiet

theorem Stmt.quietly_append :
    Stmt.quietly robot n (ss ++ ts)
      = Stmt.quietly robot n ss >>= fun _ => Stmt.quietly robot n ts := by
  rw [quietly, execAll_append, quiet_bind]
  rfl

theorem Stmt.quietly_singleton :
    Stmt.quietly robot n [s] = (s.exec robot n).quiet := by
  rw [quietly, execAll_singleton]

theorem Stmt.quietly_loop :
    Stmt.quietly robot n [.loop b]
      = (Stmt.quietly robot n b).forever n := by
  rw [quietly_singleton, Stmt.exec, quiet_forever]
  rfl

theorem Stmt.quietly_whileDo :
    Stmt.quietly robot n [.whileDo c b]
      = during (c.test robot) (Stmt.quietly robot n b) n := by
  rw [quietly_singleton, Stmt.exec, quiet_rounds]
  rfl

theorem Stmt.quietly_ifThen :
    Stmt.quietly robot n [.ifThen c b]
      = c.test robot >>= fun go =>
        if go then Stmt.quietly robot n b else pure () := by
  rw [quietly_singleton, Stmt.exec, quiet_bind]
  refine congrArg (c.test robot >>= ·) (funext fun go => ?_)
  exact quiet_ite ..

theorem Stmt.quietly_ifElse :
    Stmt.quietly robot n [.ifElse c b o]
      = c.test robot >>= fun go =>
        if go then Stmt.quietly robot n b else Stmt.quietly robot n o := by
  rw [quietly_singleton, Stmt.exec, quiet_bind]
  refine congrArg (c.test robot >>= ·) (funext fun go => ?_)
  exact quiet_ite ..

end

-- ======================================================== one round more

/-- With one round more the second statements do quietly what the first
ones do. -/
def Stmt.Within (robot : Robot σ) (ss ts : List Stmt) : Prop :=
  ∀ n, Approximates (Stmt.quietly robot n ss)
    (Stmt.quietly robot (n + 1) ts)

namespace Stmt.Within

variable {robot : Robot σ} {c : Cond} {b b' o o' ss ts : List Stmt}

theorem refl (ss : List Stmt) : Within robot ss ss :=
  fun n => (Stmt.approximates_execAll (Nat.le_succ n) ss).quiet

theorem append (hb : Within robot b b') (h : Within robot ss ts) :
    Within robot (b ++ ss) (b' ++ ts) := by
  intro n
  rw [quietly_append, quietly_append]
  exact .bind (hb n) fun _ => h n

theorem loop (h : Within robot b b') :
    Within robot [.loop b] [.loop b'] := by
  intro n
  rw [quietly_loop, quietly_loop]
  exact .forever (h n) (Nat.le_succ n)

theorem whileDo (h : Within robot b b') :
    Within robot [.whileDo c b] [.whileDo c b'] := by
  intro n
  rw [quietly_whileDo, quietly_whileDo]
  exact .during (h n) (Nat.le_succ n)

theorem ifThen (h : Within robot b b') :
    Within robot [.ifThen c b] [.ifThen c b'] := by
  intro n
  rw [quietly_ifThen, quietly_ifThen]
  exact .bind (.refl _) fun _ => .ite (h n) (.refl _)

theorem ifElse (h : Within robot b b') (ho : Within robot o o') :
    Within robot [.ifElse c b o] [.ifElse c b' o'] := by
  intro n
  rw [quietly_ifElse, quietly_ifElse]
  exact .bind (.refl _) fun _ => .ite (h n) (ho n)

-- ------------------------------------------------------- the three forms

/-- A loop under a condition is a choice that ends with the loop. -/
theorem whileDo_ifThen :
    Within robot [.whileDo c b] [.ifThen c (b ++ [.whileDo c b])] := by
  intro n
  rw [quietly_whileDo, quietly_ifThen, quietly_append, quietly_whileDo]
  cases n with
  | zero => exact .unfinished _
  | succ n =>
      refine .bind (.refl _) fun _ => .ite ?_ (.refl _)
      exact .bind (refl b (n + 1)) fun _ =>
        .during (refl b (n + 1)) (by omega)

theorem ifThen_whileDo :
    Within robot [.ifThen c (b ++ [.whileDo c b])] [.whileDo c b] := by
  intro n
  rw [quietly_whileDo, quietly_ifThen, quietly_append, quietly_whileDo]
  refine .bind (.refl _) fun _ => .ite ?_ (.refl _)
  exact .bind (refl b n) fun _ => .during (refl b n) (Nat.le_refl n)

/-- An endless loop is its statements and then the loop. -/
theorem loop_append : Within robot [.loop b] (b ++ [.loop b]) := by
  intro n
  rw [quietly_append, quietly_loop, quietly_loop]
  cases n with
  | zero => exact .unfinished _
  | succ n =>
      exact .bind (refl b (n + 1)) fun _ =>
        .forever (refl b (n + 1)) (by omega)

theorem append_loop : Within robot (b ++ [.loop b]) [.loop b] := by
  intro n
  rw [quietly_append, quietly_loop, quietly_loop]
  exact .bind (refl b n) fun _ => .forever (refl b n) (Nat.le_refl n)

end Stmt.Within

/-- The condition `eq(0, 0)`. -/
def Cond.always : Cond := .compare .eq (.number 0) (.number 0)

theorem Cond.test_always (robot : Robot σ) :
    Cond.always.test robot = pure true := rfl

/-- An endless loop is a loop under a condition that always holds. -/
theorem Stmt.quietly_always (robot : Robot σ) (n : Nat) (b : List Stmt) :
    Stmt.quietly robot n [.whileDo .always b]
      = Stmt.quietly robot n [.loop b] := by
  rw [quietly_whileDo, Cond.test_always, during_true, quietly_loop]

-- ============================================================= unrolling

/-- A loop somewhere among some statements is replaced by another form
of it. -/
inductive Stmt.Unrolls : List Stmt → List Stmt → Prop
  | whileDo (c : Cond) (b rest : List Stmt) :
      Unrolls (.whileDo c b :: rest)
        (.ifThen c (b ++ [.whileDo c b]) :: rest)
  | loop (b rest : List Stmt) :
      Unrolls (.loop b :: rest) (b ++ .loop b :: rest)
  | always (b rest : List Stmt) :
      Unrolls (.loop b :: rest) (.whileDo .always b :: rest)
  | later (s : Stmt) {ss ts : List Stmt} (h : Unrolls ss ts) :
      Unrolls (s :: ss) (s :: ts)
  | inLoop {b b' : List Stmt} (h : Unrolls b b') (rest : List Stmt) :
      Unrolls (.loop b :: rest) (.loop b' :: rest)
  | inWhile (c : Cond) {b b' : List Stmt} (h : Unrolls b b')
      (rest : List Stmt) :
      Unrolls (.whileDo c b :: rest) (.whileDo c b' :: rest)
  | inThen (c : Cond) {b b' : List Stmt} (h : Unrolls b b')
      (rest : List Stmt) :
      Unrolls (.ifThen c b :: rest) (.ifThen c b' :: rest)
  | inFirst (c : Cond) {b b' : List Stmt} (h : Unrolls b b')
      (o rest : List Stmt) :
      Unrolls (.ifElse c b o :: rest) (.ifElse c b' o :: rest)
  | inOther (c : Cond) (b : List Stmt) {o o' : List Stmt}
      (h : Unrolls o o') (rest : List Stmt) :
      Unrolls (.ifElse c b o :: rest) (.ifElse c b o' :: rest)

open Stmt.Within in
/-- Either way round, statements with a loop in another form do quietly
what they do, with one round more. -/
theorem Stmt.Unrolls.within {ss ts : List Stmt} (h : Stmt.Unrolls ss ts)
    (robot : Robot σ) :
    Stmt.Within robot ss ts ∧ Stmt.Within robot ts ss := by
  -- the statements behind the loop are the same
  have behind {s : Stmt} {ts : List Stmt} (rest : List Stmt)
      (h : Within robot [s] ts ∧ Within robot ts [s]) :
      Within robot (s :: rest) (ts ++ rest)
        ∧ Within robot (ts ++ rest) (s :: rest) :=
    ⟨h.1.append (refl rest), h.2.append (refl rest)⟩
  induction h with
  | whileDo c b rest => exact behind rest ⟨whileDo_ifThen, ifThen_whileDo⟩
  | loop b rest =>
      rw [List.append_cons]
      exact behind rest ⟨loop_append, append_loop⟩
  | always b rest =>
      have hforms : Within robot [.loop b] [.whileDo .always b]
          ∧ Within robot [.whileDo .always b] [.loop b] := by
        refine ⟨fun n => ?_, fun n => ?_⟩
        · rw [quietly_always]
          exact refl _ n
        · rw [quietly_always]
          exact refl _ n
      exact behind rest hforms
  | later s h ih =>
      exact ⟨(refl [s]).append ih.1, (refl [s]).append ih.2⟩
  | inLoop h rest ih => exact behind rest ⟨ih.1.loop, ih.2.loop⟩
  | inWhile c h rest ih => exact behind rest ⟨ih.1.whileDo, ih.2.whileDo⟩
  | inThen c h rest ih => exact behind rest ⟨ih.1.ifThen, ih.2.ifThen⟩
  | inFirst c h o rest ih =>
      exact behind rest ⟨ih.1.ifElse (refl o), ih.2.ifElse (refl o)⟩
  | inOther c b h rest ih =>
      exact behind rest ⟨(refl b).ifElse ih.1, (refl b).ifElse ih.2⟩

-- ============================================================ ended runs

section

variable {robot : Robot σ} {s : σ} {ss ts : List Stmt}

/-- If a run ends, one with a loop in another form ends alike. -/
theorem Stmt.Within.ends (h : Stmt.Within robot ss ts)
    {r : Report σ Halt Unit} (hr : Stmt.Ends robot ss s r) :
    ∃ q, Stmt.Ends robot ts s q ∧ r.quiet = q.quiet := by
  obtain ⟨hne, n, rfl⟩ := hr
  rcases h n s with hun | hsame
  · exact absurd hun hne
  · have hquiet : (Stmt.execAll robot n ss s).quiet
        = (Stmt.execAll robot (n + 1) ts s).quiet := hsame
    refine ⟨_, ⟨fun hun => hne ?_, n + 1, rfl⟩, hquiet⟩
    exact (congrArg Report.result hquiet).trans hun

end

/-- A loop may be unrolled anywhere in a program. On every robot both
programs end or neither does, statement by statement and as a whole, and if
they end, they do so alike: after the same calls and readings, in the same
state and with the same result. -/
theorem Program.unrolling_keeps_behaviour {p q : Program}
    (h : Stmt.Unrolls p.statements q.statements) (robot : Robot σ)
    (s : σ) :
    ((∃ r, Stmt.Ends robot p.statements s r)
        ↔ ∃ r, Stmt.Ends robot q.statements s r)
    ∧ (∀ r r', Stmt.Ends robot p.statements s r →
        Stmt.Ends robot q.statements s r' → r.Alike r')
    ∧ ((∃ r, p.Ends robot s r) ↔ ∃ r, q.Ends robot s r)
    ∧ ∀ r r', p.Ends robot s r → q.Ends robot s r' → r.Alike r' := by
  obtain ⟨hpq, hqp⟩ := h.within robot
  have hends : (∃ r, Stmt.Ends robot p.statements s r)
      ↔ ∃ r, Stmt.Ends robot q.statements s r := by
    constructor
    · intro ⟨r, hr⟩
      exact (hpq.ends hr).imp fun _ => And.left
    · intro ⟨r, hr⟩
      exact (hqp.ends hr).imp fun _ => And.left
  have hquiet {r r'} (hr : Stmt.Ends robot p.statements s r)
      (hr' : Stmt.Ends robot q.statements s r') : r.quiet = r'.quiet := by
    obtain ⟨r'', hr'', hsame⟩ := hpq.ends hr
    rw [hsame, hr''.unique hr']
  have hprogram (p : Program) : (∃ r, p.Ends robot s r)
      ↔ ∃ r, Stmt.Ends robot p.statements s r := by
    constructor
    · intro ⟨r, hr⟩
      exact (ends_iff.1 hr).imp fun _ => And.left
    · intro ⟨r, hr⟩
      exact ⟨_, ends_iff.2 ⟨r, hr, rfl⟩⟩
  refine ⟨hends, fun r r' hr hr' => Report.alike_of_quiet (hquiet hr hr'),
    ?_, fun r r' hr hr' => ?_⟩
  · rw [hprogram p, hprogram q, hends]
  · obtain ⟨e, he, rfl⟩ := ends_iff.1 hr
    obtain ⟨e', he', rfl⟩ := ends_iff.1 hr'
    refine Report.alike_of_quiet ?_
    rw [Report.quiet_concluded, Report.quiet_concluded, hquiet he he']

/-- Moves as long as there is fuel, for ever. -/
def Program.patrol : Program :=
  ⟨[.loop [.whileDo (.compare .gt (.sensor .fuelLeft) (.number 0))
    [.once .move]]]⟩

/-- The same with the inner loop unrolled. -/
def Program.patrolUnrolled : Program :=
  ⟨[.loop [.ifThen (.compare .gt (.sensor .fuelLeft) (.number 0))
    [.once .move,
      .whileDo (.compare .gt (.sensor .fuelLeft) (.number 0))
        [.once .move]]]]⟩

/-- A robot with fuel, without fuel, and with fuel again. -/
def Meter.refuelled : Meter :=
  ⟨[(.fuelLeft, .queue [1, 0, 1])], none, 9, false, 0, 0, false⟩

theorem Program.unrolling_keeps_behaviour_patrol :
    Stmt.Unrolls patrol.statements patrolUnrolled.statements
    ∧ ∃ r r', patrol.Ends Meter.robot .refuelled r
      ∧ patrolUnrolled.Ends Meter.robot .refuelled r'
      ∧ r.trace.calls = [.told .fuelLeft 1, .did .move, .told .fuelLeft 0,
        .told .fuelLeft 1, .did .move]
      ∧ r.Alike r' := by
  have hunrolls :
      Stmt.Unrolls patrol.statements patrolUnrolled.statements :=
    .inLoop (.whileDo _ [.once .move] []) []
  obtain ⟨-, -, -, halike⟩ :=
    unrolling_keeps_behaviour hunrolls Meter.robot .refuelled
  have hends (p : Program) (h : (p.run Meter.robot 2 .refuelled).result
      ≠ .error .unfinished) : p.Ends Meter.robot .refuelled
        (p.run Meter.robot 2 .refuelled) := ⟨h, 2, rfl⟩
  have hr := hends patrol fun h => nomatch h
  have hr' := hends patrolUnrolled fun h => nomatch h
  exact ⟨hunrolls, _, _, hr, hr', rfl, halike _ _ hr hr'⟩

end RobotLang
