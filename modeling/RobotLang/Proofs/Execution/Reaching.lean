/-
What a run comes to.

In the course of a run statements are executed, some of them many times.
That a run comes to the execution of a statement is defined along the run
(`Stmt.Reaches`), together with what has happened until then: the
statements in front are done, or a loop has gone through some rounds and is
in another one, or a block was chosen. What happens in that execution stands
in the trace of the run in one piece behind it, and if the execution fails,
it is the last of the run (`Stmt.Reaches.involves`).
-/
import RobotLang.Proofs.Execution.InTurn
import RobotLang.Proofs.Execution.Rounds

namespace RobotLang

open Activity

variable {σ : Type} {robot : Robot σ}

-- ============================================================= inclusion

/-- Behind something the first report has the second one in it, and is over
with it if that is of a failure. -/
def Report.Includes (r : Report σ Halt Unit) (before : Trace)
    (q : Report σ Halt Unit) : Prop :=
  (∃ after, r.trace = before ++ (q.trace ++ after))
    ∧ ∀ e, q.result = .error e → r = q.behind before

namespace Report.Includes

variable {r q p : Report σ Halt Unit} {t u : Trace}

theorem behind (t : Trace) (q : Report σ Halt Unit) :
    (q.behind t).Includes t q :=
  ⟨⟨[], by rw [List.append_nil]; rfl⟩, fun _ _ => rfl⟩

theorem trans (hq : r.Includes t q) (hp : q.Includes u p) :
    r.Includes (t ++ u) p := by
  obtain ⟨⟨after, hr⟩, hfailed⟩ := hq
  obtain ⟨⟨after', hq⟩, hfailed'⟩ := hp
  refine ⟨⟨after' ++ after, ?_⟩, fun e he => ?_⟩
  · rw [hr, hq]
    simp only [List.append_assoc]
  · have hsame := hfailed' e he
    have hq : q.result = .error e := by
      rw [hsame]
      exact he
    rw [hfailed e hq, hsame, Report.behind_behind]

end Report.Includes

/-- Whenever the first statements end, the second ones are executed in their
course, from a state and behind what has happened until then. -/
def Stmt.Involves (robot : Robot σ) (ss : List Stmt) (s : σ)
    (before : Trace) (ts : List Stmt) (t : σ) : Prop :=
  ∀ r, Stmt.Ends robot ss s r →
    ∃ q, Stmt.Ends robot ts t q ∧ r.Includes before q

namespace Stmt.Involves

variable {ss ts us : List Stmt} {s t u : σ} {before more : Trace}

theorem trans (h : Involves robot ss s before ts t)
    (hmore : Involves robot ts t more us u) :
    Involves robot ss s (before ++ more) us u := by
  intro r hr
  obtain ⟨q, hq, hincludes⟩ := h r hr
  obtain ⟨p, hp, hincludes'⟩ := hmore q hq
  exact ⟨p, hp, hincludes.trans hincludes'⟩

/-- Of statements in a list the first ones are executed first. -/
theorem first (ss ts : List Stmt) (s : σ) :
    Involves robot (ss ++ ts) s [] ss s := by
  intro r hr
  cases Stmt.ends_append_iff.1 hr with
  | cut hr _ => exact ⟨r, hr, .behind [] r⟩
  | @both q q' hq hdone _ =>
      refine ⟨q, hq, ⟨q'.trace, rfl⟩, fun e he => ?_⟩
      rw [hdone] at he
      cases he

end Stmt.Involves

/-- Behind statements that came to their end the others are executed. -/
theorem Stmt.Ends.of_append_of_ok {ss ts : List Stmt} {s t : σ}
    {trace : Trace} {r : Report σ Halt Unit}
    (h : Stmt.Ends robot (ss ++ ts) s r)
    (hss : Stmt.Ends robot ss s ⟨trace, t, .ok ()⟩) :
    ∃ q, Stmt.Ends robot ts t q ∧ r = q.behind trace := by
  cases Stmt.ends_append_iff.1 h with
  | cut hr hnot =>
      rw [hr.unique hss] at hnot
      exact absurd rfl hnot
  | @both q q' hq _ hmore =>
      have hsame := hq.unique hss
      subst hsame
      exact ⟨q', hmore, rfl⟩

-- ========================================================= endless loops

/-- Rounds of an endless loop, all of which came to their end. -/
inductive Stmt.Repeats (robot : Robot σ) (b : Block) (s : σ) :
    Trace → σ → Prop
  | none : Repeats robot b s [] s
  | again {t u : σ} {past body : Trace} (h : Repeats robot b s past t)
      (hbody : Stmt.Ends robot b t ⟨body, u, .ok ()⟩) :
      Repeats robot b s (past ++ body) u

/-- An endless loop ends as its block and then the loop. -/
theorem Stmt.Ends.of_loop_append {b : Block} {s : σ}
    {r : Report σ Halt Unit} (h : Stmt.Ends robot [.loop b] s r) :
    Stmt.Ends robot (b ++ [.loop b]) s r := by
  obtain ⟨hne, limit, rfl⟩ := h
  cases limit with
  | zero => exact absurd rfl hne
  | succ n =>
      refine ⟨hne, n + 1, ?_⟩
      have happrox : Approximates
          (Stmt.execAll robot (n + 1) [.loop b])
          (Stmt.execAll robot (n + 1) (b ++ [.loop b])) := by
        rw [execAll_append, execAll_singleton, Stmt.exec, forever]
        exact .bind (.refl _) fun _ => .forever (.refl _) (Nat.le_succ n)
      exact ((happrox s).resolve_left hne).symm

/-- Behind its first rounds an endless loop ends as it does from there. -/
theorem Stmt.Repeats.ends {b : Block} {s t : σ} {past : Trace}
    (hpast : Repeats robot b s past t) {r : Report σ Halt Unit}
    (h : Stmt.Ends robot [.loop b] s r) :
    ∃ q, Stmt.Ends robot [.loop b] t q ∧ r = q.behind past := by
  induction hpast with
  | none => exact ⟨r, h, rfl⟩
  | again _ hbody ih =>
      obtain ⟨q, hq, rfl⟩ := ih
      obtain ⟨q', hq', rfl⟩ := hq.of_loop_append.of_append_of_ok hbody
      exact ⟨q', hq', Report.behind_behind ..⟩

-- ====================================================== loops with a test

/-- In a round that begins a loop ends as its block, or has it in it. -/
theorem Stmt.LoopEnds.body {c : Cond} {b : Block} {done : Nat} {s t : σ}
    {test : Trace} {r : Report σ Halt Unit}
    (h : LoopEnds robot c b done s r)
    (htest : c.eval robot s = ⟨test, t, .ok true⟩) :
    ∃ q, Stmt.Ends robot b t q
      ∧ r.Includes (Trace.announced c (done + 1) test []) q := by
  cases h with
  | last hlast =>
      cases hlast with
      | stops htest' | testFails htest' =>
          rw [htest] at htest'
          cases htest'
      | @blockFails _ body _ u e htest' hbody =>
          rw [htest] at htest'
          cases htest'
          refine ⟨⟨body, u, .error e⟩, hbody, ?_⟩
          rw [← Trace.announced_append]
          exact .behind _ ⟨body, u, .error e⟩
  | @again _ _ _ u _ body q htest' hbody _ =>
      rw [htest] at htest'
      cases htest'
      refine ⟨⟨body, u, .ok ()⟩, hbody, ⟨q.trace, ?_⟩, fun e he => ?_⟩
      · rw [← List.append_assoc, Trace.announced_append]
        rfl
      · cases he

-- ================================================================ blocks

namespace Stmt.Involves

variable {c : Cond} {b o : Block} {s t u : σ} {test : Trace}

theorem loop {past : Trace} (hpast : Stmt.Repeats robot b s past t) :
    Involves robot [.loop b] s past b t := by
  have hblock : Involves robot [.loop b] t [] b t :=
    fun r hr => first b [.loop b] t r hr.of_loop_append
  intro r hr
  obtain ⟨q, hq, rfl⟩ := hpast.ends hr
  obtain ⟨p, hp, hincludes⟩ := hblock q hq
  have hboth := (Report.Includes.behind past q).trans hincludes
  rw [List.append_nil] at hboth
  exact ⟨p, hp, hboth⟩

theorem whileDo {whole : List (Trace × Trace)}
    (hwhole : Stmt.Rounds robot c b s whole t)
    (htest : c.eval robot t = ⟨test, u, .ok true⟩) :
    Involves robot [.whileDo c b] s (Trace.ofRounds c whole
      ++ Trace.announced c (whole.length + 1) test []) b u := by
  intro r hr
  obtain ⟨q, hq, rfl⟩ := hwhole.loopEnds hr.loopEnds
  obtain ⟨p, hp, hincludes⟩ := hq.body htest
  exact ⟨p, hp, (Report.Includes.behind _ q).trans hincludes⟩

theorem ifThen (htest : c.eval robot s = ⟨test, t, .ok true⟩) :
    Involves robot [.ifThen c b] s test b t := by
  intro r hr
  obtain ⟨q, hq, rfl⟩ := hr.of_ifThen (by rw [htest])
  rw [htest] at hq ⊢
  exact ⟨q, hq, .behind test q⟩

theorem ifElse {go : Bool} (htest : c.eval robot s = ⟨test, t, .ok go⟩) :
    Involves robot [.ifElse c b o] s test (if go then b else o) t := by
  intro r hr
  obtain ⟨q, hq, rfl⟩ := hr.of_ifElse (by rw [htest])
  rw [htest] at hq ⊢
  exact ⟨q, hq, .behind test q⟩

end Stmt.Involves

-- =============================================================== reaching

/-- Executing some statements comes to the execution of one, here or in
their course, from a state and behind what has happened until then. -/
inductive Stmt.Reaches (robot : Robot σ) (x : Stmt) (u : σ) :
    List Stmt → σ → Trace → Prop
  | here (rest : List Stmt) : Reaches robot x u (x :: rest) u []
  | later {y : Stmt} {rest : List Stmt} {s t : σ} {trace before : Trace}
      (hy : Stmt.Ends robot [y] s ⟨trace, t, .ok ()⟩)
      (h : Reaches robot x u rest t before) :
      Reaches robot x u (y :: rest) s (trace ++ before)
  | inLoop {b : Block} {s t : σ} {past before : Trace}
      (hpast : Stmt.Repeats robot b s past t)
      (h : Reaches robot x u b t before) (rest : List Stmt) :
      Reaches robot x u (.loop b :: rest) s (past ++ before)
  | inWhile {c : Cond} {b : Block} {s t v : σ}
      {whole : List (Trace × Trace)} {test before : Trace}
      (hwhole : Stmt.Rounds robot c b s whole t)
      (htest : c.eval robot t = ⟨test, v, .ok true⟩)
      (h : Reaches robot x u b v before) (rest : List Stmt) :
      Reaches robot x u (.whileDo c b :: rest) s
        (Trace.ofRounds c whole
          ++ Trace.announced c (whole.length + 1) test [] ++ before)
  | inThen {c : Cond} {b : Block} {s t : σ} {test before : Trace}
      (htest : c.eval robot s = ⟨test, t, .ok true⟩)
      (h : Reaches robot x u b t before) (rest : List Stmt) :
      Reaches robot x u (.ifThen c b :: rest) s (test ++ before)
  | inChoice {c : Cond} {b o : Block} {go : Bool} {s t : σ}
      {test before : Trace} (htest : c.eval robot s = ⟨test, t, .ok go⟩)
      (h : Reaches robot x u (if go then b else o) t before)
      (rest : List Stmt) :
      Reaches robot x u (.ifElse c b o :: rest) s (test ++ before)

/-- What is come to in a statement is come to in a list that begins with
it. -/
theorem Stmt.Reaches.of_singleton {x y : Stmt} {rest : List Stmt} {u s : σ}
    {past : Trace} (h : Reaches robot x u [y] s past) :
    Reaches robot x u (y :: rest) s past := by
  cases h with
  | here => exact .here rest
  | later hy h => cases h
  | inLoop hpast h => exact .inLoop hpast h rest
  | inWhile hwhole htest h => exact .inWhile hwhole htest h rest
  | inThen htest h => exact .inThen htest h rest
  | inChoice htest h => exact .inChoice htest h rest

/-- What a run comes to is executed in it, in one piece. -/
theorem Stmt.Reaches.involves {x : Stmt} {u s : σ} {ss : List Stmt}
    {before : Trace} (h : Reaches robot x u ss s before) :
    Involves robot ss s before [x] u := by
  induction h with
  | here rest => exact .first [x] rest u
  | @later y rest s t trace before hy h ih =>
      intro r hr
      have hlist : Stmt.Ends robot ([y] ++ rest) s r := hr
      obtain ⟨q, hq, rfl⟩ := hlist.of_append_of_ok hy
      obtain ⟨p, hp, hincludes⟩ := ih q hq
      exact ⟨p, hp, (Report.Includes.behind trace q).trans hincludes⟩
  | inLoop hpast h rest ih =>
      exact ((Involves.first [_] rest _).trans (.loop hpast)).trans ih
  | inWhile hwhole htest h rest ih =>
      exact ((Involves.first [_] rest _).trans
        (.whileDo hwhole htest)).trans ih
  | inThen htest h rest ih =>
      exact ((Involves.first [_] rest _).trans (.ifThen htest)).trans ih
  | inChoice htest h rest ih =>
      exact ((Involves.first [_] rest _).trans (.ifElse htest)).trans ih

end RobotLang
