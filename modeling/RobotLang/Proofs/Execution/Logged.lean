/-
The log of a run mirrors the run.

The records of readings are those of the reads that the robot answered, one
by one, since both are in step in the trace. The records of rounds are those
of the executions of loops that the run comes to, each of which is a piece
of the run and numbers its rounds from one, however often the loop is
executed in others. There are no other rounds in a log: wherever one is
announced, the run has come to a loop, and the number is that of the rounds
which this execution has gone through, and one more (`Stmt.accounts`). That
is by induction over the statements, and for the loops over the rounds,
with those kept at hand that the loop has behind it.
-/
import RobotLang.Proofs.Execution.CutShort
import RobotLang.Proofs.Execution.Reaching
import RobotLang.Proofs.Execution.Unrolling

namespace RobotLang

open Activity

variable {σ ε α β : Type} {robot : Robot σ}

-- ================================================================ places

/-- A place in two traces is in one of them. -/
theorem Trace.place_of_append {t u before after : Trace} {e : Entry}
    (h : t ++ u = before ++ e :: after) :
    (∃ rest, t = before ++ e :: rest)
      ∨ ∃ rest, before = t ++ rest ∧ u = rest ++ e :: after := by
  rcases List.append_eq_append_iff.1 h with ⟨rest, hb, hu⟩ | ⟨rest, ht, hu⟩
  · exact .inr ⟨rest, hb, hu⟩
  · cases rest with
    | nil => exact .inr ⟨[], by simp [ht], hu.symm⟩
    | cons d rest =>
        obtain ⟨rfl, -⟩ := List.cons.inj hu
        exact .inl ⟨rest, ht⟩

/-- A place in what two activities leave is in what one of them leaves. -/
theorem Activity.place_of_bind {x : Activity σ ε α}
    {f : α → Activity σ ε β} {s : σ} {before after : Trace} {e : Entry}
    (h : ((x >>= f) s).trace = before ++ e :: after) :
    (∃ rest, (x s).trace = before ++ e :: rest)
      ∨ ∃ trace t a rest, x s = ⟨trace, t, .ok a⟩
        ∧ before = trace ++ rest ∧ (f a t).trace = rest ++ e :: after := by
  rcases hres : x s with ⟨trace, t, d | a⟩
  · rw [bind_of_error hres] at h
    exact .inl ⟨after, h⟩
  · rw [bind_of_ok hres] at h
    refine (Trace.place_of_append h).imp id fun hmore => ?_
    obtain ⟨rest, hbefore, hrest⟩ := hmore
    exact ⟨trace, t, a, rest, rfl, hbefore, hrest⟩

/-- What takes no notes announces no round. -/
theorem Activity.InStep.not_announced {x : Activity σ ε α}
    (hx : InStep robot (fun _ => False) x) {s : σ} {before after : Trace}
    {c : Cond} {n : Nat} :
    (x s).trace ≠ before ++ .note (.round c n) :: after := by
  intro h
  obtain ⟨t, hleaves, -⟩ := hx s
  have hmem : Entry.note (.round c n) ∈ (x s).trace := by
    rw [h]
    exact List.mem_append_right before (List.mem_cons_self ..)
  rcases hleaves.noted_of_mem hmem with hreading | hnone
  · cases hreading
  · exact hnone

theorem Cond.not_announced {c d : Cond} {s t : σ} {test : Trace}
    {result : Except Fault Bool} (h : c.eval robot s = ⟨test, t, result⟩)
    {before after : Trace} {n : Nat} :
    test ≠ before ++ .note (.round d n) :: after := by
  intro hin
  have hplace : (c.eval robot s).trace
      = before ++ .note (.round d n) :: after := by
    rw [h]
    exact hin
  exact c.inStep_eval.not_announced hplace

/-- As some statements are executed, a round of a loop is announced with a
number: the run has come to the loop, and this has gone through the rounds
before, and its condition holds. -/
def Stmt.Announces (robot : Robot σ) (ss : List Stmt) (s : σ)
    (before : Trace) (c : Cond) (n : Nat) : Prop :=
  ∃ b u past whole t test v,
    Stmt.Reaches robot (.whileDo c b) u ss s past
      ∧ Stmt.Rounds robot c b u whole t
      ∧ c.eval robot t = ⟨test, v, .ok true⟩
      ∧ before = past ++ (Trace.ofRounds c whole ++ test)
      ∧ n = whole.length + 1

/-- What is come to in some statements is come to in those around them. -/
theorem Stmt.Announces.lift {ss ts : List Stmt} {s t : σ}
    {before more : Trace} {c : Cond} {n : Nat}
    (h : Announces robot ts t more c n)
    (hreach : ∀ x u past, Reaches robot x u ts t past →
      Reaches robot x u ss s (before ++ past)) :
    Announces robot ss s (before ++ more) c n := by
  obtain ⟨b, u, past, whole, v, test, w, hpast, hwhole, htest, rfl, hn⟩ := h
  exact ⟨b, u, before ++ past, whole, v, test, w, hreach _ _ _ hpast,
    hwhole, htest, (List.append_assoc ..).symm, hn⟩

/-- Every round that the statements announce is one of a loop that the run
has come to. -/
def Stmt.Accounts (robot : Robot σ) (limit : Nat) (ss : List Stmt) : Prop :=
  ∀ s before c n after,
    (Stmt.execAll robot limit ss s).trace
        = before ++ .note (.round c n) :: after →
      Stmt.Announces robot ss s before c n

namespace Stmt.Accounts

variable {limit : Nat} {b o rest : List Stmt} {y : Stmt} {c : Cond}

theorem nil : Accounts robot limit [] := by
  intro s before c n after h
  exact absurd h (by simp [Stmt.execAll, Pure.pure])

theorem cons (hy : Accounts robot limit [y])
    (hrest : Accounts robot limit rest) :
    Accounts robot limit (y :: rest) := by
  intro s before c n after h
  rw [Stmt.execAll] at h
  rcases place_of_bind h with
    ⟨_, hfirst⟩ | ⟨trace, t, _, more, hfirst, rfl, hmore⟩
  · rw [← Stmt.execAll_singleton] at hfirst
    have hlist : Announces robot (y :: rest) s ([] ++ before) c n :=
      (hy s before c n _ hfirst).lift fun x u past hx => hx.of_singleton
    exact hlist
  · rw [← Stmt.execAll_singleton] at hfirst
    have hdone : Stmt.Ends robot [y] s ⟨trace, t, .ok ()⟩ :=
      ⟨by simp, limit, hfirst⟩
    exact (hrest t more c n after hmore).lift
      fun x u past hx => .later hdone hx

theorem of_inStep (hy : InStep robot (fun _ => False) (y.exec robot limit)) :
    Accounts robot limit [y] := by
  intro s before c n after h
  rw [Stmt.execAll_singleton] at h
  exact absurd h hy.not_announced

/-- In the rounds of an endless loop, with those behind it kept at hand. -/
theorem forever (hb : Accounts robot limit b) (n : Nat) {s t : σ}
    {past : Trace} (hpast : Repeats robot b s past t) {before : Trace}
    {c : Cond} {k : Nat} {after : Trace}
    (h : ((Stmt.execAll robot limit b).forever n t).trace
      = before ++ .note (.round c k) :: after) :
    Announces robot [.loop b] s (past ++ before) c k := by
  induction n generalizing t past before with
  | zero => exact absurd h (by simp [Activity.forever, Activity.fail])
  | succ n ih =>
      rw [Activity.forever] at h
      rcases place_of_bind h with
        ⟨_, hbody⟩ | ⟨body, u, _, more, hbody, rfl, hmore⟩
      · exact (hb t before c k _ hbody).lift
          fun x v _ hx => .inLoop hpast hx []
      · have hround := hpast.again ⟨by simp, limit, hbody⟩
        have hlater := ih hround hmore
        rwa [List.append_assoc] at hlater

/-- In the rounds of a loop under a condition, with those behind it kept at
hand: they are one less than the number that is announced. -/
theorem rounds (hb : Accounts robot limit b) (n : Nat) {s t : σ}
    {whole : List (Trace × Trace)}
    (hwhole : Rounds robot c b s whole t) {before : Trace}
    {d : Cond} {k : Nat} {after : Trace}
    (h : (Activity.rounds c ((c.eval robot).mapError .fault)
      (Stmt.execAll robot limit b) whole.length n t).trace
        = before ++ .note (.round d k) :: after) :
    Announces robot [.whileDo c b] s (Trace.ofRounds c whole ++ before)
      d k := by
  induction n generalizing whole t before with
  | zero => exact absurd h (by simp [Activity.rounds, Activity.fail])
  | succ n ih =>
      rcases htest : c.eval robot t with ⟨test, u, fault | _ | _⟩
      case error =>
        rw [rounds_of_error (mapError_of_error htest _)] at h
        exact absurd h (Cond.not_announced htest)
      case ok.false =>
        rw [rounds_of_false (mapError_of_ok htest _)] at h
        exact absurd h (Cond.not_announced htest)
      case ok.true =>
        rw [rounds_of_true (mapError_of_ok htest _)] at h
        rcases Trace.place_of_append h with ⟨_, hround⟩ | ⟨more, rfl, hmore⟩
        · -- the round that begins here
          rcases Trace.place_of_append hround with
            ⟨_, hin⟩ | ⟨more, rfl, hnote⟩
          · exact absurd hin (Cond.not_announced htest)
          · cases more with
            | cons e more => simp at hnote
            | nil =>
                cases hnote
                exact ⟨b, s, [], whole, t, test, u, .here [], hwhole, htest,
                  by simp, rfl⟩
        · rcases place_of_bind hmore with
            ⟨_, hbody⟩ | ⟨body, v, _, more, hbody, rfl, hrest⟩
          · have hinside := (hb u more d k _ hbody).lift
              fun x w _ hx => .inWhile hwhole htest hx []
            rwa [List.append_assoc] at hinside
          · have hround := hwhole.again htest ⟨by simp, limit, hbody⟩
            have hlater := ih hround (by
              rw [List.length_append, List.length_singleton]
              exact hrest)
            rw [Trace.ofRounds_concat, ← Trace.announced_append] at hlater
            simpa only [List.append_assoc] using hlater

/-- In the block that a test chooses. -/
theorem choice (c : Cond) (block : Bool → List Stmt)
    (hexec : y.exec robot limit = (c.eval robot).mapError .fault >>=
      fun go => Stmt.execAll robot limit (block go))
    (hreach : ∀ s test t go, c.eval robot s = ⟨test, t, .ok go⟩ →
      ∀ x u past, Reaches robot x u (block go) t past →
        Reaches robot x u [y] s (test ++ past))
    (hblock : ∀ go, Accounts robot limit (block go)) :
    Accounts robot limit [y] := by
  intro s before d n after h
  rw [Stmt.execAll_singleton, hexec] at h
  rcases htest : c.eval robot s with ⟨test, t, fault | go⟩
  · rw [bind_of_error (mapError_of_error htest _)] at h
    exact absurd h (Cond.not_announced htest)
  · rw [bind_of_ok (mapError_of_ok htest _)] at h
    rcases Trace.place_of_append h with ⟨_, hin⟩ | ⟨more, rfl, hmore⟩
    · exact absurd hin (Cond.not_announced htest)
    · exact (hblock go t more d n after hmore).lift
        (hreach s test t go htest)

end Stmt.Accounts

mutual

theorem Stmt.accounts_singleton (limit : Nat) :
    (y : Stmt) → Accounts robot limit [y]
  | .once a => by
      refine .of_inStep ?_
      unfold Stmt.exec
      exact .mapError (.perform a) _
  | .times a e => by
      refine .of_inStep ?_
      unfold Stmt.exec
      refine .bind (e.inStep_eval.mapError _) fun n => ?_
      exact .repeated (.mapError (.perform a.action) _) _
  | .loop b => by
      intro s before c n after h
      rw [execAll_singleton, Stmt.exec] at h
      exact (Stmt.accounts limit b).forever limit .none h
  | .whileDo c b => by
      intro s before d n after h
      rw [execAll_singleton, Stmt.exec] at h
      exact (Stmt.accounts limit b).rounds limit .none h
  | .ifThen c b => by
      have hb : Accounts robot limit b := Stmt.accounts limit b
      refine .choice c (fun go => if go then b else []) ?_ ?_ ?_
      · rw [Stmt.exec]
        exact congrArg _ (funext fun go => by cases go <;> rfl)
      · intro s test t go htest x u past h
        cases go with
        | false => cases h
        | true => exact .inThen htest h []
      · intro go
        cases go
        · exact .nil
        · exact hb
  | .ifElse c b o => by
      have hb : Accounts robot limit b := Stmt.accounts limit b
      have ho : Accounts robot limit o := Stmt.accounts limit o
      refine .choice c (fun go => if go then b else o) ?_ ?_ ?_
      · rw [Stmt.exec]
        exact congrArg _ (funext fun go => by cases go <;> rfl)
      · intro s test t go htest x u past h
        exact .inChoice htest h []
      · intro go
        cases go
        · exact ho
        · exact hb

/-- Where a round is announced in what statements leave, the run has come
to the loop. -/
theorem Stmt.accounts (limit : Nat) :
    (ss : List Stmt) → Accounts robot limit ss
  | [] => .nil
  | y :: rest =>
      .cons (Stmt.accounts_singleton limit y) (Stmt.accounts limit rest)

end

-- ============================================================== programs

/-- When a program is over, no more is noted than that the robot stopped
it. -/
theorem Report.trace_concluded (r : Report σ Halt Unit) :
    ∃ tail, r.concluded.trace = r.trace ++ tail
      ∧ (tail = [] ∨ ∃ message, tail = [.note (.stopped message)]) := by
  unfold concluded
  split
  · exact ⟨[], (List.append_nil _).symm, .inl rfl⟩
  · exact ⟨_, rfl, .inr ⟨_, rfl⟩⟩
  · exact ⟨[], (List.append_nil _).symm, .inl rfl⟩

namespace Program

variable {p : Program} {s : σ} {r : Report σ Halt Bool}

/-- A run is in step with the robot. -/
theorem Ends.leaves (h : p.Ends robot s r) :
    ∃ t, robot.Leaves (fun n => n.isReading = false) s r.trace t
      ∧ (r.state = t ∨ robot.RefusesInto t r.state) := by
  obtain ⟨q, ⟨-, limit, rfl⟩, rfl⟩ := ends_iff.1 h
  have hstep : InStep robot (fun n => n.isReading = false)
      (Stmt.execAll robot limit p.statements) :=
    Stmt.inStep_execAll (fun _ _ => rfl) limit p.statements
  obtain ⟨t, hleaves, hend⟩ := hstep s
  obtain ⟨tail, htrace, htail⟩ := Report.trace_concluded
    (Stmt.execAll robot limit p.statements s)
  rw [htrace, Report.state_concluded]
  refine ⟨t, hleaves.append ?_, hend.imp id And.right⟩
  rcases htail with rfl | ⟨message, rfl⟩
  · exact .none t
  · exact .note rfl (.none t)

/-- What a run comes to is in its trace. -/
theorem Ends.of_reaches (h : p.Ends robot s r) {x : Stmt} {u : σ}
    {before : Trace} (hx : Stmt.Reaches robot x u p.statements s before) :
    ∃ q after, Stmt.Ends robot [x] u q
      ∧ r.trace = before ++ (q.trace ++ after)
      ∧ ∀ e, q.result = .error e → r = (q.behind before).concluded := by
  obtain ⟨q', hq', rfl⟩ := ends_iff.1 h
  obtain ⟨q, hq, ⟨after, hafter⟩, hfailed⟩ := hx.involves q' hq'
  obtain ⟨tail, htail, -⟩ := q'.trace_concluded
  refine ⟨q, after ++ tail, hq, ?_, fun e he => ?_⟩
  · rw [htail, hafter]
    simp only [List.append_assoc]
  · rw [← hfailed e he]

/-- A round is announced where the run has come to a loop. -/
theorem Ends.announces (h : p.Ends robot s r) {before after : Trace}
    {c : Cond} {n : Nat}
    (hn : r.trace = before ++ .note (.round c n) :: after) :
    Stmt.Announces robot p.statements s before c n := by
  obtain ⟨q, ⟨-, limit, rfl⟩, rfl⟩ := ends_iff.1 h
  obtain ⟨tail, htrace, htail⟩ := Report.trace_concluded
    (Stmt.execAll robot limit p.statements s)
  rw [htrace] at hn
  rcases Trace.place_of_append hn with ⟨rest, hrun⟩ | ⟨rest, -, hover⟩
  · exact Stmt.accounts limit p.statements s before c n rest hrun
  · have hmem : Entry.note (.round c n) ∈ tail := by
      rw [hover]
      exact List.mem_append_right rest (List.mem_cons_self ..)
    rcases htail with rfl | ⟨message, rfl⟩
    · cases hmem
    · cases List.mem_singleton.1 hmem

end Program

/-- How an execution of a loop under a condition is logged: of each whole
round the log of its test, the record of its number from one on, and the
log of its block, and then the log of the last round. -/
def Stmt.LogsRounds (robot : Robot σ) (c : Cond) (b : Block) (s : σ)
    (r : Report σ Halt Unit) : Prop :=
  ∃ whole t last, Stmt.Rounds robot c b s whole t
    ∧ Stmt.LastRound robot c b whole.length t last
    ∧ r.result = last.result
    ∧ r.trace.log
      = (whole.mapIdx fun i round => round.1.log
          ++ ⟨"nodes", .debug, "while " ++ c.text ++ ": iteration "
            ++ toString (i + 1)⟩ :: round.2.log).flatten
        ++ last.trace.log

theorem Stmt.Ends.logsRounds {c : Cond} {b : Block} {s : σ}
    {r : Report σ Halt Unit} (h : Stmt.Ends robot [.whileDo c b] s r) :
    Stmt.LogsRounds robot c b s r := by
  obtain ⟨whole, t, last, hwhole, hlast, rfl⟩ := h.inRounds
  refine ⟨whole, t, last, hwhole, hlast, rfl, ?_⟩
  show (Trace.ofRounds c whole ++ last.trace).log = _
  rw [Trace.log_append, Trace.log_ofRounds]
  rfl

/-- The log of a run mirrors the run. The calls are in step with the notes:
what is told of readings are the reads that the robot answered, in order.
Wherever the run comes to a loop under a condition, the execution of the
loop is logged in one piece, round by round and numbered from one, and if
it fails, it is the last of the run. And no other round is logged: where
one is, the run has come to a loop with so many rounds behind it but one. -/
theorem Program.log_mirrors_run {robot : Robot σ} {p : Program} {s : σ}
    {r : Report σ Halt Bool} (h : p.Ends robot s r) :
    (∃ t, robot.Leaves (fun n => n.isReading = false) s r.trace t
      ∧ (r.state = t ∨ robot.RefusesInto t r.state))
    ∧ r.trace.log.filter Record.tellsReading
      = r.trace.calls.filterMap Call.reading?
    ∧ (∀ c b u before,
      Stmt.Reaches robot (.whileDo c b) u p.statements s before →
        ∃ q after, Stmt.Ends robot [.whileDo c b] u q
          ∧ Stmt.LogsRounds robot c b u q
          ∧ r.trace = before ++ (q.trace ++ after)
          ∧ ∀ e, q.result = .error e → r = (q.behind before).concluded)
    ∧ ∀ before c n after,
      r.trace = before ++ .note (.round c n) :: after →
        Stmt.Announces robot p.statements s before c n := by
  obtain ⟨t, hleaves, hend⟩ := h.leaves
  refine ⟨⟨t, hleaves, hend⟩, hleaves.log_readings fun _ hn => hn,
    fun c b u before hx => ?_, fun before c n after => h.announces⟩
  obtain ⟨q, after, hq, htrace, hfailed⟩ := h.of_reaches hx
  exact ⟨q, after, hq, hq.logsRounds, htrace, hfailed⟩

/-- A loop that is executed a second time, in which the robot stops it. -/
theorem Program.log_mirrors_run_patrol :
    let c : Cond := .compare .gt (.sensor .fuelLeft) (.number 0)
    let b : Block := [.once .move]
    let first : Trace := [.call (.told .fuelLeft 1),
      .note (.reading .fuelLeft 1), .note (.round c 1), .call (.did .move),
      .call (.told .fuelLeft 0), .note (.reading .fuelLeft 0)]
    let u : Meter :=
      ⟨[(.fuelLeft, .queue [1])], none, 9, false, 1, 2, false⟩
    ∃ r, patrol.Ends Meter.robot .refuelled r
      ∧ r.trace.log.map Record.message
        = ["sensor fuelLeft -> 1", "while gt(fuelLeft, 0): iteration 1",
          "sensor fuelLeft -> 0", "sensor fuelLeft -> 1",
          "while gt(fuelLeft, 0): iteration 1",
          "Robot stopped: no more readings for fuelLeft"]
      ∧ r.trace.log.filter Record.tellsReading
        = r.trace.calls.filterMap Call.reading?
      ∧ Stmt.Reaches Meter.robot (.whileDo c b) u patrol.statements
        .refuelled first
      ∧ (∃ q after, Stmt.Ends Meter.robot [.whileDo c b] u q
        ∧ Stmt.LogsRounds Meter.robot c b u q
        ∧ r.trace = first ++ (q.trace ++ after)
        ∧ ∀ e, q.result = .error e → r = (q.behind first).concluded)
      ∧ Stmt.Announces Meter.robot patrol.statements .refuelled
        (first ++ [.call (.told .fuelLeft 1), .note (.reading .fuelLeft 1)])
        c 1 := by
  intro c b first u
  have hends : patrol.Ends Meter.robot .refuelled
      (patrol.run Meter.robot 2 .refuelled) :=
    ⟨(fun h => nomatch h), 2, rfl⟩
  have hfirst : Stmt.Ends Meter.robot [.whileDo c b] .refuelled
      ⟨first, u, .ok ()⟩ := ⟨by simp, 2, rfl⟩
  have hreach : Stmt.Reaches Meter.robot (.whileDo c b) u
      patrol.statements .refuelled first :=
    .inLoop (.again .none hfirst) (.here []) []
  obtain ⟨-, hreadings, hloops, hrounds⟩ := log_mirrors_run hends
  exact ⟨_, hends, by decide +kernel, hreadings, hreach,
    hloops c b u first hreach, hrounds _ c 1 [.call (.did .move),
      .note (.stopped "no more readings for fuelLeft")] rfl⟩

end RobotLang
