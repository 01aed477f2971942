/-
The rounds of a loop under a condition.

An execution of such a loop goes through some rounds, in each of which the
condition holds and the block comes to its end, and then does one last
thing: the condition does not hold, or its evaluation fails, or the block
fails in a round that has begun. Its trace is that of the rounds, each
announced with its number, and that of the last thing
(`Stmt.Ends.inRounds`). The numbers are those of the rounds in this
execution, whatever was executed before it.

The loop is given a number of rounds to count down, so this is proved by
going through the rounds from the front, with the ones already behind kept
at hand: their number is the number that the loop counts up.
-/
import RobotLang.Proofs.Execution.Readings

namespace RobotLang

open Activity

variable {σ : Type} {robot : Robot σ} {c : Cond} {b : Block}

-- ======================================================== whole rounds

/-- The number of a round is announced between its test and its block. -/
def Trace.announced (c : Cond) (n : Nat) (test body : Trace) : Trace :=
  test ++ .note (.round c n) :: body

theorem Trace.announced_append (c : Cond) (n : Nat) (test body : Trace) :
    announced c n test [] ++ body = announced c n test body :=
  List.append_assoc test _ body

/-- The trace of rounds, which are numbered from one. -/
def Trace.ofRounds (c : Cond) (rounds : List (Trace × Trace)) : Trace :=
  (rounds.mapIdx fun i round => announced c (i + 1) round.1 round.2).flatten

theorem Trace.ofRounds_concat (c : Cond) (rounds : List (Trace × Trace))
    (test body : Trace) :
    ofRounds c (rounds ++ [(test, body)])
      = ofRounds c rounds
        ++ announced c (rounds.length + 1) test body := by
  unfold ofRounds
  rw [List.mapIdx_concat, List.flatten_concat]

theorem Trace.log_flatten (ts : List Trace) :
    log ts.flatten = (ts.map log).flatten := by
  induction ts with
  | nil => rfl
  | cons t ts ih =>
      rw [List.flatten_cons, log_append, ih, List.map_cons,
        List.flatten_cons]

/-- The log of rounds: of each the log of its test, the record of its
number, and the log of its block. -/
theorem Trace.log_ofRounds (c : Cond) (rounds : List (Trace × Trace)) :
    (ofRounds c rounds).log = (rounds.mapIdx fun i round =>
      round.1.log
        ++ (Note.round c (i + 1)).record :: round.2.log).flatten := by
  rw [ofRounds, log_flatten]
  congr 1
  refine List.ext_getElem (by simp) fun i _ _ => ?_
  simp [announced, log_append, log_note]

/-- Some rounds of a loop, in all of which the condition holds and the
block comes to its end. Of each there is the trace of the test and that of
the block. -/
inductive Stmt.Rounds (robot : Robot σ) (c : Cond) (b : Block) (s : σ) :
    List (Trace × Trace) → σ → Prop
  | none : Rounds robot c b s [] s
  | again {t u v : σ} {rounds : List (Trace × Trace)} {test body : Trace}
      (h : Rounds robot c b s rounds t)
      (htest : c.eval robot t = ⟨test, u, .ok true⟩)
      (hbody : Stmt.Ends robot b u ⟨body, v, .ok ()⟩) :
      Rounds robot c b s (rounds ++ [(test, body)]) v

/-- The last thing that a loop does, behind so many whole rounds: the
condition does not hold, or its evaluation fails, or the block does in a
round that has been announced. -/
inductive Stmt.LastRound (robot : Robot σ) (c : Cond) (b : Block) (n : Nat)
    (s : σ) : Report σ Halt Unit → Prop
  | stops {test : Trace} {t : σ}
      (htest : c.eval robot s = ⟨test, t, .ok false⟩) :
      LastRound robot c b n s ⟨test, t, .ok ()⟩
  | testFails {test : Trace} {t : σ} {fault : Fault}
      (htest : c.eval robot s = ⟨test, t, .error fault⟩) :
      LastRound robot c b n s ⟨test, t, .error (.fault fault)⟩
  | blockFails {test body : Trace} {t u : σ} {h : Halt}
      (htest : c.eval robot s = ⟨test, t, .ok true⟩)
      (hbody : Stmt.Ends robot b t ⟨body, u, .error h⟩) :
      LastRound robot c b n s
        ⟨Trace.announced c (n + 1) test body, u, .error h⟩

-- ======================================================== round by round

namespace Activity

variable {test : Activity σ Halt Bool} {x : Activity σ Halt Unit}
  {s t : σ} {trace : Trace}

/-- A round that is announced, and what follows from there. -/
theorem rounds_of_true (h : test s = ⟨trace, t, .ok true⟩) (done n : Nat) :
    rounds c test x done (n + 1) s
      = Report.behind (Trace.announced c (done + 1) trace [])
        ((x >>= fun _ => rounds c test x (done + 1) n) t) := by
  rw [rounds, bind_eq_behind h, if_pos rfl,
    bind_eq_behind (f := fun _ => x >>= fun _ => _) rfl,
    Report.behind_behind]
  rfl

theorem rounds_of_false (h : test s = ⟨trace, t, .ok false⟩)
    (done n : Nat) :
    rounds c test x done (n + 1) s = ⟨trace, t, .ok ()⟩ := by
  rw [rounds, bind_of_ok h]
  exact congrArg (Report.mk · t (.ok ())) (List.append_nil trace)

theorem rounds_of_error {e : Halt} (h : test s = ⟨trace, t, .error e⟩)
    (done n : Nat) :
    rounds c test x done (n + 1) s = ⟨trace, t, .error e⟩ :=
  bind_of_error h

end Activity

/-- How a loop ends that has so many rounds behind it: in its last round,
or after one more. -/
inductive Stmt.LoopEnds (robot : Robot σ) (c : Cond) (b : Block) :
    Nat → σ → Report σ Halt Unit → Prop
  | last {done : Nat} {s : σ} {r : Report σ Halt Unit}
      (h : LastRound robot c b done s r) : LoopEnds robot c b done s r
  | again {done : Nat} {s t u : σ} {test body : Trace}
      {r : Report σ Halt Unit} (htest : c.eval robot s = ⟨test, t, .ok true⟩)
      (hbody : Stmt.Ends robot b t ⟨body, u, .ok ()⟩)
      (h : LoopEnds robot c b (done + 1) u r) :
      LoopEnds robot c b done s
        (r.behind (Trace.announced c (done + 1) test body))

/-- A loop that is given enough rounds ends round by round. -/
theorem Stmt.loopEnds_of_rounds (limit n done : Nat) (s : σ)
    (hne : (Activity.rounds c ((c.eval robot).mapError .fault)
      (Stmt.execAll robot limit b) done n s).result
        ≠ .error .unfinished) :
    LoopEnds robot c b done s
      (Activity.rounds c ((c.eval robot).mapError .fault)
        (Stmt.execAll robot limit b) done n s) := by
  induction n generalizing done s with
  | zero => exact absurd rfl hne
  | succ n ih =>
      rcases htest : c.eval robot s with ⟨test, t, fault | _ | _⟩
      case error =>
        rw [rounds_of_error (mapError_of_error htest _)]
        exact .last (.testFails htest)
      case ok.false =>
        rw [rounds_of_false (mapError_of_ok htest _)]
        exact .last (.stops htest)
      case ok.true =>
        rw [rounds_of_true (mapError_of_ok htest _)] at hne ⊢
        rcases hbody : Stmt.execAll robot limit b t with ⟨body, u, e | _⟩
        · rw [bind_of_error hbody] at hne ⊢
          have hblock : Stmt.Ends robot b t ⟨body, u, .error e⟩ :=
            ⟨hne, limit, hbody⟩
          rw [Report.behind, Trace.announced_append]
          exact .last (.blockFails htest hblock)
        · rw [bind_eq_behind hbody] at hne ⊢
          have hblock : Stmt.Ends robot b t ⟨body, u, .ok ()⟩ :=
            ⟨by simp, limit, hbody⟩
          rw [Report.behind_behind, Trace.announced_append]
          exact .again htest hblock (ih (done + 1) u hne)

theorem Stmt.Ends.loopEnds {s : σ} {r : Report σ Halt Unit}
    (h : Stmt.Ends robot [.whileDo c b] s r) :
    Stmt.LoopEnds robot c b 0 s r := by
  obtain ⟨hne, limit, rfl⟩ := h
  rw [Stmt.execAll_singleton, Stmt.exec] at hne ⊢
  exact Stmt.loopEnds_of_rounds limit limit 0 s hne

variable {s t : σ} {r : Report σ Halt Unit} {whole : List (Trace × Trace)}

/-- A loop goes through whole rounds, and then through its last one. -/
theorem Stmt.LoopEnds.through {done : Nat}
    (h : LoopEnds robot c b done t r) (hdone : done = whole.length)
    (hwhole : Rounds robot c b s whole t) :
    ∃ all u last, Rounds robot c b s all u
      ∧ LastRound robot c b all.length u last
      ∧ r.behind (Trace.ofRounds c whole)
        = last.behind (Trace.ofRounds c all) := by
  induction h generalizing whole with
  | last h =>
      rw [hdone] at h
      exact ⟨_, _, _, hwhole, h, rfl⟩
  | @again done t u v test body r htest hbody h ih =>
      have hlength : done + 1 = (whole ++ [(test, body)]).length := by
        rw [hdone, List.length_append, List.length_singleton]
      obtain ⟨all, w, last, hall, hlast, hsame⟩ :=
        ih hlength (hwhole.again htest hbody)
      refine ⟨all, w, last, hall, hlast, ?_⟩
      rw [← hsame, Trace.ofRounds_concat, Report.behind_behind, hdone]

/-- A loop that ends went through some whole rounds and a last one. -/
theorem Stmt.Ends.inRounds (h : Stmt.Ends robot [.whileDo c b] s r) :
    ∃ whole t last, Stmt.Rounds robot c b s whole t
      ∧ Stmt.LastRound robot c b whole.length t last
      ∧ r = last.behind (Trace.ofRounds c whole) :=
  h.loopEnds.through rfl .none

/-- Behind its first rounds a loop ends as it does from there. -/
theorem Stmt.Rounds.loopEnds (hwhole : Rounds robot c b s whole t)
    (h : LoopEnds robot c b 0 s r) :
    ∃ q, LoopEnds robot c b whole.length t q
      ∧ r = q.behind (Trace.ofRounds c whole) := by
  induction hwhole with
  | none => exact ⟨r, h, rfl⟩
  | @again t u v whole test body hwhole htest hbody ih =>
      obtain ⟨q, hq, rfl⟩ := ih
      cases hq with
      | last hlast =>
          cases hlast with
          | stops htest' =>
              rw [htest] at htest'
              cases htest'
          | testFails htest' =>
              rw [htest] at htest'
              cases htest'
          | blockFails htest' hbody' =>
              rw [htest] at htest'
              cases htest'
              cases hbody.unique hbody'
      | @again _ _ _ _ _ _ q htest' hbody' hmore =>
          rw [htest] at htest'
          cases htest'
          cases hbody.unique hbody'
          refine ⟨q, ?_, ?_⟩
          · rw [List.length_append, List.length_singleton]
            exact hmore
          · rw [Trace.ofRounds_concat, Report.behind_behind]

end RobotLang
