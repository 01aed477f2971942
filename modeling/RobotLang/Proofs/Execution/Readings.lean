/-
Readings in step with the robot.

What a run leaves in its trace comes of two places: a call goes there as
the robot answers it, a note as it is taken. The two are in step. Behind
every read that the robot answered stands the note of that reading, and
there is no other note of a reading; a call that is not answered leaves
nothing and ends the run (`Robot.Leaves`).

All ways to put activities together keep this, as far as no other note
taken is that of a reading; so it is said of activities with the notes that
they may take besides (`Activity.InStep`), of which evaluations take none,
and statements those of their rounds.
-/
import RobotLang.Proofs.Execution.Ends

namespace RobotLang

open Activity

variable {σ ε δ α β : Type} {robot : Robot σ} {noted : Note → Prop}

-- ================================================================= logs

/-- The records that are logged of what happened. -/
def Trace.log (t : Trace) : List Record := t.notes.map Note.record

theorem Trace.log_append (t u : Trace) :
    (t ++ u).log = t.log ++ u.log := by
  unfold log notes
  rw [List.filterMap_append, List.map_append]

theorem Trace.log_call (c : Call) (t : Trace) :
    log (.call c :: t) = t.log := rfl

theorem Trace.log_note (n : Note) (t : Trace) :
    log (.note n :: t) = n.record :: t.log := rfl

/-- Whether the note is that of a reading. -/
def Note.isReading : Note → Bool
  | reading _ _ => true
  | round _ _ => false
  | stopped _ => false

/-- Whether the record begins as that of a reading does. -/
def Record.tellsReading (r : Record) : Bool :=
  "sensor ".toList.isPrefixOf r.message.toList

theorem Note.tellsReading_record (n : Note) :
    n.record.tellsReading = n.isReading := by
  cases n <;>
    simp [record, Record.tellsReading, isReading, List.isPrefixOf]

/-- The record of an answer that is a reading. -/
def Call.reading? : Call → Option Record
  | did _ => none
  | told x v =>
    some ⟨"nodes", .debug, "sensor " ++ x.word ++ " -> " ++ toString v⟩

-- ============================================================== in step

/-- From one state to another the robot's answers leave a trace: each
answered call and, right behind a read, the note of the reading. Other notes
may stand anywhere. -/
inductive Robot.Leaves (robot : Robot σ) (noted : Note → Prop) :
    σ → Trace → σ → Prop
  | none (s : σ) : Leaves robot noted s [] s
  | did {s t u : σ} {a : Action} {rest : Trace}
      (h : robot.act a s = .ok () t) (hrest : Leaves robot noted t rest u) :
      Leaves robot noted s (.call (.did a) :: rest) u
  | told {s t u : σ} {x : Sensor} {v : Int} {rest : Trace}
      (h : robot.read x s = .ok v t) (hrest : Leaves robot noted t rest u) :
      Leaves robot noted s
        (.call (.told x v) :: .note (.reading x v) :: rest) u
  | note {s u : σ} {n : Note} {rest : Trace} (hn : noted n)
      (hrest : Leaves robot noted s rest u) :
      Leaves robot noted s (.note n :: rest) u

namespace Robot.Leaves

variable {s t u : σ} {trace rest : Trace}

theorem append (h : robot.Leaves noted s trace t)
    (hrest : robot.Leaves noted t rest u) :
    robot.Leaves noted s (trace ++ rest) u := by
  induction h with
  | none s => exact hrest
  | did h _ ih => exact .did h (ih hrest)
  | told h _ ih => exact .told h (ih hrest)
  | note hn _ ih => exact .note hn (ih hrest)

/-- A note is that of a reading or one of those that may be taken. -/
theorem noted_of_mem (h : robot.Leaves noted s trace t) {n : Note}
    (hn : Entry.note n ∈ trace) : n.isReading = true ∨ noted n := by
  induction h with
  | none s => cases hn
  | did h _ ih =>
      exact ih (List.mem_of_ne_of_mem Entry.noConfusion hn)
  | told h _ ih =>
      have hn := List.mem_of_ne_of_mem Entry.noConfusion hn
      rcases List.mem_cons.1 hn with hn | hn
      · rw [Entry.note.inj hn]
        exact .inl rfl
      · exact ih hn
  | note hm _ ih =>
      rcases List.mem_cons.1 hn with hn | hn
      · rw [Entry.note.inj hn]
        exact .inr hm
      · exact ih hn

/-- The records of readings are those of the answers to reads, in order. -/
theorem log_readings (h : robot.Leaves noted s trace t)
    (hnoted : ∀ n, noted n → n.isReading = false) :
    trace.log.filter Record.tellsReading
      = trace.calls.filterMap Call.reading? := by
  induction h with
  | none s => rfl
  | did h _ ih => exact ih
  | @told s t u x v rest h _ ih =>
      have hreading : (Note.reading x v).record.tellsReading = true :=
        Note.tellsReading_record _
      rw [Trace.log_call, Trace.log_note, List.filter_cons_of_pos hreading,
        ih]
      rfl
  | @note s u n rest hn _ ih =>
      have hother : n.record.tellsReading = false := by
        rw [Note.tellsReading_record, hnoted n hn]
      rw [Trace.log_note, List.filter_cons_of_neg (by simp [hother]), ih]
      rfl

end Robot.Leaves

/-- A call that the robot does not answer takes it from one state to the
other. -/
def Robot.RefusesInto (robot : Robot σ) (s t : σ) : Prop :=
  ∃ why, (∃ a, robot.act a s = .error why t)
    ∨ ∃ x, robot.read x s = .error why t

/-- The robot's answers leave the trace of the activity and the state that
it ends in, unless it ends as one more call is not answered. -/
def Activity.InStep (robot : Robot σ) (noted : Note → Prop)
    (x : Activity σ ε α) : Prop :=
  ∀ s, ∃ t, robot.Leaves noted s (x s).trace t
    ∧ ((x s).state = t
      ∨ (∃ e, (x s).result = .error e) ∧ robot.RefusesInto t (x s).state)

namespace Activity.InStep

theorem pure (a : α) :
    InStep robot noted (Pure.pure a : Activity σ ε α) :=
  fun s => ⟨s, .none s, .inl rfl⟩

theorem fail (e : ε) : InStep robot noted (.fail e : Activity σ ε α) :=
  fun s => ⟨s, .none s, .inl rfl⟩

theorem note {n : Note} (hn : noted n) :
    InStep robot noted (.note n : Activity σ ε Unit) :=
  fun s => ⟨s, .note hn (.none s), .inl rfl⟩

theorem bind {x : Activity σ ε α} {f : α → Activity σ ε β}
    (hx : InStep robot noted x) (hf : ∀ a, InStep robot noted (f a)) :
    InStep robot noted (x >>= f) := by
  intro s
  obtain ⟨t, hleaves, hend⟩ := hx s
  cases hres : x s with
  | mk trace u result =>
      rw [hres] at hleaves hend
      cases result with
      | error e =>
          rw [bind_of_error hres]
          exact ⟨t, hleaves, hend.imp id fun h => ⟨⟨e, rfl⟩, h.2⟩⟩
      | ok a =>
          -- a value is given only where every call was answered
          have hstate : u = t := hend.elim id fun h => by
            obtain ⟨⟨e, he⟩, -⟩ := h
            cases he
          subst hstate
          obtain ⟨w, hmore, hend'⟩ := hf a u
          rw [bind_of_ok hres]
          exact ⟨w, hleaves.append hmore, hend'⟩

theorem ite {c : Prop} [Decidable c] {x y : Activity σ ε α}
    (hx : InStep robot noted x) (hy : InStep robot noted y) :
    InStep robot noted (if c then x else y) := by
  split
  · exact hx
  · exact hy

theorem mapError {x : Activity σ ε α} (hx : InStep robot noted x)
    (g : ε → δ) : InStep robot noted (x.mapError g) := by
  intro s
  obtain ⟨t, hleaves, hend⟩ := hx s
  refine ⟨t, hleaves, hend.imp id fun h => ⟨?_, h.2⟩⟩
  obtain ⟨⟨e, he⟩, -⟩ := h
  exact ⟨g e, by rw [Activity.mapError, he]; rfl⟩

theorem perform (a : Action) : InStep robot noted (robot.perform a) := by
  intro s
  cases h : robot.act a s with
  | ok v u =>
      rw [Robot.perform, request_of_ok h]
      exact ⟨u, .did h (.none u), .inl rfl⟩
  | error why u =>
      rw [Robot.perform, request_of_error h]
      exact ⟨s, .none s, .inr ⟨⟨_, rfl⟩, why, .inl ⟨a, h⟩⟩⟩

/-- A reading and its note. -/
theorem sense (x : Sensor) : InStep robot noted (robot.sense x) := by
  intro s
  cases h : robot.read x s with
  | ok v u =>
      have hread : request (robot.read x) (.told x) Fault.stopped s
          = ⟨[.call (.told x v)], u, .ok v⟩ := request_of_ok h
      rw [Robot.sense, bind_of_ok hread]
      exact ⟨u, .told h (.none u), .inl rfl⟩
  | error why u =>
      have hread : request (robot.read x) (.told x) Fault.stopped s
          = ⟨[], u, .error (.stopped why)⟩ := request_of_error h
      rw [Robot.sense, bind_of_error hread]
      exact ⟨s, .none s, .inr ⟨⟨_, rfl⟩, why, .inr ⟨x, h⟩⟩⟩

variable {x : Activity σ Halt Unit}

theorem repeated {x : Activity σ ε Unit} (hx : InStep robot noted x)
    (n : Nat) : InStep robot noted (x.repeated n) := by
  induction n with
  | zero => exact .pure ()
  | succ n ih => exact .bind hx fun _ => ih

theorem forever (hx : InStep robot noted x) (n : Nat) :
    InStep robot noted (x.forever n) := by
  induction n with
  | zero => exact .fail _
  | succ n ih => exact .bind hx fun _ => ih

theorem rounds {c : Cond} {test : Activity σ Halt Bool}
    (hc : ∀ n, noted (.round c n)) (htest : InStep robot noted test)
    (hx : InStep robot noted x) (done n : Nat) :
    InStep robot noted (.rounds c test x done n) := by
  induction n generalizing done with
  | zero => exact .fail _
  | succ n ih =>
      refine .bind htest fun go => .ite ?_ (.pure ())
      exact .bind (.note (hc _)) fun _ => .bind hx fun _ => ih _

end Activity.InStep

-- ============================================================= programs

theorem Expr.inStep_eval (e : Expr) : InStep robot noted (e.eval robot) := by
  induction e with
  | number n => exact .pure n
  | sensor x => exact .sense x
  | arith o l r hl hr =>
      exact .bind hl fun a => .bind hr fun b => .ite (.fail _) (.pure _)

theorem Cond.inStep_eval (c : Cond) : InStep robot noted (c.eval robot) := by
  induction c with
  | compare p l r =>
      exact .bind l.inStep_eval fun a => .bind r.inStep_eval fun b =>
        .pure _
  | both l r hl hr => exact .bind hl fun a => .bind hr fun b => .pure _
  | either l r hl hr => exact .bind hl fun a => .bind hr fun b => .pure _
  | negate c hc => exact .bind hc fun a => .pure _

mutual

theorem Stmt.inStep_exec (hrounds : ∀ c n, noted (.round c n))
    (limit : Nat) : (s : Stmt) → InStep robot noted (s.exec robot limit)
  | .once a => by
      unfold Stmt.exec
      exact .mapError (.perform a) _
  | .times a e => by
      unfold Stmt.exec
      refine .bind (e.inStep_eval.mapError _) fun n => ?_
      exact .repeated (.mapError (.perform a.action) _) _
  | .loop b => by
      unfold Stmt.exec
      exact .forever (Stmt.inStep_execAll hrounds limit b) _
  | .whileDo c b => by
      unfold Stmt.exec
      exact .rounds (hrounds c) (c.inStep_eval.mapError _)
        (Stmt.inStep_execAll hrounds limit b) _ _
  | .ifThen c b => by
      unfold Stmt.exec
      refine .bind (c.inStep_eval.mapError _) fun go => ?_
      exact .ite (Stmt.inStep_execAll hrounds limit b) (.pure ())
  | .ifElse c b o => by
      unfold Stmt.exec
      refine .bind (c.inStep_eval.mapError _) fun go => ?_
      exact .ite (Stmt.inStep_execAll hrounds limit b)
        (Stmt.inStep_execAll hrounds limit o)

/-- What statements do is in step with the robot. -/
theorem Stmt.inStep_execAll (hrounds : ∀ c n, noted (.round c n))
    (limit : Nat) :
    (ss : List Stmt) → InStep robot noted (Stmt.execAll robot limit ss)
  | [] => by
      unfold Stmt.execAll
      exact .pure ()
  | s :: ss => by
      unfold Stmt.execAll
      exact .bind (Stmt.inStep_exec hrounds limit s) fun _ =>
        Stmt.inStep_execAll hrounds limit ss

end

end RobotLang
