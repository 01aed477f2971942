/-
What the steps of a session print.

A step adds a text to what has been printed, and ends with a value or in
trouble. Of two steps one after the other the second adds its text to that
of the first, unless the first was in trouble (`Prints.bind_left`). Logging
adds nothing: records go to the console and to files. What becomes of these
is mostly of no account, so it is mostly enough that the second step prints
its text whatever session the first one leaves (`Prints.bind`).
-/
import RobotLang.Proofs.Source
import RobotLang.Session

namespace RobotLang.Session

variable {α β : Type} {x : Step α} {f : α → Step β} {s : Session} {a : α}
  {e : Trouble} {t u : String} {r r' : Except Trouble α}

/-- The session that a step leaves. -/
def left : EStateM.Result Trouble Session α → Session
  | .ok _ s => s
  | .error _ s => s

/-- The step prints a text and ends with a value or in trouble. -/
def Prints (step : Step α) (s : Session) (text : String)
    (result : Except Trouble α) : Prop :=
  ∃ s', s'.out = s.out ++ text
    ∧ step s = match result with
      | .ok a => .ok a s'
      | .error e => .error e s'

namespace Prints

/-- A step ends in one way and prints one text. -/
theorem unique (h : Prints x s t r) (h' : Prints x s u r') :
    t = u ∧ r = r' := by
  obtain ⟨s', hout, hstep⟩ := h
  obtain ⟨s'', hout', hstep'⟩ := h'
  rw [hstep] at hstep'
  cases r <;> cases r' <;> cases hstep' <;> simp_all

/-- A step of which it is known how it ends does not end otherwise. -/
theorem ends_iff (h : Prints x s t r) :
    (∃ u, Prints x s u r') ↔ r = r' := by
  constructor
  · intro hends
    obtain ⟨u, hu⟩ := hends
    exact (h.unique hu).2
  · intro heq
    exact ⟨t, heq ▸ h⟩

/-- A step goes on in the session that the one before has left. -/
theorem bind_left {r : Except Trouble β} (hx : Prints x s t (.ok a))
    (hf : Prints (f a) (left (x s)) u r) :
    Prints (x >>= f) s (t ++ u) r := by
  obtain ⟨s', hout, hstep⟩ := hx
  rw [hstep] at hf
  obtain ⟨s'', hout', hnext⟩ := hf
  refine ⟨s'', ?_, ?_⟩
  · rw [hout', left, hout, String.append_assoc]
  · show EStateM.bind x f s = _
    unfold EStateM.bind
    rw [hstep]
    exact hnext

theorem bind {r : Except Trouble β} (hx : Prints x s t (.ok a))
    (hf : ∀ s', Prints (f a) s' u r) : Prints (x >>= f) s (t ++ u) r :=
  hx.bind_left (hf _)

/-- Behind a step that prints nothing. -/
theorem behind {r : Except Trouble β} (hx : Prints x s "" (.ok a))
    (hf : ∀ s', Prints (f a) s' u r) : Prints (x >>= f) s u r := by
  have hbind := hx.bind hf
  rwa [String.empty_append] at hbind

/-- A step that asks for the session goes on with what it is. -/
theorem bind_get {g : Session → Step β} {r : Except Trouble β}
    (h : Prints (g s) s u r) : Prints (get >>= g) s u r := h

theorem bind_of_error (hx : Prints x s t (.error e)) :
    Prints (x >>= f) s t (.error e) := by
  obtain ⟨s', hout, hstep⟩ := hx
  refine ⟨s', hout, ?_⟩
  show EStateM.bind x f s = _
  unfold EStateM.bind
  rw [hstep]

theorem pure (a : α) : Prints (Pure.pure a) s "" (.ok a) :=
  ⟨s, by rw [String.append_empty], rfl⟩

/-- Before the step ends with another value. -/
theorem instead (hx : Prints x s t (.ok a)) (b : β) :
    Prints (x >>= fun _ => Pure.pure b) s t (.ok b) := by
  have hbind := hx.bind (f := fun _ => Pure.pure b) fun _ => .pure b
  rwa [String.append_empty] at hbind

theorem throw (e : Trouble) :
    Prints (MonadExcept.throw e : Step α) s "" (.error e) :=
  ⟨s, by rw [String.append_empty], rfl⟩

theorem print (line : String) :
    Prints (Session.print line) s (line ++ "\n") (.ok ()) := ⟨_, rfl, rfl⟩

end Prints

-- ============================================================== logging

/-- What is delivered is not printed. -/
theorem deliver_out (s : Session) (d : Target × String) :
    (s.deliver d).out = s.out := by
  obtain ⟨target, text⟩ := d
  cases target <;> rfl

theorem foldl_deliver_out (s : Session) (ds : List (Target × String)) :
    (ds.foldl deliver s).out = s.out := by
  induction ds generalizing s with
  | nil => rfl
  | cons d ds ih => rw [List.foldl_cons, ih, deliver_out]

theorem Prints.log (record : Record) :
    Prints (Session.log record) s "" (.ok ()) := by
  refine ⟨_, ?_, rfl⟩
  rw [foldl_deliver_out, String.append_empty]

/-- Logging prints nothing. -/
theorem Prints.logs (records : List Record) :
    Prints (records.forM Session.log) s "" (.ok ()) := by
  induction records generalizing s with
  | nil => exact .pure ()
  | cons record records ih =>
      show Prints (Session.log record >>= fun _ => records.forM Session.log)
        s "" (.ok ())
      exact (Prints.log record).behind fun _ => ih

-- =========================================================== presenting

/-- What presenting a file prints, line by line. A file that is trouble
prints nothing. -/
def presented : Source.Finding → String
  | .program _ p =>
    "Parsing completed" ++ "\n" ++ (separator ++ "\nProgram:" ++ "\n"
      ++ (p.text ++ "\n" ++ (separator ++ "\n")))
  | .malformed _ _ | .denied _ _ =>
    "Parsing completed" ++ "\n" ++ (separator ++ "\n")
  | .tooLong _ _ | .textless _ => ""

/-- Presenting a file prints what is to be printed of the finding, and is
in trouble if the finding is. -/
theorem Prints.present (encoding name : String) (s : Session) :
    Prints (Session.present encoding name) s
      (presented (Source.found s.files encoding name))
      ((Source.found s.files encoding name).program?.map fun _ => ()) := by
  unfold Session.present
  refine .bind_get ?_
  rw [Source.parseFile_eq]
  refine (Prints.logs _).behind fun _ => ?_
  cases Source.found s.files encoding name with
  | program _ p =>
      refine (Prints.pure _).behind fun _ => ?_
      exact (Prints.print _).bind fun _ => (Prints.print _).bind fun _ =>
        (Prints.print p.text).bind fun _ => .print separator
  | malformed | denied =>
      refine (Prints.pure _).behind fun _ => ?_
      exact (Prints.print _).bind fun _ => .print separator
  | tooLong | textless => exact (Prints.throw _).bind_of_error

end RobotLang.Session
