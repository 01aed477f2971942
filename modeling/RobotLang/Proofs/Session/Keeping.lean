/-
What a session keeps while files are shown.

Showing a file prints, and logs. As long as all that is logged goes to the
console, neither changes the files or where records go. This is closed under
putting steps in a row (`Keeps.bind`), so it holds of every step that shows
files, and each of them finds the files as they were at the beginning,
whatever has been shown before (`Prints.onward`).
-/
import RobotLang.Proofs.Session.Printing

namespace RobotLang.Session

variable {α β : Type} {files : FileTree} {s : Session} {t u : String}
  {x : Step α} {f : α → Step β} {a : α} {r : Except Trouble β}

/-- The session has these files, and all that it logs goes to the
console. -/
def AtConsole (files : FileTree) (s : Session) : Prop :=
  s.files = files ∧ ∀ sink ∈ s.logging.sinks, sink.target = .console

-- =============================================================== keeping

/-- The step keeps the files, and the console for all that is logged. -/
def Keeps (step : Step α) : Prop :=
  ∀ files s, AtConsole files s → AtConsole files (left (step s))

namespace Keeps

theorem pure (a : α) : Keeps (Pure.pure a) := fun _ _ h => h

theorem throw (e : Trouble) : Keeps (MonadExcept.throw e : Step α) :=
  fun _ _ h => h

theorem get : Keeps MonadState.get := fun _ _ h => h

theorem write (text : String) : Keeps (Session.write text) := fun _ _ h => h

theorem print (line : String) : Keeps (Session.print line) :=
  write (line ++ "\n")

theorem bind (hx : Keeps x) (hf : ∀ a, Keeps (f a)) : Keeps (x >>= f) := by
  intro files s hs
  have hleft := hx files s hs
  show AtConsole files (left (EStateM.bind x f s))
  unfold EStateM.bind
  cases hres : x s with
  | ok a s' =>
      rw [hres] at hleft
      exact hf a files s' hleft
  | error e s' =>
      rw [hres] at hleft
      exact hleft

theorem forM {γ : Type} {step : γ → Step Unit} (h : ∀ c, Keeps (step c))
    (cs : List γ) : Keeps (cs.forM step) := by
  induction cs with
  | nil => exact .pure ()
  | cons c cs ih => exact (h c).bind fun _ => ih

theorem orTrouble {ε : Type} (x : Except ε α) (trouble : ε → Trouble) :
    Keeps (Session.orTrouble x trouble) := by
  cases x with
  | ok a => exact .pure a
  | error e => exact .throw _

end Keeps

-- =============================================================== logging

/-- What goes to the console leaves the files alone. -/
theorem AtConsole.foldl_deliver {ds : List (Target × String)}
    (hs : AtConsole files s) (hds : ∀ d ∈ ds, d.1 = .console) :
    AtConsole files (ds.foldl deliver s) := by
  induction ds generalizing s with
  | nil => exact hs
  | cons d ds ih =>
      obtain ⟨target, text⟩ := d
      obtain rfl : target = .console := hds _ (List.mem_cons_self ..)
      exact ih hs fun d hd => hds d (List.mem_cons_of_mem _ hd)

theorem AtConsole.outputs (hs : AtConsole files s) (record : Record) :
    ∀ d ∈ s.logging.outputs record, d.1 = .console := by
  intro d hd
  unfold Logging.outputs at hd
  split at hd
  · cases hd
  · split at hd
    · split at hd
      · rw [List.mem_singleton.1 hd]
      · cases hd
    · obtain ⟨sink, hsink, rfl⟩ := List.mem_map.1 hd
      exact hs.2 sink (List.mem_filter.1 hsink).1

theorem Keeps.log (record : Record) : Keeps (Session.log record) :=
  fun _ _ hs => hs.foldl_deliver (hs.outputs record)

-- =============================================================== showing

theorem Keeps.present (encoding name : String) :
    Keeps (Session.present encoding name) := by
  unfold Session.present
  refine Keeps.get.bind fun s => (Keeps.forM .log _).bind fun _ =>
    (Keeps.orTrouble _ _).bind fun program? => (Keeps.print _).bind fun _ => ?_
  cases program? with
  | none => exact .print _
  | some p =>
      exact (Keeps.print _).bind fun _ => (Keeps.print _).bind fun _ =>
        .print _

theorem Keeps.showArgument (encoding name : String) :
    Keeps (Session.showArgument encoding name) := by
  unfold Session.showArgument
  refine Keeps.get.bind fun s => ?_
  split
  · exact (Keeps.print _).bind fun _ => .present encoding name
  · exact .print _

theorem Keeps.answer (encoding line : String) :
    Keeps (Session.answer encoding line) := by
  unfold Session.answer
  dsimp only
  split
  · exact .pure false
  · exact (Keeps.present encoding _).bind fun _ => .pure true

-- ============================================================== printing

/-- A step goes on with the same files if the one before keeps them. -/
theorem Prints.onward (hx : Prints x s t (.ok a)) (hkeeps : Keeps x)
    (hs : AtConsole files s)
    (hf : ∀ s', AtConsole files s' → Prints (f a) s' u r) :
    Prints (x >>= f) s (t ++ u) r :=
  hx.bind_left (hf _ (hkeeps files s hs))

end RobotLang.Session
