/-
The same conduct with two robots.

Two robots are coupled if, from corresponding states, they answer the same
call alike: both with the same value, or both by stopping, in states that
correspond again; or the first one is cut short, and then it does not
matter what the second one does. By induction on its steps, a conduct then
goes the same way with both, call by call and note by note, to the end or
to where the first robot is cut short. Up to there the second run has the
same trace, so the first one's is a beginning of it.
-/
import RobotLang.Proofs.Activity.Steps

namespace RobotLang

variable {σ τ ε α β : Type}

/-- How two robots compare: which of their states correspond, which of
their stops do, and with which stops the first one is cut short. -/
structure Coupling (σ τ : Type) where
  states : σ → τ → Prop
  stops : Stop → Stop → Prop
  cut : Stop → Prop

namespace Coupling

/-- What two robots may make of the same call. -/
inductive Answer (C : Coupling σ τ) :
    EStateM.Result Stop σ α → EStateM.Result Stop τ α → Prop
  | same {s t} (a : α) (h : C.states s t) : Answer C (.ok a s) (.ok a t)
  | stop {s t e f} (he : C.stops e f) (h : C.states s t) :
      Answer C (.error e s) (.error f t)
  | cut {s e o} (he : C.cut e) : Answer C (.error e s) o

/-- Two robots that answer every call alike. -/
structure Holds (C : Coupling σ τ) (robot : Robot σ) (other : Robot τ) :
    Prop where
  act : ∀ a s t, C.states s t → C.Answer (robot.act a s) (other.act a t)
  read : ∀ x s t, C.states s t →
    C.Answer (robot.read x s) (other.read x t)

/-- How a conduct may end with two robots. -/
inductive Ending (C : Coupling σ τ) (refused : Stop → ε) :
    Report σ ε α → Report τ ε α → Prop
  | value {s t} (trace : Trace) (a : α) (h : C.states s t) :
      Ending C refused ⟨trace, s, .ok a⟩ ⟨trace, t, .ok a⟩
  | error {s t} (trace : Trace) {e : ε} (he : ∀ why, e ≠ refused why)
      (h : C.states s t) :
      Ending C refused ⟨trace, s, .error e⟩ ⟨trace, t, .error e⟩
  | stop {s t} (trace : Trace) {e f : Stop} (he : C.stops e f)
      (h : C.states s t) :
      Ending C refused ⟨trace, s, .error (refused e)⟩
        ⟨trace, t, .error (refused f)⟩
  | cut {s} {trace : Trace} {e : Stop} {r : Report τ ε α} (he : C.cut e)
      (h : trace <+: r.trace) :
      Ending C refused ⟨trace, s, .error (refused e)⟩ r

/-- Two activities that go the same way from corresponding states. -/
def Coupled (C : Coupling σ τ) (refused : Stop → ε) (x : Activity σ ε α)
    (y : Activity τ ε α) : Prop :=
  ∀ s t, C.states s t → C.Ending refused (x s) (y t)

variable {C : Coupling σ τ} {refused : Stop → ε}

/-- What both have gone through before makes no difference. -/
theorem Ending.after {r : Report σ ε α} {q : Report τ ε α}
    (h : C.Ending refused r q) (before : Trace) :
    C.Ending refused ⟨before ++ r.trace, r.state, r.result⟩
      ⟨before ++ q.trace, q.state, q.result⟩ := by
  cases h with
  | value trace a h => exact .value _ a h
  | error trace he h => exact .error _ he h
  | stop trace he h => exact .stop _ he h
  | cut he h => exact .cut he ((List.prefix_append_right_inj before).2 h)

namespace Coupled

theorem pure (a : α) :
    Coupled C refused (Pure.pure a) (Pure.pure a) :=
  fun _ _ h => .value [] a h

theorem fail {e : ε} (he : ∀ why, e ≠ refused why) :
    Coupled C refused (.fail e : Activity σ ε α) (.fail e) :=
  fun _ _ h => .error [] he h

theorem note (n : Note) : Coupled C refused (.note n) (.note n) :=
  fun _ _ h => .value [.note n] () h

theorem request {ask : EStateM Stop σ α} {ask' : EStateM Stop τ α}
    {answered : α → Call}
    (h : ∀ s t, C.states s t → C.Answer (ask s) (ask' t)) :
    Coupled C refused (.request ask answered refused)
      (.request ask' answered refused) := by
  intro s t hst
  have hanswer := h s t hst
  cases hask : ask s with
  | ok a u =>
      rw [hask] at hanswer
      cases hask' : ask' t with
      | ok b v =>
          rw [hask'] at hanswer
          rw [Activity.request_of_ok hask, Activity.request_of_ok hask']
          cases hanswer with
          | same a h => exact .value _ a h
      | error f v =>
          rw [hask'] at hanswer
          cases hanswer
  | error e u =>
      rw [hask] at hanswer
      rw [Activity.request_of_error hask]
      cases hask' : ask' t with
      | ok b v =>
          rw [hask'] at hanswer
          cases hanswer with
          | cut he => exact .cut he List.nil_prefix
      | error f v =>
          rw [hask'] at hanswer
          rw [Activity.request_of_error hask']
          cases hanswer with
          | stop he h => exact .stop [] he h
          | cut he => exact .cut he List.nil_prefix

/-- What is done first is at the beginning of the trace. -/
theorem trace_prefix_bind (y : Activity τ ε α) (g : α → Activity τ ε β)
    (t : τ) : (y t).trace <+: ((y >>= g) t).trace := by
  cases hres : y t with
  | mk trace u result =>
      cases result with
      | ok a =>
          rw [Activity.bind_of_ok hres]
          exact List.prefix_append trace _
      | error e =>
          refine ⟨[], ?_⟩
          rw [Activity.bind_of_error hres]
          exact List.append_nil trace

theorem bind {x : Activity σ ε α} {y : Activity τ ε α}
    {f : α → Activity σ ε β} {g : α → Activity τ ε β}
    (hx : Coupled C refused x y) (hf : ∀ a, Coupled C refused (f a) (g a)) :
    Coupled C refused (x >>= f) (y >>= g) := by
  intro s t hst
  have hending := hx s t hst
  have hprefix := trace_prefix_bind y g t
  cases hres : x s with
  | mk trace u result =>
      cases hres' : y t with
      | mk trace' v result' =>
          rw [hres, hres'] at hending
          cases hending with
          | value trace a h =>
              rw [Activity.bind_of_ok hres, Activity.bind_of_ok hres']
              exact (hf a u v h).after trace
          | error trace he h =>
              rw [Activity.bind_of_error hres, Activity.bind_of_error hres']
              exact .error trace he h
          | stop trace he h =>
              rw [Activity.bind_of_error hres, Activity.bind_of_error hres']
              exact .stop trace he h
          | cut he h =>
              rw [hres'] at hprefix
              rw [Activity.bind_of_error hres]
              exact .cut he (h.trans hprefix)

end Coupled

/-- With coupled robots a stepwise conduct goes the same way. -/
theorem Holds.coupled {robot : Robot σ} {other : Robot τ}
    (h : C.Holds robot other) {x : Conduct ε α}
    (hx : Conduct.Stepwise refused x) :
    C.Coupled refused (x σ robot) (x τ other) := by
  induction hx with
  | pure a => exact .pure a
  | fail e he => exact .fail he
  | note n => exact .note n
  | act a => exact .request (h.act a)
  | read x => exact .request (h.read x)
  | bind hx hf ihx ihf => exact .bind ihx ihf

end Coupling

end RobotLang
