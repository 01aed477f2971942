/-
The counting robot.

What it makes of a call depends on its allowances and supplies, and it
stops in the manner that its kind has (`Meter.act_eq`, `Meter.read_eq`).
Four facts about it follow from these two equations. It answers no more
calls than its allowance of them, if it has one. The readings that it gives
of a sensor with a queue come from the front of the queue. Beside a robot
with the same supplies and wider allowances it answers alike until it is
out of an allowance. And a robot that stops in the other manner answers
alike throughout.
-/
import RobotLang.Proofs.Activity.Coupling
import RobotLang.Proofs.Robot.Bounded
import RobotLang.Robot.Metered

namespace RobotLang

/-- The stop of a robot that crashes or does not. -/
def Stop.ofKind (crashes : Bool) (message : String) : Stop :=
  if crashes then .crashed message else .interrupted message

@[simp] theorem Stop.message_ofKind (crashes : Bool) (message : String) :
    (ofKind crashes message).message = message := by
  cases crashes <;> rfl

/-- The readings of a sensor among some calls. -/
def Sensor.given (x : Sensor) (cs : List Call) : List Int :=
  cs.filterMap fun
    | .told y v => if y = x then some v else none
    | .did _ => none

namespace Meter

variable {m a b : Meter}

-- ============================================================== answers

/-- Whether an allowance is used up. -/
def spent (allowance : Option Int) (used : Nat) : Bool :=
  allowance.any (· ≤ (used : Int))

def outOfActions (m : Meter) : String :=
  "out of actions after " ++ toString m.actions

def outOfCalls (m : Meter) : String :=
  "out of events after " ++ toString m.calls

theorem stop_eq {α : Type} (message : String) (m : Meter) :
    (stop message : EStateM Stop Meter α) m
      = .error (.ofKind m.crashes message) m := rfl

theorem checkActions_eq (m : Meter) :
    checkActions m
      = if spent m.maxActions m.actions then
          .error (.ofKind m.crashes m.outOfActions) m
        else .ok () m := by
  show (if spent m.maxActions m.actions then stop m.outOfActions
    else pure () : EStateM Stop Meter Unit) m = _
  split
  · exact stop_eq _ m
  · rfl

theorem checkCalls_eq (m : Meter) :
    checkCalls m
      = if spent m.callLimit m.calls then
          .error (.ofKind m.crashes m.outOfCalls) m
        else .ok () m := by
  show (if spent m.callLimit m.calls then stop m.outOfCalls
    else pure () : EStateM Stop Meter Unit) m = _
  split
  · exact stop_eq _ m
  · rfl

/-- An action is counted if both allowances last. -/
theorem act_eq (x : Action) (m : Meter) :
    act x m
      = if spent m.maxActions m.actions then
          .error (.ofKind m.crashes m.outOfActions) m
        else if spent m.callLimit m.calls then
          .error (.ofKind m.crashes m.outOfCalls) m
        else .ok () { m with actions := m.actions + 1 } := by
  show EStateM.bind checkActions
    (fun _ => EStateM.bind checkCalls fun _ => modify _) m = _
  rw [EStateM.bind, checkActions_eq]
  by_cases hactions : spent m.maxActions m.actions = true
  · rw [if_pos hactions, if_pos hactions]
  · rw [if_neg hactions, if_neg hactions]
    show EStateM.bind checkCalls _ m = _
    rw [EStateM.bind, checkCalls_eq]
    by_cases hcalls : spent m.callLimit m.calls = true
    · rw [if_pos hcalls, if_pos hcalls]
    · rw [if_neg hcalls, if_neg hcalls]
      rfl

/-- The next reading of a supply, and the robot when it has been read. -/
def next (m : Meter) (x : Sensor) : Option (Int × Meter) :=
  match m.supply x with
  | .queue [] => none
  | .queue (v :: vs) =>
    some (v, { m.resupply x (.queue vs) with reads := m.reads + 1 })
  | .constant v => some (v, { m with reads := m.reads + 1 })

/-- A sensor is read if the allowance of calls lasts and the supply does. -/
theorem read_eq (x : Sensor) (m : Meter) :
    read x m
      = if spent m.callLimit m.calls then
          .error (.ofKind m.crashes m.outOfCalls) m
        else match m.next x with
          | none =>
            .error (.ofKind m.crashes ("no more readings for " ++ x.word)) m
          | some (v, m) => .ok v m := by
  show EStateM.bind checkCalls (fun _ => EStateM.bind get _) m = _
  rw [EStateM.bind, checkCalls_eq]
  by_cases hcalls : spent m.callLimit m.calls = true
  · rw [if_pos hcalls, if_pos hcalls]
  · rw [if_neg hcalls, if_neg hcalls]
    unfold next
    show (match m.supply x with
      | .queue [] => stop ("no more readings for " ++ x.word)
      | .queue (v :: vs) => do
        modify fun m =>
          { m.resupply x (.queue vs) with reads := m.reads + 1 }
        return v
      | .constant v => do
        modify fun m => { m with reads := m.reads + 1 }
        return v : EStateM Stop Meter Int) m = _
    cases m.supply x with
    | constant v => rfl
    | queue vs =>
        cases vs with
        | nil => rfl
        | cons v vs => rfl

/-- A reading is one more call and changes nothing but the supplies. -/
theorem next_eq {x : Sensor} {v : Int} (h : a.next x = some (v, b)) :
    b = { a with supplies := b.supplies, reads := a.reads + 1 } := by
  unfold next at h
  split at h <;> cases h <;> rfl

theorem act_ok {x : Action} {u : Unit} (h : act x a = .ok u b) :
    b = { a with actions := a.actions + 1 } := by
  rw [act_eq] at h
  split at h
  · cases h
  · split at h
    · cases h
    · cases h
      rfl

theorem read_ok {x : Sensor} {v : Int} (h : read x a = .ok v b) :
    a.next x = some (v, b) := by
  rw [read_eq] at h
  split at h
  · cases h
  · split at h
    · cases h
    · next w m hnext =>
      cases h
      exact hnext

-- ======================================================== boundedness

/-- Every answer is counted. -/
theorem calls_of_answers {cs : List Call} (h : robot.Answers a cs b) :
    b.calls = a.calls + cs.length ∧ b.callLimit = a.callLimit := by
  induction h with
  | none s => exact ⟨rfl, rfl⟩
  | @did s t u x cs h _ ih =>
      have ht := act_ok (x := x) h
      subst ht
      obtain ⟨hcalls, hlimit⟩ := ih
      refine ⟨?_, hlimit⟩
      rw [hcalls, List.length_cons]
      unfold calls
      dsimp only
      omega
  | told h _ ih =>
      have ht := next_eq (read_ok h)
      rw [ht] at ih
      obtain ⟨hcalls, hlimit⟩ := ih
      refine ⟨?_, hlimit⟩
      rw [hcalls, List.length_cons]
      unfold calls
      dsimp only
      omega

/-- An allowance of calls that is used up lets no call through. -/
theorem refuses_of_spent (h : spent m.callLimit m.calls = true) :
    robot.Refuses m := by
  constructor
  · intro x
    show ∃ why t, act x m = .error why t
    rw [act_eq, if_pos h]
    by_cases hactions : spent m.maxActions m.actions = true
    · rw [if_pos hactions]
      exact ⟨_, _, rfl⟩
    · rw [if_neg hactions]
      exact ⟨_, _, rfl⟩
  · intro x
    show ∃ why t, read x m = .error why t
    rw [read_eq, if_pos h]
    exact ⟨_, _, rfl⟩

/-- A counting robot answers no more calls than its allowance has left. -/
theorem bounded {limit : Int} (h : m.callLimit = some limit) :
    robot.Bounded (limit - m.calls).toNat m := by
  intro cs t hcs hlen
  obtain ⟨hcalls, hlimit⟩ := calls_of_answers hcs
  apply refuses_of_spent
  rw [hlimit, h]
  unfold spent
  simp only [Option.any_some, decide_eq_true_eq]
  omega

-- ============================================================ supplies

/-- Where a sensor finds its supply when another one has been put in for
some sensor. -/
theorem find?_resupply (m : Meter) (x y : Sensor) (supply : Supply) :
    (m.resupply x supply).supplies.find? (·.1 == y)
      = (m.supplies.find? (·.1 == y)).map fun p =>
          if p.1 = x then (x, supply) else p := by
  unfold resupply
  dsimp only
  rw [List.find?_map]
  congr 2
  funext p
  by_cases hp : p.1 = x
  · simp [hp]
  · simp [hp]

theorem supply_resupply_self {x : Sensor} {vs : List Int} (supply : Supply)
    (h : m.supply x = .queue vs) : (m.resupply x supply).supply x = supply := by
  unfold Meter.supply at h ⊢
  rw [find?_resupply]
  cases hfind : m.supplies.find? (·.1 == x) with
  | none =>
      rw [hfind] at h
      cases h
  | some p =>
      have hp : p.1 = x := by simpa using List.find?_some hfind
      simp [hp]

theorem supply_resupply_of_ne {x y : Sensor} (supply : Supply)
    (h : y ≠ x) : (m.resupply x supply).supply y = m.supply y := by
  unfold Meter.supply
  rw [find?_resupply]
  cases hfind : m.supplies.find? (·.1 == y) with
  | none => rfl
  | some p =>
      have hp : p.1 = y := by simpa using List.find?_some hfind
      have hne : p.1 ≠ x := hp ▸ h
      simp [hne]

/-- A reading of a sensor with a queue comes from its front, and one of
another sensor leaves the queue as it is. -/
theorem supply_of_next {x y : Sensor} {v : Int} {vs : List Int}
    (h : a.next y = some (v, b)) (hvs : a.supply x = .queue vs) :
    ∃ left, b.supply x = .queue left
      ∧ vs = x.given [.told y v] ++ left := by
  by_cases hx : y = x
  · subst hx
    unfold next at h
    rw [hvs] at h
    cases vs with
    | nil => cases h
    | cons w ws =>
        cases h
        refine ⟨ws, supply_resupply_self _ hvs, ?_⟩
        simp [Sensor.given]
  · have hgiven : x.given [.told y v] = [] := by simp [Sensor.given, hx]
    refine ⟨vs, ?_, by rw [hgiven]; rfl⟩
    rw [← hvs]
    unfold next at h
    split at h
    · cases h
    · cases h
      exact supply_resupply_of_ne _ fun he => hx he.symm
    · cases h
      rfl

/-- The readings that were given of a sensor with a queue came, in order,
from the front of it. -/
theorem supply_of_answers {x : Sensor} {vs : List Int} {cs : List Call}
    (h : robot.Answers a cs b) (hvs : a.supply x = .queue vs) :
    ∃ left, b.supply x = .queue left ∧ vs = x.given cs ++ left := by
  induction h generalizing vs with
  | none s => exact ⟨vs, hvs, rfl⟩
  | @did s t u y cs hact _ ih =>
      have ht := act_ok (x := y) hact
      subst ht
      exact ih hvs
  | @told s t u y v cs hread _ ih =>
      obtain ⟨rest, hrest, hfirst⟩ := supply_of_next (read_ok hread) hvs
      obtain ⟨left, hleft, hmore⟩ := ih hrest
      refine ⟨left, hleft, ?_⟩
      rw [hfirst, hmore, ← List.append_assoc]
      congr 1
      exact List.filterMap_append.symm

-- ==================================================== wider allowances

/-- One allowance is at most another; none at all is the widest. -/
def AtMost : Option Int → Option Int → Prop
  | _, none => True
  | none, some _ => False
  | some x, some y => x ≤ y

theorem AtMost.not_spent {x y : Option Int} (h : AtMost x y) {n : Nat}
    (hx : ¬ spent x n = true) : ¬ spent y n = true := by
  cases y with
  | none => exact fun h => by cases h
  | some y =>
      cases x with
      | none => exact h.elim
      | some x =>
          have hle : x ≤ y := h
          unfold spent at hx ⊢
          simp only [Option.any_some, decide_eq_true_eq] at hx ⊢
          omega

/-- The second robot has the same supplies, has counted the same and has
allowances at least as wide. -/
structure Within (a b : Meter) : Prop where
  supplies : a.supplies = b.supplies
  actions : a.actions = b.actions
  reads : a.reads = b.reads
  maxActions : AtMost a.maxActions b.maxActions
  callLimit : AtMost a.callLimit b.callLimit

/-- The message of a robot that is out of an allowance. -/
def IsOutOf (message : String) : Prop :=
  ∃ n : Nat, message = "out of actions after " ++ toString n
    ∨ message = "out of events after " ++ toString n

namespace Within

theorem calls (h : a.Within b) : a.calls = b.calls := by
  unfold Meter.calls
  rw [h.actions, h.reads]

theorem supply (h : a.Within b) (x : Sensor) : a.supply x = b.supply x := by
  unfold Meter.supply
  rw [h.supplies]

theorem left (h : a.Within b) : a.left = b.left := by
  unfold Meter.left
  rw [h.supplies]

theorem act (h : a.Within b) :
    Within { a with actions := a.actions + 1 }
      { b with actions := b.actions + 1 } :=
  ⟨h.supplies, congrArg (· + 1) h.actions, h.reads, h.maxActions,
    h.callLimit⟩

/-- The two give the same reading or have both none left. -/
theorem next (h : a.Within b) (x : Sensor) :
    (a.next x = none ∧ b.next x = none)
      ∨ ∃ v a' b', a.next x = some (v, a') ∧ b.next x = some (v, b')
        ∧ a'.Within b' := by
  unfold Meter.next
  rw [← h.supply x]
  have hreads : a.reads + 1 = b.reads + 1 := congrArg (· + 1) h.reads
  split
  · exact .inl ⟨rfl, rfl⟩
  · next v vs _ =>
    refine .inr ⟨v, _, _, rfl, rfl, ?_, h.actions, hreads, h.maxActions,
      h.callLimit⟩
    show (a.resupply x (.queue vs)).supplies
      = (b.resupply x (.queue vs)).supplies
    unfold resupply
    rw [h.supplies]
  · next v _ =>
    exact .inr ⟨v, _, _, rfl, rfl, h.supplies, h.actions, hreads,
      h.maxActions, h.callLimit⟩

end Within

theorem crashes_of_next {x : Sensor} {v : Int}
    (h : a.next x = some (v, b)) : b.crashes = a.crashes := by
  rw [next_eq h]

/-- A robot beside one with wider allowances, each with its manner to stop.
The first is cut short when it is out of an allowance. -/
def allowances (k k' : Bool) : Coupling Meter Meter where
  states a b := a.Within b ∧ a.crashes = k ∧ b.crashes = k'
  stops e f :=
    ∃ message, e = .ofKind k message ∧ f = .ofKind k' message
  cut e := ∃ message, IsOutOf message ∧ e = .ofKind k message

theorem allowances_hold (k k' : Bool) :
    (allowances k k').Holds robot robot where
  act x a b h := by
    obtain ⟨hwithin, rfl, rfl⟩ := h
    show Coupling.Answer _ (act x a) (act x b)
    rw [act_eq, act_eq]
    by_cases hactions : spent a.maxActions a.actions = true
    · rw [if_pos hactions]
      exact .cut ⟨_, ⟨a.actions, .inl rfl⟩, rfl⟩
    by_cases hcalls : spent a.callLimit a.calls = true
    · rw [if_neg hactions, if_pos hcalls]
      exact .cut ⟨_, ⟨a.calls, .inr rfl⟩, rfl⟩
    · have hactions' := hwithin.maxActions.not_spent hactions
      have hcalls' := hwithin.callLimit.not_spent hcalls
      rw [hwithin.actions] at hactions'
      rw [hwithin.calls] at hcalls'
      rw [if_neg hactions, if_neg hcalls, if_neg hactions', if_neg hcalls']
      exact .same () ⟨hwithin.act, rfl, rfl⟩
  read x a b h := by
    obtain ⟨hwithin, rfl, rfl⟩ := h
    show Coupling.Answer _ (read x a) (read x b)
    rw [read_eq, read_eq]
    by_cases hcalls : spent a.callLimit a.calls = true
    · rw [if_pos hcalls]
      exact .cut ⟨_, ⟨a.calls, .inr rfl⟩, rfl⟩
    · have hcalls' := hwithin.callLimit.not_spent hcalls
      rw [hwithin.calls] at hcalls'
      rw [if_neg hcalls, if_neg hcalls']
      rcases hwithin.next x with ⟨ha, hb⟩ | ⟨v, a', b', ha, hb, hnext⟩
      · rw [ha, hb]
        exact .stop ⟨_, rfl, rfl⟩ ⟨hwithin, rfl, rfl⟩
      · rw [ha, hb]
        exact .same v ⟨hnext, crashes_of_next ha, crashes_of_next hb⟩

-- =================================================== manners of stopping

/-- The robot with a given manner to stop. -/
def inManner (m : Meter) (crashes : Bool) : Meter :=
  { m with crashes := crashes }

theorem act_inManner (x : Action) (m : Meter) (k : Bool) :
    act x (m.inManner k)
      = if spent m.maxActions m.actions then
          .error (.ofKind k m.outOfActions) (m.inManner k)
        else if spent m.callLimit m.calls then
          .error (.ofKind k m.outOfCalls) (m.inManner k)
        else .ok () (inManner { m with actions := m.actions + 1 } k) :=
  act_eq x (m.inManner k)

theorem next_inManner (x : Sensor) (m : Meter) (k : Bool) :
    (m.inManner k).next x
      = (m.next x).map fun p => (p.1, p.2.inManner k) := by
  have hsupply : (m.inManner k).supply x = m.supply x := rfl
  unfold next
  rw [hsupply]
  cases m.supply x with
  | constant v => rfl
  | queue vs =>
      cases vs with
      | nil => rfl
      | cons v vs => rfl

theorem read_inManner (x : Sensor) (m : Meter) (k : Bool) :
    read x (m.inManner k)
      = if spent m.callLimit m.calls then
          .error (.ofKind k m.outOfCalls) (m.inManner k)
        else match m.next x with
          | none =>
            .error (.ofKind k ("no more readings for " ++ x.word))
              (m.inManner k)
          | some (v, m) => .ok v (m.inManner k) := by
  have hcalls : spent (m.inManner k).callLimit (m.inManner k).calls
      = spent m.callLimit m.calls := rfl
  rw [read_eq, hcalls, next_inManner]
  split
  · rfl
  · cases m.next x with
    | none => rfl
    | some p => rfl

/-- A robot beside the same robot, each with its manner to stop. -/
def manners (k k' : Bool) : Coupling Meter Meter where
  states a b := ∃ m : Meter, a = m.inManner k ∧ b = m.inManner k'
  stops e f :=
    ∃ message, e = .ofKind k message ∧ f = .ofKind k' message
  cut _ := False

theorem manners_hold (k k' : Bool) :
    (manners k k').Holds robot robot where
  act x a b h := by
    obtain ⟨m, rfl, rfl⟩ := h
    show Coupling.Answer _ (act x (m.inManner k)) (act x (m.inManner k'))
    rw [act_inManner, act_inManner]
    by_cases hactions : spent m.maxActions m.actions = true
    · rw [if_pos hactions, if_pos hactions]
      exact .stop ⟨_, rfl, rfl⟩ ⟨m, rfl, rfl⟩
    by_cases hcalls : spent m.callLimit m.calls = true
    · rw [if_neg hactions, if_neg hactions, if_pos hcalls, if_pos hcalls]
      exact .stop ⟨_, rfl, rfl⟩ ⟨m, rfl, rfl⟩
    · rw [if_neg hactions, if_neg hactions, if_neg hcalls, if_neg hcalls]
      exact .same () ⟨_, rfl, rfl⟩
  read x a b h := by
    obtain ⟨m, rfl, rfl⟩ := h
    show Coupling.Answer _ (read x (m.inManner k)) (read x (m.inManner k'))
    rw [read_inManner, read_inManner]
    by_cases hcalls : spent m.callLimit m.calls = true
    · rw [if_pos hcalls, if_pos hcalls]
      exact .stop ⟨_, rfl, rfl⟩ ⟨m, rfl, rfl⟩
    · rw [if_neg hcalls, if_neg hcalls]
      cases hnext : m.next x with
      | none => exact .stop ⟨_, rfl, rfl⟩ ⟨m, rfl, rfl⟩
      | some p => exact .same p.1 ⟨p.2, rfl, rfl⟩

end Meter

end RobotLang
