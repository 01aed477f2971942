/-
What a reading consumes, token by token.

A reading is put together from steps, and a step takes the next token or
none. So a run of a reading has a list of words that its steps have taken,
one after another, whether it ends with a value or breaks off
(`Consumes`). Nothing is said there about the tokens as a whole. That the
words taken are the words of the tokens in front of those that are left, in
their order and none of them twice, is by induction on the run
(`Consumes.map_value`): where two readings follow each other, the second one
begins with what the first one has left.
-/
import RobotLang.Proofs.Reading.Rules

namespace RobotLang.Reading

variable {α β : Type}

/-- A run of a reading on some tokens: the words that it consumes, in order,
and what it ends with. -/
inductive Consumes : {α : Type} → Reading α → List Token → List String →
    EStateM.Result Refusal (List Token) α → Prop
  | pure {α : Type} (a : α) (ts : List Token) :
      Consumes (Pure.pure a) ts [] (.ok a ts)
  | throw {α : Type} (e : Refusal) (ts : List Token) :
      Consumes (MonadExcept.throw e : Reading α) ts [] (.error e ts)
  | refuse {α : Type} (reason : Reason) (ts : List Token) :
      Consumes (refuse reason : Reading α) ts []
        (.error (.rejected (.before reason ts)) ts)
  | peek (ts : List Token) : Consumes peek ts [] (.ok ts.head? ts)
  | sees (test : String → Bool) (ts : List Token) :
      Consumes (sees test) ts [] (.ok (ts.head?.any fun t => test t.value) ts)
  | atEnd (ts : List Token) : Consumes atEnd ts [] (.ok ts.isEmpty ts)
  | next (t : Token) (ts : List Token) :
      Consumes next (t :: ts) [t.value] (.ok t.value ts)
  | nextless :
      Consumes next [] [] (.error (.rejected ⟨.endOfInput, [], none, none⟩) [])
  | accept {α : Type} {meaning : String → Option α} {t : Token} {a : α}
      (h : meaning t.value = some a) (ts : List Token) :
      Consumes (accept meaning) (t :: ts) [t.value] (.ok (some a) ts)
  | passOver {α : Type} {meaning : String → Option α} {ts : List Token}
      (h : ∀ w, nextWord ts = some w → meaning w = none) :
      Consumes (accept meaning) ts [] (.ok none ts)
  | bind {α β : Type} {r : Reading α} {f : α → Reading β}
      {ts mid : List Token} {a : α} {ws vs : List String}
      {res : EStateM.Result Refusal (List Token) β}
      (hr : Consumes r ts ws (.ok a mid)) (hf : Consumes (f a) mid vs res) :
      Consumes (r >>= f) ts (ws ++ vs) res
  | breakOff {α β : Type} {r : Reading α} (f : α → Reading β)
      {ts rest : List Token} {e : Refusal} {ws : List String}
      (hr : Consumes r ts ws (.error e rest)) :
      Consumes (r >>= f) ts ws (.error e rest)
  | measured {α : Type} {r : Nat → Reading α} {ts : List Token}
      {ws : List String} {res : EStateM.Result Refusal (List Token) α}
      (h : Consumes (r ts.length) ts ws res) :
      Consumes (fun ts => r ts.length ts) ts ws res

namespace Consumes

variable {r : Reading α} {f : α → Reading β} {ts : List Token}
  {ws vs : List String} {res : EStateM.Result Refusal (List Token) α}

/-- A run ends with what the reading ends with. -/
theorem result (h : Consumes r ts ws res) : res = r ts := by
  induction h with
  | pure | throw | refuse | peek | sees | atEnd | next | nextless => rfl
  | accept h ts => rw [accept_cons, h]
  | passOver h => exact (accept_eq_none_iff.2 ⟨rfl, h⟩).symm
  | @bind α β r f ts mid a ws vs res hr hf ihr ihf =>
      show _ = EStateM.bind r f ts
      unfold EStateM.bind
      rw [← ihr]
      exact ihf
  | @breakOff α β r f ts rest e ws hr ihr =>
      show _ = EStateM.bind r f ts
      unfold EStateM.bind
      rw [← ihr]
  | measured h ih => exact ih

/-- What is consumed are the words in front of those that are left. -/
theorem map_value (h : Consumes r ts ws res) :
    ts.map Token.value = ws ++ (left res).map Token.value := by
  induction h with
  | pure | throw | refuse | peek | sees | atEnd | next | nextless => rfl
  | accept h ts => rfl
  | passOver h => rfl
  | @bind α β r f ts mid a ws vs res hr hf ihr ihf =>
      rw [ihr, List.append_assoc]
      exact congrArg (ws ++ ·) ihf
  | breakOff f hr ihr => exact ihr
  | measured h ih => exact ih

/-- A reading consumes no other words on the same tokens. -/
theorem unique {res' : EStateM.Result Refusal (List Token) α}
    (h : Consumes r ts ws res) (h' : Consumes r ts vs res') : ws = vs := by
  have hwords := h.map_value
  rw [h'.map_value, h.result, h'.result] at hwords
  exact (List.append_cancel_right hwords).symm

end Consumes

/-- What may be taken is taken if it has a meaning. -/
theorem accept_runs (meaning : String → Option α) (ts : List Token) :
    (∃ t rest a, ts = t :: rest ∧ meaning t.value = some a
      ∧ Consumes (accept meaning) ts [t.value] (.ok (some a) rest))
    ∨ Consumes (accept meaning) ts [] (.ok none ts) := by
  cases ts with
  | nil => exact .inr (.passOver fun w hw => by cases hw)
  | cons t ts =>
      cases h : meaning t.value with
      | some a => exact .inl ⟨t, ts, a, rfl, h, .accept h ts⟩
      | none =>
          refine .inr (.passOver fun w hw => ?_)
          rw [← Option.some.inj hw]
          exact h

-- ============================================================ every run

/-- Every run of the reading consumes some words, on any tokens. -/
def Accountable (r : Reading α) : Prop :=
  ∀ ts, ∃ ws, Consumes r ts ws (r ts)

namespace Accountable

variable {r : Reading α} {f : α → Reading β}

theorem pure (a : α) : Accountable (Pure.pure a) := fun ts =>
  ⟨[], .pure a ts⟩

theorem bind (hr : Accountable r) (hf : ∀ a, Accountable (f a)) :
    Accountable (r >>= f) := by
  intro ts
  show ∃ ws, Consumes (r >>= f) ts ws (EStateM.bind r f ts)
  unfold EStateM.bind
  obtain ⟨ws, hws⟩ := hr ts
  cases hres : r ts with
  | ok a mid =>
      rw [hres] at hws
      obtain ⟨vs, hvs⟩ := hf a mid
      exact ⟨ws ++ vs, .bind hws hvs⟩
  | error e rest =>
      rw [hres] at hws
      exact ⟨ws, .breakOff f hws⟩

theorem refuse (reason : Reason) :
    Accountable (Reading.refuse reason : Reading α) := fun ts =>
  ⟨[], .refuse reason ts⟩

theorem of_run {r : Reading α}
    (h : ∀ ts, ∃ ws res, Consumes r ts ws res) : Accountable r := by
  intro ts
  obtain ⟨ws, res, hrun⟩ := h ts
  rw [← hrun.result]
  exact ⟨ws, hrun⟩

theorem accept (meaning : String → Option α) :
    Accountable (Reading.accept meaning) := by
  refine of_run fun ts => ?_
  rcases accept_runs meaning ts with ⟨t, rest, a, -, -, hrun⟩ | hrun
  · exact ⟨_, _, hrun⟩
  · exact ⟨_, _, hrun⟩

theorem require (meaning : String → Option α) (reason : Reason) :
    Accountable (Reading.require meaning reason) := by
  refine (accept meaning).bind fun o => ?_
  cases o with
  | some a => exact .pure a
  | none => exact .refuse reason

/-- A numeral is consumed also if it has too many digits. -/
theorem numeral : Accountable Reading.numeral := by
  refine (require _ _).bind fun w => ?_
  dsimp only
  split
  · exact bind (fun ts => ⟨[], .throw _ ts⟩) fun _ => .pure _
  · exact .pure _

theorem next : Accountable Reading.next := by
  intro ts
  cases ts with
  | nil => exact ⟨[], .nextless⟩
  | cons t ts => exact ⟨[t.value], .next t ts⟩

theorem of_plain (h : Plain r) : Accountable r := by
  induction h with
  | pure a => exact .pure a
  | refuse reason => exact .refuse reason
  | numeral => exact .numeral
  | sees test => exact fun ts => ⟨[], .sees test ts⟩
  | atEnd => exact fun ts => ⟨[], .atEnd ts⟩
  | peekWord hf ih => exact bind (fun ts => ⟨[], .peek ts⟩) fun t => ih _
  | accept meaning => exact .accept meaning
  | bind hr hf ihr ihf => exact ihr.bind ihf

/-- The rules take a number that is measured by the tokens. -/
theorem read (rule : Rule) : Accountable rule.read := by
  intro ts
  obtain ⟨ws, hws⟩ := of_plain (.upTo ts.length rule) ts
  exact ⟨ws, .measured (r := fun n => rule.upTo n) hws⟩

end Accountable

end RobotLang.Reading
