/-
Readings that follow a language.

A reading follows a language, which is a relation between values and
words, if

- the words that it takes for a value belong to that value in the
  language, and
- the words that it has taken when it is rejected can be completed to words
  of the language, whatever may have followed them.

The second part needs words for everything that is still to come. So a
language that is followed has words at all, and a sequence of readings is
treated from the left: the rest of it has to follow the language of what
may come behind the words already taken.
-/
import RobotLang.Proofs.Reading.Steps

namespace RobotLang.Reading

variable {α β : Type}

-- =========================================================== following

/-- The reading takes words of the language for a value, and when it is
rejected it has taken the beginning of such words. -/
structure Follows (r : Reading α) (L : α → List String → Prop) :
    Prop where
  inhabited : ∃ a ws, L a ws
  ok : ∀ {ts a rest}, r ts = .ok a rest →
    ∃ taken, ts = taken ++ rest ∧ L a (taken.map Token.value)
  stuck : ∀ {ts f rest}, r ts = .error (.rejected f) rest →
    ∃ taken more a, ts = taken ++ rest
      ∧ L a (taken.map Token.value ++ more)

namespace Follows

variable {L : α → List String → Prop}

theorem pure {a : α} (h : L a []) : Follows (Pure.pure a) L where
  inhabited := ⟨a, [], h⟩
  ok := by
    intro ts b rest hr
    cases hr
    exact ⟨[], rfl, h⟩
  stuck := by
    intro ts f rest hr
    cases hr

/-- A refusal has taken nothing, which any words complete. -/
theorem refuse {reason : Reason} (h : ∃ a ws, L a ws) :
    Follows (refuse reason) L where
  inhabited := h
  ok := by
    intro ts a rest hr
    cases hr
  stuck := by
    intro ts f rest hr
    obtain ⟨a, ws, hL⟩ := h
    cases hr
    exact ⟨[], ws, a, rfl, hL⟩

/-- What follows a language follows a larger one. -/
theorem mono {r : Reading α} {M : α → List String → Prop}
    (hr : Follows r L) (hLM : ∀ a ws, L a ws → M a ws) : Follows r M where
  inhabited := by
    obtain ⟨a, ws, h⟩ := hr.inhabited
    exact ⟨a, ws, hLM a ws h⟩
  ok := by
    intro ts a rest h
    obtain ⟨taken, hts, hL⟩ := hr.ok h
    exact ⟨taken, hts, hLM _ _ hL⟩
  stuck := by
    intro ts f rest h
    obtain ⟨taken, more, a, hts, hL⟩ := hr.stuck h
    exact ⟨taken, more, a, hts, hLM _ _ hL⟩

theorem ite {c : Prop} [Decidable c] {r s : Reading α}
    (hr : Follows r L) (hs : Follows s L) :
    Follows (if c then r else s) L := by
  split
  · exact hr
  · exact hs

/-- In a sequence the second reading follows what may come behind the words
of the first. -/
theorem bind {r : Reading α} {f : α → Reading β}
    {M : β → List String → Prop} (hr : Follows r L)
    (hf : ∀ a u, L a u → Follows (f a) fun b ws => M b (u ++ ws)) :
    Follows (r >>= f) M where
  inhabited := by
    obtain ⟨a, u, ha⟩ := hr.inhabited
    obtain ⟨b, ws, hb⟩ := (hf a u ha).inhabited
    exact ⟨b, u ++ ws, hb⟩
  ok := by
    intro ts b rest h
    obtain ⟨a, mid, ha, hb⟩ := bind_eq_ok_iff.1 h
    obtain ⟨x, rfl, hx⟩ := hr.ok ha
    obtain ⟨y, rfl, hy⟩ := (hf a _ hx).ok hb
    refine ⟨x ++ y, (List.append_assoc ..).symm, ?_⟩
    rw [List.map_append]
    exact hy
  stuck := by
    intro ts e rest h
    rcases bind_eq_error_iff.1 h with ha | ⟨a, mid, ha, hb⟩
    · -- the second reading has words behind any of the first
      obtain ⟨x, more, a, rfl, hx⟩ := hr.stuck ha
      obtain ⟨b, ws, hb⟩ := (hf a _ hx).inhabited
      refine ⟨x, more ++ ws, b, rfl, ?_⟩
      rw [← List.append_assoc]
      exact hb
    · obtain ⟨x, rfl, hx⟩ := hr.ok ha
      obtain ⟨y, more, b, rfl, hy⟩ := (hf a _ hx).stuck hb
      refine ⟨x ++ y, more, b, (List.append_assoc ..).symm, ?_⟩
      rw [List.map_append, List.append_assoc]
      exact hy

-- ----------------------------------------------------------- the steps

/-- A reading that only looks does not change what is to be followed. -/
theorem look_bind {r : Reading α} {f : α → Reading β}
    {M : β → List String → Prop} (hr : Follows r fun _ ws => ws = [])
    (hf : ∀ a, Follows (f a) M) : Follows (r >>= f) M := by
  refine hr.bind fun a u hu => ?_
  rw [hu]
  exact hf a

theorem look {r : Reading α} {value : List Token → α}
    (h : ∀ ts, r ts = .ok (value ts) ts) :
    Follows r fun _ ws => ws = [] where
  inhabited := ⟨value [], [], rfl⟩
  ok := by
    intro ts a rest hr
    rw [h] at hr
    injection hr with _ hr
    exact ⟨[], hr, rfl⟩
  stuck := by
    intro ts f rest hr
    rw [h] at hr
    cases hr

theorem sees (test : String → Bool) :
    Follows (sees test) fun _ ws => ws = [] := look fun _ => rfl

theorem atEnd : Follows atEnd fun _ ws => ws = [] := look fun _ => rfl

theorem peek : Follows peek fun _ ws => ws = [] := look fun _ => rfl

theorem begin : Follows begin fun _ ws => ws = [] :=
  .look_bind .atEnd fun _ => .ite (.refuse ⟨(), [], rfl⟩) (.pure rfl)

theorem require {meaning : String → Option α} {reason : Reason}
    (hm : ∃ a w, meaning w = some a) :
    Follows (require meaning reason)
      fun a ws => ∃ w, ws = [w] ∧ meaning w = some a where
  inhabited := by
    obtain ⟨a, w, hw⟩ := hm
    exact ⟨a, [w], w, rfl, hw⟩
  ok := by
    intro ts a rest h
    cases ts with
    | nil => cases h
    | cons t ts =>
        rw [require_cons] at h
        split at h
        · next b hb =>
          injection h with hab hts
          rw [hab] at hb
          exact ⟨[t], by rw [hts]; rfl, t.value, rfl, hb⟩
        · cases h
  stuck := by
    intro ts f rest h
    obtain ⟨a, w, hw⟩ := hm
    refine ⟨[], [w], a, ?_, w, rfl, hw⟩
    cases ts with
    | nil =>
        cases h
        rfl
    | cons t ts =>
        rw [require_cons] at h
        split at h
        · cases h
        · cases h
          rfl

/-- A word with a meaning, and what may come behind it. -/
theorem require_bind {meaning : String → Option α} {reason : Reason}
    {f : α → Reading β} {M : β → List String → Prop}
    (hm : ∃ a w, meaning w = some a)
    (hf : ∀ a w, meaning w = some a →
      Follows (f a) fun b ws => M b (w :: ws)) :
    Follows (Reading.require meaning reason >>= f) M := by
  refine (require hm).bind fun a u hu => ?_
  obtain ⟨w, rfl, hw⟩ := hu
  exact hf a w hw

theorem word_bind {w : String} {reason : Reason} {f : Unit → Reading β}
    {M : β → List String → Prop}
    (hf : Follows (f ()) fun b ws => M b (w :: ws)) :
    Follows (word w reason >>= f) M := by
  have hword : Follows (word w reason) fun _ ws => ws = [w] := by
    refine require_bind ⟨w, w, by simp [passing]⟩ fun v w' hw => .pure ?_
    rw [eq_of_beq (eq_of_passing hw).2]
  refine hword.bind fun _ u hu => ?_
  rw [hu]
  exact hf

theorem mark_bind {m : Mark} {reason : Reason} {f : Unit → Reading β}
    {M : β → List String → Prop}
    (hf : Follows (f ()) fun b ws => M b (m.word :: ws)) :
    Follows (mark m reason >>= f) M := word_bind hf

/-- An optional word: with it the rest follows what may come behind the
word, without it what may come at once. -/
theorem accept_bind {meaning : String → Option α}
    {f : Option α → Reading β} {M : β → List String → Prop}
    (hnone : Follows (f none) M)
    (hsome : ∀ a w, meaning w = some a →
      Follows (f (some a)) fun b ws => M b (w :: ws)) :
    Follows (accept meaning >>= f) M := by
  have haccept : Follows (accept meaning) fun o ws =>
      (o = none ∧ ws = [])
        ∨ ∃ a w, o = some a ∧ ws = [w] ∧ meaning w = some a := by
    refine ⟨⟨none, [], .inl ⟨rfl, rfl⟩⟩, ?_, ?_⟩
    · intro ts o rest h
      cases ts with
      | nil =>
          cases h
          exact ⟨[], rfl, .inl ⟨rfl, rfl⟩⟩
      | cons t ts =>
          rw [accept_cons] at h
          split at h
          · next a ha =>
            cases h
            exact ⟨[t], rfl, .inr ⟨a, t.value, rfl, rfl, ha⟩⟩
          · cases h
            exact ⟨[], rfl, .inl ⟨rfl, rfl⟩⟩
    · intro ts e rest h
      cases ts with
      | nil => cases h
      | cons t ts =>
          rw [accept_cons] at h
          split at h <;> cases h
  refine haccept.bind fun o u hu => ?_
  rcases hu with ⟨rfl, rfl⟩ | ⟨a, w, rfl, rfl, hw⟩
  · exact hnone
  · exact hsome a w hw

end Follows

end RobotLang.Reading
