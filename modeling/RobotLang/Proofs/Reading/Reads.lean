/-
Readings that take given words.

`Reads r ws a follow` says that the reading takes tokens with these words
for the value, whatever tokens stand behind them, as long as the next word
is one that may follow. What may follow matters where a reading looks for
something optional: an amount, an `else`, or one more statement.
-/
import RobotLang.Proofs.Reading.Steps

namespace RobotLang.Reading

variable {α β : Type}

/-- No matter which word is next, or whether there is one. -/
def Anything (_ : Option String) : Prop := True

/-- The reading takes these words for the value in front of whatever may
follow. -/
def Reads (r : Reading α) (ws : List String) (a : α)
    (follow : Option String → Prop) : Prop :=
  ∀ toks rest, toks.map Token.value = ws → follow (nextWord rest) →
    r (toks ++ rest) = .ok a rest

namespace Reads

variable {ws u v : List String} {a : α} {b : β} {r : Reading α}
  {f : α → Reading β} {F G : Option String → Prop}

theorem mono (hr : Reads r ws a F) (hGF : ∀ next, G next → F next) :
    Reads r ws a G :=
  fun toks rest htoks hnext => hr toks rest htoks (hGF _ hnext)

theorem pure (a : α) (F : Option String → Prop) :
    Reads (Pure.pure a) [] a F := by
  intro toks rest htoks _
  rw [List.map_eq_nil_iff.1 htoks]
  rfl

/-- In a sequence the words of the second reading, or what may follow them,
have to be able to follow those of the first. -/
theorem bind_of_follow (hr : Reads r u a F) (hf : Reads (f a) v b G)
    (hFG : ∀ next, G next → F (v.head?.or next)) :
    Reads (r >>= f) (u ++ v) b G := by
  intro toks rest htoks hnext
  obtain ⟨x, y, rfl, hx, hy⟩ := List.map_eq_append_iff.1 htoks
  rw [List.append_assoc, bind_eq_ok_iff]
  refine ⟨a, y ++ rest, hr x _ hx ?_, hf y rest hy hnext⟩
  rw [nextWord_append, hy]
  exact hFG _ hnext

theorem bind (hr : Reads r u a Anything) (hf : Reads (f a) v b G) :
    Reads (r >>= f) (u ++ v) b G :=
  bind_of_follow hr hf fun _ _ => trivial

/-- The value alone is changed. -/
theorem map (hr : Reads r ws a F) (g : α → β) :
    Reads (do return g (← r)) ws (g a) F := by
  have hpure : Reads (Pure.pure (g a) : Reading β) [] (g a) F := pure _ F
  have h := bind_of_follow (f := fun a => Pure.pure (g a)) hr hpure
    fun _ hnext => hnext
  rwa [List.append_nil] at h

theorem of_map {g : α → β} (hg : ∀ a a', g a = g a' → a = a')
    (h : Reads (do return g (← r)) ws (g a) F) : Reads r ws a F := by
  intro toks rest htoks hnext
  obtain ⟨a', mid, hr, hmid⟩ := bind_eq_ok_iff.1 (h toks rest htoks hnext)
  injection hmid with ha hrest
  rw [hr, hg _ _ ha, hrest]

-- ----------------------------------------------------------- the steps

theorem look_bind {w : String} {x : α}
    (hr : ∀ t ts, t.value = w → r (t :: ts) = .ok x (t :: ts))
    (hf : Reads (f x) (w :: ws) b G) : Reads (r >>= f) (w :: ws) b G := by
  intro toks rest htoks hnext
  obtain ⟨t, toks', rfl, ht, -⟩ := List.map_eq_cons_iff.1 htoks
  rw [List.cons_append, bind_eq_ok_iff]
  exact ⟨x, _, hr t _ ht, hf _ rest htoks hnext⟩

theorem begin_bind {w : String} {f : Unit → Reading β}
    (hf : Reads (f ()) (w :: ws) b G) :
    Reads (begin >>= f) (w :: ws) b G :=
  look_bind (fun _ _ _ => rfl) hf

theorem atEnd_bind {w : String} {f : Bool → Reading β}
    (hf : Reads (f false) (w :: ws) b G) :
    Reads (atEnd >>= f) (w :: ws) b G :=
  look_bind (fun _ _ _ => rfl) hf

theorem sees_bind {w : String} {test : String → Bool}
    {f : Bool → Reading β} (hf : Reads (f (test w)) (w :: ws) b G) :
    Reads (sees test >>= f) (w :: ws) b G := by
  refine look_bind (fun t ts ht => ?_) hf
  rw [← ht]
  rfl

theorem require {w : String} {meaning : String → Option α}
    {reason : Reason} (hw : meaning w = some a) :
    Reads (require meaning reason) [w] a Anything := by
  intro toks rest htoks _
  obtain ⟨t, toks', rfl, ht, htail⟩ := List.map_eq_cons_iff.1 htoks
  rw [List.map_eq_nil_iff.1 htail, List.cons_append, require_cons, ht, hw]
  rfl

theorem require_bind {w : String} {meaning : String → Option α}
    {reason : Reason} (hw : meaning w = some a)
    (hf : Reads (f a) ws b G) :
    Reads (Reading.require meaning reason >>= f) (w :: ws) b G :=
  bind (require hw) hf

theorem word_bind {w : String} {reason : Reason} {f : Unit → Reading β}
    (hf : Reads (f ()) ws b G) :
    Reads (word w reason >>= f) (w :: ws) b G := by
  have hword : Reads (word w reason) [w] () Anything :=
    require_bind (a := w) (by simp [passing]) (pure _ _)
  exact bind hword hf

theorem mark_bind {m : Mark} {reason : Reason} {f : Unit → Reading β}
    (hf : Reads (f ()) ws b G) :
    Reads (mark m reason >>= f) (m.word :: ws) b G := word_bind hf

/-- Something optional that is there. -/
theorem accept_bind {w : String} {meaning : String → Option α}
    {f : Option α → Reading β} (hw : meaning w = some a)
    (hf : Reads (f (some a)) ws b G) :
    Reads (accept meaning >>= f) (w :: ws) b G := by
  have haccept : Reads (accept meaning) [w] (some a) Anything := by
    intro toks rest htoks _
    obtain ⟨t, toks', rfl, ht, htail⟩ := List.map_eq_cons_iff.1 htoks
    rw [List.map_eq_nil_iff.1 htail, List.cons_append, accept_cons, ht, hw]
    rfl
  exact bind haccept hf

/-- Something optional that is not there. -/
theorem accept_bind_none {meaning : String → Option α}
    {f : Option α → Reading β} (hf : Reads (f none) ws b G)
    (hnone : ∀ next, G next →
      ∀ w, ws.head?.or next = some w → meaning w = none) :
    Reads (accept meaning >>= f) ws b G := by
  have haccept : Reads (accept meaning) [] none
      fun next => ∀ w, next = some w → meaning w = none := by
    intro toks rest htoks hnext
    rw [List.map_eq_nil_iff.1 htoks, List.nil_append]
    exact accept_eq_none_iff.2 ⟨rfl, hnext⟩
  exact bind_of_follow haccept hf hnone

end Reads

end RobotLang.Reading
