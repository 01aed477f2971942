/-
Reading at a cursor, by places in the token list.

A rule leaves a final part of the tokens, and a final part of a list is
known by its place. So performing a reading at one place and stopping at
another is the reading itself on the tokens from the one and from the
other on.
-/
import RobotLang.Cursor
import RobotLang.Proofs.Reading.Rules

namespace RobotLang

/-- What a reading has ended with. -/
def Reading.outcome {α : Type} :
    EStateM.Result Refusal (List Token) α → Except Refusal α
  | .ok a _ => .ok a
  | .error e _ => .error e

/-- Where a plain reading ends alike it has the same value, counts as many
digits, or fails for the same reason in front of what is left. -/
theorem Reading.Plain.outcome_cases {α : Type} {r : Reading α}
    (hr : Plain r) {ts ts' : List Token} (h : Alike (r ts) (r ts')) :
    (∃ a, outcome (r ts) = .ok a ∧ outcome (r ts') = .ok a)
    ∨ (∃ n, outcome (r ts) = .error (.tooLong n)
      ∧ outcome (r ts') = .error (.tooLong n))
    ∨ ∃ reason,
      outcome (r ts) = .error (.rejected (.before reason (left (r ts))))
      ∧ outcome (r ts')
        = .error (.rejected (.before reason (left (r ts')))) := by
  cases hres : r ts with
  | ok a rest =>
      cases hres' : r ts' with
      | ok a' rest' =>
          rw [hres, hres'] at h
          have ha : a = a' := h
          rw [ha]
          exact .inl ⟨a', rfl, rfl⟩
      | error e' rest' =>
          rw [hres, hres'] at h
          exact h.elim
  | error e rest =>
      cases hres' : r ts' with
      | ok a' rest' =>
          rw [hres, hres'] at h
          exact h.elim
      | error e' rest' =>
          rw [hres, hres'] at h
          cases e with
          | tooLong m =>
              cases e' with
              | tooLong n =>
                  have hn : m = n := h
                  rw [hn]
                  exact .inr (.inl ⟨n, rfl, rfl⟩)
              | rejected g => exact False.elim h
          | rejected f =>
              cases e' with
              | tooLong n => exact False.elim h
              | rejected g =>
                  have hreason : f.reason = g.reason := h
                  refine .inr (.inr ⟨f.reason, ?_, ?_⟩)
                  · rw [hr.failure_eq hres]
                    rfl
                  · rw [hr.failure_eq hres', ← hreason]
                    rfl

/-- The words of the tokens from one place up to another. -/
def wordsBetween (tokens : List Token) (p q : Nat) : List String :=
  (tokens.extract p q).map Token.value

theorem drop_eq_extract_append {α : Type} {xs : List α} {p q : Nat}
    (hpq : p ≤ q) : xs.drop p = xs.extract p q ++ xs.drop q := by
  have hdrop : (xs.drop p).drop (q - p) = xs.drop q := by
    rw [List.drop_drop, Nat.add_sub_of_le hpq]
  rw [List.extract_eq_take_drop, ← hdrop, List.take_append_drop]

/-- Where a list is cut at a place, the first part is found again. -/
theorem eq_extract_of_drop_eq {α : Type} {xs taken : List α} {p q : Nat}
    (hpq : p ≤ q) (h : xs.drop p = taken ++ xs.drop q) :
    taken = xs.extract p q := by
  rw [drop_eq_extract_append hpq] at h
  exact (List.append_cancel_right h).symm

/-- A rule leaves a final part of its tokens. -/
theorem Rule.read_suffix (rule : Rule) (ts : List Token) :
    Reading.left (rule.read ts) <:+ ts :=
  (Reading.Plain.upTo ts.length rule).left_suffix ts

namespace Cursor

variable {α : Type} {tokens : List Token} {p q : Nat} {r : Reading α}

/-- A final part of the tokens from one place on begins at a later one. -/
theorem place_of_suffix {rest : List Token} (hp : p ≤ tokens.length)
    (h : rest <:+ tokens.drop p) :
    p ≤ tokens.length - rest.length
      ∧ rest = tokens.drop (tokens.length - rest.length) := by
  constructor
  · have hlen := h.length_le
    rw [List.length_drop] at hlen
    omega
  · exact List.suffix_iff_eq_drop.1 (h.trans (List.drop_suffix p tokens))

theorem leaving_drop (hq : q ≤ tokens.length) :
    (Cursor.mk tokens p).leaving (tokens.drop q) = ⟨tokens, q⟩ := by
  unfold leaving
  have hlen : tokens.length - (tokens.drop q).length = q := by
    rw [List.length_drop]
    omega
  rw [hlen]

/-- A value at a place, and the reading from there on. -/
theorem perform_ok_iff (hr : ∀ ts, Reading.left (r ts) <:+ ts) (hp : p ≤ tokens.length) {a : α} :
    (Cursor.mk tokens p).perform r = (.ok a, ⟨tokens, q⟩)
      ↔ p ≤ q ∧ q ≤ tokens.length
        ∧ r (tokens.drop p) = .ok a (tokens.drop q) := by
  have hsuf := hr (tokens.drop p)
  unfold perform left
  constructor
  · intro h
    cases hres : r (tokens.drop p) with
    | ok b rest =>
        rw [hres] at h hsuf
        have hfinal : rest <:+ tokens.drop p := hsuf
        obtain ⟨hle, hrest⟩ := place_of_suffix hp hfinal
        cases h
        exact ⟨hle, Nat.sub_le _ _, by rw [← hrest]⟩
    | error e rest =>
        rw [hres] at h
        cases h
  · intro h
    obtain ⟨-, hq, hres⟩ := h
    rw [hres]
    show (Except.ok a, leaving _ (tokens.drop q)) = _
    rw [leaving_drop hq]

/-- A refusal at a place, and the reading from there on. -/
theorem perform_error_iff (hr : ∀ ts, Reading.left (r ts) <:+ ts)
    (hp : p ≤ tokens.length) {e : Refusal} :
    (Cursor.mk tokens p).perform r = (.error e, ⟨tokens, q⟩)
      ↔ p ≤ q ∧ q ≤ tokens.length
        ∧ r (tokens.drop p) = .error e (tokens.drop q) := by
  have hsuf := hr (tokens.drop p)
  unfold perform left
  constructor
  · intro h
    cases hres : r (tokens.drop p) with
    | ok b rest =>
        rw [hres] at h
        cases h
    | error e' rest =>
        rw [hres] at h hsuf
        have hfinal : rest <:+ tokens.drop p := hsuf
        obtain ⟨hle, hrest⟩ := place_of_suffix hp hfinal
        cases h
        exact ⟨hle, Nat.sub_le _ _, by rw [← hrest]⟩
  · intro h
    obtain ⟨-, hq, hres⟩ := h
    rw [hres]
    show (Except.error e, leaving _ (tokens.drop q)) = _
    rw [leaving_drop hq]

/-- Whatever a reading ends with at a place, it ends with from there on. -/
theorem perform_iff (hr : ∀ ts, Reading.left (r ts) <:+ ts)
    (hp : p ≤ tokens.length) {o : Except Refusal α} :
    (Cursor.mk tokens p).perform r = (o, ⟨tokens, q⟩)
      ↔ p ≤ q ∧ q ≤ tokens.length
        ∧ Reading.outcome (r (tokens.drop p)) = o
        ∧ Reading.left (r (tokens.drop p)) = tokens.drop q := by
  have hres : ∀ res : EStateM.Result Refusal (List Token) α,
      (Reading.outcome res = o ∧ Reading.left res = tokens.drop q)
        ↔ match o with
          | .ok a => res = .ok a (tokens.drop q)
          | .error e => res = .error e (tokens.drop q) := by
    intro res
    cases res <;> cases o <;> simp [Reading.outcome, Reading.left]
  rw [hres]
  cases o with
  | ok a => exact perform_ok_iff hr hp
  | error e => exact perform_error_iff hr hp

end Cursor

end RobotLang
