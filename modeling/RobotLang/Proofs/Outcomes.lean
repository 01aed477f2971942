/-
A rule ends in one of three ways.

From any place among any tokens a rule gives a tree, is rejected, or finds
a numeral with too many digits. The same holds if the tree is built by
constructors that check their words: what a rule lets through no
constructor objects to, so that the draft of every tree that is given
checks.

The third end is told by the words: where any expression may come, a
numeral with too many digits does, and is the last token taken.
-/
import RobotLang.Proofs.Building
import RobotLang.Proofs.Cursor
import RobotLang.Proofs.Reading.Numerals

namespace RobotLang

open Reading

/-- Where a token stands, those from there on begin with it. -/
theorem drop_eq_cons_iff {α : Type} {xs rest : List α} {i : Nat} {x : α} :
    xs.drop i = x :: rest ↔ xs[i]? = some x ∧ rest = xs.drop (i + 1) := by
  rw [← List.head?_drop, ← List.tail_drop]
  cases xs.drop i with
  | nil => simp
  | cons y ys =>
      rw [List.cons.injEq, List.head?_cons, Option.some.injEq, List.tail_cons,
        eq_comm (a := ys)]

/-- Too many digits are found at a place exactly if a numeral that has them
stands in front of it, and any expression may come there. -/
theorem Cursor.tooLong_iff {tokens : List Token} {p q n : Nat}
    {rule : Rule} (hp : p ≤ tokens.length) :
    (Cursor.mk tokens p).perform rule.read
        = (.error (.tooLong n), ⟨tokens, q⟩)
      ↔ ∃ i t, p ≤ i ∧ q = i + 1 ∧ tokens[i]? = some t
        ∧ Numeral.isNumeral t.value = true
        ∧ n = (Numeral.digits t.value).length ∧ Numeral.digitLimit < n
        ∧ ∀ e u, Phrase .expr .expr e u →
          rule.Begins (wordsBetween tokens p i ++ u) := by
  rw [perform_error_iff rule.read_suffix hp, Rule.read_tooLong_iff]
  constructor
  · intro h
    obtain ⟨hpq, hq, taken, t, hts, ht, hn, hlong, hfaces⟩ := h
    let i := p + taken.length
    have hdrop : tokens.drop i = t :: tokens.drop q := by
      rw [← List.drop_drop, hts, List.drop_left]
    obtain ⟨hi, hrest⟩ := drop_eq_cons_iff.1 hdrop
    obtain ⟨hlt, -⟩ := List.getElem?_eq_some_iff.1 hi
    have hqi : q = i + 1 := by
      have hlen := congrArg List.length hrest
      rw [List.length_drop, List.length_drop] at hlen
      omega
    have htaken : taken = tokens.extract p i := by
      refine eq_extract_of_drop_eq (Nat.le_add_right p _) ?_
      rw [hdrop, hts]
    refine ⟨i, t, Nat.le_add_right p _, hqi, hi, ht, hn, hlong, ?_⟩
    rw [htaken] at hfaces
    exact Rule.faces_expr_iff.1 hfaces
  · intro h
    obtain ⟨i, t, hpi, rfl, hi, ht, hn, hlong, hbegins⟩ := h
    have hcons : tokens.drop i = t :: tokens.drop (i + 1) :=
      drop_eq_cons_iff.2 ⟨hi, rfl⟩
    obtain ⟨hlt, -⟩ := List.getElem?_eq_some_iff.1 hi
    refine ⟨Nat.le_succ_of_le hpi, hlt, tokens.extract p i, t, ?_, ht, hn,
      hlong, Rule.faces_expr_iff.2 hbegins⟩
    rw [drop_eq_extract_append hpi, hcons]

/-- From any place a rule gives a tree whose draft its building ends with
and checks, or is rejected, or finds too many digits. No constructor
objects, because its words are those on the rule's list; and too many
digits are found where an expression starts and nowhere else. -/
theorem Cursor.three_outcomes :
    (∀ (tokens : List Token) (p : Nat) (rule : Rule), p ≤ tokens.length →
      (∃ q, p ≤ q ∧ q ≤ tokens.length
        ∧ ((∃ t, (Cursor.mk tokens p).perform rule.read
              = (.ok t, ⟨tokens, q⟩)
            ∧ rule.build (tokens.drop p) = .ok t.draft (tokens.drop q)
            ∧ t.draft.check = .ok t)
          ∨ (∃ f, (Cursor.mk tokens p).perform rule.read
              = (.error (.rejected f), ⟨tokens, q⟩)
            ∧ rule.build (tokens.drop p)
              = .error (.refused (.rejected f)) (tokens.drop q))
          ∨ ∃ n, (Cursor.mk tokens p).perform rule.read
              = (.error (.tooLong n), ⟨tokens, q⟩)
            ∧ rule.build (tokens.drop p)
              = .error (.refused (.tooLong n)) (tokens.drop q)))
      ∧ (∀ o rest, rule.build (tokens.drop p) ≠ .error (.objected o) rest)
      ∧ ∀ q n, (Cursor.mk tokens p).perform rule.read
            = (.error (.tooLong n), ⟨tokens, q⟩)
          ↔ ∃ i t, p ≤ i ∧ q = i + 1 ∧ tokens[i]? = some t
            ∧ Numeral.isNumeral t.value = true
            ∧ n = (Numeral.digits t.value).length ∧ Numeral.digitLimit < n
            ∧ ∀ e u, Phrase .expr .expr e u →
              rule.Begins (wordsBetween tokens p i ++ u))
    ∧ ∀ w, Building.Agreed w := by
  refine ⟨fun tokens p rule hp => ?_, Building.agreed⟩
  have hbuild := rule.build_eq (tokens.drop p)
  obtain ⟨hpq, hleft⟩ :=
    place_of_suffix hp (rule.read_suffix (tokens.drop p))
  obtain ⟨q, hpq, hq, hleft⟩ : ∃ q, p ≤ q ∧ q ≤ tokens.length
      ∧ Reading.left (rule.read (tokens.drop p)) = tokens.drop q :=
    ⟨_, hpq, Nat.sub_le _ _, hleft⟩
  refine ⟨⟨q, hpq, hq, ?_⟩, fun o rest h => ?_, fun q n => tooLong_iff hp⟩
  · cases hread : rule.read (tokens.drop p) with
    | ok t rest =>
        rw [hread] at hbuild hleft
        obtain rfl : rest = tokens.drop q := hleft
        have hperform := (perform_ok_iff rule.read_suffix hp).2
          ⟨hpq, hq, hread⟩
        exact .inl ⟨t, hperform, hbuild, t.check_draft⟩
    | error e rest =>
        rw [hread] at hbuild hleft
        obtain rfl : rest = tokens.drop q := hleft
        have hperform := (perform_error_iff rule.read_suffix hp).2
          ⟨hpq, hq, hread⟩
        cases e with
        | rejected f => exact .inr (.inl ⟨f, hperform, hbuild⟩)
        | tooLong n => exact .inr (.inr ⟨n, hperform, hbuild⟩)
  · rw [hbuild] at h
    split at h <;> cases h

/-- So many ones. -/
def Numeral.ones (n : Nat) : String := String.ofList (List.replicate n '1')

theorem Numeral.digits_ones (n : Nat) :
    digits (ones (n + 1)) = List.replicate (n + 1) '1' := by
  rw [digits, ones, String.toList_ofList]
  rfl

theorem Numeral.isNumeral_ones (n : Nat) :
    isNumeral (ones (n + 1)) = true := by
  rw [isNumeral_eq, digits_ones, List.replicate_succ]
  simp [isUnsigned]

theorem Cursor.three_outcomes_ones :
    1 ≤ [(⟨"(", ⟨1, 0⟩⟩ : Token), ⟨Numeral.ones 4301, ⟨1, 1⟩⟩].length
    ∧ (Cursor.mk [⟨"(", ⟨1, 0⟩⟩, ⟨Numeral.ones 4301, ⟨1, 1⟩⟩] 1).perform
        Rule.expr.read
      = (.error (.tooLong 4301),
        ⟨[⟨"(", ⟨1, 0⟩⟩, ⟨Numeral.ones 4301, ⟨1, 1⟩⟩], 2⟩) := by
  have hp : 1 ≤ [(⟨"(", ⟨1, 0⟩⟩ : Token),
      ⟨Numeral.ones 4301, ⟨1, 1⟩⟩].length := Nat.le_add_left 1 1
  have hlength : 4301 = (Numeral.digits (Numeral.ones 4301)).length := by
    rw [Numeral.digits_ones 4300, List.length_replicate]
  refine ⟨hp, ((three_outcomes.1 _ 1 .expr hp).2.2 2 4301).2
    ⟨1, ⟨Numeral.ones 4301, ⟨1, 1⟩⟩, Nat.le_refl 1, rfl, rfl,
      Numeral.isNumeral_ones 4300, hlength, by decide, fun e u hu => ?_⟩⟩
  refine ⟨.expr e, [], ?_⟩
  rw [List.append_nil]
  exact hu

end RobotLang
