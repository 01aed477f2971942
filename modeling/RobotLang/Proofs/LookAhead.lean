/-
One word of look-ahead decides everything.

A rule takes tokens and may look at the next one. On two token lists that
are the same from where it begins up to and including the token in front of
which it stops, or up to the end of both, it stops at the same place with
the same outcome, however the lists go on: the same tree, or a refusal of
the same kind at the same place in the text. Of a failure only the context
behind its first word can differ, because it shows tokens that were not
looked at.

The rules are plain readings, so the words that they take and the next one
settle the outcome (`Plain.outcome_alike`). The place of a failure is that
of the token in front of which the rule stops (`Plain.failure_eq`), and
that token is the same. The lists may be of different lengths, so both
readings are first taken to be meant for as many tokens as the longer list
has (`Agree.upTo`).
-/
import RobotLang.Proofs.Cursor
import RobotLang.Proofs.Reading.Budget

namespace RobotLang

open Reading

/-- The same outcome, but for what a failure shows of the tokens behind the
one in front of which reading stopped. -/
def SameOutcome : Except Refusal Tree → Except Refusal Tree → Prop
  | .ok t, .ok u => t = u
  | .error (.rejected f), .error (.rejected g) =>
    f.reason = g.reason ∧ f.line = g.line ∧ f.column = g.column
      ∧ f.context.head? = g.context.head?
  | .error (.tooLong m), .error (.tooLong n) => m = n
  | _, _ => False

/-- Where two lists have the same elements they have the same part. -/
theorem extract_eq_of_getElem? {α : Type} {xs ys : List α} {p q : Nat}
    (h : ∀ i, p ≤ i → i < q → xs[i]? = ys[i]?) :
    xs.extract p q = ys.extract p q := by
  apply List.ext_getElem?
  intro i
  rw [List.extract_eq_take_drop, List.extract_eq_take_drop,
    List.getElem?_take, List.getElem?_take]
  by_cases hi : i < q - p
  · rw [if_pos hi, if_pos hi, List.getElem?_drop, List.getElem?_drop]
    exact h (p + i) (Nat.le_add_right p i) (by omega)
  · rw [if_neg hi, if_neg hi]

/-- What a failure says of the tokens in front of which it stopped, the
first one is enough for. -/
theorem Failure.before_head {reason : Reason} {rest rest' : List Token}
    (h : rest.head? = rest'.head?) :
    (before reason rest).line = (before reason rest').line
      ∧ (before reason rest).column = (before reason rest').column
      ∧ (before reason rest).context.head?
        = (before reason rest').context.head? := by
  cases rest with
  | nil =>
      cases rest' with
      | nil => exact ⟨rfl, rfl, rfl⟩
      | cons t' ts' => cases h
  | cons t ts =>
      cases rest' with
      | nil => cases h
      | cons t' ts' =>
          cases h
          exact ⟨rfl, rfl, rfl⟩

/-- A plain reading that takes the same tokens and stops in front of the
same one has the same outcome. -/
theorem Reading.Plain.sameOutcome {r : Reading Tree} (hr : Plain r)
    {taken rest rest' : List Token} (hhead : rest.head? = rest'.head?)
    (h : left (r (taken ++ rest)) = rest) :
    SameOutcome (outcome (r (taken ++ rest))) (outcome (r (taken ++ rest')))
      ∧ left (r (taken ++ rest')) = rest' := by
  have hnext : nextWord rest = nextWord rest' :=
    congrArg (Option.map Token.value) hhead
  obtain ⟨halike, hleft⟩ := hr.outcome_alike rfl hnext h
  refine ⟨?_, hleft⟩
  rcases hr.outcome_cases halike with
    ⟨t, ht, ht'⟩ | ⟨n, hn, hn'⟩ | ⟨reason, hf, hf'⟩
  · rw [ht, ht']
    exact rfl
  · rw [hn, hn']
    exact rfl
  · rw [hf, hf', h, hleft]
    exact ⟨rfl, Failure.before_head hhead⟩

/-- A rule that takes the same tokens and stops in front of the same one
has the same outcome, however many tokens stand behind. -/
theorem Rule.sameOutcome (rule : Rule) {taken rest rest' : List Token}
    (hhead : rest.head? = rest'.head?)
    (h : left (rule.read (taken ++ rest)) = rest) :
    SameOutcome (outcome (rule.read (taken ++ rest)))
        (outcome (rule.read (taken ++ rest')))
      ∧ left (rule.read (taken ++ rest')) = rest' := by
  -- both readings with enough for the longer of the two
  let n := max (taken ++ rest).length (taken ++ rest').length
  have hread : rule.read (taken ++ rest) = rule.upTo n (taken ++ rest) :=
    Agree.upTo (Nat.le_refl _) (Nat.le_max_left ..) rule _ (Nat.le_refl _)
  have hread' : rule.read (taken ++ rest') = rule.upTo n (taken ++ rest') :=
    Agree.upTo (Nat.le_refl _) (Nat.le_max_right ..) rule _ (Nat.le_refl _)
  rw [hread] at h
  rw [hread, hread']
  exact (Plain.upTo n rule).sameOutcome hhead h

/-- One token of look-ahead decides everything: where two token lists are
the same from a place up to and including the token in front of which a
rule stops, or up to the end of both, the rule stops at the same place on
both and with the same outcome. -/
theorem Cursor.one_token_ahead (rule : Rule) (tokens tokens' : List Token)
    (p q : Nat) (o : Except Refusal Tree) (hp : p ≤ tokens.length)
    (hread : (Cursor.mk tokens p).perform rule.read = (o, ⟨tokens, q⟩))
    (hsame : (q < tokens.length ∧ q < tokens'.length
        ∧ ∀ i, p ≤ i → i ≤ q → tokens[i]? = tokens'[i]?)
      ∨ (q = tokens.length ∧ q = tokens'.length
        ∧ ∀ i, p ≤ i → i < q → tokens[i]? = tokens'[i]?)) :
    ∃ o', (Cursor.mk tokens' p).perform rule.read = (o', ⟨tokens', q⟩)
      ∧ SameOutcome o o' := by
  obtain ⟨hpq, -, rfl, hleft⟩ := (perform_iff rule.read_suffix hp).1 hread
  have hq' : q ≤ tokens'.length := by
    rcases hsame with ⟨-, hlt, -⟩ | ⟨-, heq, -⟩
    · exact Nat.le_of_lt hlt
    · exact Nat.le_of_eq heq
  have htaken : tokens.extract p q = tokens'.extract p q := by
    apply extract_eq_of_getElem?
    intro i hpi hiq
    rcases hsame with ⟨-, -, hall⟩ | ⟨-, -, hall⟩
    · exact hall i hpi (Nat.le_of_lt hiq)
    · exact hall i hpi hiq
  have hhead : (tokens.drop q).head? = (tokens'.drop q).head? := by
    rw [List.head?_drop, List.head?_drop]
    rcases hsame with ⟨-, -, hall⟩ | ⟨heq, heq', -⟩
    · exact hall q hpq (Nat.le_refl q)
    · rw [List.getElem?_eq_none (Nat.le_of_eq heq.symm),
        List.getElem?_eq_none (Nat.le_of_eq heq'.symm)]
  rw [drop_eq_extract_append hpq] at hleft ⊢
  obtain ⟨hout, hleft'⟩ := rule.sameOutcome hhead hleft
  have hdrop' : tokens.extract p q ++ tokens'.drop q = tokens'.drop p := by
    rw [htaken, ← drop_eq_extract_append hpq]
  rw [hdrop'] at hout hleft'
  refine ⟨_, (perform_iff rule.read_suffix (Nat.le_trans hpq hq')).2
    ⟨hpq, hq', rfl, hleft'⟩, hout⟩

theorem Cursor.one_token_ahead_move :
    (Cursor.mk [⟨"move", ⟨1, 0⟩⟩, ⟨"x", ⟨1, 5⟩⟩, ⟨"y", ⟨2, 0⟩⟩] 0).perform
        Rule.stmt.read
      = (.error (.rejected (.before .noSemicolon
          [⟨"x", ⟨1, 5⟩⟩, ⟨"y", ⟨2, 0⟩⟩])),
        ⟨[⟨"move", ⟨1, 0⟩⟩, ⟨"x", ⟨1, 5⟩⟩, ⟨"y", ⟨2, 0⟩⟩], 1⟩)
    ∧ ∃ o', (Cursor.mk [⟨"move", ⟨1, 0⟩⟩, ⟨"x", ⟨1, 5⟩⟩] 0).perform
        Rule.stmt.read = (o', ⟨[⟨"move", ⟨1, 0⟩⟩, ⟨"x", ⟨1, 5⟩⟩], 1⟩)
      ∧ SameOutcome (.error (.rejected (.before .noSemicolon
          [⟨"x", ⟨1, 5⟩⟩, ⟨"y", ⟨2, 0⟩⟩]))) o' := by
  have hread : (Cursor.mk [⟨"move", ⟨1, 0⟩⟩, ⟨"x", ⟨1, 5⟩⟩,
        ⟨"y", ⟨2, 0⟩⟩] 0).perform Rule.stmt.read
      = (.error (.rejected (.before .noSemicolon
          [⟨"x", ⟨1, 5⟩⟩, ⟨"y", ⟨2, 0⟩⟩])), ⟨_, 1⟩) := rfl
  refine ⟨hread, Cursor.one_token_ahead .stmt _ _ 0 1 _ (by decide) hread
    (.inl ⟨by decide, by decide, ?_⟩)⟩
  intro i _ hi
  match i, hi with
  | 0, _ => rfl
  | 1, _ => rfl

end RobotLang
