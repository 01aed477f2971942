/-
Reading always ends and always goes forward.

The rules are recursive: a phrase is read by a rule that reads the phrases
in it. What bounds the recursion is the tokens. A rule takes one before it
comes to an inner phrase, and where none is left it refuses at once. So
there are no more levels of rules above each other than there are tokens
left, and one more; whatever were done instead of reading at a deeper level,
it is never come to. Hence the rules have one meaning only, whether or not
they are given a number to count down.

A rule leaves a final part of its tokens, and behind a phrase at least one
token is gone. So a loop over statements takes a token in every round, also
where the tokens are no program.
-/
import RobotLang.Proofs.Acceptance
import RobotLang.Proofs.Reading.Ample

namespace RobotLang

open Reading

namespace Reading

-- ============================================================ one meaning

/-- With more levels than there are tokens a rule reads as it does. -/
theorem Inner.read_above (deepest : Inner) {n : Nat} {ts : List Token}
    (hn : ts.length < n) (rule : Rule) :
    (above deepest n).read rule ts = rule.read ts :=
  ((Agree.depth deepest (Nat.le_refl ts.length) hn).read rule ts
    (Nat.le_refl _)).symm

/-- Readings that are the rules over themselves are the same with any number
of levels. -/
theorem Inner.above_of_raised {r : Inner} (h : r.raised = r) (n : Nat) :
    above r n = r := by
  induction n with
  | zero => rfl
  | succ n ih => rw [above, ih, h]

/-- Any readings that are the rules over themselves read what the rules
read. -/
theorem Inner.read_of_raised {r : Inner} (h : r.raised = r) (rule : Rule) :
    r.read rule = rule.read := by
  funext ts
  have hlevels := r.read_above (Nat.lt_succ_self ts.length) rule
  rw [above_of_raised h] at hlevels
  exact hlevels

-- ====================================================== loops in rounds

/-- How a loop over statements goes on from some tokens: it is over, or a
statement is refused, or one is read, which leaves fewer tokens, and from
those the loop goes on to its end or to a refusal. -/
inductive Rounds (ended : List Token → Prop) :
    List Token → EStateM.Result Refusal (List Token) (List Stmt) → Prop
  | ended {ts : List Token} (h : ended ts) : Rounds ended ts (.ok [] ts)
  | refused {ts rest : List Token} {e : Refusal} (h : ¬ ended ts)
      (hs : ample stmt ts = .error e rest) : Rounds ended ts (.error e rest)
  | again {ts mid rest : List Token} {s : Stmt} {ss : List Stmt}
      (h : ¬ ended ts) (hs : ample stmt ts = .ok s mid)
      (hless : mid.length < ts.length)
      (hmore : Rounds ended mid (.ok ss rest)) :
      Rounds ended ts (.ok (s :: ss) rest)
  | later {ts mid rest : List Token} {s : Stmt} {e : Refusal}
      (h : ¬ ended ts) (hs : ample stmt ts = .ok s mid)
      (hless : mid.length < ts.length)
      (hmore : Rounds ended mid (.error e rest)) :
      Rounds ended ts (.error e rest)

/-- A loop that is over, or reads a statement and goes on, does so in
rounds. -/
theorem rounds_of_steps {ended : List Token → Prop}
    {r : Reading (List Stmt)} (hended : ∀ ts, ended ts → r ts = .ok [] ts)
    (hstep : ∀ ts, ¬ ended ts →
      r ts = (do return (← ample stmt) :: (← r) : Reading (List Stmt)) ts)
    (ts : List Token) : Rounds ended ts (r ts) := by
  by_cases h : ended ts
  · rw [hended ts h]
    exact .ended h
  · rw [hstep ts h]
    cases hs : ample stmt ts with
    | error e rest =>
        rw [bind_eq_error_iff.2 (.inl hs)]
        exact .refused h hs
    | ok s mid =>
        have hless : mid.length < ts.length :=
          Takes.of_follows (.stmt _) (by decide) _ _ _ hs
        have hmore := rounds_of_steps hended hstep mid
        cases hr : r mid with
        | error e rest =>
            rw [hr] at hmore
            rw [bind_eq_error_iff.2
              (.inr ⟨s, mid, hs, bind_eq_error_iff.2 (.inl hr)⟩)]
            exact .later h hs hless hmore
        | ok ss rest =>
            rw [hr] at hmore
            have hround : (do return s :: (← r) : Reading (List Stmt)) mid
                = .ok (s :: ss) rest :=
              bind_eq_ok_iff.2 ⟨ss, rest, hr, rfl⟩
            rw [bind_eq_ok_iff.2 ⟨s, mid, hs, hround⟩]
            exact .again h hs hless hmore
termination_by ts.length
decreasing_by exact hless

theorem rounds_toEnd (ts : List Token) :
    Rounds (· = []) ts (ample toEnd ts) := by
  refine rounds_of_steps (r := ample toEnd) (fun ts h => ?_)
    (fun ts h => ?_) ts
  · rw [h]
    rfl
  · cases ts with
    | nil => exact absurd rfl h
    | cons t ts => exact ample_toEnd_cons t ts

/-- Where the statements between braces are over. -/
def AtBrace (ts : List Token) : Prop :=
  ts = [] ∨ nextWord ts = some Mark.closeBrace.word

theorem rounds_inside (ts : List Token) :
    Rounds AtBrace ts (ample inside ts) := by
  refine rounds_of_steps (r := ample inside) (fun ts h => ?_)
    (fun ts h => ?_) ts
  · cases ts with
    | nil => rfl
    | cons t ts =>
        rcases h with h | h
        · cases h
        · exact ample_inside_close (Option.some.inj h) ts
  · cases ts with
    | nil => exact absurd (.inl rfl) h
    | cons t ts =>
        exact ample_inside_cons (fun ht => h (.inr (congrArg some ht))) ts

end Reading

-- ============================================================ at a cursor

/-- Behind a tree the cursor stands further on. -/
theorem Cursor.lt_of_read {tokens : List Token} {p q : Nat} {rule : Rule}
    {t : Tree}
    (h : (Cursor.mk tokens p).perform rule.read = (.ok t, ⟨tokens, q⟩)) :
    p < q := by
  by_cases hrule : rule = .program
  · rw [hrule] at h
    obtain ⟨hp, rfl, -⟩ := read_program_iff.1 h
    exact hp
  · obtain ⟨-, -, hderives, -⟩ := (read_phrase_iff hrule).1 h
    refine Nat.lt_of_not_le fun hqp => hderives.ne_nil hrule ?_
    rw [wordsBetween, List.extract_eq_take_drop, Nat.sub_eq_zero_of_le hqp,
      List.take_zero, List.map_nil]

/-- Reading at a cursor leaves it at a place that is not before. -/
theorem Cursor.perform_read (rule : Rule) {tokens : List Token} {p : Nat}
    (hp : p ≤ tokens.length) :
    ∃ o q, (Cursor.mk tokens p).perform rule.read = (o, ⟨tokens, q⟩)
      ∧ p ≤ q ∧ q ≤ tokens.length := by
  obtain ⟨hpq, hleft⟩ := place_of_suffix hp (rule.read_suffix _)
  have hq : tokens.length - (Reading.left (rule.read (tokens.drop p))).length
      ≤ tokens.length := Nat.sub_le _ _
  exact ⟨_, _, (perform_iff rule.read_suffix hp).2 ⟨hpq, hq, rfl, hleft⟩,
    hpq, hq⟩

/-- Reading always ends and always goes forward. On any tokens a rule comes
to no more levels of rules above each other than there are tokens left, and
one more, so there is one reading only that is the rules over itself. It
stops at a place among the same tokens that is not before the one where it
began, and behind a tree further on. The loops over the statements of a
program and of a block have fewer tokens left after every round. -/
theorem Cursor.reading_ends_and_goes_forward :
    (∀ (rule : Rule) (tokens : List Token) (p : Nat), p ≤ tokens.length →
      (∀ (deepest : Inner) (n : Nat), tokens.length - p < n →
        (deepest.above n).read rule (tokens.drop p)
          = rule.read (tokens.drop p))
      ∧ ∃ o q, (Cursor.mk tokens p).perform rule.read = (o, ⟨tokens, q⟩)
        ∧ p ≤ q ∧ q ≤ tokens.length ∧ ∀ t, o = .ok t → p + 1 ≤ q)
    ∧ (∃ r : Inner, r.raised = r)
    ∧ (∀ r : Inner, r.raised = r → ∀ rule, r.read rule = rule.read)
    ∧ ∀ ts : List Token, Rounds (· = []) ts (ample toEnd ts)
      ∧ Rounds AtBrace ts (ample inside ts) := by
  refine ⟨fun rule tokens p hp => ⟨fun deepest n hn => ?_, ?_⟩,
    ⟨Inner.ample, Inner.raised_ample⟩,
    fun r h rule => Inner.read_of_raised h rule,
    fun ts => ⟨rounds_toEnd ts, rounds_inside ts⟩⟩
  · rw [← List.length_drop] at hn
    exact deepest.read_above hn rule
  · obtain ⟨o, q, hread, hpq, hq⟩ := perform_read rule hp
    refine ⟨o, q, hread, hpq, hq, fun t ht => ?_⟩
    rw [ht] at hread
    exact lt_of_read hread

/-- A loop that breaks off at a word that begins no statement, with anything
at all done on the level that is not reached. -/
theorem Cursor.reading_ends_and_goes_forward_broken :
    let tokens : List Token :=
      ["turnL", ";", "loop", "\x7b", "wait", ";", "x"].map (⟨·, .start⟩)
    let deepest : Inner := ⟨pure (.number 7),
      pure (.compare .eq (.number 0) (.number 0)), pure (.loop []),
      pure [.loop []], pure []⟩
    (2 ≤ tokens.length ∧ tokens.length - 2 < 6
      ∧ (deepest.above 6).read .stmt (tokens.drop 2)
        = Rule.stmt.read (tokens.drop 2))
    ∧ ((Cursor.mk tokens 2).perform Rule.stmt.read
        = (.error (.rejected (.before (.unknownStatement "x")
          [⟨"x", .start⟩])), ⟨tokens, 6⟩)
      ∧ ∃ o q, (Cursor.mk tokens 2).perform Rule.stmt.read
          = (o, ⟨tokens, q⟩)
        ∧ 2 ≤ q ∧ q ≤ tokens.length ∧ ∀ t, o = .ok t → 3 ≤ q)
    ∧ (Inner.ample.raised = Inner.ample
      ∧ Inner.ample.read .loop = Rule.loop.read) := by
  intro tokens deepest
  obtain ⟨hrules, -, hmeaning, -⟩ := reading_ends_and_goes_forward
  have hp : 2 ≤ tokens.length := by decide
  have hn : tokens.length - 2 < 6 := by decide
  obtain ⟨hdepth, hforward⟩ := hrules .stmt tokens 2 hp
  exact ⟨⟨hp, hn, hdepth deepest 6 hn⟩, ⟨rfl, hforward⟩,
    ⟨Inner.raised_ample, hmeaning Inner.ample Inner.raised_ample .loop⟩⟩

end RobotLang
