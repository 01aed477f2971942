/-
A syntax error is reported at the first word that no program goes on with.

Words are viable if some program begins with them. What a rejected reading
has taken is viable, because the rules follow the grammar and so can be
satisfied from where they stop. The next word makes it no longer viable,
because the rules look one word ahead: on any other tokens that begin with
the same words and go on with the same one, the reading is rejected at the
same place, however many tokens stand behind.
-/
import RobotLang.Proofs.Acceptance
import RobotLang.Proofs.Reading.Budget

namespace RobotLang

open Reading

/-- Some program begins with the words. -/
def Viable (ws : List String) : Prop :=
  ∃ tokens p, ws <+: tokens.map Token.value
    ∧ Program.ofTokens tokens = .ok p

namespace Viable

theorem of_beginning {u v : List String} (hv : Viable v) (h : u <+: v) :
    Viable u := by
  obtain ⟨tokens, p, htokens, hp⟩ := hv
  exact ⟨tokens, p, h.trans htokens, hp⟩

theorem legible {ws : List String} (h : Viable ws) : Legible ws := by
  obtain ⟨tokens, p, htokens, hp⟩ := h
  exact (Program.ofTokens_eq_ok_iff.1 hp).2.2.of_beginning htokens

/-- Words of a program are viable, and so are no words at all. -/
theorem of_phrase {ws more : List String} {p : Program}
    (h : Phrase .program .program p (ws ++ more)) : Viable ws := by
  have hwords (us : List String) :
      (us.map fun w => (⟨w, .start⟩ : Token)).map Token.value = us := by
    rw [List.map_map]
    exact List.map_id us
  by_cases hnil : ws ++ more = []
  · rw [(List.append_eq_nil_iff.1 hnil).1]
    exact ⟨tokenize "move;", _, List.nil_prefix, rfl⟩
  · refine ⟨(ws ++ more).map fun w => ⟨w, .start⟩, p, ?_, ?_⟩
    · rw [hwords]
      exact List.prefix_append ws more
    · rw [Program.ofTokens_eq_ok_iff, hwords]
      exact ⟨fun h => hnil (List.map_eq_nil_iff.1 h), h⟩

end Viable

/-- What a rejected reading has taken is viable. -/
theorem Rule.viable_of_rejected {taken rest : List Token} {f : Failure}
    (h : Rule.program.read (taken ++ rest) = .error (.rejected f) rest) :
    Viable (taken.map Token.value) := by
  obtain ⟨taken', more, t, htaken, hphrase⟩ :=
    (Follows.upTo _ Rule.program).stuck h
  rw [List.append_cancel_right htaken]
  have hkind : t.rule = .program := hphrase.1.rule_eq
  cases t with
  | program p => exact Viable.of_phrase hphrase
  | _ => cases hkind

/-- With the next word it no longer is. -/
theorem Rule.not_viable_of_rejected {taken rest : List Token} {t : Token}
    {f : Failure}
    (h : Rule.program.read (taken ++ t :: rest)
      = .error (.rejected f) (t :: rest)) :
    ¬ Viable (taken.map Token.value ++ [t.value]) := by
  intro hviable
  obtain ⟨tokens, p, ⟨more, hmore⟩, hp⟩ := hviable
  rw [List.append_assoc] at hmore
  obtain ⟨taken', tail, rfl, htaken, htail⟩ :=
    List.map_eq_append_iff.1 hmore.symm
  obtain ⟨t', rest', rfl, ht, -⟩ := List.map_eq_cons_iff.1 htail
  -- both readings with enough for the longer of the two
  let n := max (taken ++ t :: rest).length (taken' ++ t' :: rest').length
  have hplain : Plain (Rule.program.upTo n) := .upTo n _
  have herror : Rule.program.upTo n (taken ++ t :: rest)
      = .error (.rejected f) (t :: rest) := by
    rw [← h]
    exact Agree.upTo (Nat.le_max_left ..) (Nat.le_refl _) _ _ (Nat.le_refl _)
  have hok : Rule.program.upTo n (taken' ++ t' :: rest')
      = .ok (.program p) [] := by
    refine (Rule.program_upTo_ok_iff (Nat.le_max_right ..)).2 ?_
    obtain ⟨hne, hphrase⟩ := Program.ofTokens_eq_ok_iff.1 hp
    exact ⟨hne, rfl, hphrase⟩
  have hnext : nextWord (t :: rest) = nextWord (t' :: rest') :=
    congrArg some ht.symm
  obtain ⟨halike, -⟩ := hplain.outcome_alike htaken.symm hnext
    (by rw [herror]; rfl)
  rw [herror, hok] at halike
  exact halike

-- ========================================================== by places

/-- A rejected reading stops at a place exactly if the words up to there
are viable and no more of them are. -/
theorem Rule.viable_take_iff {tokens : List Token} {q : Nat} {f : Failure}
    (h : Rule.program.read tokens
      = .error (.rejected f) (tokens.drop q)) {i : Nat}
    (hi : i ≤ tokens.length) :
    Viable ((tokens.take i).map Token.value) ↔ i ≤ q := by
  constructor
  · intro hviable
    by_cases hiq : i ≤ q
    · exact hiq
    · -- the word at `q` is then among the first `i`, and was refused
      have hq : q < tokens.length := by omega
      have hdrop : tokens.drop q = tokens[q] :: tokens.drop (q + 1) :=
        List.drop_eq_getElem_cons hq
      have hsplit : tokens.take q ++ tokens[q] :: tokens.drop (q + 1)
          = tokens := by
        rw [← hdrop, List.take_append_drop]
      have hrejected : Rule.program.read
          (tokens.take q ++ tokens[q] :: tokens.drop (q + 1))
          = .error (.rejected f) (tokens[q] :: tokens.drop (q + 1)) := by
        rw [hsplit, ← hdrop]
        exact h
      refine absurd (hviable.of_beginning ?_)
        (Rule.not_viable_of_rejected hrejected)
      have hwords : (tokens.take q).map Token.value ++ [tokens[q].value]
          = (tokens.take (q + 1)).map Token.value := by
        rw [List.take_succ_eq_append_getElem hq, List.map_append]
        rfl
      rw [hwords]
      exact (List.take_prefix_take_left (by omega)).map _
  · intro hiq
    have hread : Rule.program.read (tokens.take q ++ tokens.drop q)
        = .error (.rejected f) (tokens.drop q) := by
      rw [List.take_append_drop]
      exact h
    refine (Rule.viable_of_rejected hread).of_beginning ?_
    exact (List.take_prefix_take_left hiq).map _

/-- Viable tokens that are no program are rejected, and that at their
end. -/
theorem Rule.rejected_at_end {tokens : List Token}
    (hviable : Viable (tokens.map Token.value))
    (hnone : ∀ p, Program.ofTokens tokens ≠ .ok p) :
    ∃ f, Rule.program.read tokens = .error (.rejected f) [] := by
  have hplain : Plain (Rule.program.upTo tokens.length) := .upTo _ _
  cases hread : Rule.program.read tokens with
  | ok t rest =>
      obtain ⟨hne, -, hphrase⟩ :=
        (Rule.program_upTo_ok_iff (Nat.le_refl _)).1 hread
      have hkind : t.rule = .program := hphrase.1.rule_eq
      cases t with
      | program p =>
          exact absurd (Program.ofTokens_eq_ok_iff.2 ⟨hne, hphrase⟩)
            (hnone p)
      | _ => cases hkind
  | error e rest =>
      cases e with
      | tooLong n =>
          obtain ⟨t, ht, hw, hlong⟩ := hplain.tooLong_mem hread
          have hshort := hviable.legible t.value
            (List.mem_map_of_mem ht) hw
          omega
      | rejected f =>
          have hrest : rest = tokens.drop (tokens.length - rest.length) :=
            List.suffix_iff_eq_drop.1 (hplain.suffix_of_error hread)
          rw [hrest] at hread
          have hall : Viable ((tokens.take tokens.length).map
              Token.value) := by
            rw [List.take_length]
            exact hviable
          have hle := (Rule.viable_take_iff hread (Nat.le_refl _)).1 hall
          refine ⟨f, ?_⟩
          rw [hrest, List.drop_eq_nil_of_le hle]

/-- A syntax error is about the first word that no program goes on with,
and tokens with which a program begins, but which are none, end too
early. -/
theorem Cursor.stops_at_first_error :
    (∀ (tokens : List Token) (f : Failure) (q : Nat),
      (ofTokens tokens).perform Rule.program.read
        = (.error (.rejected f), ⟨tokens, q⟩) →
      q ≤ tokens.length
        ∧ f = .before f.reason (tokens.drop q)
        ∧ ∀ i ≤ tokens.length,
          (Viable ((tokens.take i).map Token.value) ↔ i ≤ q))
    ∧ ∀ tokens : List Token, Viable (tokens.map Token.value) →
      (∀ p, Program.ofTokens tokens ≠ .ok p) →
      ∃ f, (ofTokens tokens).perform Rule.program.read
        = (.error (.rejected f), ⟨tokens, tokens.length⟩) := by
  constructor
  · intro tokens f q h
    obtain ⟨-, hq, hread⟩ := (perform_error_iff Rule.program.read_suffix
      (Nat.zero_le tokens.length)).1 h
    rw [List.drop_zero] at hread
    have hplain : Plain (Rule.program.upTo tokens.length) := .upTo _ _
    refine ⟨hq, hplain.failure_eq hread, ?_⟩
    intro i hi
    exact Rule.viable_take_iff hread hi
  · intro tokens hviable hnone
    obtain ⟨f, hread⟩ := Rule.rejected_at_end hviable hnone
    refine ⟨f, (perform_error_iff Rule.program.read_suffix
      (Nat.zero_le tokens.length)).2 ⟨Nat.zero_le _, Nat.le_refl _, ?_⟩⟩
    rw [List.drop_zero, List.drop_length]
    exact hread

theorem Cursor.stops_at_first_error_move :
    (ofTokens [⟨"move", ⟨1, 0⟩⟩, ⟨"turnL", ⟨1, 5⟩⟩,
        ⟨";", ⟨1, 10⟩⟩]).perform Rule.program.read
      = (.error (.rejected (.before .noSemicolon
          [⟨"turnL", ⟨1, 5⟩⟩, ⟨";", ⟨1, 10⟩⟩])),
        ⟨[⟨"move", ⟨1, 0⟩⟩, ⟨"turnL", ⟨1, 5⟩⟩, ⟨";", ⟨1, 10⟩⟩], 1⟩)
    ∧ Viable ["move"] ∧ ¬ Viable ["move", "turnL"]
    ∧ ∃ f, (ofTokens [⟨"loop", ⟨1, 0⟩⟩, ⟨"\x7b", ⟨1, 4⟩⟩]).perform
        Rule.program.read
      = (.error (.rejected f),
        ⟨[⟨"loop", ⟨1, 0⟩⟩, ⟨"\x7b", ⟨1, 4⟩⟩], 2⟩) := by
  have hread : (ofTokens [⟨"move", ⟨1, 0⟩⟩, ⟨"turnL", ⟨1, 5⟩⟩,
        ⟨";", ⟨1, 10⟩⟩]).perform Rule.program.read
      = (.error (.rejected (.before .noSemicolon
          [⟨"turnL", ⟨1, 5⟩⟩, ⟨";", ⟨1, 10⟩⟩])),
        ⟨[⟨"move", ⟨1, 0⟩⟩, ⟨"turnL", ⟨1, 5⟩⟩, ⟨";", ⟨1, 10⟩⟩], 1⟩) := rfl
  obtain ⟨-, -, htake⟩ := stops_at_first_error.1 _ _ _ hread
  refine ⟨hread, (htake 1 (by decide)).2 (by decide), ?_, ?_⟩
  · intro h
    exact absurd ((htake 2 (by decide)).1 h) (by decide)
  · have hviable : Viable ["loop", "\x7b"] :=
      ⟨[⟨"loop", .start⟩, ⟨"\x7b", .start⟩, ⟨"\x7d", .start⟩], _,
        ⟨["\x7d"], rfl⟩, rfl⟩
    have hnone : ∀ p, Program.ofTokens [⟨"loop", ⟨1, 0⟩⟩,
        ⟨"\x7b", ⟨1, 4⟩⟩] ≠ .ok p := by
      intro p h
      cases h
    exact stops_at_first_error.2 _ hviable hnone

end RobotLang
