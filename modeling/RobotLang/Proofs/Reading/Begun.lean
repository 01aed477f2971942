/-
What was taken begins a phrase.

A rule that has taken all its tokens has read a phrase, or the beginning of
one that was cut off by the end. So behind tokens where a nonterminal is
faced every phrase of it can come: the rule takes that phrase as well, and
has begun a phrase of its own.

For a numeral the converse holds too. A rule takes one only where an
expression is faced, so the places where too many digits are reported are
those where an expression could have come.
-/
import RobotLang.Proofs.Reading.Places

namespace RobotLang

open Reading

/-- Some phrase of the rule begins with the words. -/
def Rule.Begins (rule : Rule) (ws : List String) : Prop :=
  ∃ t more, Phrase rule id t (ws ++ more)

/-- Tokens with these words, wherever they stand. -/
def Token.placed (ws : List String) : List Token :=
  ws.map fun w => ⟨w, .start⟩

@[simp] theorem Token.map_value_placed (ws : List String) :
    (placed ws).map Token.value = ws := by
  simp [placed, Function.comp_def]

namespace Rule

/-- A phrase is read to its end. -/
theorem read_of_phrase {rule : Rule} {ts : List Token} {t : Tree}
    (hts : ts ≠ []) (h : Phrase rule id t (ts.map Token.value)) :
    rule.read ts = .ok t [] := by
  by_cases hrule : rule = .program
  · rw [hrule] at h ⊢
    exact (program_upTo_ok_iff (Nat.le_refl _)).2 ⟨hts, rfl, h⟩
  · refine (upTo_ok_iff hrule (Nat.le_refl _)).2
      ⟨ts, (List.append_nil ts).symm, h, fun _ _ _ h => by cases h⟩

/-- Tokens that are all taken begin a phrase, unless the last one has too
many digits. -/
theorem begins_of_taken {rule : Rule} {taken : List Token} {t : Token}
    (h : left (rule.read (taken ++ [t])) = []) (ht : Legible [t.value]) :
    rule.Begins (taken.map Token.value ++ [t.value]) := by
  have hwords : (taken ++ [t]).map Token.value
      = taken.map Token.value ++ [t.value] := List.map_append
  rw [← hwords]
  cases hread : rule.read (taken ++ [t]) with
  | ok tree rest =>
      rw [hread] at h
      obtain rfl : rest = [] := h
      obtain ⟨taken', htaken, hphrase⟩ := (Follows.upTo _ rule).ok hread
      refine ⟨tree, [], ?_⟩
      rw [htaken, List.append_nil, List.append_nil]
      exact hphrase
  | error e rest =>
      rw [hread] at h
      obtain rfl : rest = [] := h
      cases e with
      | rejected f =>
          obtain ⟨taken', more, tree, htaken, hphrase⟩ :=
            (Follows.upTo _ rule).stuck hread
          refine ⟨tree, more, ?_⟩
          rw [htaken, List.append_nil]
          exact hphrase
      | tooLong n =>
          obtain ⟨taken', t', hlast, hw, rfl, hlong⟩ :=
            (Plain.upTo _ rule).tooLong_last hread
          obtain ⟨-, hsame⟩ := List.append_inj' hlast rfl
          obtain ⟨rfl, -⟩ := List.cons.inj hsame
          have hshort := legible_singleton.1 ht hw
          omega

/-- A phrase of a nonterminal that is faced is taken too. -/
theorem begins_of_faces {rule inner : Rule} (hinner : inner ≠ .program)
    {taken : List Token} (h : Faces rule.read taken inner) {t : Tree}
    {u : List String} (hu : Phrase inner id t u) :
    rule.Begins (taken.map Token.value ++ u) := by
  obtain ⟨β, tree, s, g, hread, hg, hfaces⟩ := h
  have hne := hu.1.ne_nil hinner
  have htoks : Token.placed u ≠ [] := mt List.map_eq_nil_iff.1 hne
  have hphrase : inner.read (Token.placed u) = .ok t [] := by
    refine read_of_phrase htoks ?_
    rw [Token.map_value_placed]
    exact hu
  rw [hread] at hphrase
  obtain ⟨b, mid, hb, hmid⟩ := bind_eq_ok_iff.1 hphrase
  cases hmid
  -- the last word of the phrase is the last one taken
  obtain ⟨v, w, rfl⟩ : ∃ v w, u = v ++ [w] :=
    ⟨_, _, (List.dropLast_concat_getLast hne).symm⟩
  have hsplit : Token.placed (v ++ [w])
      = Token.placed v ++ [⟨w, .start⟩] := List.map_append
  rw [hsplit] at hb
  have hleft : left (rule.read
      ((taken ++ Token.placed v) ++ [⟨w, .start⟩])) = [] := by
    rw [List.append_assoc, hfaces, bind_ok hb]
    exact List.suffix_nil.1 (hg b [])
  have hbegins := begins_of_taken hleft (legible_append.1 hu.2).2
  rw [List.map_append, List.append_assoc, Token.map_value_placed] at hbegins
  exact hbegins

end Rule

end RobotLang
