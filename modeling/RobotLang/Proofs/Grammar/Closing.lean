/-
What a phrase ends with.

An action ends with a semicolon and a block with a brace, and every other
statement ends with a block. So the last word of some statements is a mark,
and statements behind it are read as if they stood alone: the words of two
programs one behind the other derive the statements of both.
-/
import RobotLang.Proofs.Grammar

namespace RobotLang

/-- The words end with a mark. -/
def EndsInMark (ws : List String) : Prop :=
  ∃ m : Mark, ws.getLast? = some m.word

theorem endsInMark_concat (ws : List String) (m : Mark) :
    EndsInMark (ws ++ [m.word]) := ⟨m, by simp⟩

/-- What stands in front does not matter. -/
theorem EndsInMark.append {ws : List String} (h : EndsInMark ws)
    (us : List String) : EndsInMark (us ++ ws) := by
  obtain ⟨m, hm⟩ := h
  exact ⟨m, by simp [List.getLast?_append, hm]⟩

namespace Derives

variable {u v ws : List String} {t : Tree} {ss ts : List Stmt}

theorem block_endsInMark (h : Derives .block ws t) : EndsInMark ws := by
  cases h with
  | @block ws ss h =>
      exact endsInMark_concat (Mark.openBrace.word :: ws) .closeBrace

/-- Every statement ends with a mark. -/
theorem stmt_endsInMark (h : Derives .stmt ws t) : EndsInMark ws := by
  cases h with
  | stmtAction h =>
      cases h with
      | once a => exact endsInMark_concat [a.word] .semicolon
      | @times a ws e he =>
          exact endsInMark_concat (a.action.word :: inParens ws) .semicolon
  | stmtLoop h =>
      cases h with
      | loop hb => exact hb.block_endsInMark.append ["loop"]
  | stmtChoice h =>
      cases h with
      | @ifThen u v c b hc hb =>
          exact hb.block_endsInMark.append ("if" :: inParens u)
      | @ifElse u v w c b o hc hb ho =>
          have hother := (ho.block_endsInMark.append ["else"]).append v
          exact hother.append ("if" :: inParens u)
  | stmtWhile h =>
      cases h with
      | @whileDo u v c b hc hb =>
          exact hb.block_endsInMark.append ("while" :: inParens u)

/-- A program that has words ends with a mark. -/
theorem program_endsInMark (h : Derives .program ws (.program ⟨ss⟩))
    (hne : ws ≠ []) : EndsInMark ws := by
  induction ss generalizing ws with
  | nil =>
      cases h
      exact absurd rfl hne
  | cons s ss ih =>
      cases h with
      | @more u v _ _ hs hss =>
          by_cases hv : v = []
          · rw [hv, List.append_nil]
            exact hs.stmt_endsInMark
          · exact (ih hss hv).append u

/-- The words of two programs, one behind the other, derive the statements
of both. -/
theorem program_append (h : Derives .program u (.program ⟨ss⟩))
    (h' : Derives .program v (.program ⟨ts⟩)) :
    Derives .program (u ++ v) (.program ⟨ss ++ ts⟩) := by
  induction ss generalizing u with
  | nil =>
      cases h
      exact h'
  | cons s ss ih =>
      cases h with
      | @more u₁ u₂ _ _ hs hss =>
          rw [List.append_assoc]
          exact .more hs (ih hss)

end Derives

end RobotLang
