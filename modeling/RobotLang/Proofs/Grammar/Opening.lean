/-
What a phrase begins with.

Every phrase but a program has words, and for most rules one pattern is
fitted by the first word of all phrases of the rule. No statement begins
with `else` or with a closing brace, so neither do several.
-/
import RobotLang.Proofs.Grammar

namespace RobotLang

/-- The pattern of the word that a phrase of the rule begins with, if there
is one for all its phrases. -/
def Rule.opening? : Rule → Option Pattern
  | .action => some .action
  | .loop => some .loopWord
  | .whileDo => some .whileWord
  | .choice => some .ifWord
  | .relation => some .relation
  | .connected => some .connective
  | .sensor => some .sensor
  | .operation => some .operation
  | .program | .stmt | .block | .cond | .expr => none

theorem Derives.eq_cons {rule : Rule} {ws : List String} {t : Tree}
    (h : Derives rule ws t) {p : Pattern} (hp : rule.opening? = some p) :
    ∃ w us, ws = w :: us ∧ p.fits w = true := by
  cases h with
  | number | exprSensor | exprOperation | comparison | condConnected
  | block | stmtAction | stmtLoop | stmtChoice | stmtWhile | none | more =>
      cases hp
  | _ =>
      cases hp
      exact ⟨_, _, rfl, by simp⟩

/-- Every phrase but a program has words. -/
theorem Derives.ne_nil {rule : Rule} {ws : List String} {t : Tree}
    (h : Derives rule ws t) (hrule : rule ≠ .program) : ws ≠ [] := by
  induction h with
  | exprSensor h ih | exprOperation h ih | condConnected h ih
  | stmtAction h ih | stmtLoop h ih | stmtChoice h ih | stmtWhile h ih =>
      exact ih (by decide)
  | none | more => exact absurd rfl hrule
  | _ => exact List.cons_ne_nil _ _

/-- A statement begins neither with `else` nor with a closing brace. -/
theorem Derives.stmt_eq_cons {ws : List String} {t : Tree}
    (h : Derives .stmt ws t) :
    ∃ w us, ws = w :: us ∧ w ≠ "else" ∧ w ≠ Mark.closeBrace.word := by
  have hne {w : String} {p : Pattern} (hw : p.fits w = true)
      (hp : p ≠ .elseWord) : w ≠ "else" ∧ w ≠ Mark.closeBrace.word := by
    constructor
    · intro heq
      rw [heq, Pattern.fits_else] at hw
      exact hp (of_decide_eq_true hw)
    · intro heq
      rw [heq, Pattern.fits_mark] at hw
      cases hw
  cases h with
  | stmtAction h | stmtLoop h | stmtChoice h | stmtWhile h =>
      obtain ⟨w, us, rfl, hw⟩ := h.eq_cons rfl
      exact ⟨w, us, rfl, hne hw (by decide)⟩

/-- No statements begin with `else`. -/
theorem Derives.head?_ne_else {ws : List String} {p : Program}
    (h : Derives .program ws (.program p)) : ws.head? ≠ some "else" := by
  cases h with
  | none => exact fun h => by cases h
  | more hs hss =>
      obtain ⟨w, us, rfl, hw, -⟩ := hs.stmt_eq_cons
      exact fun h => hw (Option.some.inj h)

end RobotLang
