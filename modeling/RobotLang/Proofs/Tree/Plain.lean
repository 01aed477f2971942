/-
The canonical texts are plain.

A text of a tree is put together from the words of the language, from
numerals, and from marks and spaces between them. All of these are visible,
and so is what is put together from visible parts; so the text of a
statement is plain and on one line. Between the statements of a program
stand line feeds, which are plain but not visible.
-/
import RobotLang.Proofs.Numeral
import RobotLang.Proofs.Text.Plain
import RobotLang.Tree.Text

namespace RobotLang

open Text

-- ================================================================= words

theorem isVisible_action (a : Action) : IsVisible a.word := by
  cases a <;> decide

theorem isVisible_sensor (s : Sensor) : IsVisible s.word := by
  cases s <;> decide

theorem isVisible_operation (o : Operation) : IsVisible o.word := by
  cases o <;> decide

theorem isVisible_relation (r : Relation) : IsVisible r.word := by
  cases r <;> decide

theorem isVisible_connective (c : Connective) : IsVisible c.word := by
  cases c <;> decide

theorem isVisible_write (n : Int) : IsVisible (Numeral.write n) := by
  have hdigit : ∀ c ∈ Nat.toDigits 10 n.natAbs,
      32 ≤ c.toNat ∧ c.toNat < 127 := by
    intro c hc
    have hrange := Char.isDigit_iff_toNat.1
      (Nat.isDigit_of_mem_toDigits (by decide) (by decide) hc)
    have h0 : '0'.toNat = 48 := rfl
    have h9 : '9'.toNat = 57 := rfl
    omega
  intro c hc
  rw [Numeral.toList_write] at hc
  split at hc
  · exact hdigit c hc
  · rcases List.mem_cons.1 hc with rfl | hc
    · decide
    · exact hdigit c hc

-- =============================================================== phrases

theorem isVisible_applied {w left right : String} (hw : IsVisible w)
    (hl : IsVisible left) (hr : IsVisible right) :
    IsVisible (applied w left right) :=
  ((((hw.append (by decide)).append hl).append (by decide)).append hr).append
    (by decide)

theorem isVisible_braced {ts : List String} (hts : ∀ t ∈ ts, IsVisible t) :
    IsVisible (braced ts) := by
  cases ts with
  | nil => decide
  | cons t ts =>
      have hbody : IsVisible (" ".intercalate (t :: ts)) :=
        .intercalate (by decide) hts
      exact (IsVisible.append (by decide) hbody).append (by decide)

theorem Expr.isVisible_text (e : Expr) : IsVisible e.text := by
  induction e with
  | number n => exact isVisible_write n
  | sensor s => exact isVisible_sensor s
  | arith o l r hl hr =>
      exact isVisible_applied (isVisible_operation o) hl hr

theorem Cond.isVisible_text (c : Cond) : IsVisible c.text := by
  induction c with
  | compare p l r =>
      exact isVisible_applied (isVisible_relation p) l.isVisible_text
        r.isVisible_text
  | both l r hl hr => exact isVisible_applied (isVisible_connective _) hl hr
  | either l r hl hr =>
      exact isVisible_applied (isVisible_connective _) hl hr
  | negate c hc =>
      exact (((isVisible_connective .not).append (by decide)).append
        hc).append (by decide)

/-- A keyword in front of a condition between parentheses and a block. -/
theorem isVisible_guarded {w block : String} (hw : IsVisible w) (c : Cond)
    (hblock : IsVisible block) :
    IsVisible (w ++ c.text ++ ") " ++ block) :=
  ((hw.append c.isVisible_text).append (by decide)).append hblock

mutual

theorem Stmt.isVisible_text : (s : Stmt) → IsVisible s.text
  | .once a => (isVisible_action a).append (by decide)
  | .times a e =>
      (((isVisible_action a.action).append (by decide)).append
        e.isVisible_text).append (by decide)
  | .loop b =>
      IsVisible.append (by decide) (isVisible_braced (Stmt.isVisible_texts b))
  | .whileDo c b =>
      isVisible_guarded (by decide) c
        (isVisible_braced (Stmt.isVisible_texts b))
  | .ifThen c b =>
      isVisible_guarded (by decide) c
        (isVisible_braced (Stmt.isVisible_texts b))
  | .ifElse c b o =>
      ((isVisible_guarded (by decide) c
        (isVisible_braced (Stmt.isVisible_texts b))).append (by decide)).append
        (isVisible_braced (Stmt.isVisible_texts o))

theorem Stmt.isVisible_texts :
    (ss : List Stmt) → ∀ t ∈ Stmt.texts ss, IsVisible t
  | [] => fun _ ht => absurd ht List.not_mem_nil
  | s :: ss => by
      intro t ht
      rcases List.mem_cons.1 ht with rfl | ht
      · exact Stmt.isVisible_text s
      · exact Stmt.isVisible_texts ss t ht

end

/-- The canonical text of a program is plain. -/
theorem Program.isPlain_text (p : Program) : IsPlain p.text := by
  have hnewline : IsPlain "\n" := by decide
  exact forall_intercalate hnewline fun t ht =>
    (Stmt.isVisible_texts p.statements t ht).isPlain

end RobotLang
