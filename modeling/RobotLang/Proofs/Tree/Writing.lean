/-
What comes of writing a tree.

A tree cannot be written if one of its numbers is too long, and otherwise
what is written is its canonical text (`Tree.written?_eq`). A number is too
long to be written exactly if its numeral is too long to be read, so what
has been written is read back as the tree.

Every form of a tree is written by writing its parts and putting the texts
together. Texts that are written one after the other need the numbers of
both to be short, so the numbers come together as the texts do.
-/
import Mathlib.Algebra.Group.Nat.Defs
import RobotLang.Proofs.RoundTrip

namespace RobotLang

variable {α β : Type} {ms ns : List Int}

-- ========================================================= long numbers

theorem Numeral.isShort_iff {n : Int} :
    IsShort n ↔ n.natAbs < 10 ^ digitLimit :=
  Nat.length_toDigits_le_iff (by decide) (by decide)

/-- The least number that is too long. -/
theorem Numeral.not_isShort_pow : ¬ IsShort (10 ^ digitLimit : Nat) := by
  rw [isShort_iff, Int.natAbs_natCast]
  exact Nat.lt_irrefl _

-- ============================================================== writing

/-- What comes of writing is the wanted text or texts if all the numbers
are short, and else nothing. -/
def Writes (ns : List Int) (x : Option α) (wanted : α) : Prop :=
  x = if AllShort ns then some wanted else none

namespace Writes

theorem of_allShort {x : Option α} {a : α} (h : Writes ns x a)
    (hns : AllShort ns) : x = some a :=
  h.trans (if_pos hns)

theorem of_not_allShort {x : Option α} {a : α} (h : Writes ns x a)
    (hns : ¬ AllShort ns) : x = none :=
  h.trans (if_neg hns)

theorem pure (a : α) : Writes [] (Pure.pure a) a :=
  (if_pos allShort_nil).symm

theorem bind {x : Option α} {a : α} {f : α → Option β} {b : β}
    (hx : Writes ms x a) (hf : Writes ns (f a) b) :
    Writes (ms ++ ns) (x >>= f) b := by
  unfold Writes at hx hf ⊢
  rw [hx]
  by_cases hms : AllShort ms
  · rw [if_pos hms]
    show f a = _
    rw [hf]
    simp only [allShort_append, hms, true_and]
  · rw [if_neg hms, if_neg fun h => hms (allShort_append.1 h).1]
    rfl

/-- With the text changed at the end. -/
theorem andReturn {x : Option α} {a : α} (hx : Writes ns x a) (g : α → β) :
    Writes ns (x >>= fun a => Pure.pure (g a)) (g a) := by
  have hbind := hx.bind (f := fun a => Pure.pure (g a)) (.pure (g a))
  rwa [List.append_nil] at hbind

/-- Two parts and the text that is made of theirs. -/
theorem parts {γ : Type} {x : Option α} {y : Option β} {a : α} {b : β}
    (hx : Writes ms x a) (hy : Writes ns y b) (g : α → β → γ) :
    Writes (ms ++ ns)
      (do
        let a ← x
        let b ← y
        return g a b) (g a b) :=
  hx.bind (hy.andReturn (g a))

end Writes

-- ================================================================ trees

theorem Numeral.writes (n : Int) : Writes [n] (write? n) (write n) := by
  have hshort : AllShort [n] ↔ (Nat.toDigits 10 n.natAbs).length
      ≤ digitLimit := List.forall_mem_singleton
  unfold Writes write?
  simp only [hshort]

theorem Expr.writes (e : Expr) : Writes e.numbers e.written? e.text := by
  induction e with
  | number n => exact Numeral.writes n
  | sensor s => exact .pure s.word
  | arith o l r hl hr => exact hl.parts hr _

theorem Cond.writes (c : Cond) : Writes c.numbers c.written? c.text := by
  induction c with
  | compare p l r => exact l.writes.parts r.writes _
  | both l r hl hr | either l r hl hr => exact hl.parts hr _
  | negate c hc => exact hc.andReturn _

mutual

theorem Stmt.writes : (s : Stmt) → Writes s.numbers s.written? s.text
  | .once _ => .pure _
  | .times _ e => e.writes.andReturn _
  | .loop b => (Stmt.allWrites b).andReturn _
  | .whileDo c b | .ifThen c b => c.writes.parts (Stmt.allWrites b) _
  | .ifElse c b o =>
      c.writes.bind ((Stmt.allWrites b).parts (Stmt.allWrites o) _)

theorem Stmt.allWrites : (ss : List Stmt) →
    Writes (Stmt.allNumbers ss) (Stmt.allWritten? ss) (Stmt.texts ss)
  | [] => .pure []
  | s :: ss => s.writes.parts (Stmt.allWrites ss) _

end

theorem Tree.writes (t : Tree) : Writes t.numbers t.written? t.text := by
  cases t with
  | expr e => exact e.writes
  | cond c => exact c.writes
  | relation r => exact .pure r.word
  | stmt s => exact s.writes
  | block b => exact (Stmt.allWrites b).andReturn _
  | program p => exact (Stmt.allWrites p.statements).andReturn _

/-- A tree is written as its canonical text, unless a number in it is too
long. -/
theorem Tree.written?_eq (t : Tree) :
    t.written? = if AllShort t.numbers then some t.text else none :=
  t.writes

/-- What has been written is read back. -/
theorem Tree.read_of_written {t : Tree} (ht : t.rule ≠ .program)
    {text : String} (h : t.written? = some text) :
    t.rule.read (tokenize text) = .ok t [] := by
  rw [t.written?_eq] at h
  split at h
  · next hshort =>
    cases h
    have hread : t.rule.read (tokenize t.text ++ []) = .ok t [] :=
      Tree.read_tokenize_text ht hshort fun _ _ _ => nofun
    rwa [List.append_nil] at hread
  · cases h

end RobotLang
