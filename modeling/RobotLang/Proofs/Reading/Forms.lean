/-
Each form of phrase is read.

The word that a phrase begins with decides which form is read, because it
fits no other pattern than that of its form. Over inner readings that take
the words of the inner phrases, each rule then takes the words of its own.

A choice without `else` is read as one only if no `else` is next, and the
statements inside a block only up to its closing brace or the end. Inside
a phrase both hold: no statement begins with `else`, and none with a brace.
-/
import RobotLang.Proofs.Grammar
import RobotLang.Proofs.Reading.Reads

namespace RobotLang

/-- What may follow a phrase that is read inside another one. -/
def Tree.Precedes : Tree → Option String → Prop
  | .stmt (.ifThen _ _), next => next ≠ some "else"
  | .program _, next => next = none ∨ next = some Mark.closeBrace.word
  | _, _ => True

namespace Reading

variable {α β : Type}

-- ======================================================== dispatching

theorem begin_cons (r : Reading α) (t : Token) (ts : List Token) :
    (begin >>= fun _ => r) (t :: ts) = r (t :: ts) := rfl

theorem sees_cons {r s : Reading α} {test : String → Bool} (t : Token)
    (ts : List Token) :
    (sees test >>= fun b => if b = true then r else s) (t :: ts)
      = (if test t.value = true then r else s) (t :: ts) := rfl

section Dispatch

variable {operand : Reading Expr} {condition : Reading Cond}
  {statements : Reading (List Stmt)} {t : Token} {ts : List Token}

theorem exprOver_of_number (h : Numeral.isNumeral t.value = true) :
    exprOver operand (t :: ts)
      = (do return .number (← numeral) : Reading Expr) (t :: ts) := by
  rw [exprOver, begin_cons, sees_cons]
  simp [Pattern.fits_numeral h]

theorem exprOver_of_sensor (h : Pattern.sensor.fits t.value = true) :
    exprOver operand (t :: ts) = sensor (t :: ts) := by
  rw [exprOver, begin_cons, sees_cons]
  simp [Pattern.fits_eq h, sees_cons]

theorem exprOver_of_operation (h : Pattern.operation.fits t.value = true) :
    exprOver operand (t :: ts) = operation operand (t :: ts) := by
  rw [exprOver, begin_cons, sees_cons]
  simp [Pattern.fits_eq h, sees_cons]

theorem condOver_of_relation (h : Pattern.relation.fits t.value = true) :
    condOver operand condition (t :: ts)
      = comparison operand (t :: ts) := by
  rw [condOver, begin_cons, sees_cons]
  simp [Pattern.fits_eq h]

theorem condOver_of_connective
    (h : Pattern.connective.fits t.value = true) :
    condOver operand condition (t :: ts)
      = connected condition (t :: ts) := by
  rw [condOver, begin_cons, sees_cons]
  simp [Pattern.fits_eq h, sees_cons]

theorem stmtOver_of_action (h : Pattern.action.fits t.value = true) :
    stmtOver operand condition statements (t :: ts)
      = action operand (t :: ts) := by
  rw [stmtOver, begin_cons, sees_cons]
  simp [Pattern.fits_eq h]

theorem stmtOver_of_loop (h : Pattern.loopWord.fits t.value = true) :
    stmtOver operand condition statements (t :: ts)
      = loop statements (t :: ts) := by
  rw [stmtOver, begin_cons, sees_cons]
  simp [Pattern.fits_eq h, sees_cons]

theorem stmtOver_of_if (h : Pattern.ifWord.fits t.value = true) :
    stmtOver operand condition statements (t :: ts)
      = choice condition statements (t :: ts) := by
  rw [stmtOver, begin_cons, sees_cons]
  simp [Pattern.fits_eq h, sees_cons]

theorem stmtOver_of_while (h : Pattern.whileWord.fits t.value = true) :
    stmtOver operand condition statements (t :: ts)
      = whileDo condition statements (t :: ts) := by
  rw [stmtOver, begin_cons, sees_cons]
  simp [Pattern.fits_eq h, sees_cons]

end Dispatch

namespace Reads

/-- The reading of the form that the first word decides on. -/
theorem of_form {w : String} {ws : List String} {b : β} {r s : Reading α}
    {g : α → β} {F : Option String → Prop}
    (hrs : ∀ t ts, t.value = w → r (t :: ts) = s (t :: ts))
    (h : Reads (do return g (← s)) (w :: ws) b F) :
    Reads (do return g (← r)) (w :: ws) b F := by
  intro toks rest htoks hnext
  have hs := h toks rest htoks hnext
  obtain ⟨t, toks', rfl, ht, -⟩ := List.map_eq_cons_iff.1 htoks
  rw [List.cons_append] at hs ⊢
  obtain ⟨a, mid, ha, hb⟩ := bind_eq_ok_iff.1 hs
  exact bind_eq_ok_iff.2 ⟨a, mid, (hrs t _ ht).trans ha, hb⟩

-- ===================================================== rule by rule

theorem numeral {w : String} (hw : Numeral.isNumeral w = true)
    (hlegible : Legible [w]) :
    Reads numeral [w] (Numeral.value w) Anything := by
  intro toks rest htoks _
  obtain ⟨t, toks', rfl, rfl, htail⟩ := List.map_eq_cons_iff.1 htoks
  have hlen := legible_singleton.1 hlegible hw
  rw [List.map_eq_nil_iff.1 htail, List.cons_append, numeral_cons,
    if_pos hw, if_neg (Nat.not_lt.2 hlen)]
  rfl

theorem sensor (s : Sensor) :
    Reads sensor [s.word] (.sensor s) Anything :=
  begin_bind (require_bind (Sensor.ofWord?_word s) (pure _ _))

theorem relation (p : Relation) : Reads relation [p.word] p Anything :=
  begin_bind (require (Relation.ofWord?_word p))

section Operands

variable {operand : Reading Expr} {u v : List String} {l r : Expr}
  (hl : Reads operand u l Anything) (hr : Reads operand v r Anything)

include hl hr in
theorem operation (o : Operation) :
    Reads (operation operand) (call o.word u v) (.arith o l r)
      Anything := by
  rw [call_eq]
  refine begin_bind (require_bind (Operation.ofWord?_word o) ?_)
  exact mark_bind (hl.bind (mark_bind (hr.bind (mark_bind (pure _ _)))))

include hl hr in
theorem comparison (p : Relation) :
    Reads (comparison operand) (call p.word u v) (.compare p l r)
      Anything := by
  rw [call_eq]
  refine bind (relation p) (mark_bind (hl.bind ?_))
  exact mark_bind (hr.bind (mark_bind (pure _ _)))

include hl in
theorem times (a : Repeatable) :
    Reads (action operand)
      (a.action.word :: (inParens u ++ [Mark.semicolon.word]))
      (.times a l) Anything := by
  have hwords : inParens u ++ [Mark.semicolon.word]
      = Mark.openParen.word :: (u ++ [Mark.closeParen.word,
        Mark.semicolon.word]) := by
    simp [inParens]
  rw [hwords]
  refine begin_bind (require_bind (Action.ofWord?_word _) ?_)
  rw [Repeatable.ofAction?_action]
  refine accept_bind (a := Mark.openParen.word) (by simp [passing]) ?_
  exact hl.bind (mark_bind (mark_bind (pure _ _)))

theorem once (a : Action) :
    Reads (action operand) [a.word, Mark.semicolon.word] (.once a)
      Anything := by
  refine begin_bind (require_bind (Action.ofWord?_word a) ?_)
  cases Repeatable.ofAction? a with
  | none => exact mark_bind (pure _ _)
  | some r =>
      refine accept_bind_none (mark_bind (pure _ _)) ?_
      intro next _ w hw
      obtain rfl : Mark.semicolon.word = w := Option.some.inj hw
      rfl

end Operands

section Conditions

variable {inner : Reading Cond} {u v : List String} {l r : Cond}
  (hl : Reads inner u l Anything) (hr : Reads inner v r Anything)

include hr in
theorem second :
    Reads (connected.second inner)
      (Mark.comma.word :: (v ++ [Mark.closeParen.word])) r Anything :=
  mark_bind (hr.bind (mark_bind (pure _ _)))

include hl hr in
theorem both :
    Reads (connected inner) (call Connective.and.word u v) (.both l r)
      Anything := by
  rw [call_eq]
  refine begin_bind (require_bind (Connective.ofWord?_word _) ?_)
  exact mark_bind (hl.bind ((second hr).map _))

include hl hr in
theorem either :
    Reads (connected inner) (call Connective.or.word u v) (.either l r)
      Anything := by
  rw [call_eq]
  refine begin_bind (require_bind (Connective.ofWord?_word _) ?_)
  exact mark_bind (hl.bind ((second hr).map _))

include hl in
theorem negate :
    Reads (connected inner) (Connective.not.word :: inParens u) (.negate l)
      Anything := by
  refine begin_bind (require_bind (Connective.ofWord?_word _) ?_)
  exact mark_bind (hl.bind (mark_bind (pure _ _)))

include hl in
theorem guarded : Reads (guarded inner) (inParens u) l Anything :=
  mark_bind (hl.bind (mark_bind (pure _ _)))

end Conditions

section Statements

variable {condition : Reading Cond} {statements : Reading (List Stmt)}
  {u v x : List String} {c : Cond} {b o : Block}
  (hc : Reads condition u c Anything)
  (hb : Reads (Reading.block statements) v b Anything)
  (ho : Reads (Reading.block statements) x o Anything)

/-- Statements are read up to the brace that closes them. -/
theorem block {ss : List Stmt}
    (h : Reads statements u ss (Tree.program ⟨ss⟩).Precedes) :
    Reads (block statements) (inBraces u) ss Anything := by
  refine begin_bind (mark_bind ?_)
  exact h.bind_of_follow (mark_bind (pure _ _)) fun _ _ => .inr rfl

include hb in
theorem loop : Reads (loop statements) ("loop" :: v) (.loop b) Anything :=
  begin_bind (word_bind (hb.map _))

include hc hb in
theorem whileDo :
    Reads (whileDo condition statements) ("while" :: (inParens u ++ v))
      (.whileDo c b) Anything :=
  begin_bind (word_bind ((guarded hc).bind (hb.map _)))

include hc hb in
theorem ifThen :
    Reads (choice condition statements) ("if" :: (inParens u ++ v))
      (.ifThen c b) (Tree.stmt (.ifThen c b)).Precedes := by
  refine begin_bind (word_bind ((guarded hc).bind ?_))
  rw [← List.append_nil v]
  refine hb.bind (accept_bind_none (pure _ _) fun next hnext w hw => ?_)
  have hne : w ≠ "else" := fun h => hnext (h ▸ hw)
  have hfits : Pattern.elseWord.fits w = false := decide_eq_false hne
  rw [passing, hfits]
  rfl

include hc hb ho in
theorem ifElse :
    Reads (choice condition statements)
      ("if" :: (inParens u ++ (v ++ "else" :: x))) (.ifElse c b o)
      Anything := by
  refine begin_bind (word_bind ((guarded hc).bind (hb.bind ?_)))
  exact accept_bind (a := "else") (by simp [passing]) (ho.map _)

end Statements

-- ------------------------------------------------------- statements

/-- One statement and more behind it. -/
theorem more {s : Reading Stmt} {ss : Reading (List Stmt)}
    {u v : List String} {x : Stmt} {xs : List Stmt}
    {F : Option String → Prop}
    (hs : Reads s u x (Tree.stmt x).Precedes) (hss : Reads ss v xs F)
    (hF : ∀ next, F next → v.head?.or next ≠ some "else") :
    Reads (do return (← s) :: (← ss)) (u ++ v) (x :: xs) F := by
  refine hs.bind_of_follow (hss.map _) fun next hnext => ?_
  cases x with
  | ifThen c b => exact hF next hnext
  | _ => trivial

theorem inside_cons (n : Nat) (t : Token) (rest : List Token) :
    inside (n + 1) (t :: rest)
      = (if (t.value == Mark.closeBrace.word) = true then return []
        else do return (← stmt (n + 1)) :: (← inside n)
          : Reading (List Stmt)) (t :: rest) := rfl

theorem inside_none (n : Nat) :
    Reads (inside n) [] [] (Tree.program ⟨[]⟩).Precedes := by
  intro toks rest htoks hnext
  rw [List.map_eq_nil_iff.1 htoks, List.nil_append]
  cases n with
  | zero => rfl
  | succ n =>
      cases rest with
      | nil => rfl
      | cons t rest =>
          obtain h | h := hnext
          · cases h
          · have ht : (t.value == Mark.closeBrace.word) = true :=
              beq_iff_eq.2 (Option.some.inj h)
            rw [inside_cons, if_pos ht]
            rfl

theorem inside_more {n : Nat} {w : String} {us v : List String}
    {x : Stmt} {xs : List Stmt} (hw : w ≠ Mark.closeBrace.word)
    (hs : Reads (stmt (n + 1)) (w :: us) x (Tree.stmt x).Precedes)
    (hss : Reads (inside n) v xs (Tree.program ⟨xs⟩).Precedes)
    (hv : v.head? ≠ some "else") :
    Reads (inside (n + 1)) (w :: us ++ v) (x :: xs)
      (Tree.program ⟨x :: xs⟩).Precedes := by
  refine atEnd_bind (sees_bind ?_)
  rw [beq_eq_false_iff_ne.2 hw]
  refine more hs hss fun next hnext => ?_
  cases v with
  | nil => rcases hnext with rfl | rfl <;> decide
  | cons w' v => exact hv

end Reads

end Reading

end RobotLang
