/-
The order in which patterns are tried.

A rule that has several forms of phrase to choose from tries the patterns
of their first words, one after another, until the upcoming word fits.
`firstOf` does so in a given order. No word fits two patterns, so two of
them can change places (`firstOf_swap`), and hence any order leads to the
same form (`firstOf_perm`).

The rules are written here once more, level over level, over an order of
all the patterns. It sets the order for expressions, for conditions and for
statements at once, and independently, as these have no pattern in common.
One level over any readings is a level of the usual rules, so any number of
levels is, and every rule reads as it does in the usual order
(`Rule.readInOrder_eq`).
-/
import RobotLang.Proofs.Reading.Budget
import RobotLang.Proofs.Reading.Forms

namespace RobotLang

namespace Reading

variable {α : Type}

-- ========================================================= one by one

/-- Reads the form of the first pattern that the upcoming word fits, of
those that have a form. -/
def firstOf (form : Pattern → Option (Reading α)) (otherwise : Reading α) :
    List Pattern → Reading α
  | [] => otherwise
  | p :: ps =>
    match form p with
    | none => firstOf form otherwise ps
    | some r => do
      if ← sees p.fits then r else firstOf form otherwise ps

section

variable {form : Pattern → Option (Reading α)} {otherwise : Reading α}
  {p q : Pattern} {ps qs : List Pattern} {t : Token} {ts : List Token}

/-- No pattern is fitted at the end. -/
theorem firstOf_nil : firstOf form otherwise ps [] = otherwise [] := by
  induction ps with
  | nil => rfl
  | cons p ps ih =>
      rw [firstOf]
      cases form p with
      | none => exact ih
      | some r => exact ih

/-- A pattern that the word does not fit is passed over. -/
theorem firstOf_of_not_fits (h : p.fits t.value = false) :
    firstOf form otherwise (p :: ps) (t :: ts)
      = firstOf form otherwise ps (t :: ts) := by
  rw [firstOf]
  cases form p with
  | none => rfl
  | some r => exact (sees_cons t ts).trans (by rw [h]; rfl)

theorem firstOf_congr (h : firstOf form otherwise ps (t :: ts)
      = firstOf form otherwise qs (t :: ts)) :
    firstOf form otherwise (p :: ps) (t :: ts)
      = firstOf form otherwise (p :: qs) (t :: ts) := by
  rw [firstOf, firstOf]
  cases form p with
  | none => exact h
  | some r =>
      refine (sees_cons t ts).trans ((sees_cons t ts).trans ?_).symm
      cases p.fits t.value with
      | true => rfl
      | false => exact h.symm

/-- The first two patterns can change places: whichever of them the word
does not fit can be left out on both sides. -/
theorem firstOf_swap :
    firstOf form otherwise (p :: q :: ps)
      = firstOf form otherwise (q :: p :: ps) := by
  by_cases hpq : p = q
  · rw [hpq]
  funext ts
  cases ts with
  | nil => rw [firstOf_nil, firstOf_nil]
  | cons t ts =>
      cases hp : p.fits t.value with
      | true =>
          have hq : q.fits t.value = false :=
            Bool.eq_false_iff.2 fun hq => hpq (Pattern.eq_of_fits hp hq)
          rw [firstOf_of_not_fits (p := q) hq]
          exact firstOf_congr (firstOf_of_not_fits hq)
      | false =>
          rw [firstOf_of_not_fits (p := p) hp]
          exact firstOf_congr (firstOf_of_not_fits hp).symm

/-- Any two orders lead to the same form. -/
theorem firstOf_perm (h : ps.Perm qs) :
    firstOf form otherwise ps = firstOf form otherwise qs := by
  induction h with
  | nil => rfl
  | cons p h ih => rw [firstOf, firstOf, ih]
  | swap p q ps => exact firstOf_swap
  | trans h h' ih ih' => exact ih.trans ih'

end

-- =============================================================== forms

/-- The forms of an expression, by the kind of their first word. -/
def exprForm (inner : Reading Expr) : Pattern → Option (Reading Expr)
  | .number => some do return .number (← numeral)
  | .sensor => some sensor
  | .operation => some (operation inner)
  | _ => none

/-- The forms of a condition. -/
def condForm (operand : Reading Expr) (inner : Reading Cond) :
    Pattern → Option (Reading Cond)
  | .relation => some (comparison operand)
  | .connective => some (connected inner)
  | _ => none

/-- The forms of a statement. -/
def stmtForm (amount : Reading Expr) (condition : Reading Cond)
    (inside : Reading (List Stmt)) : Pattern → Option (Reading Stmt)
  | .action => some (action amount)
  | .loopWord => some (loop inside)
  | .ifWord => some (choice condition inside)
  | .whileWord => some (whileDo condition inside)
  | _ => none

/-- The refusal of a word that begins no statement. -/
def noStatement : Reading Stmt := do
  let w := ((← peek).map Token.value).getD ""
  refuse (.unknownStatement w)

-- ============================================== the rules in an order

section

variable (order : List Pattern)

/-- A number, a sensor or an operation. -/
def exprInOrder (inner : Reading Expr) : Reading Expr := do
  begin
  firstOf (exprForm inner) (refuse .notExpression) order

/-- A comparison or a connection. -/
def condInOrder (operand : Reading Expr) (inner : Reading Cond) :
    Reading Cond := do
  begin
  firstOf (condForm operand inner) (refuse .notCondition) order

/-- A statement of any form. -/
def stmtInOrder (amount : Reading Expr) (condition : Reading Cond)
    (inside : Reading (List Stmt)) : Reading Stmt := do
  begin
  firstOf (stmtForm amount condition inside) noStatement order

/-- The rules over readings of the phrases in theirs, with the patterns
tried in the order. -/
def Inner.raisedInOrder (r : Inner) : Inner where
  expr := exprInOrder order r.expr
  cond := condInOrder order r.expr r.cond
  stmt := stmtInOrder order r.expr r.cond r.inside
  inside := do
    if (← atEnd) || (← sees (· == Mark.closeBrace.word)) then return []
    else
      let s ← stmtInOrder order r.expr r.cond r.inside
      return s :: (← r.inside)
  toEnd := do
    if ← atEnd then return []
    else
      let s ← stmtInOrder order r.expr r.cond r.inside
      return s :: (← r.toEnd)

/-- So many levels of these rules. -/
def Inner.upToInOrder : Nat → Inner
  | 0 => upTo 0
  | n + 1 => (upToInOrder n).raisedInOrder order

end

end Reading

/-- Reads a phrase from the front of the tokens, with the patterns tried in
the order. -/
def Rule.readInOrder (order : List Pattern) (rule : Rule) : Reading Tree :=
  fun ts => (Reading.Inner.upToInOrder order ts.length).read rule ts

-- =========================================================== any order

namespace Reading

/-- An order that agrees with that of every rule. -/
def usual : List Pattern :=
  [.action, .loopWord, .ifWord, .whileWord, .elseWord, .relation,
    .connective, .number, .sensor, .operation]

section

variable {order : List Pattern} (h : order.Perm Pattern.all)

include h

theorem firstOf_usual {form : Pattern → Option (Reading α)}
    {otherwise : Reading α} :
    firstOf form otherwise order = firstOf form otherwise usual :=
  firstOf_perm (h.trans (by decide))

theorem exprInOrder_eq (inner : Reading Expr) :
    exprInOrder order inner = exprOver inner := by
  rw [exprInOrder, firstOf_usual h]
  rfl

theorem condInOrder_eq (operand : Reading Expr) (inner : Reading Cond) :
    condInOrder order operand inner = condOver operand inner := by
  rw [condInOrder, firstOf_usual h]
  rfl

theorem stmtInOrder_eq (amount : Reading Expr) (condition : Reading Cond)
    (inside : Reading (List Stmt)) :
    stmtInOrder order amount condition inside
      = stmtOver amount condition inside := by
  rw [stmtInOrder, firstOf_usual h]
  rfl

/-- One level of rules reads the same. -/
theorem Inner.raisedInOrder_eq (r : Inner) :
    r.raisedInOrder order = r.raised := by
  simp only [raisedInOrder, exprInOrder_eq h, condInOrder_eq h,
    stmtInOrder_eq h, raised]

/-- Any number of levels does. -/
theorem Inner.upToInOrder_eq (n : Nat) : upToInOrder order n = upTo n := by
  induction n with
  | zero => rfl
  | succ n ih =>
      rw [upToInOrder, ih, raisedInOrder_eq h, upTo_eq_above n,
        upTo_eq_above (n + 1), above]

end

end Reading

/-- The rules read the same in whatever order the patterns are tried. -/
theorem Rule.readInOrder_eq {order : List Pattern}
    (h : order.Perm Pattern.all) (rule : Rule) :
    rule.readInOrder order = rule.read := by
  funext ts
  rw [readInOrder, Reading.Inner.upToInOrder_eq h, Reading.Inner.read_upTo,
    read]

end RobotLang
