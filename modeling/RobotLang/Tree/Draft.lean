/-
Drafts: trees as they come from outside, with names where a tree has
meanings. Checking a draft gives the tree that it describes or the first
objection, children before parents and, among siblings, in the order in
which the constructor takes them.

Every tree has a draft, which checks.
-/
import RobotLang.Text.Quoted
import RobotLang.Tree

namespace RobotLang

/-- An unchecked tree. -/
inductive Draft
  | number (value : Int)
  | sensor (name : String)
  | arith (name : String) (left right : Draft)
  | relation (name : String)
  | compare (name : String) (left right : Draft)
  | both (left right : Draft)
  | either (left right : Draft)
  | negate (operand : Draft)
  | once (name : String)
  | times (name : String) (amount : Draft)
  | block (statements : List Draft)
  | loop (block : Draft)
  | whileDo (condition block : Draft)
  | ifThen (condition block : Draft)
  | ifElse (condition block other : Draft)
  | program (statements : List Draft)
  deriving Inhabited, Repr

/-- What is wrong with a draft. -/
inductive Objection
  | unknownSensor (name : String)
  | unknownOperation (name : String)
  | unknownRelation (name : String)
  | unknownAction (name : String)
  | takesNoAmount (name : String)
  | misplaced
  deriving DecidableEq, Repr

/-- The wording of an objection. -/
def Objection.message : Objection → String
  | unknownSensor n => "Unknown sensor " ++ Text.quoted n
  | unknownOperation n => "Unknown operator " ++ Text.quoted n
  | unknownRelation n => "Unknown relation " ++ Text.quoted n
  | unknownAction n => "Unknown action " ++ Text.quoted n
  | takesNoAmount n => "Action " ++ Text.quoted n ++ " takes no argument"
  | misplaced => "Misplaced phrase"

-- ==================================================== kinds of phrase

namespace Tree

def expr? : Tree → Except Objection Expr
  | .expr e => .ok e
  | _ => .error .misplaced

def cond? : Tree → Except Objection Cond
  | .cond c => .ok c
  | _ => .error .misplaced

def stmt? : Tree → Except Objection Stmt
  | .stmt s => .ok s
  | _ => .error .misplaced

def block? : Tree → Except Objection Block
  | .block b => .ok b
  | _ => .error .misplaced

end Tree

-- ============================================================ checking

namespace Draft

/-- The meaning of a name, or an objection to it. -/
def meaning {α : Type} (ofWord? : String → Option α)
    (objection : String → Objection) (name : String) : Except Objection α :=
  match ofWord? name with
  | some a => .ok a
  | none => .error (objection name)

/-- The action that a name stands for when it is given an amount. -/
def repeatable (name : String) : Except Objection Repeatable := do
  let a ← meaning Action.ofWord? .unknownAction name
  match Repeatable.ofAction? a with
  | some r => return r
  | none => throw (.takesNoAmount name)

mutual

/-- The tree that a draft describes. -/
def check : Draft → Except Objection Tree
  | .number n => return .expr (.number n)
  | .sensor name =>
    return .expr (.sensor (← meaning Sensor.ofWord? .unknownSensor name))
  | .arith name left right => do
    let l ← (← check left).expr?
    let r ← (← check right).expr?
    let o ← meaning Operation.ofWord? .unknownOperation name
    return .expr (.arith o l r)
  | .relation name =>
    return .relation (← meaning Relation.ofWord? .unknownRelation name)
  | .compare name left right => do
    let l ← (← check left).expr?
    let r ← (← check right).expr?
    let p ← meaning Relation.ofWord? .unknownRelation name
    return .cond (.compare p l r)
  | .both left right => do
    let l ← (← check left).cond?
    let r ← (← check right).cond?
    return .cond (.both l r)
  | .either left right => do
    let l ← (← check left).cond?
    let r ← (← check right).cond?
    return .cond (.either l r)
  | .negate operand => do
    return .cond (.negate (← (← check operand).cond?))
  | .once name =>
    return .stmt (.once (← meaning Action.ofWord? .unknownAction name))
  | .times name amount => do
    let e ← (← check amount).expr?
    return .stmt (.times (← repeatable name) e)
  | .block ds => return .block (← checkAll ds)
  | .loop d => return .stmt (.loop (← (← check d).block?))
  | .whileDo d e => do
    let c ← (← check d).cond?
    return .stmt (.whileDo c (← (← check e).block?))
  | .ifThen d e => do
    let c ← (← check d).cond?
    return .stmt (.ifThen c (← (← check e).block?))
  | .ifElse d e f => do
    let c ← (← check d).cond?
    let b ← (← check e).block?
    return .stmt (.ifElse c b (← (← check f).block?))
  | .program ds => return .program ⟨← checkAll ds⟩

/-- The statements that some drafts describe. -/
def checkAll : List Draft → Except Objection (List Stmt)
  | [] => return []
  | d :: ds => do
    let s ← (← check d).stmt?
    return s :: (← checkAll ds)

end

end Draft

-- ===================================================== drafts of trees

/-- The draft of an expression. -/
def Expr.draft : Expr → Draft
  | .number n => .number n
  | .sensor s => .sensor s.word
  | .arith o l r => .arith o.word l.draft r.draft

/-- The draft of a condition. -/
def Cond.draft : Cond → Draft
  | .compare p l r => .compare p.word l.draft r.draft
  | .both l r => .both l.draft r.draft
  | .either l r => .either l.draft r.draft
  | .negate c => .negate c.draft

mutual

/-- The draft of a statement. -/
def Stmt.draft : Stmt → Draft
  | .once a => .once a.word
  | .times a e => .times a.action.word e.draft
  | .loop b => .loop (.block (Stmt.drafts b))
  | .whileDo c b => .whileDo c.draft (.block (Stmt.drafts b))
  | .ifThen c b => .ifThen c.draft (.block (Stmt.drafts b))
  | .ifElse c b o =>
    .ifElse c.draft (.block (Stmt.drafts b)) (.block (Stmt.drafts o))

/-- The drafts of several statements. -/
def Stmt.drafts : List Stmt → List Draft
  | [] => []
  | s :: ss => s.draft :: Stmt.drafts ss

end

/-- The draft of a phrase. -/
def Tree.draft : Tree → Draft
  | .expr e => e.draft
  | .cond c => c.draft
  | .relation r => .relation r.word
  | .stmt s => s.draft
  | .block b => .block (Stmt.drafts b)
  | .program p => .program (Stmt.drafts p.statements)

-- ------------------------------------------------------ and they check

theorem Expr.check_draft (e : Expr) : e.draft.check = .ok (.expr e) := by
  induction e with
  | number => rfl
  | sensor s => cases s <;> rfl
  | arith o l r hl hr =>
    simp only [Expr.draft, Draft.check, hl, hr]
    cases o <;> rfl

theorem Cond.check_draft (c : Cond) : c.draft.check = .ok (.cond c) := by
  induction c with
  | compare p l r =>
    simp only [Cond.draft, Draft.check, l.check_draft, r.check_draft]
    cases p <;> rfl
  | both l r hl hr | either l r hl hr =>
    simp only [Cond.draft, Draft.check, hl, hr]
    rfl
  | negate c h =>
    simp only [Cond.draft, Draft.check, h]
    rfl

mutual

theorem Stmt.check_draft : (s : Stmt) → s.draft.check = .ok (.stmt s)
  | .once a => by cases a <;> rfl
  | .times a e => by
    simp only [Stmt.draft, Draft.check, e.check_draft]
    cases a <;> rfl
  | .loop b => by
    simp only [Stmt.draft, Draft.check, Stmt.checkAll_drafts b]
    rfl
  | .whileDo c b | .ifThen c b => by
    simp only [Stmt.draft, Draft.check, c.check_draft,
      Stmt.checkAll_drafts b]
    rfl
  | .ifElse c b o => by
    simp only [Stmt.draft, Draft.check, c.check_draft,
      Stmt.checkAll_drafts b, Stmt.checkAll_drafts o]
    rfl

theorem Stmt.checkAll_drafts :
    (ss : List Stmt) → Draft.checkAll (Stmt.drafts ss) = .ok ss
  | [] => rfl
  | s :: ss => by
    simp only [Stmt.drafts, Draft.checkAll, s.check_draft,
      Stmt.checkAll_drafts ss]
    rfl

end

/-- Checking the draft of a tree gives the tree back. -/
theorem Tree.check_draft (t : Tree) : t.draft.check = .ok t := by
  cases t with
  | expr e => exact e.check_draft
  | cond c => exact c.check_draft
  | relation r => cases r <;> rfl
  | stmt s => exact s.check_draft
  | block b | program b =>
    simp only [Tree.draft, Draft.check, Stmt.checkAll_drafts]
    rfl

end RobotLang
