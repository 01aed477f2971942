/-
The trees of the language: expressions over integers and sensors,
conditions over expressions, statements, and programs.

The types admit exactly the trees that mean something. In particular only
a repeatable action can carry an amount, so no tree needs a check. A block
is the list of its statements, and a program is the list of its top-level
statements, so both compose as lists do.
-/
import RobotLang.Keyword

namespace RobotLang

-- =============================================================== types

/-- An integer-valued expression. -/
inductive Expr
  | number (value : Int)
  | sensor (sensor : Sensor)
  | arith (operation : Operation) (left right : Expr)
  deriving DecidableEq, Repr

/-- A truth-valued expression. -/
inductive Cond
  | compare (relation : Relation) (left right : Expr)
  | both (left right : Cond)
  | either (left right : Cond)
  | negate (operand : Cond)
  deriving DecidableEq, Repr

/-- A statement. A block is a list of statements. -/
inductive Stmt
  | once (action : Action)
  | times (action : Repeatable) (amount : Expr)
  | loop (block : List Stmt)
  | whileDo (condition : Cond) (block : List Stmt)
  | ifThen (condition : Cond) (block : List Stmt)
  | ifElse (condition : Cond) (block other : List Stmt)
  deriving Repr

/-- The statements between a pair of braces. -/
abbrev Block := List Stmt

/-- A whole program: its top-level statements in order. -/
structure Program where
  statements : List Stmt
  deriving Repr

-- ============================================== equality of statements

mutual

/-- Whether two statements are the same tree. -/
def Stmt.same : Stmt → Stmt → Bool
  | .once a, .once b => a = b
  | .times a e, .times b f => a = b && e = f
  | .loop s, .loop t => Stmt.sameAll s t
  | .whileDo c s, .whileDo d t => c = d && Stmt.sameAll s t
  | .ifThen c s, .ifThen d t => c = d && Stmt.sameAll s t
  | .ifElse c s u, .ifElse d t v =>
    c = d && Stmt.sameAll s t && Stmt.sameAll u v
  | _, _ => false

/-- Whether two lists of statements agree one by one. -/
def Stmt.sameAll : List Stmt → List Stmt → Bool
  | [], [] => true
  | s :: ss, t :: ts => Stmt.same s t && Stmt.sameAll ss ts
  | _, _ => false

end

mutual

theorem Stmt.same_refl : (s : Stmt) → Stmt.same s s = true
  | .once _ => by simp [Stmt.same]
  | .times _ _ => by simp [Stmt.same]
  | .loop b => by simp [Stmt.same, Stmt.sameAll_refl b]
  | .whileDo _ b => by simp [Stmt.same, Stmt.sameAll_refl b]
  | .ifThen _ b => by simp [Stmt.same, Stmt.sameAll_refl b]
  | .ifElse _ b o => by
    simp [Stmt.same, Stmt.sameAll_refl b, Stmt.sameAll_refl o]

theorem Stmt.sameAll_refl : (ss : List Stmt) → Stmt.sameAll ss ss = true
  | [] => by simp [Stmt.sameAll]
  | s :: ss => by
    simp [Stmt.sameAll, Stmt.same_refl s, Stmt.sameAll_refl ss]

end

mutual

theorem Stmt.eq_of_same :
    (s t : Stmt) → Stmt.same s t = true → s = t
  | .once _, t, h => by cases t <;> simp_all [Stmt.same]
  | .times _ _, t, h => by cases t <;> simp_all [Stmt.same]
  | .loop b, t, h => by
    cases t <;> simp [Stmt.same] at h
    simp [Stmt.eq_of_sameAll b _ h]
  | .whileDo _ b, t, h => by
    cases t <;> simp [Stmt.same] at h
    simp [h.1, Stmt.eq_of_sameAll b _ h.2]
  | .ifThen _ b, t, h => by
    cases t <;> simp [Stmt.same] at h
    simp [h.1, Stmt.eq_of_sameAll b _ h.2]
  | .ifElse _ b o, t, h => by
    cases t <;> simp [Stmt.same] at h
    simp [h.1.1, Stmt.eq_of_sameAll b _ h.1.2, Stmt.eq_of_sameAll o _ h.2]

theorem Stmt.eq_of_sameAll :
    (ss ts : List Stmt) → Stmt.sameAll ss ts = true → ss = ts
  | [], ts, h => by cases ts <;> simp_all [Stmt.sameAll]
  | s :: ss, ts, h => by
    cases ts <;> simp [Stmt.sameAll] at h
    simp [Stmt.eq_of_same s _ h.1, Stmt.eq_of_sameAll ss _ h.2]

end

instance : DecidableEq Stmt := fun s t =>
  if h : Stmt.same s t = true then isTrue (Stmt.eq_of_same s t h)
  else isFalse fun e => h (e ▸ Stmt.same_refl s)

deriving instance DecidableEq for Program

-- ========================================================== any phrase

/-- A phrase of the language, of whichever kind. A relation is a phrase
too: it is the word in front of a comparison. -/
inductive Tree
  | expr (e : Expr)
  | cond (c : Cond)
  | relation (r : Relation)
  | stmt (s : Stmt)
  | block (b : Block)
  | program (p : Program)
  deriving DecidableEq, Repr

end RobotLang
