/-
The canonical text of a tree. Within a phrase one space separates what
needs separation, the operands of an operation follow a comma and a space,
and a program has one top-level statement a line.

Reading the canonical text of a tree gives the tree back.

The text of a tree is given here whatever numbers are in it. A tree with a
number that is too long cannot be written: what comes of writing a tree is
its text or nothing.
-/
import RobotLang.Numeral
import RobotLang.Tree

namespace RobotLang

/-- A word applied to two operands. -/
def applied (word left right : String) : String :=
  word ++ "(" ++ left ++ ", " ++ right ++ ")"

/-- The canonical text of an expression. -/
def Expr.text : Expr → String
  | .number n => Numeral.write n
  | .sensor s => s.word
  | .arith o l r => applied o.word l.text r.text

/-- The canonical text of a condition. -/
def Cond.text : Cond → String
  | .compare p l r => applied p.word l.text r.text
  | .both l r => applied Connective.and.word l.text r.text
  | .either l r => applied Connective.or.word l.text r.text
  | .negate c => Connective.not.word ++ "(" ++ c.text ++ ")"

/-- The texts of some statements between braces. -/
def braced : List String → String
  | [] => "\x7b\x7d"
  | ts => "\x7b " ++ " ".intercalate ts ++ " \x7d"

mutual

/-- The canonical text of a statement. -/
def Stmt.text : Stmt → String
  | .once a => a.word ++ ";"
  | .times a e => a.action.word ++ "(" ++ e.text ++ ");"
  | .loop b => "loop " ++ braced (Stmt.texts b)
  | .whileDo c b => "while(" ++ c.text ++ ") " ++ braced (Stmt.texts b)
  | .ifThen c b => "if(" ++ c.text ++ ") " ++ braced (Stmt.texts b)
  | .ifElse c b o =>
    "if(" ++ c.text ++ ") " ++ braced (Stmt.texts b)
      ++ " else " ++ braced (Stmt.texts o)

/-- The canonical texts of several statements. -/
def Stmt.texts : List Stmt → List String
  | [] => []
  | s :: ss => s.text :: Stmt.texts ss

end

/-- The canonical text of a block. -/
def Block.text (b : Block) : String := braced (Stmt.texts b)

/-- The canonical text of a program. -/
def Program.text (p : Program) : String :=
  "\n".intercalate (Stmt.texts p.statements)

/-- The canonical text of a phrase. -/
def Tree.text : Tree → String
  | .expr e => e.text
  | .cond c => c.text
  | .relation r => r.word
  | .stmt s => s.text
  | .block b => Block.text b
  | .program p => p.text

-- ============================================== within the digit limit

/-- What comes of writing an expression. -/
def Expr.written? : Expr → Option String
  | .number n => Numeral.write? n
  | .sensor s => some s.word
  | .arith o l r => return applied o.word (← l.written?) (← r.written?)

/-- What comes of writing a condition. -/
def Cond.written? : Cond → Option String
  | .compare p l r => return applied p.word (← l.written?) (← r.written?)
  | .both l r =>
    return applied Connective.and.word (← l.written?) (← r.written?)
  | .either l r =>
    return applied Connective.or.word (← l.written?) (← r.written?)
  | .negate c =>
    return Connective.not.word ++ "(" ++ (← c.written?) ++ ")"

mutual

/-- What comes of writing a statement. -/
def Stmt.written? : Stmt → Option String
  | .once a => some (a.word ++ ";")
  | .times a e => return a.action.word ++ "(" ++ (← e.written?) ++ ");"
  | .loop b => return "loop " ++ braced (← Stmt.allWritten? b)
  | .whileDo c b =>
    return "while(" ++ (← c.written?) ++ ") "
      ++ braced (← Stmt.allWritten? b)
  | .ifThen c b =>
    return "if(" ++ (← c.written?) ++ ") " ++ braced (← Stmt.allWritten? b)
  | .ifElse c b o =>
    return "if(" ++ (← c.written?) ++ ") " ++ braced (← Stmt.allWritten? b)
      ++ " else " ++ braced (← Stmt.allWritten? o)

/-- What comes of writing several statements. -/
def Stmt.allWritten? : List Stmt → Option (List String)
  | [] => some []
  | s :: ss => return (← s.written?) :: (← Stmt.allWritten? ss)

end

/-- What comes of writing a phrase. -/
def Tree.written? : Tree → Option String
  | .expr e => e.written?
  | .cond c => c.written?
  | .relation r => some r.word
  | .stmt s => s.written?
  | .block b => return braced (← Stmt.allWritten? b)
  | .program p => return "\n".intercalate (← Stmt.allWritten? p.statements)

end RobotLang
