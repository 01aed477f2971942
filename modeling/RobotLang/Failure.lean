/-
Syntax errors: what was wrong, where, and what came next.

A failure is built from the tokens that were left when reading stopped:
its place is that of the first of them and its context their first few
values. When none was left there is no place, and the failure is said to
be at the end of input.
-/
import RobotLang.Token
import RobotLang.Keyword

namespace RobotLang

-- ============================================================= reasons

/-- What was wrong. -/
inductive Reason
  | nothingLeft
  | unknownStatement (word : String)
  | notAction | notLoop | notIf | notWhile
  | noSemicolon | noOpenBrace | noCloseBrace | noOpenParen | noCloseParen
  | noCloseAmount
  | noComma
  | noCommaIn (operation : Operation)
  | notCondition | notRelation | notConnective
  | notExpression | notSensor | notOperation
  | endOfInput
  | stated (message : String)
  deriving DecidableEq, Repr

/-- The wording of a reason. -/
def Reason.message : Reason → String
  | nothingLeft => "Empty expr"
  | unknownStatement w => "Unknown statement '" ++ w ++ "'"
  | notAction => "Unknown action."
  | notLoop => "Not 'loop'."
  | notIf => "Not 'if'."
  | notWhile => "Not 'while'."
  | noSemicolon => "No semicolon."
  | noOpenBrace => "No open brace."
  | noCloseBrace => "No close brace."
  | noOpenParen => "No open parenthesis."
  | noCloseParen => "No close parenthesis."
  | noCloseAmount => "No closing parenthesis."
  | noComma => "No comma."
  | noCommaIn o => "No comma at " ++ o.word ++ "."
  | notCondition => "Expected a condition (lt, gt, eq, and, or, not)."
  | notRelation => "Expected lt, gt or eq."
  | notConnective => "Expected and, or or not."
  | notExpression => "Expected an expression (number, sensor or operator)."
  | notSensor => "Entered invalid sensor."
  | notOperation => "Expected add, sub, mul or div."
  | endOfInput => "Unexpected end of input"
  | stated m => m

-- ============================================================ failures

/-- A syntax error. The line is absent at the end of input. -/
structure Failure where
  reason : Reason
  context : List String
  line : Option Int
  column : Option Int
  deriving DecidableEq, Repr

namespace Failure

/-- How many of the coming tokens a failure shows. -/
def contextSize : Nat := 5

/-- The failure of reading that stopped in front of some tokens. -/
def before (reason : Reason) (left : List Token) : Failure where
  reason := reason
  context := (left.take contextSize).map Token.value
  line := left.head?.map (·.place.line)
  column := left.head?.map (·.place.column)

/-- Where the failure is, in words. A line without a column shows that the
column is not known. -/
def locus (f : Failure) : String :=
  match f.line with
  | none => "Syntax error at end of input"
  | some l =>
    let column := (f.column.map fun c => toString c).getD "None"
    "Syntax error at line " ++ toString l ++ ", col " ++ column

/-- The failure in words: the reason on one line, the context on the
next. -/
def text (f : Failure) : String :=
  let upcoming := String.join (f.context.map fun w => " " ++ w)
  f.locus ++ ": " ++ f.reason.message ++ "\n   @ ..." ++ upcoming ++ "..."

end Failure

end RobotLang
