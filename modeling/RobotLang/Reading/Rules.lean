/-
The rules of the grammar, by recursive descent: one reading for each kind
of phrase.

A phrase inside another begins after at least one token of the outer one.
So a reading that is meant for at most `n + 1` tokens gives its inner
phrases to readings meant for at most `n`, and a reading meant for none
refuses at once, which is right: it stands at the end of the tokens. The
number counts down, so every reading ends, and a rule started with the
number of tokens left never runs short.

Each rule is written over the readings of its inner phrases.
-/
import RobotLang.Reading
import RobotLang.Tree

namespace RobotLang.Reading

-- ========================================================= expressions

/-- A sensor. -/
def sensor : Reading Expr := do
  begin
  return .sensor (← require Sensor.ofWord? .notSensor)

/-- An operation and its two operands. -/
def operation (inner : Reading Expr) : Reading Expr := do
  begin
  let o ← require Operation.ofWord? .notOperation
  mark .openParen .noOpenParen
  let left ← inner
  mark .comma (.noCommaIn o)
  let right ← inner
  mark .closeParen .noCloseParen
  return .arith o left right

/-- A number, a sensor or an operation. -/
def exprOver (inner : Reading Expr) : Reading Expr := do
  begin
  if ← sees Pattern.number.fits then return .number (← numeral)
  else if ← sees Pattern.sensor.fits then sensor
  else if ← sees Pattern.operation.fits then operation inner
  else refuse .notExpression

/-- An expression of at most so many tokens. -/
def expr : Nat → Reading Expr
  | 0 => refuse .nothingLeft
  | n + 1 => exprOver (expr n)

-- ========================================================== conditions

/-- The word of a relation. -/
def relation : Reading Relation := do
  begin
  require Relation.ofWord? .notRelation

/-- A relation and its two operands. -/
def comparison (operand : Reading Expr) : Reading Cond := do
  let r ← relation
  mark .openParen .noOpenParen
  let left ← operand
  mark .comma .noComma
  let right ← operand
  mark .closeParen .noCloseParen
  return .compare r left right

/-- A connective and its conditions: `not` has one, the others two. -/
def connected (inner : Reading Cond) : Reading Cond := do
  begin
  let c ← require Connective.ofWord? .notConnective
  mark .openParen .noOpenParen
  let first ← inner
  match c with
  | .not =>
    mark .closeParen .noCloseParen
    return .negate first
  | .and => return .both first (← second)
  | .or => return .either first (← second)
where
  second : Reading Cond := do
    mark .comma .noComma
    let c ← inner
    mark .closeParen .noCloseParen
    return c

/-- A comparison or a connection. -/
def condOver (operand : Reading Expr) (inner : Reading Cond) :
    Reading Cond := do
  begin
  if ← sees Pattern.relation.fits then comparison operand
  else if ← sees Pattern.connective.fits then connected inner
  else refuse .notCondition

/-- A condition of at most so many tokens. -/
def cond : Nat → Reading Cond
  | 0 => refuse .nothingLeft
  | n + 1 => condOver (expr n) (cond n)

-- ========================================================== statements

/-- The amount between parentheses that may follow a repeatable action,
and the semicolon that ends every action. -/
def action (amount : Reading Expr) : Reading Stmt := do
  begin
  let a ← require Action.ofWord? .notAction
  match Repeatable.ofAction? a with
  | none =>
    mark .semicolon .noSemicolon
    return .once a
  | some r =>
    match ← accept (passing (· == Mark.openParen.word)) with
    | none =>
      mark .semicolon .noSemicolon
      return .once a
    | some _ =>
      let e ← amount
      mark .closeParen .noCloseAmount
      mark .semicolon .noSemicolon
      return .times r e

/-- Statements between braces. -/
def block (inside : Reading (List Stmt)) : Reading Block := do
  begin
  mark .openBrace .noOpenBrace
  let b ← inside
  mark .closeBrace .noCloseBrace
  return b

/-- An endless loop. -/
def loop (inside : Reading (List Stmt)) : Reading Stmt := do
  begin
  word "loop" .notLoop
  return .loop (← block inside)

/-- A condition between parentheses. -/
def guarded (condition : Reading Cond) : Reading Cond := do
  mark .openParen .noOpenParen
  let c ← condition
  mark .closeParen .noCloseParen
  return c

/-- A loop under a condition. -/
def whileDo (condition : Reading Cond) (inside : Reading (List Stmt)) :
    Reading Stmt := do
  begin
  word "while" .notWhile
  let c ← guarded condition
  return .whileDo c (← block inside)

/-- A choice, with one block or two. -/
def choice (condition : Reading Cond) (inside : Reading (List Stmt)) :
    Reading Stmt := do
  begin
  word "if" .notIf
  let c ← guarded condition
  let b ← block inside
  match ← accept (passing Pattern.elseWord.fits) with
  | none => return .ifThen c b
  | some _ => return .ifElse c b (← block inside)

/-- A statement of any form. -/
def stmtOver (amount : Reading Expr) (condition : Reading Cond)
    (inside : Reading (List Stmt)) : Reading Stmt := do
  begin
  if ← sees Pattern.action.fits then action amount
  else if ← sees Pattern.loopWord.fits then loop inside
  else if ← sees Pattern.ifWord.fits then choice condition inside
  else if ← sees Pattern.whileWord.fits then whileDo condition inside
  else
    let w := ((← peek).map Token.value).getD ""
    refuse (.unknownStatement w)

/-- The statements up to a closing brace or the end, of at most so many
tokens. -/
def inside : Nat → Reading (List Stmt)
  | 0 => return []
  | n + 1 => do
    if (← atEnd) || (← sees (· == Mark.closeBrace.word)) then return []
    else
      let s ← stmtOver (expr n) (cond n) (inside n)
      return s :: (← inside n)

/-- A statement of at most so many tokens. -/
def stmt : Nat → Reading Stmt
  | 0 => refuse .nothingLeft
  | n + 1 => stmtOver (expr n) (cond n) (inside n)

/-- The statements up to the end, of at most so many tokens. -/
def toEnd : Nat → Reading (List Stmt)
  | 0 => return []
  | n + 1 => do
    if ← atEnd then return []
    else
      let s ← stmt (n + 1)
      return s :: (← toEnd n)

/-- A program, which is at least one statement and takes every token. -/
def program (n : Nat) : Reading Program := do
  begin
  return ⟨← toEnd n⟩

end RobotLang.Reading

namespace RobotLang

-- =============================================================== rules

/-- The kinds of phrase that can be read on their own. -/
inductive Rule
  | program | stmt | action | loop | whileDo | choice | block | cond
  | relation | connected | expr | sensor | operation
  deriving DecidableEq, Repr

namespace Rule

/-- The rule's reading, for at most so many tokens. -/
def upTo (n : Nat) : Rule → Reading Tree
  | program => return .program (← Reading.program n)
  | stmt => return .stmt (← Reading.stmt n)
  | action => return .stmt (← Reading.action (Reading.expr n))
  | loop => return .stmt (← Reading.loop (Reading.inside n))
  | whileDo =>
    return .stmt (← Reading.whileDo (Reading.cond n) (Reading.inside n))
  | choice =>
    return .stmt (← Reading.choice (Reading.cond n) (Reading.inside n))
  | block => return .block (← Reading.block (Reading.inside n))
  | cond => return .cond (← Reading.cond n)
  | relation => return .relation (← Reading.relation)
  | connected => return .cond (← Reading.connected (Reading.cond n))
  | expr => return .expr (← Reading.expr n)
  | sensor => return .expr (← Reading.sensor)
  | operation => return .expr (← Reading.operation (Reading.expr n))

/-- Reads a phrase from the front of the tokens. -/
def read (rule : Rule) : Reading Tree := fun ts => rule.upTo ts.length ts

end Rule

/-- Reads a program from all the tokens. -/
def Program.ofTokens (tokens : List Token) : Except Refusal Program :=
  match Reading.program tokens.length tokens with
  | .ok p _ => .ok p
  | .error e _ => .error e

/-- Reads a program from its text. -/
def Program.ofText (text : String) : Except Refusal Program :=
  Program.ofTokens (tokenize text)

end RobotLang
