/-
Building a tree while reading it.

Here the rules take words as they stand, by lists of words of their own,
and hand them to the constructors of a draft, which check them against
their tables. So building can end in a third way: a constructor objects to
a word that a rule has let through.

Each rule is written over the buildings of its inner phrases, and counts
the tokens that it is meant for as the reading does.
-/
import RobotLang.Reading.Rules
import RobotLang.Tree.Draft

namespace RobotLang

/-- Why building ends without a draft: the reading was refused, or a
constructor objected. -/
inductive Setback
  | refused (refusal : Refusal)
  | objected (objection : Objection)
  deriving DecidableEq, Repr

/-- Building from the front of a list of tokens. -/
abbrev Building (α : Type) := EStateM Setback (List Token) α

namespace Building

open Reading (passing)

-- ========================================================== the lists

/-- The words that may begin an action. -/
def actions : List String :=
  ["move", "turnL", "turnR", "takeFuel", "wait", "shieldOn", "shieldOff",
    "turnAround"]

/-- The actions behind which an amount may stand. -/
def counted : List String := ["move", "wait"]

def sensors : List String :=
  ["fuelLeft", "oppLR", "oppFB", "numBarrels", "barrelLR", "barrelFB",
    "wallDist"]

def operations : List String := ["add", "sub", "mul", "div"]

def relations : List String := ["lt", "gt", "eq"]

def connectives : List String := ["and", "or", "not"]

-- ========================================================== the steps

/-- A step of reading. -/
def reads {α : Type} (r : Reading α) : Building α := fun ts =>
  match r ts with
  | .ok a rest => .ok a rest
  | .error e rest => .error (.refused e) rest

/-- Takes one of the listed words. -/
def oneOf (ws : List String) (reason : Reason) : Building String :=
  reads (Reading.require (passing ws.contains) reason)

/-- Constructs a node, unless its constructor objects. -/
def construct (d : Draft) : Building Draft :=
  match d.check with
  | .ok _ => return d
  | .error o => throw (.objected o)

-- ======================================================== expressions

/-- The absence of a comma behind an operation, which is named. -/
def noCommaBehind (name : String) : Reason :=
  match Operation.ofWord? name with
  | some o => .noCommaIn o
  | none => .stated ("No comma at " ++ name ++ ".")

def sensor : Building Draft := do
  reads .begin
  construct (.sensor (← oneOf sensors .notSensor))

def operation (inner : Building Draft) : Building Draft := do
  reads .begin
  let name ← oneOf operations .notOperation
  reads (.mark .openParen .noOpenParen)
  let left ← inner
  reads (.mark .comma (noCommaBehind name))
  let right ← inner
  reads (.mark .closeParen .noCloseParen)
  construct (.arith name left right)

def exprOver (inner : Building Draft) : Building Draft := do
  reads .begin
  if ← reads (.sees Numeral.isNumeral) then
    construct (.number (← reads .numeral))
  else if ← reads (.sees sensors.contains) then sensor
  else if ← reads (.sees operations.contains) then operation inner
  else reads (.refuse .notExpression)

def expr : Nat → Building Draft
  | 0 => reads (.refuse .nothingLeft)
  | n + 1 => exprOver (expr n)

-- ========================================================= conditions

def relation : Building String := do
  reads .begin
  oneOf relations .notRelation

def comparison (operand : Building Draft) : Building Draft := do
  let name ← relation
  reads (.mark .openParen .noOpenParen)
  let left ← operand
  reads (.mark .comma .noComma)
  let right ← operand
  reads (.mark .closeParen .noCloseParen)
  construct (.compare name left right)

def connected (inner : Building Draft) : Building Draft := do
  reads .begin
  let name ← oneOf connectives .notConnective
  reads (.mark .openParen .noOpenParen)
  let first ← inner
  if name == "not" then
    reads (.mark .closeParen .noCloseParen)
    construct (.negate first)
  else
    reads (.mark .comma .noComma)
    let second ← inner
    reads (.mark .closeParen .noCloseParen)
    if name == "and" then construct (.both first second)
    else construct (.either first second)

def condOver (operand inner : Building Draft) : Building Draft := do
  reads .begin
  if ← reads (.sees relations.contains) then comparison operand
  else if ← reads (.sees connectives.contains) then connected inner
  else reads (.refuse .notCondition)

def cond : Nat → Building Draft
  | 0 => reads (.refuse .nothingLeft)
  | n + 1 => condOver (expr n) (cond n)

-- ========================================================= statements

def action (amount : Building Draft) : Building Draft := do
  reads .begin
  let name ← oneOf actions .notAction
  if counted.contains name then
    match ← reads (.accept (passing (· == Mark.openParen.word))) with
    | none =>
      reads (.mark .semicolon .noSemicolon)
      construct (.once name)
    | some _ =>
      let e ← amount
      reads (.mark .closeParen .noCloseAmount)
      reads (.mark .semicolon .noSemicolon)
      construct (.times name e)
  else
    reads (.mark .semicolon .noSemicolon)
    construct (.once name)

def block (inside : Building (List Draft)) : Building Draft := do
  reads .begin
  reads (.mark .openBrace .noOpenBrace)
  let ds ← inside
  reads (.mark .closeBrace .noCloseBrace)
  construct (.block ds)

def loop (inside : Building (List Draft)) : Building Draft := do
  reads .begin
  reads (.word "loop" .notLoop)
  construct (.loop (← block inside))

def guarded (condition : Building Draft) : Building Draft := do
  reads (.mark .openParen .noOpenParen)
  let c ← condition
  reads (.mark .closeParen .noCloseParen)
  return c

def whileDo (condition : Building Draft) (inside : Building (List Draft)) :
    Building Draft := do
  reads .begin
  reads (.word "while" .notWhile)
  let c ← guarded condition
  construct (.whileDo c (← block inside))

def choice (condition : Building Draft) (inside : Building (List Draft)) :
    Building Draft := do
  reads .begin
  reads (.word "if" .notIf)
  let c ← guarded condition
  let b ← block inside
  match ← reads (.accept (passing (· == "else"))) with
  | none => construct (.ifThen c b)
  | some _ => construct (.ifElse c b (← block inside))

def stmtOver (amount condition : Building Draft)
    (inside : Building (List Draft)) : Building Draft := do
  reads .begin
  if ← reads (.sees actions.contains) then action amount
  else if ← reads (.sees (· == "loop")) then loop inside
  else if ← reads (.sees (· == "if")) then choice condition inside
  else if ← reads (.sees (· == "while")) then whileDo condition inside
  else
    let w := ((← reads .peek).map Token.value).getD ""
    reads (.refuse (.unknownStatement w))

def inside : Nat → Building (List Draft)
  | 0 => return []
  | n + 1 => do
    if (← reads .atEnd) || (← reads (.sees (· == Mark.closeBrace.word))) then
      return []
    else
      let d ← stmtOver (expr n) (cond n) (inside n)
      return d :: (← inside n)

def stmt : Nat → Building Draft
  | 0 => reads (.refuse .nothingLeft)
  | n + 1 => stmtOver (expr n) (cond n) (inside n)

def toEnd : Nat → Building (List Draft)
  | 0 => return []
  | n + 1 => do
    if ← reads .atEnd then return []
    else
      let d ← stmt (n + 1)
      return d :: (← toEnd n)

def program (n : Nat) : Building Draft := do
  reads .begin
  construct (.program (← toEnd n))

end Building

-- =============================================================== rules

/-- The rule's building, for at most so many tokens. A relation is a word,
for which nothing is constructed. -/
def Rule.buildUpTo (n : Nat) : Rule → Building Draft
  | .program => Building.program n
  | .stmt => Building.stmt n
  | .action => Building.action (Building.expr n)
  | .loop => Building.loop (Building.inside n)
  | .whileDo => Building.whileDo (Building.cond n) (Building.inside n)
  | .choice => Building.choice (Building.cond n) (Building.inside n)
  | .block => Building.block (Building.inside n)
  | .cond => Building.cond n
  | .relation => return .relation (← Building.relation)
  | .connected => Building.connected (Building.cond n)
  | .expr => Building.expr n
  | .sensor => Building.sensor
  | .operation => Building.operation (Building.expr n)

/-- Builds a phrase from the front of the tokens. -/
def Rule.build (rule : Rule) : Building Draft :=
  fun ts => rule.buildUpTo ts.length ts

end RobotLang
