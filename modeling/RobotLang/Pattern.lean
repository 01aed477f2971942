/-
Lexical patterns: the kinds of word that the grammar tells apart. A
pattern looks at a whole word, and no word fits two patterns.
-/
import RobotLang.Keyword
import RobotLang.Numeral

namespace RobotLang

/-- The kinds of word. -/
inductive Pattern
  | action | connective | elseWord | ifWord | loopWord | number | operation
  | relation | sensor | whileWord
  deriving DecidableEq, Repr

namespace Pattern

def all : List Pattern :=
  [action, connective, elseWord, ifWord, loopWord, number, operation,
   relation, sensor, whileWord]

/-- Whether a word fits. -/
def fits (w : String) : Pattern → Bool
  | action => (Action.ofWord? w).isSome
  | connective => (Connective.ofWord? w).isSome
  | elseWord => w = "else"
  | ifWord => w = "if"
  | loopWord => w = "loop"
  | number => Numeral.isNumeral w
  | operation => (Operation.ofWord? w).isSome
  | relation => (Relation.ofWord? w).isSome
  | sensor => (Sensor.ofWord? w).isSome
  | whileWord => w = "while"

/-- The patterns that a word fits. -/
def fitting (w : String) : List Pattern := all.filter (fits w)

end Pattern

end RobotLang
