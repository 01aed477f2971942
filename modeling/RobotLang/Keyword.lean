/-
The words of the language, by what they mean: the primitive actions, the
sensors, the arithmetic operations, the relations, and the connectives.
Each meaning has one word, and `ofWord?` finds the meaning of a word: it
finds every meaning by its word and nothing by any other.
-/
namespace RobotLang

/-- The meaning, among some, that a word stands for. -/
def meaningOf? {α : Type} (meanings : List α) (word : α → String)
    (w : String) : Option α :=
  meanings.find? fun a => word a == w

theorem word_of_meaningOf? {α : Type} {meanings : List α}
    {word : α → String} {w : String} {a : α}
    (h : meaningOf? meanings word w = some a) : word a = w := by
  simpa using List.find?_some h

-- ============================================================= actions

/-- What a robot can be told to do. -/
inductive Action
  | move | turnLeft | turnRight | takeFuel | wait | shieldOn | shieldOff
  | turnAround
  deriving DecidableEq, Repr

namespace Action

def all : List Action :=
  [move, turnLeft, turnRight, takeFuel, wait, shieldOn, shieldOff, turnAround]

def word : Action → String
  | move => "move"
  | turnLeft => "turnL"
  | turnRight => "turnR"
  | takeFuel => "takeFuel"
  | wait => "wait"
  | shieldOn => "shieldOn"
  | shieldOff => "shieldOff"
  | turnAround => "turnAround"

def ofWord? (w : String) : Option Action := meaningOf? all word w

@[simp] theorem ofWord?_word (a : Action) : ofWord? a.word = some a := by
  cases a <;> rfl

theorem word_of_ofWord? {w : String} {a : Action}
    (h : ofWord? w = some a) : a.word = w := word_of_meaningOf? h

end Action

/-- The actions that may be told a number of times. -/
inductive Repeatable
  | move | wait
  deriving DecidableEq, Repr

namespace Repeatable

def action : Repeatable → Action
  | move => .move
  | wait => .wait

/-- The same action as one that can be repeated, if it is. -/
def ofAction? : Action → Option Repeatable
  | .move => some move
  | .wait => some wait
  | _ => none

@[simp] theorem ofAction?_action (r : Repeatable) :
    ofAction? r.action = some r := by
  cases r <;> rfl

theorem action_of_ofAction? {a : Action} {r : Repeatable}
    (h : ofAction? a = some r) : r.action = a := by
  cases a <;> cases h <;> rfl

end Repeatable

-- ============================================================= sensors

/-- What a robot can be asked for. -/
inductive Sensor
  | fuelLeft | oppLR | oppFB | numBarrels | barrelLR | barrelFB | wallDist
  deriving DecidableEq, Repr

namespace Sensor

def all : List Sensor :=
  [fuelLeft, oppLR, oppFB, numBarrels, barrelLR, barrelFB, wallDist]

def word : Sensor → String
  | fuelLeft => "fuelLeft"
  | oppLR => "oppLR"
  | oppFB => "oppFB"
  | numBarrels => "numBarrels"
  | barrelLR => "barrelLR"
  | barrelFB => "barrelFB"
  | wallDist => "wallDist"

def ofWord? (w : String) : Option Sensor := meaningOf? all word w

@[simp] theorem ofWord?_word (a : Sensor) : ofWord? a.word = some a := by
  cases a <;> rfl

theorem word_of_ofWord? {w : String} {a : Sensor}
    (h : ofWord? w = some a) : a.word = w := word_of_meaningOf? h

end Sensor

-- ========================================================== operations

/-- The arithmetic operations. -/
inductive Operation
  | add | sub | mul | div
  deriving DecidableEq, Repr

namespace Operation

def all : List Operation := [add, sub, mul, div]

def word : Operation → String
  | add => "add"
  | sub => "sub"
  | mul => "mul"
  | div => "div"

def ofWord? (w : String) : Option Operation := meaningOf? all word w

@[simp] theorem ofWord?_word (a : Operation) : ofWord? a.word = some a := by
  cases a <;> rfl

theorem word_of_ofWord? {w : String} {a : Operation}
    (h : ofWord? w = some a) : a.word = w := word_of_meaningOf? h

end Operation

/-- The relations between two integers. -/
inductive Relation
  | lt | gt | eq
  deriving DecidableEq, Repr

namespace Relation

def all : List Relation := [lt, gt, eq]

def word : Relation → String
  | lt => "lt"
  | gt => "gt"
  | eq => "eq"

def ofWord? (w : String) : Option Relation := meaningOf? all word w

@[simp] theorem ofWord?_word (a : Relation) : ofWord? a.word = some a := by
  cases a <;> rfl

theorem word_of_ofWord? {w : String} {a : Relation}
    (h : ofWord? w = some a) : a.word = w := word_of_meaningOf? h

/-- Whether the relation holds between two integers. -/
def holds : Relation → Int → Int → Bool
  | lt, a, b => a < b
  | gt, a, b => a > b
  | eq, a, b => a = b

end Relation

/-- The words that join conditions. -/
inductive Connective
  | and | or | not
  deriving DecidableEq, Repr

namespace Connective

def all : List Connective := [and, or, not]

def word : Connective → String
  | and => "and"
  | or => "or"
  | not => "not"

def ofWord? (w : String) : Option Connective := meaningOf? all word w

@[simp] theorem ofWord?_word (a : Connective) : ofWord? a.word = some a := by
  cases a <;> rfl

theorem word_of_ofWord? {w : String} {a : Connective}
    (h : ofWord? w = some a) : a.word = w := word_of_meaningOf? h

end Connective

end RobotLang
