/-
Reading tokens. A reading takes tokens off the front of a list; it ends
with a value or with a refusal, and either way leaves the tokens that it
has not taken. A refusal does not give tokens back.

The steps here are the only ones that look at tokens, and each of them
looks at the next token alone. Every rule of the grammar is put together
from these steps.
-/
import RobotLang.Failure
import RobotLang.Pattern

namespace RobotLang

/-- Why a reading ends without a value: a syntax error, or a numeral of
more digits than can be read. -/
inductive Refusal
  | rejected (failure : Failure)
  | tooLong (digits : Nat)
  deriving DecidableEq, Repr

/-- The refusal in words. -/
def Refusal.message : Refusal → String
  | rejected f => f.text
  | tooLong n =>
    "Exceeds the limit (" ++ toString Numeral.digitLimit
      ++ " digits) for integer string conversion: value has " ++ toString n
      ++ " digits; use sys.set_int_max_str_digits() to increase the limit"

/-- A reading from the front of a list of tokens. -/
abbrev Reading (α : Type) := EStateM Refusal (List Token) α

namespace Reading

-- ========================================================= looking ahead

/-- The next token, which stays where it is. -/
def peek : Reading (Option Token) := fun ts => .ok ts.head? ts

/-- Whether the next token's word passes a test; false at the end. -/
def sees (test : String → Bool) : Reading Bool :=
  fun ts => .ok (ts.head?.any fun t => test t.value) ts

/-- Whether no token is left. -/
def atEnd : Reading Bool := fun ts => .ok ts.isEmpty ts

-- ============================================================ refusing

/-- Stops in front of the next token with a syntax error. -/
def refuse {α : Type} (reason : Reason) : Reading α :=
  fun ts => .error (.rejected (.before reason ts)) ts

/-- Stops unless a token is left. -/
def begin : Reading Unit := do
  if ← atEnd then refuse .nothingLeft

-- ============================================================== taking

/-- Takes the next token, whatever it is. Its absence is reported without
a place or a context. -/
def next : Reading String
  | [] => .error (.rejected ⟨.endOfInput, [], none, none⟩) []
  | t :: ts => .ok t.value ts

/-- Takes the next token if its word has a meaning, and gives that. -/
def accept {α : Type} (meaning : String → Option α) : Reading (Option α)
  | [] => .ok none []
  | t :: ts =>
    match meaning t.value with
    | some a => .ok (some a) ts
    | none => .ok none (t :: ts)

/-- Takes the next token if its word has a meaning; stops in front of it
otherwise. -/
def require {α : Type} (meaning : String → Option α) (reason : Reason) :
    Reading α := do
  match ← accept meaning with
  | some a => return a
  | none => refuse reason

/-- The words that pass a test, as their own meaning. -/
def passing (test : String → Bool) (w : String) : Option String :=
  if test w then some w else none

/-- Takes a word that is known beforehand. -/
def word (w : String) (reason : Reason) : Reading Unit := do
  let _ ← require (passing (· == w)) reason

/-- Takes a punctuation mark. -/
def mark (m : Mark) (reason : Reason) : Reading Unit := word m.word reason

/-- Takes a numeral. One that has too many digits is taken and then
refused. -/
def numeral : Reading Int := do
  let w ← require (passing Numeral.isNumeral) .notExpression
  let size := (Numeral.digits w).length
  if Numeral.digitLimit < size then throw (.tooLong size)
  return Numeral.value w

end Reading

end RobotLang
