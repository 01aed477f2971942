/-
Integer literals: an optional minus sign, then zero or a digit string
that does not begin with zero. The digits are the ASCII ones, and the
integers are unbounded.

A written integer is again a numeral, so numerals and integers correspond
one to one but for `-0`, which is read as zero and never written.

A numeral of too many digits is neither read nor written. Reading refuses
it; how many digits it has is part of the refusal.
-/
namespace RobotLang.Numeral

-- ============================================================ the shape

/-- Whether the characters are zero, or digits with no zero in front. -/
def isUnsigned : List Char → Bool
  | [] => false
  | c :: cs =>
    if c = '0' then cs.isEmpty else c.isDigit && cs.all Char.isDigit

/-- Whether the word is a numeral. -/
def isNumeral (word : String) : Bool :=
  match word.toList with
  | '-' :: cs => isUnsigned cs
  | cs => isUnsigned cs

-- ============================================================ the value

/-- The digits of a word, which are all its characters but a minus sign
in front. -/
def digits (word : String) : List Char :=
  match word.toList with
  | '-' :: cs => cs
  | cs => cs

/-- Whether a minus sign stands in front. -/
def isNegative (word : String) : Bool := word.toList.head? = some '-'

/-- The integer that a numeral denotes. -/
def value (word : String) : Int :=
  let magnitude := Nat.ofDigitChars 10 (digits word) 0
  if isNegative word then -(magnitude : Int) else magnitude

/-- The numeral of an integer, however many digits it has. -/
def write (n : Int) : String := toString n

-- ============================================================ the limit

/-- The most digits that a numeral may have to be read, or to be written. -/
def digitLimit : Nat := 4300

/-- The numeral of an integer, if it is not too long to be written. -/
def write? (n : Int) : Option String :=
  if (Nat.toDigits 10 n.natAbs).length ≤ digitLimit then some (write n)
  else none

end RobotLang.Numeral
