/-
The text of a number with a fraction. A number is kept as the nearest
binary fraction of double precision, and its text has the fewest digits
that lead back to the same fraction; of several such texts it is the one
nearest to the fraction.

A fraction is `m · 2 ^ q`, and every real in an interval around it leads to
it; the ends belong to the interval when `m` is even. For each number of
digits the two neighbours on that decimal grid are tried, in exact
arithmetic, until one lies in the interval.
-/
namespace RobotLang.Decimal

/-- Ten, and two, to a power. -/
def tens (n : Nat) : Nat := Nat.pow 10 n
def twos (n : Nat) : Nat := Nat.pow 2 n

-- ============================================================ intervals

/-- A positive fraction and the reals that lead to it, over a common
denominator. -/
structure Around where
  value : Nat
  low : Nat
  high : Nat
  closed : Bool
  den : Nat

/-- What leads to a positive fraction, from the bits of its double. Just
below a power of two the fractions are twice as dense. -/
def Around.ofBits (bits : Nat) : Around :=
  let fraction : Nat := bits % twos 52
  let e : Nat := bits / twos 52 % twos 11
  let m := if e = 0 then fraction else fraction + twos 52
  let q : Int := if e = 0 then -1076 else e - 1077
  let below := if fraction = 0 ∧ 1 < e then 1 else 2
  let scale := twos q.toNat
  ⟨4 * m * scale, (4 * m - below) * scale, (4 * m + 2) * scale,
    m % 2 = 0, twos (-q).toNat⟩

/-- Whether `n · 10 ^ k` lies in the interval. -/
def Around.holds (a : Around) (n : Nat) (k : Int) : Bool :=
  let x := n * tens k.toNat * a.den
  let unit := tens (-k).toNat
  let low := a.low * unit
  let high := a.high * unit
  (low < x && x < high) || (a.closed && (x == low || x == high))

/-- The greatest `n` with `n · 10 ^ k` at most the value, and whether the
next one is nearer to it, or as near and even. -/
def Around.floor (a : Around) (k : Int) : Nat × Bool :=
  let num := a.value * tens (-k).toNat
  let den := a.den * tens k.toNat
  let n := num / den
  let rest := 2 * (num % den)
  (n, den < rest || (rest == den && n % 2 == 1))

/-- The power of ten of the value's first digit. -/
def Around.magnitude (a : Around) : Int :=
  if a.den ≤ a.value then (Nat.toDigits 10 (a.value / a.den)).length - 1
  else
    let reaches (j : Nat) : Bool := a.den ≤ a.value * tens j
    Int.negOfNat (((List.range 400).find? reaches).getD 400)

/-- The fewest digits that lead back, and the power of ten of the last. -/
def Around.shortest (a : Around) : Nat × Int :=
  let attempt (count : Nat) : Option (Nat × Int) :=
    let k := a.magnitude - count
    let (n, up) := a.floor k
    let near := if up then n + 1 else n
    let far := if up then n else n + 1
    if a.holds near k then some (near, k)
    else if a.holds far k then some (far, k)
    else none
  ((List.range 17).findSome? attempt).getD (0, 0)

-- =============================================================== layout

/-- How many places before the point, and how many zeros after it, are
still written out; beyond them a power of ten follows the digits. -/
def maxPlaces : Int := 16
def maxZeros : Int := 4

/-- The digits with a point behind the first `point` of them. -/
def layOut (digits : List Char) (point : Int) : List Char :=
  if -maxZeros < point ∧ point ≤ maxPlaces then
    let whole := digits.take point.toNat
      ++ List.replicate (point.toNat - digits.length) '0'
    let rest := List.replicate (-point).toNat '0' ++ digits.drop point.toNat
    (if whole.isEmpty then ['0'] else whole) ++ '.'
      :: (if rest.isEmpty then ['0'] else rest)
  else
    let power := point - 1
    let mark := if power < 0 then '-' else '+'
    let ds := Nat.toDigits 10 power.natAbs
    let exponent := List.replicate (2 - ds.length) '0' ++ ds
    let rest := digits.drop 1
    digits.take 1 ++ (if rest.isEmpty then [] else '.' :: rest)
      ++ 'e' :: mark :: exponent

/-- The text of `mantissa / 10 ^ places`, or of its negative. Zero has a
negative too. -/
def text (negative : Bool) (mantissa places : Nat) : String :=
  let sign := if negative then ['-'] else []
  let x := Float.ofScientific mantissa true places
  let body :=
    if x == 0 then "0.0".toList
    else if x.isInf then "inf".toList
    else
      let (n, k) := (Around.ofBits x.toBits.toNat).shortest
      let ds := Nat.toDigits 10 n
      let bare := (ds.reverse.dropWhile (· == '0')).reverse
      layOut bare (ds.length + k)
  String.ofList (sign ++ body)

end RobotLang.Decimal
