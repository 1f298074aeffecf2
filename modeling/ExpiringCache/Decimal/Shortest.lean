import ExpiringCache.Decimal.Binary64

/-!
# Shortest decimal digits

The fewest decimal digits that read back as a given binary64 number, and of these the nearest to
it; an exact tie goes to the even digit. The search goes by the number of digits. For each it looks
at the two neighbours of the number on the decimal grid of that many digits and asks whether they
lie in the interval of reals that round to the number. Seventeen digits always suffice.
-/

namespace ExpiringCache.Decimal

/-- A decimal number `d.ddd · 10 ^ exponent`, by its digits, of which the first is not zero unless
the number is. -/
structure Digits where
  digits : List Nat
  exponent : Int
deriving DecidableEq

/-- The reals that round to a number, on a common denominator: `low / den` to `high / den` around
`mid / den`, the ends included when the significand is even. -/
structure Interval where
  low : Nat
  mid : Nat
  high : Nat
  den : Nat
  closed : Bool

/-- The interval around the magnitude of a finite number other than zero. Below a power of two the
next number is half as far away as above it. -/
def interval (x : Binary64) : Interval :=
  let m := x.significand
  let below := if m = Binary64.hiddenBit ∧ -1074 < x.scale then 1 else 2
  let (factor, den) := Binary64.scaled 1 1 (x.scale - 2)
  ⟨(4 * m - below) * factor, 4 * m * factor, (4 * m + 2) * factor, den, m % 2 == 0⟩

/-- Whether `num / den` lies in the interval. -/
def Interval.holds (i : Interval) (num den : Nat) : Bool :=
  let low := i.low * den
  let value := num * i.den
  let high := i.high * den
  if i.closed then low ≤ value && value ≤ high else low < value && value < high

/-- `10 ^ exponent` as a ratio. -/
def tenPower (exponent : Int) : Nat × Nat :=
  if 0 ≤ exponent then (Nat.pow 10 exponent.toNat, 1) else (1, Nat.pow 10 (-exponent).toNat)

/-- The decimal exponent of a ratio, found upwards from a guess that is not too large. -/
def exponentFrom (num den : Nat) : Nat → Int → Int
  | 0, guess => guess
  | fuel + 1, guess =>
    let (a, b) := tenPower (guess + 1)
    if a * den ≤ num * b then exponentFrom num den fuel (guess + 1) else guess

/-- The decimal exponent of a ratio other than zero. The guess is below the exponent by at most
three, as a power of two bounds the ratio on both sides. -/
def exponentOf (num den : Nat) : Int :=
  let binary : Int := (Nat.log2 num : Int) - Nat.log2 den - 1
  exponentFrom num den 5 (binary * 30103 / 100000 - 1)

/-- The decimal digits of a natural number. -/
def digitsOf (n : Nat) : List Nat := (Nat.toDigits 10 n).map fun c => c.toNat - 48

/-- Digits without the zeros at their end. -/
def stripZeros (digits : List Nat) : List Nat := (digits.reverse.dropWhile (· == 0)).reverse

/-- A multiple of a grid unit as a decimal number. -/
def ofGrid (multiple : Nat) (unit : Int) : Digits :=
  let digits := digitsOf multiple
  ⟨stripZeros digits, unit + digits.length - 1⟩

/-- The neighbour on the grid of `count` digits that lies in the interval and is nearest to its
middle, if there is one. -/
def onGrid? (i : Interval) (exponent : Int) (count : Nat) : Option Digits :=
  let unit := exponent - count + 1
  let (a, b) := tenPower unit
  let below := i.mid * b / (i.den * a)
  let twice := 2 * (i.mid * b % (i.den * a))
  let holdsBelow := i.holds (below * a) b
  let holdsAbove := i.holds ((below + 1) * a) b
  let takeBelow := twice < i.den * a || (twice == i.den * a && below % 2 == 0)
  if holdsBelow && (takeBelow || !holdsAbove) then some (ofGrid below unit)
  else if holdsAbove then some (ofGrid (below + 1) unit)
  else none

/-- The first grid with a hit, of `count` digits or more. -/
def searchFrom (i : Interval) (exponent : Int) : Nat → Nat → Digits
  | 0, count => ofGrid (i.mid * (tenPower (exponent - count + 1)).2 /
      (i.den * (tenPower (exponent - count + 1)).1)) (exponent - count + 1)
  | fuel + 1, count =>
    match onGrid? i exponent count with
    | some digits => digits
    | none => searchFrom i exponent fuel (count + 1)

/-- The shortest digits that read back as the magnitude of a finite number. -/
def shortest (x : Binary64) : Digits :=
  if x.isZero then ⟨[0], 0⟩
  else
    let i := interval x
    searchFrom i (exponentOf i.mid i.den) 17 1

end ExpiringCache.Decimal
