import ExpiringCache.Decimal.Binary64

/-!
# Numerals

A numeral is a number as it is written: a sign, whole digits, and perhaps a fraction and an
exponent. Its binary64 value is found in two roundings. The digits are first gathered into a
significand below `2 ^ 64`: whole digits that no longer fit count as powers of ten, and so much of
the fraction is gathered as still fits. The significand is then multiplied or divided by a power of
ten, each of the three rounded to the nearest number.

`Numeral.value` is the value as an integer where the numeral has neither fraction nor exponent and
the integer fits in 64 bits, and the binary64 value otherwise.
-/

namespace ExpiringCache

/-- A number as it is written. -/
structure Numeral where
  negative : Bool
  /-- The digits before the point. -/
  whole : List Nat
  /-- The digits after the point, if there is one. -/
  fraction : Option (List Nat)
  /-- The sign and the digits of the exponent, if there is one. -/
  exponent : Option (Bool × List Nat)
deriving DecidableEq

namespace Numeral

/-- The number that digits stand for. -/
def ofDigits (digits : List Nat) : Nat := digits.foldl (fun n digit => n * 10 + digit) 0

/-- The bound on a gathered significand. -/
def significandBound : Nat := UInt64.size

/-- Gathers digits while they fit: the significand, and the digits that were not gathered. -/
def gather (significand : Nat) : List Nat → Nat × List Nat
  | [] => (significand, [])
  | digit :: rest =>
    let next := significand * 10 + digit
    if next < significandBound then gather next rest else (significand, digit :: rest)

/-- The greatest power of ten in one step of scaling. -/
def greatestPower : Nat := 308

/-- Divides by powers of ten, in steps of at most `greatestPower`, until the number is zero. -/
def divideDown (x : Binary64) : Nat → Nat → Binary64
  | 0, _ => x
  | fuel + 1, power =>
    if x.isZero then x
    else if power ≤ greatestPower then x.div (Binary64.tenPower power)
    else divideDown (x.div (Binary64.tenPower greatestPower)) fuel (power - greatestPower)

/-- A significand times a power of ten, unless that is too large. Four steps down take every
significand to zero. -/
def scaleTen (significand : Nat) (power : Int) : Option Binary64 :=
  let x := Binary64.ofNat significand
  if 0 ≤ power then
    if power.toNat ≤ greatestPower then
      let y := x.mul (Binary64.tenPower power.toNat)
      if y.isFinite then some y else none
    else if x.isZero then some x
    else none
  else some (divideDown x 4 power.natAbs)

/-- The greatest size of an exponent. -/
def exponentBound : Nat := 0x7FFF_FFFF

/-- An exponent held within bounds. -/
def clamp (exponent : Int) : Int := max (-0x8000_0000) (min exponentBound exponent)

/-- The significand and the power of ten of the digits before the exponent. -/
def gathered (n : Numeral) : Nat × Int :=
  let (significand, dropped) := gather 0 n.whole
  let fraction := n.fraction.getD []
  let (significand, unread) := gather significand fraction
  (significand, (dropped.length : Int) - (fraction.length - unread.length : Nat))

/-- The binary64 magnitude of a numeral, unless it is too large. An exponent out of bounds makes
every significand but zero too large, or zero. -/
def magnitude? (n : Numeral) : Option Binary64 :=
  let (significand, power) := n.gathered
  match n.exponent with
  | none => scaleTen significand power
  | some (down, digits) =>
    let exponent := ofDigits digits
    if exponentBound < exponent then
      if significand ≠ 0 ∧ !down then none else some Binary64.zero
    else scaleTen significand (clamp (if down then power - exponent else power + exponent))

/-- The binary64 number a numeral stands for, unless it is too large. -/
def number? (n : Numeral) : Option Binary64 := n.magnitude?.map (·.withSign n.negative)

/-- The integer a numeral stands for, if it is written as one and fits in 64 bits. Negative zero
does not count as an integer. -/
def integer? (n : Numeral) : Option Int :=
  if n.fraction.isSome || n.exponent.isSome then none
  else
    let size := ofDigits n.whole
    if n.negative then
      if 0 < size ∧ size ≤ 0x8000_0000_0000_0000 then some (-(size : Int)) else none
    else if size < UInt64.size then some size else none

end Numeral

end ExpiringCache
