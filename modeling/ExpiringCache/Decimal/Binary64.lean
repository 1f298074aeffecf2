/-!
# Binary floating-point numbers

Binary64 numbers by their bits, and the few operations that reading and printing decimal numbers
need, in exact integer arithmetic. A finite number is `significand · 2 ^ scale`, with the sign kept
apart.

* `Binary64.ofRatio` rounds a ratio of natural numbers to the nearest number, a tie to the even
  significand; what is too large becomes infinite.
* `Binary64.mul` and `Binary64.div` are the rounded product and quotient of two magnitudes.
-/

namespace ExpiringCache

/-- A binary64 number by its bits. -/
structure Binary64 where
  bits : UInt64
deriving DecidableEq

namespace Binary64

/-- The bit of the sign. -/
def signBit : Nat := 0x8000_0000_0000_0000

/-- The bit above those of the fraction. -/
def hiddenBit : Nat := 0x10_0000_0000_0000

/-- The bits of a magnitude, as a number: all bits but the sign. -/
def magnitude (x : Binary64) : Nat := x.bits.toNat % signBit

/-- Whether the sign is set. -/
def isNegative (x : Binary64) : Bool := signBit ≤ x.bits.toNat

/-- The bits of infinity. -/
def infinite : Nat := 0x7FF * hiddenBit

/-- Whether the number is neither infinite nor undefined. -/
def isFinite (x : Binary64) : Bool := x.magnitude < infinite

/-- The integer factor of a finite number. -/
def significand (x : Binary64) : Nat :=
  if x.magnitude < hiddenBit then x.magnitude else hiddenBit + x.magnitude % hiddenBit

/-- The power of two of a finite number. -/
def scale (x : Binary64) : Int :=
  if x.magnitude < hiddenBit then -1074 else (x.magnitude / hiddenBit : Nat) - 1075

/-- The number with this magnitude and sign. -/
def ofMagnitude (negative : Bool) (magnitude : Nat) : Binary64 :=
  ⟨UInt64.ofNat (if negative then magnitude + signBit else magnitude)⟩

/-- A number with the sign of another kind. -/
def withSign (x : Binary64) (negative : Bool) : Binary64 := ofMagnitude negative x.magnitude

/-- Positive zero. -/
def zero : Binary64 := ⟨0⟩

/-- Whether the number is a zero of either sign. -/
def isZero (x : Binary64) : Bool := x.magnitude == 0

/-- The quotient of two natural numbers rounded to the nearest, a tie to the even neighbour. -/
def roundEven (num den : Nat) : Nat :=
  let quotient := num / den
  let twice := 2 * (num % den)
  if twice < den then quotient
  else if den < twice then quotient + 1
  else quotient + quotient % 2

/-- `num / den · 2 ^ shift` as a ratio. -/
def scaled (num den : Nat) (shift : Int) : Nat × Nat :=
  if 0 ≤ shift then (num <<< shift.toNat, den) else (num, den <<< (-shift).toNat)

/-- The number nearest to a ratio. The unit of the last place follows from the power of two at or
below the ratio, and is never less than the least subnormal. -/
def ofRatio (num den : Nat) : Binary64 :=
  if num = 0 then zero
  else
    let near : Int := (Nat.log2 num : Int) - Nat.log2 den
    let (n, d) := scaled num den (-near)
    let top := if n < d then near - 1 else near
    let unit := max (top - 52) (-1074)
    let (n, d) := scaled num den (-unit)
    ofMagnitude false (min infinite ((unit + 1074).toNat * hiddenBit + roundEven n d))

/-- The number nearest to a natural number. -/
def ofNat (n : Nat) : Binary64 := ofRatio n 1

/-- The number nearest to a power of ten. -/
def tenPower (exponent : Nat) : Binary64 := ofNat (Nat.pow 10 exponent)

/-- The magnitude of a finite number as a ratio. -/
def ratio (x : Binary64) : Nat × Nat := scaled x.significand 1 x.scale

/-- The rounded product of two magnitudes. -/
def mul (x y : Binary64) : Binary64 :=
  let (a, b) := x.ratio
  let (c, d) := y.ratio
  ofRatio (a * c) (b * d)

/-- The rounded quotient of two magnitudes, the second not zero. -/
def div (x y : Binary64) : Binary64 :=
  let (a, b) := x.ratio
  let (c, d) := y.ratio
  ofRatio (a * d) (b * c)

end Binary64

end ExpiringCache
