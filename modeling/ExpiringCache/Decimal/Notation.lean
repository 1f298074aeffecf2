import ExpiringCache.Decimal.Shortest

/-!
# How decimal numbers are written

A layout says which exponents are written positionally and how the others are. Numbers with an
exponent in the positional range have a point with at least one digit on each side of it.
-/

namespace ExpiringCache.Decimal

/-- A way of writing decimal numbers. -/
structure Layout where
  /-- The least exponent written positionally. -/
  least : Int
  /-- The greatest exponent written positionally. -/
  greatest : Int
  /-- The mark before an exponent. -/
  mark : String
  /-- The sign of an exponent that is not negative. -/
  plus : String

/-- The text of a list of digits. -/
def digitText (digits : List Nat) : String := String.ofList (digits.map Nat.digitChar)

/-- A text of zeros. -/
def zeros (count : Nat) : String := String.ofList (List.replicate count '0')

/-- Digits with the point in its place. -/
def positional (d : Digits) : String :=
  if d.exponent < 0 then "0." ++ zeros (-d.exponent - 1).toNat ++ digitText d.digits
  else
    let whole := d.exponent.toNat + 1
    if d.digits.length ≤ whole then
      digitText d.digits ++ zeros (whole - d.digits.length) ++ ".0"
    else digitText (d.digits.take whole) ++ "." ++ digitText (d.digits.drop whole)

/-- Digits with an exponent after them; a single digit has no point. -/
def scientific (layout : Layout) (d : Digits) : String :=
  let fraction := d.digits.drop 1
  digitText (d.digits.take 1) ++ (if fraction.isEmpty then "" else "." ++ digitText fraction) ++
    layout.mark ++ (if d.exponent < 0 then "-" else layout.plus) ++ toString d.exponent.natAbs

/-- The text of decimal digits. -/
def Layout.write (layout : Layout) (d : Digits) : String :=
  if layout.least ≤ d.exponent ∧ d.exponent ≤ layout.greatest then positional d
  else scientific layout d

/-- The text of a finite number: a sign and its shortest digits. -/
def Layout.writeNumber (layout : Layout) (x : Binary64) : String :=
  (if x.isNegative then "-" else "") ++ layout.write (shortest x)

end ExpiringCache.Decimal
