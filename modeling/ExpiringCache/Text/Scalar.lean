/-!
# Numbers and truth values in settings

Natural numbers are written in ASCII digits, perhaps after a plus sign, and nothing else; truth
values as `true` and `false`.
-/

namespace ExpiringCache.Text

/-- Whether a character is an ASCII digit. -/
def isDigit (c : Char) : Bool := '0' ≤ c && c ≤ '9'

/-- The number that digits stand for. -/
def ofDigits (digits : List Char) : Nat :=
  digits.foldl (fun n digit => n * 10 + (digit.toNat - 0x30)) 0

/-- The natural number below a bound that a text stands for. -/
def natural? (bound : Nat) (text : String) : Option Nat :=
  let digits :=
    match text.toList with
    | '+' :: rest => rest
    | all => all
  if digits.isEmpty || !digits.all isDigit then none
  else if ofDigits digits < bound then some (ofDigits digits)
  else none

/-- The truth value that a text stands for. -/
def bool? (text : String) : Option Bool :=
  if text = "true" then some true else if text = "false" then some false else none

end ExpiringCache.Text
