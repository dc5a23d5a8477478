import DisplayList.Number.Shortest

/-!
# How a number is written

A number is written with the fewest digits that read back, always positionally: large numbers end
in zeros and small ones start with them, and there is no exponent and no point after a whole
number. The negative zero keeps its sign, and the number that is not a number has none.
-/

namespace DisplayList

/-- The digits of a decimal with the point at its place. -/
def Decimal.positional (d : Decimal) : List Char :=
  let digits := Nat.toDigits 10 d.coefficient
  match d.exponent with
  | .ofNat e => digits ++ List.replicate e '0'
  | .negSucc e =>
    let places := e + 1
    if places < digits.length then
      digits.take (digits.length - places) ++ '.' :: digits.drop (digits.length - places)
    else
      '0' :: '.' :: (List.replicate (places - digits.length) '0' ++ digits)

/-- The text of a magnitude that is no infinity. -/
def Binary64.text (bits : Nat) : List Char :=
  if bits = 0 then ['0'] else (Decimal.shortest bits).positional

/-- The text of a number. -/
def numberText (x : Float) : List Char :=
  if x.isNaN then "NaN".toList
  else
    let body := if x.isInf then "inf".toList else Binary64.text (Binary64.magnitude x)
    if Binary64.isNegative x then '-' :: body else body

end DisplayList
