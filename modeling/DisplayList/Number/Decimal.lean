import DisplayList.Number.Binary64

/-!
# Decimals and the doubles nearest to them

A `Decimal` is a coefficient and a power of ten. `Decimal.magnitude` rounds it to the pattern of
the nearest double. Decimals far outside the range of the doubles are told from their leading
place alone, so a text such as `1e999999999` costs no more than it is long.
-/

namespace DisplayList

/-- The number `coefficient * 10 ^ exponent`. -/
structure Decimal where
  coefficient : Nat
  exponent : Int
deriving DecidableEq, Repr

namespace Decimal

/-- The least power of ten above the decimal, for a coefficient other than zero. -/
def order (d : Decimal) : Int := (Nat.toDigits 10 d.coefficient).length + d.exponent

/-- The pattern of the double nearest to the decimal. From `10 ^ 310` on that is infinity, and
below `10 ^ (-330)` it is zero. -/
def magnitude (d : Decimal) : Nat :=
  if d.coefficient = 0 then 0
  else if 310 < d.order then Binary64.infinity
  else if d.order < -330 then 0
  else match d.exponent with
    | .ofNat e => Binary64.nearest (d.coefficient * Nat.pow 10 e) 1
    | .negSucc e => Binary64.nearest d.coefficient (Nat.pow 10 (e + 1))

/-- The double nearest to the decimal, with the given sign. -/
def toFloat (d : Decimal) (negative : Bool := false) : Float :=
  Binary64.ofMagnitude negative d.magnitude

end Decimal

end DisplayList
