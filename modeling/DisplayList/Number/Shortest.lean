import DisplayList.Number.Decimal

/-!
# The shortest decimal of a double

Of the decimals that read back as a given double, `Decimal.shortest` has the fewest digits and
among those is nearest to the double. On the grid of decimals with `n` digits only the two
neighbours of the exact value can qualify, so each grid is settled by testing these two; seventeen
digits always suffice, and the exact expansion closes the definition.
-/

namespace DisplayList

namespace Decimal

/-- The number of decimal places that the search keeps in front of the point. The smallest double
is above `10 ^ (-324)`, so at least 26 digits stand before it. -/
def searchPlaces : Nat := 350

/-- The two decimals with `n` digits that lie next to a magnitude, the nearer one first. Where
both are equally near, the larger one is first. The magnitude is given as the number of units in
its product with `10 ^ searchPlaces`, and `width` is the number of digits of that product in front
of the point. -/
def neighbours (scaled width n : Nat) : List Decimal :=
  let step := Nat.pow 10 (width - n)
  let low := scaled / Binary64.unitsInOne / step
  let place : Int := width - n - searchPlaces
  let below : Decimal := ⟨low, place⟩
  let above : Decimal := if low + 1 = Nat.pow 10 n then ⟨1, place + n⟩ else ⟨low + 1, place⟩
  if 2 * scaled < (2 * low + 1) * step * Binary64.unitsInOne then [below, above]
  else [above, below]

/-- The first of some decimals that reads back as the pattern `bits`. -/
def readingBack? (bits : Nat) (candidates : List Decimal) : Option Decimal :=
  candidates.find? fun d => d.magnitude == bits

/-- What is picked reads back. -/
theorem magnitude_of_readingBack? {bits : Nat} {candidates : List Decimal} {d : Decimal}
    (h : readingBack? bits candidates = some d) : d.magnitude = bits := by
  simpa using List.find?_some h

/-- The exact value of a magnitude of `units` units, as `1 / 2 = 5 / 10`. -/
def ofUnits (units : Nat) : Decimal :=
  ⟨units * Nat.pow 5 Binary64.unitPlaces, -Binary64.unitPlaces⟩

/-- The nearest of the shortest decimals that read back as the finite pattern `bits`. -/
def shortest (bits : Nat) : Decimal :=
  let units := Binary64.units bits
  let scaled := units * Nat.pow 10 searchPlaces
  let width := (Nat.toDigits 10 (scaled / Binary64.unitsInOne)).length
  let found := (List.range' 1 17).findSome? fun n => readingBack? bits (neighbours scaled width n)
  found.getD (ofUnits units)

end Decimal

end DisplayList
