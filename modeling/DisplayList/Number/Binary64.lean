/-!
# Magnitudes of double-precision numbers

Every finite double is a whole number of units of `2 ^ (-1074)`, the smallest positive double, so
questions about rounding are questions about natural numbers. A magnitude is kept as its bit
pattern without the sign. `units` reads the number of units off a pattern, and `nearest` is the
pattern whose magnitude is nearest to a fraction. `nearest_units` bridges the two: rounding the
exact value of a pattern gives the pattern back.
-/

namespace DisplayList

/-- The whole number nearest to the quotient `n / d`, a half going to the even neighbour. -/
def roundDiv (n d : Nat) : Nat :=
  if 2 * (n % d) < d ∨ (2 * (n % d) = d ∧ n / d % 2 = 0) then n / d else n / d + 1

/-- A multiple of the divisor is divided without rounding. -/
@[simp] theorem roundDiv_mul_right (q : Nat) {d : Nat} (hd : 0 < d) : roundDiv (q * d) d = q := by
  simp [roundDiv, Nat.mul_mod_left, Nat.mul_div_cancel q hd, hd]

namespace Binary64

/-- The number of binary places behind the point in one unit. -/
def unitPlaces : Nat := 1074

/-- How many units make one. -/
def unitsInOne : Nat := Nat.pow 2 unitPlaces

/-- The bit above the 52 fraction bits of a pattern, which a normal magnitude does not store. -/
def hiddenBit : Nat := 0x10000000000000

/-- The bit above a magnitude. -/
def signBit : Nat := 0x8000000000000000

/-- The pattern of infinity, the least one that is no finite magnitude. -/
def infinity : Nat := 0x7ff0000000000000

/-- The pattern of the numbers that are not numbers. -/
def notANumber : Nat := 0x7ff8000000000000

/-- The number of units in the magnitude of a finite pattern: below the hidden bit the pattern
counts units itself, and from there on each next block of patterns of that length counts in units
twice as large. -/
def units (bits : Nat) : Nat :=
  if bits < hiddenBit then bits
  else (hiddenBit + bits % hiddenBit) * Nat.pow 2 (bits / hiddenBit - 1)

/-- The pattern whose magnitude is nearest to the fraction `num / den`, of two equally near ones
the even one. The shift is the number of low binary places that do not fit. -/
def nearest (num den : Nat) : Nat :=
  let scaled := num * unitsInOne
  let shift := (scaled / den).log2 - 52
  min (shift * hiddenBit + roundDiv scaled (den * Nat.pow 2 shift)) infinity

/-- The pattern of a number's magnitude. -/
def magnitude (x : Float) : Nat := x.toBits.toNat % signBit

/-- Whether the sign bit is set, as it is for the negative zero. -/
def isNegative (x : Float) : Bool := signBit ≤ x.toBits.toNat

/-- The number with the given sign and magnitude. -/
def ofMagnitude (negative : Bool) (bits : Nat) : Float :=
  Float.ofBits (UInt64.ofNat (if negative then signBit + bits else bits))

private theorem two_pow_pos (n : Nat) : 0 < Nat.pow 2 n := Nat.pow_pos (by decide)

theorem unitsInOne_pos : 0 < unitsInOne := by decide +kernel

private theorem log2_units_of_normal {frac shift : Nat} (hf : frac < hiddenBit) :
    ((hiddenBit + frac) * Nat.pow 2 shift).log2 = 52 + shift := by
  simp only [hiddenBit, Nat.pow_eq] at hf ⊢
  have h₀ : (0x10000000000000 + frac) * 2 ^ shift ≠ 0 :=
    Nat.mul_ne_zero (by omega) (Nat.ne_of_gt (Nat.two_pow_pos shift))
  rw [Nat.log2_eq_iff h₀]
  constructor
  · rw [Nat.pow_add]; exact Nat.mul_le_mul_right _ (by omega)
  · rw [show 52 + shift + 1 = 53 + shift by omega, Nat.pow_add]
    exact Nat.mul_lt_mul_of_pos_right (by omega) (Nat.two_pow_pos shift)

/-- Rounding the exact value of a finite pattern gives the pattern back. -/
theorem nearest_units {bits : Nat} (h : bits < infinity) :
    nearest (units bits) unitsInOne = bits := by
  have hpos := unitsInOne_pos
  simp only [nearest, Nat.mul_div_cancel _ hpos]
  by_cases hb : bits < hiddenBit
  · have hs : bits.log2 - 52 = 0 := by
      rcases Nat.eq_zero_or_pos bits with h₀ | h₀
      · simp [h₀]
      · have := (Nat.log2_lt (Nat.ne_of_gt h₀)).2 (show bits < 2 ^ 52 from hb)
        omega
    simp only [units, if_pos hb, hs]
    rw [show Nat.pow 2 0 = 1 from rfl, Nat.mul_one, roundDiv_mul_right _ hpos]
    omega
  · have hf : bits % hiddenBit < hiddenBit := Nat.mod_lt _ (by decide)
    have hs : (units bits).log2 - 52 = bits / hiddenBit - 1 := by
      rw [units, if_neg hb, log2_units_of_normal hf]; omega
    simp only [hs]
    have hq : units bits * unitsInOne =
        (hiddenBit + bits % hiddenBit) * (unitsInOne * Nat.pow 2 (bits / hiddenBit - 1)) := by
      rw [units, if_neg hb, Nat.mul_assoc, Nat.mul_comm (Nat.pow 2 _) unitsInOne]
    rw [hq, roundDiv_mul_right _ (Nat.mul_pos hpos (two_pow_pos _))]
    simp only [infinity, hiddenBit] at h hb ⊢
    omega

end Binary64

end DisplayList
