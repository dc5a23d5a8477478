import DisplayList.Number.Shortest

/-!
# The shortest decimal reads back

Whatever candidate the search for the shortest decimal settles on has been tested, and the exact
expansion that closes it needs no test: `magnitude_shortest` says that the decimal which is written
for a pattern has that pattern as its magnitude.
-/

namespace DisplayList

theorem roundDiv_mul_mul (n d : Nat) {k : Nat} (hk : 0 < k) :
    roundDiv (n * k) (d * k) = roundDiv n d := by
  have hmod : n * k % (d * k) = n % d * k := Nat.mul_mod_mul_right k n d
  have hdiv : n * k / (d * k) = n / d := Nat.mul_div_mul_right n d hk
  have hhalf : 2 * (n % d * k) = 2 * (n % d) * k := (Nat.mul_assoc 2 (n % d) k).symm
  simp only [roundDiv, hmod, hdiv, hhalf, Nat.mul_lt_mul_right hk, Nat.mul_left_inj
    (Nat.ne_of_gt hk)]

namespace Binary64

/-- Rounding depends on the fraction only, not on how it is written. -/
theorem nearest_mul_mul (num den : Nat) {k : Nat} (hk : 0 < k) :
    nearest (num * k) (den * k) = nearest num den := by
  have hscaled : num * k * unitsInOne = num * unitsInOne * k := Nat.mul_right_comm num k unitsInOne
  have hdiv : num * unitsInOne * k / (den * k) = num * unitsInOne / den :=
    Nat.mul_div_mul_right _ _ hk
  have hden : ∀ shift, den * k * Nat.pow 2 shift = den * Nat.pow 2 shift * k :=
    fun shift => Nat.mul_right_comm den k (Nat.pow 2 shift)
  simp only [nearest, hscaled, hdiv, hden, roundDiv_mul_mul _ _ hk]

theorem units_pos {bits : Nat} (h : 0 < bits) : 0 < units bits := by
  rw [units]
  split
  · exact h
  · exact Nat.mul_pos (by simp only [hiddenBit]; omega) (Nat.pow_pos (by decide))

theorem units_lt {bits n : Nat} (hn : 53 ≤ n) (h : bits / hiddenBit + 52 ≤ n) :
    units bits < Nat.pow 2 n := by
  have hlow : Nat.pow 2 53 ≤ Nat.pow 2 n := Nat.pow_le_pow_right (by decide) hn
  rw [units]
  split
  · next hbits => exact Nat.lt_of_lt_of_le (Nat.lt_trans hbits (by decide)) hlow
  · next hbits =>
    have hquot : 1 ≤ bits / hiddenBit :=
      (Nat.one_le_div_iff (by decide)).2 (Nat.le_of_not_lt hbits)
    have hfrac : hiddenBit + bits % hiddenBit < Nat.pow 2 53 :=
      Nat.add_lt_add_left (Nat.mod_lt bits (show 0 < hiddenBit by decide)) hiddenBit
    have hsum : 53 + (bits / hiddenBit - 1) ≤ n := by omega
    refine Nat.lt_of_lt_of_le (Nat.mul_lt_mul_of_pos_right hfrac (Nat.pow_pos (by decide))) ?_
    exact Nat.le_trans (Nat.le_of_eq (Nat.pow_add 2 53 _).symm)
      (Nat.pow_le_pow_right (by decide) hsum)

end Binary64

namespace Decimal

open Binary64

/-- The exact expansion of a finite pattern is within the range that is rounded at all. -/
theorem order_ofUnits {bits : Nat} (hpos : 0 < bits) (h : bits < infinity) :
    -330 ≤ (ofUnits (units bits)).order ∧ (ofUnits (units bits)).order ≤ 310 := by
  have hlow : ¬ (Nat.toDigits 10 (units bits * Nat.pow 5 unitPlaces)).length ≤ 744 := by
    rw [Nat.length_toDigits_le_iff (by decide) (by decide)]
    refine Nat.not_lt.2 (Nat.le_trans ?_ (Nat.le_mul_of_pos_left _ (units_pos hpos)))
    decide +kernel
  have hhigh : (Nat.toDigits 10 (units bits * Nat.pow 5 unitPlaces)).length ≤ 1384 := by
    rw [Nat.length_toDigits_le_iff (by decide) (by decide)]
    have hexp : bits / hiddenBit + 52 ≤ 2098 := by
      simp only [infinity, hiddenBit] at h ⊢
      omega
    have hunits := units_lt (n := 2098) (by decide) hexp
    refine Nat.lt_of_lt_of_le (Nat.mul_lt_mul_of_pos_right hunits (by decide +kernel)) ?_
    decide +kernel
  simp only [order, ofUnits, unitPlaces] at hlow hhigh ⊢
  omega

theorem magnitude_eq_nearest {coefficient places : Nat} (hplaces : 0 < places)
    (hne : coefficient ≠ 0) (hlow : -330 ≤ (⟨coefficient, -places⟩ : Decimal).order)
    (hhigh : (⟨coefficient, -places⟩ : Decimal).order ≤ 310) :
    (⟨coefficient, -places⟩ : Decimal).magnitude = nearest coefficient (Nat.pow 10 places) := by
  rw [magnitude, if_neg hne, if_neg (Int.not_lt.2 hhigh), if_neg (Int.not_lt.2 hlow)]
  cases places with
  | zero => exact absurd rfl (Nat.ne_of_gt hplaces)
  | succ e => rfl

theorem magnitude_ofUnits {bits : Nat} (hpos : 0 < bits) (h : bits < infinity) :
    (ofUnits (units bits)).magnitude = bits := by
  obtain ⟨hlow, hhigh⟩ := order_ofUnits hpos h
  have hne : units bits * Nat.pow 5 unitPlaces ≠ 0 :=
    Nat.ne_of_gt (Nat.mul_pos (units_pos hpos) (by decide +kernel))
  rw [ofUnits, magnitude_eq_nearest (by decide) hne hlow hhigh]
  have hten : Nat.pow 10 unitPlaces = unitsInOne * Nat.pow 5 unitPlaces := by decide +kernel
  rw [hten, nearest_mul_mul _ _ (by decide +kernel), nearest_units h]

/-- The decimal that is written for a finite pattern other than zero reads back as that pattern. -/
theorem magnitude_shortest {bits : Nat} (hpos : 0 < bits) (h : bits < infinity) :
    (shortest bits).magnitude = bits := by
  rw [shortest]
  cases hfound : (List.range' 1 17).findSome? fun n => readingBack? bits
      (neighbours (units bits * Nat.pow 10 searchPlaces)
        (Nat.toDigits 10 (units bits * Nat.pow 10 searchPlaces / unitsInOne)).length n) with
  | none => exact magnitude_ofUnits hpos h
  | some d =>
      obtain ⟨n, -, hback⟩ := List.exists_of_findSome?_eq_some hfound
      exact magnitude_of_readingBack? hback

end Decimal

end DisplayList
