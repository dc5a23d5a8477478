import DisplayList.Text.Case

/-!
# Lowering a letter

Only the capitals `A` to `Z` are changed, each into the character 32 places behind it:
`toLower_of_not_isUpper` and `toNat_toLower_of_isUpper`. So what is lowered to a character that is
no small letter has been that character before, `eq_of_toLower_eq`.
-/

namespace DisplayList

theorem isUpper_iff_val {c : Char} : c.isUpper ↔ 'A'.val ≤ c.val ∧ c.val ≤ 'Z'.val :=
  decide_eq_true_iff

theorem isUpper_iff {c : Char} : c.isUpper ↔ 65 ≤ c.toNat ∧ c.toNat ≤ 90 := by
  rw [isUpper_iff_val, UInt32.le_iff_toNat_le, UInt32.le_iff_toNat_le, Char.toNat_val]
  rfl

theorem toLower_of_not_isUpper {c : Char} (h : ¬ c.isUpper) : c.toLower = c :=
  dif_neg (mt isUpper_iff_val.2 h)

theorem toNat_toLower_of_isUpper {c : Char} (h : c.isUpper) :
    c.toLower.toNat = c.toNat + 32 := by
  have hbounds := isUpper_iff.1 h
  have hlower : c.toLower.val = c.val + 32 := congrArg Char.val (dif_pos (isUpper_iff_val.1 h))
  rw [← Char.toNat_val, hlower, UInt32.toNat_add, Char.toNat_val]
  simp only [UInt32.reduceToNat]
  omega

/-- A capital that has been lowered is raised again. -/
theorem toUpper_toLower {c : Char} (h : c.isUpper) : c.toLower.toUpper = c := by
  have hbounds := isUpper_iff.1 h
  have hsmall : 'a'.val ≤ c.toLower.val ∧ c.toLower.val ≤ 'z'.val := by
    simp only [UInt32.le_iff_toNat_le, Char.toNat_val, toNat_toLower_of_isUpper h]
    exact ⟨Nat.add_le_add_right hbounds.1 32, Nat.add_le_add_right hbounds.2 32⟩
  have hlower : c.toLower.val = c.val + 32 := congrArg Char.val (dif_pos (isUpper_iff_val.1 h))
  have hraise : c.toLower.toUpper.val = c.toLower.val + ('A'.val - 'a'.val) := by
    delta Char.toUpper
    rw [dif_pos hsmall]
  have hback : (32 : UInt32) + ('A'.val - 'a'.val) = 0 := by decide
  exact Char.ext (by rw [hraise, hlower, UInt32.add_assoc, hback, UInt32.add_zero])

/-- Lowering makes no character out of another that is no small letter. -/
theorem eq_of_toLower_eq {c d : Char} (h : c.toLower = d) (hd : d.toNat < 97) : c = d := by
  by_cases hc : c.isUpper
  · have hbounds := isUpper_iff.1 hc
    have hlower := toNat_toLower_of_isUpper hc
    rw [h] at hlower
    omega
  · rwa [toLower_of_not_isUpper hc] at h

end DisplayList
