import DisplayList.Proofs.Number.Value

/-!
# Rounding a significand

The exact result of an operation is cut off at an exponent, rounded there and packed. `Truncates`
carries the exact result through the shifts, and `exists_nearby_roundWithAccuracy` says what comes
out: a significand of the right length whose value is `Nearby`, with no representable value between
it and the exact one. Packing keeps such a significand as it is, or makes it infinite if its exponent
is beyond all numbers (`Canonical.repack`, `repack_of_lt_exponent`).
-/

namespace DisplayList

namespace Binary64

open Float.Model (Format UnpackedFloat totalExponent)
open Float.Model.UnpackedFloat

/-! ### Representable values -/

/-- A value with at most 53 binary digits in front of the least exponent. -/
def Representable (q : ℚ) : Prop := ∃ n e : ℤ, |n| < 2 ^ 53 ∧ -1074 ≤ e ∧ q = n * 2 ^ e

theorem representable_zero : Representable 0 := ⟨0, 0, by decide, by decide, by simp⟩

theorem Representable.neg {q : ℚ} (h : Representable q) : Representable (-q) := by
  obtain ⟨n, e, hn, he, rfl⟩ := h
  exact ⟨-n, e, by rwa [abs_neg], he, by push_cast; ring⟩

/-- A value and one that may stand for it, with no representable value between them. -/
def Nearby (v q : ℚ) : Prop := ∀ c, Representable c → (c ≤ v → c ≤ q) ∧ (v ≤ c → q ≤ c)

/-! ### Packing -/

section Pack

theorem unpackSign_packComponents (s : Sign) (e : BitVec Format.binary64.exponentBits)
    (m : BitVec Format.binary64.mantissaBitsWithoutImplicit) :
    Sign.ofBitVec (unpackSign (packComponents Format.binary64 s e m)) = s := by
  have he : e.toNat < 2 ^ 11 := e.isLt
  have hm : m.toNat < 2 ^ 52 := m.isLt
  have hsign : unpackSign (packComponents Format.binary64 s e m) = s.toBitVec := by
    apply BitVec.eq_of_toNat_eq
    rw [toNat_unpackSign, toNat_packComponents]
    omega
  rw [hsign]
  cases s <;> rfl

/-- What is left of an unpacked number when it is packed. -/
def repack (u : UnpackedFloat) : UnpackedFloat := (Float.Model.pack u).unpack

theorem repack_eq (u : UnpackedFloat) :
    repack u = unpack Format.binary64 (pack Format.binary64 u) := rfl

theorem repack_zero (s : Sign) : repack (.zero s) = .zero s := by
  cases s <;> rfl

theorem repack_infinity (s : Sign) : repack (.infinity s) = .infinity s := by
  cases s <;> rfl

theorem unpack_packComponents_normal (s : Sign) {e : BitVec Format.binary64.exponentBits}
    (m : BitVec Format.binary64.mantissaBitsWithoutImplicit) (hzero : e.toNat ≠ 0)
    (hmax : e.toNat ≠ 2047) :
    unpack Format.binary64 (packComponents Format.binary64 s e m) =
      .finite s (1#1 ++ m).toNat ((e.toNat : ℤ) - (1023 + 52))
        (by rw [toNat_hidden_append]; omega) := by
  have hmax' : e ≠ -1#_ := fun h => hmax (congrArg BitVec.toNat h)
  have hzero' : e ≠ 0#_ := fun h => hzero (congrArg BitVec.toNat h)
  simp only [unpack, unpackExponent_packComponents, unpackMantissa_packComponents,
    unpackSign_packComponents, if_neg hmax', if_neg hzero']
  rfl

theorem unpack_packComponents_subnormal (s : Sign)
    {m : BitVec Format.binary64.mantissaBitsWithoutImplicit} (hpos : 0 < m.toNat) :
    unpack Format.binary64 (packComponents Format.binary64 s 0#_ m) =
      .finite s m.toNat (-1074) hpos := by
  have hmax : (0#_ : BitVec Format.binary64.exponentBits) ≠ -1#_ := by decide
  have hzero : m ≠ 0#_ := fun h => hpos.ne' (congrArg BitVec.toNat h)
  simp only [unpack, unpackExponent_packComponents, unpackMantissa_packComponents,
    unpackSign_packComponents, if_neg hmax, if_pos, dif_neg hzero]
  rfl

/-- What finite numbers have for a significand and an exponent survives packing. -/
theorem Canonical.repack {m : ℕ} {e : ℤ} (h : Canonical m e) (s : Sign) (hpos : 0 < m) :
    repack (.finite s m e hpos) = .finite s m e hpos := by
  have hm := h.lt
  have hlow := h.le_exponent
  have hhigh := h.exponent_le
  by_cases hnormal : 2 ^ 52 ≤ m
  · have hmant : (1#1 ++ BitVec.ofNat 52 m).toNat = m := by
      rw [toNat_hidden_append, BitVec.toNat_ofNat]
      omega
    have hbiased : (BitVec.ofNat 11 (e + 1075).toNat).toNat = (e + 1075).toNat := by
      rw [BitVec.toNat_ofNat]
      omega
    have hexp : ((BitVec.ofNat 11 (e + 1075).toNat).toNat : ℤ) - (1023 + 52) = e := by omega
    have hpack := pack_normal s (BitVec.ofNat 52 m) (hmant.symm ▸ hpos)
      (by omega : (BitVec.ofNat 11 (e + 1075).toNat).toNat ≠ 2047)
    have hunpack := unpack_packComponents_normal s (BitVec.ofNat 52 m)
      (by omega : (BitVec.ofNat 11 (e + 1075).toNat).toNat ≠ 0) (by omega)
    simp only [hmant, hexp] at hpack hunpack
    rw [repack_eq, hpack, hunpack]
  · obtain rfl := h.normal.resolve_left hnormal
    have hmant : (BitVec.ofNat 52 m).toNat = m := by
      rw [BitVec.toNat_ofNat]
      omega
    have hsub := pack_subnormal s (BitVec.ofNat 52 m) (hmant.symm ▸ hpos)
    have hunpack := unpack_packComponents_subnormal s (hmant.symm ▸ hpos)
    simp only [hmant] at hsub hunpack
    have hpack : pack Format.binary64 (.finite s m (-1074) hpos) =
        packComponents Format.binary64 s 0#_ (BitVec.ofNat 52 m) := hsub
    rw [repack_eq, hpack, hunpack]

theorem repack_of_lt_exponent {m : ℕ} {e : ℤ} (h : 971 < e) (s : Sign) (hpos : 0 < m) :
    repack (.finite s m e hpos) = .infinity s := by
  have hpack : pack Format.binary64 (.finite s m e hpos) = packedInfinity Format.binary64 s := by
    change (if 2048 ≤ (e + 1023 + 52).toNat + 1 then _ else _) = _
    rw [if_pos (by omega)]
  rw [repack_eq, hpack, ← repack_infinity s]
  rfl

end Pack

/-! ### Shifting and rounding a significand -/

theorem exists_eq_multiple (n : ℤ) {e f : ℤ} (h : e ≤ f) :
    ∃ k : ℤ, (n * 2 ^ f : ℚ) = k * 2 ^ e := by
  refine ⟨n * 2 ^ (f - e).toNat, ?_⟩
  have hsplit : f = (f - e).toNat + e := by omega
  conv_lhs => rw [hsplit, zpow_add₀ two_ne_zero, zpow_natCast, ← mul_assoc]
  push_cast
  rfl

/-- With a significand of full length, the greater exponent makes the greater value. -/
theorem mul_zpow_le_of_exponent_lt {m : ℕ} {n e f : ℤ} (hm : 2 ^ 52 ≤ m) (hn : |n| < 2 ^ 53)
    (h : f < e) : (n * 2 ^ f : ℚ) ≤ m * 2 ^ e := by
  have hm' : (2 ^ 52 : ℚ) ≤ m := by exact_mod_cast hm
  have hn' : (n : ℚ) ≤ 2 ^ 53 := by exact_mod_cast (le_abs_self n).trans hn.le
  calc (n * 2 ^ f : ℚ) ≤ 2 ^ 53 * 2 ^ f := by gcongr
    _ ≤ 2 ^ 53 * 2 ^ (e - 1) := by
        gcongr
        exacts [one_le_two, by omega]
    _ = 2 ^ 52 * 2 ^ e := by rw [zpow_sub_one₀ two_ne_zero]; ring
    _ ≤ m * 2 ^ e := by gcongr

/-- Where a value lies when its significand has been cut off: not below what is left and below the
next. The two bits are clear if nothing has been lost. -/
structure Truncates (v : ℚ) (em : ExtendedMantissa) (e : ℤ) : Prop where
  lower : em.mantissa * 2 ^ e ≤ v
  upper : v < (em.mantissa + 1) * 2 ^ e
  exact : v = em.mantissa * 2 ^ e → em.roundBit = false ∧ em.stickyBit = false

theorem roundedMantissa_of_exact {em : ExtendedMantissa}
    (h : em.roundBit = false ∧ em.stickyBit = false) : em.roundedMantissa = em.mantissa := by
  obtain ⟨m, r, s⟩ := em
  obtain ⟨rfl, rfl⟩ := h
  rfl

theorem roundedMantissa_eq_or_eq (em : ExtendedMantissa) :
    em.roundedMantissa = em.mantissa ∨ em.roundedMantissa = em.mantissa + 1 := by
  obtain ⟨m, r, s⟩ := em
  cases r <;> cases s
  · exact .inl rfl
  · exact .inl rfl
  · change m + m % 2 = m ∨ m + m % 2 = m + 1
    omega
  · exact .inr rfl

namespace Truncates

variable {v : ℚ} {em : ExtendedMantissa} {e : ℤ}

theorem shiftRightOne (h : Truncates v em e) : Truncates v em.shiftRightOne (e + 1) := by
  have hpow : (0 : ℚ) < 2 ^ e := zpow_pos two_pos e
  have hdouble : (2 : ℚ) ^ (e + 1) = 2 * 2 ^ e := by rw [zpow_add_one₀ two_ne_zero, mul_comm]
  have hlower : ((em.mantissa / 2 : ℕ) : ℚ) * 2 ≤ em.mantissa := by
    exact_mod_cast Nat.div_mul_le_self em.mantissa 2
  have hupper : (em.mantissa + 1 : ℚ) ≤ ((em.mantissa / 2 : ℕ) + 1) * 2 := by
    exact_mod_cast (by omega : em.mantissa + 1 ≤ (em.mantissa / 2 + 1) * 2)
  have hle : ((em.mantissa / 2 : ℕ) : ℚ) * 2 ^ (e + 1) ≤ em.mantissa * 2 ^ e := by
    rw [hdouble, ← mul_assoc]
    exact mul_le_mul_of_nonneg_right hlower hpow.le
  refine ⟨hle.trans h.lower, h.upper.trans_le ?_, fun heq => ?_⟩
  · change _ ≤ ((em.mantissa / 2 : ℕ) + 1 : ℚ) * 2 ^ (e + 1)
    rw [hdouble, ← mul_assoc]
    exact mul_le_mul_of_nonneg_right hupper hpow.le
  · have hv : v = em.mantissa * 2 ^ e := le_antisymm (heq.le.trans hle) h.lower
    have heven : ((em.mantissa / 2 : ℕ) : ℚ) * 2 = em.mantissa := by
      refine mul_right_cancel₀ hpow.ne' ?_
      rw [mul_assoc, ← hdouble, ← hv]
      exact heq.symm
    have heven' : em.mantissa / 2 * 2 = em.mantissa := by exact_mod_cast heven
    obtain ⟨hround, hsticky⟩ := h.exact hv
    constructor
    · change (em.mantissa % 2 != 0) = false
      rw [bne_eq_false_iff_eq]
      omega
    · change (em.roundBit || em.stickyBit) = false
      rw [hround, hsticky]
      rfl

theorem shiftRight (h : Truncates v em e) (n : ℕ) : Truncates v (em >>> n) (e + n) := by
  induction n with
  | zero =>
      rw [Nat.cast_zero, add_zero]
      exact h
  | succ n ih =>
      have hnext := ih.shiftRightOne
      rw [add_assoc] at hnext
      exact_mod_cast hnext

/-- Cutting digits off at an exponent crosses no multiple of its power of two. -/
theorem le_or_le_multiple (h : Truncates v em e) (k : ℤ) :
    (k * 2 ^ e ≤ v → (k * 2 ^ e : ℚ) ≤ em.mantissa * 2 ^ e) ∧
      (v ≤ k * 2 ^ e →
        v = em.mantissa * 2 ^ e ∨ ((em.mantissa + 1) * 2 ^ e : ℚ) ≤ k * 2 ^ e) := by
  have hpow : (0 : ℚ) < 2 ^ e := zpow_pos two_pos e
  constructor
  · intro hle
    have hlt : (k : ℚ) < em.mantissa + 1 := lt_of_mul_lt_mul_right (hle.trans_lt h.upper) hpow.le
    have hlt' : k < em.mantissa + 1 := by exact_mod_cast hlt
    have hkm : (k : ℚ) ≤ em.mantissa := by exact_mod_cast Int.lt_add_one_iff.1 hlt'
    exact mul_le_mul_of_nonneg_right hkm hpow.le
  · intro hle
    have hmk : (em.mantissa : ℚ) ≤ k := le_of_mul_le_mul_right (h.lower.trans hle) hpow
    have hmk' : (em.mantissa : ℤ) ≤ k := by exact_mod_cast hmk
    rcases hmk'.eq_or_lt with heq | hlt
    · have heq' : (k : ℚ) = em.mantissa := by exact_mod_cast heq.symm
      rw [heq'] at hle
      exact .inl (le_antisymm hle h.lower)
    · have hnext : (em.mantissa + 1 : ℚ) ≤ k := by exact_mod_cast hlt
      exact .inr (mul_le_mul_of_nonneg_right hnext hpow.le)

/-- Cutting digits off at an exponent crosses no representable value, if there is no shorter
exponent or the digits left are enough. -/
theorem le_or_le (h : Truncates v em e) (hgrid : 2 ^ 52 ≤ em.mantissa ∨ e = -1074) {c : ℚ}
    (hc : Representable c) :
    (c ≤ v → c ≤ em.mantissa * 2 ^ e) ∧
      (v ≤ c → v = em.mantissa * 2 ^ e ∨ (em.mantissa + 1) * 2 ^ e ≤ c) := by
  obtain ⟨n, f, hn, hf, rfl⟩ := hc
  -- a value on the grid of the cut cannot be crossed, and any finer one lies below what is left
  rcases le_or_gt e f with hef | hef
  · obtain ⟨k, hk⟩ := exists_eq_multiple n hef
    rw [hk]
    exact h.le_or_le_multiple k
  · have hbelow := mul_zpow_le_of_exponent_lt (hgrid.resolve_right (by omega)) hn hef
    exact ⟨fun _ => hbelow, fun hle => .inl (le_antisymm (hle.trans hbelow) h.lower)⟩

theorem nearby (h : Truncates v em e) (hgrid : 2 ^ 52 ≤ em.mantissa ∨ e = -1074) :
    Nearby v (em.roundedMantissa * 2 ^ e) := by
  have hpow : (0 : ℚ) < 2 ^ e := zpow_pos two_pos e
  intro c hc
  obtain ⟨hbelow, habove⟩ := h.le_or_le hgrid hc
  by_cases hv : v = em.mantissa * 2 ^ e
  · rw [roundedMantissa_of_exact (h.exact hv), ← hv]
    exact ⟨id, id⟩
  · constructor
    · intro hle
      refine (hbelow hle).trans (mul_le_mul_of_nonneg_right ?_ hpow.le)
      rcases roundedMantissa_eq_or_eq em with hr | hr <;> simp [hr]
    · intro hle
      refine le_trans (mul_le_mul_of_nonneg_right ?_ hpow.le) ((habove hle).resolve_left hv)
      rcases roundedMantissa_eq_or_eq em with hr | hr <;> simp [hr]

end Truncates

theorem targetExponent_eq (m : ℕ) (e : ℤ) :
    Format.binary64.targetExponent (totalExponent m e) = max (m.log2 + e - 52) (-1074) := by
  change max ((m.log2 : ℤ) + 1 + e - 53) (-1074) = _
  congr 1
  ring

theorem mantissa_ofMantissaAndAccuracy (m : ℕ) (a : Accuracy) :
    (ExtendedMantissa.ofMantissaAndAccuracy m a).mantissa = m := by
  cases a with
  | exact => rfl
  | inexact o => cases o <;> rfl

section Round

variable {v : ℚ} {m : ℕ} {e t : ℤ} {a : Accuracy}

/-- At its target exponent or beyond, a significand has at most 53 digits. -/
theorem Truncates.lt_at_target {em : ExtendedMantissa} (ht : Truncates v em t)
    (h : v < (m + 1) * 2 ^ e) (htarget : m.log2 + e - 52 ≤ t) : em.mantissa < 2 ^ 53 := by
  have hpow : (0 : ℚ) < 2 ^ t := zpow_pos two_pos t
  have hm : (m + 1 : ℚ) ≤ 2 ^ ((m.log2 + 1 : ℕ) : ℤ) := by
    exact_mod_cast Nat.lt_log2_self
  have hlt : (em.mantissa : ℚ) * 2 ^ t < 2 ^ (53 : ℤ) * 2 ^ t := by
    calc (em.mantissa : ℚ) * 2 ^ t ≤ v := ht.lower
      _ < (m + 1) * 2 ^ e := h
      _ ≤ 2 ^ ((m.log2 + 1 : ℕ) : ℤ) * 2 ^ e := by gcongr
      _ = 2 ^ (((m.log2 + 1 : ℕ) : ℤ) + e) := (zpow_add₀ two_ne_zero _ _).symm
      _ ≤ 2 ^ (53 + t) := zpow_le_zpow_right₀ one_le_two (by push_cast; omega)
      _ = 2 ^ (53 : ℤ) * 2 ^ t := zpow_add₀ two_ne_zero _ _
  exact_mod_cast lt_of_mul_lt_mul_right hlt hpow.le

/-- At its target exponent or before, a significand has 53 digits or more. -/
theorem Truncates.le_at_target {em : ExtendedMantissa} (ht : Truncates v em t) (hm : m ≠ 0)
    (h : m * 2 ^ e ≤ v) (htarget : t ≤ m.log2 + e - 52) : 2 ^ 52 ≤ em.mantissa := by
  have hpow : (0 : ℚ) < 2 ^ t := zpow_pos two_pos t
  have hlog : (2 : ℚ) ^ (m.log2 : ℤ) ≤ m := by exact_mod_cast Nat.log2_self_le hm
  have hlt : (2 : ℚ) ^ (52 : ℤ) * 2 ^ t < (em.mantissa + 1) * 2 ^ t := by
    calc (2 : ℚ) ^ (52 : ℤ) * 2 ^ t = 2 ^ (52 + t) := (zpow_add₀ two_ne_zero _ _).symm
      _ ≤ 2 ^ ((m.log2 : ℤ) + e) := zpow_le_zpow_right₀ one_le_two (by omega)
      _ = 2 ^ (m.log2 : ℤ) * 2 ^ e := zpow_add₀ two_ne_zero _ _
      _ ≤ m * 2 ^ e := by gcongr
      _ ≤ v := h
      _ < (em.mantissa + 1) * 2 ^ t := ht.upper
  have hlt' : 2 ^ 52 < em.mantissa + 1 := by
    exact_mod_cast lt_of_mul_lt_mul_right hlt hpow.le
  exact Nat.lt_succ_iff.1 hlt'

/-- At its target exponent a significand has its full length, unless that is the least one. -/
theorem Truncates.length_at_target {em : ExtendedMantissa}
    (h : Truncates v (.ofMantissaAndAccuracy m a) e) (ht : Truncates v em t)
    (htarget : t = max (m.log2 + e - 52) (-1074)) (he : e ≤ t) :
    em.mantissa < 2 ^ 53 ∧ (2 ^ 52 ≤ em.mantissa ∨ t = -1074) := by
  have hlower := h.lower
  have hupper := h.upper
  rw [mantissa_ofMantissaAndAccuracy] at hlower hupper
  refine ⟨ht.lt_at_target hupper (by omega), or_iff_not_imp_right.2 fun hleast => ?_⟩
  have hm : m ≠ 0 := by
    rintro rfl
    rw [Nat.log2_zero] at htarget
    omega
  exact ht.le_at_target hm hlower (by omega)

/-- A significand that has been rounded up to a length of 54 digits is shortened by one. -/
theorem shiftToTargetExponent_of_le (hm : m ≤ 2 ^ 53) (he : -1074 ≤ e)
    (hgrid : 2 ^ 52 ≤ m ∨ e = -1074) :
    ∃ (em : ExtendedMantissa) (f : ℤ),
      shiftToTargetExponent Format.binary64 m e .exact = (em, f) ∧
        (em.mantissa * 2 ^ f : ℚ) = m * 2 ^ e ∧
        em.mantissa < 2 ^ 53 ∧ -1074 ≤ f ∧ (2 ^ 52 ≤ em.mantissa ∨ f = -1074) := by
  refine ⟨_, _, rfl, ?_⟩
  rcases hm.lt_or_eq with hm | rfl
  · have hlog : m.log2 < 53 := by
      by_cases hzero : m = 0
      · rw [hzero, Nat.log2_zero]
        decide
      · exact (Nat.log2_lt hzero).2 hm
    have hshift : (Format.binary64.targetExponent (totalExponent m e) - e).toNat = 0 := by
      rw [targetExponent_eq]
      omega
    rw [hshift, Nat.cast_zero, add_zero]
    exact ⟨rfl, hm, he, hgrid⟩
  · have hshift : (Format.binary64.targetExponent (totalExponent (2 ^ 53) e) - e).toNat = 1 := by
      rw [targetExponent_eq, Nat.log2_two_pow]
      omega
    rw [hshift]
    have hmant : (ExtendedMantissa.ofMantissaAndAccuracy (2 ^ 53) .exact >>> 1).mantissa =
        2 ^ 52 := rfl
    rw [hmant, Nat.cast_one, zpow_add_one₀ two_ne_zero]
    refine ⟨?_, by decide, by omega, .inl le_rfl⟩
    push_cast
    ring

/-- Rounding comes to a number with a value near the exact one. -/
theorem exists_nearby_roundWithAccuracy (s : Sign)
    (h : Truncates v (.ofMantissaAndAccuracy m a) e)
    (he : e ≤ Format.binary64.targetExponent (totalExponent m e)) :
    ∃ q, Nearby v q ∧
      (q = 0 ∧ roundWithAccuracy Format.binary64 s m e a = .zero s ∨
        ∃ (n : ℕ) (f : ℤ) (hpos : 0 < n), Normalized n f ∧ q = n * 2 ^ f ∧
          roundWithAccuracy Format.binary64 s m e a = .finite s n f hpos) := by
  -- the first shift goes to the target exponent, the second one only takes back a carry
  obtain ⟨t, htarget⟩ : ∃ t, t = Format.binary64.targetExponent (totalExponent m e) := ⟨_, rfl⟩
  rw [← htarget] at he
  have hexponent : e + (t - e).toNat = t := by omega
  have hfirst : shiftToTargetExponent Format.binary64 m e a =
      (ExtendedMantissa.ofMantissaAndAccuracy m a >>> (t - e).toNat, t) := by
    simp only [shiftToTargetExponent, ← htarget, shiftToExponent, hexponent]
  have ht := h.shiftRight (t - e).toNat
  rw [hexponent] at ht
  rw [targetExponent_eq] at htarget
  obtain ⟨hlength, hgrid⟩ := h.length_at_target ht htarget he
  generalize ExtendedMantissa.ofMantissaAndAccuracy m a >>> (t - e).toNat = em
    at hfirst ht hlength hgrid
  have hround := roundedMantissa_eq_or_eq em
  obtain ⟨em', f, hsecond, hvalue, hlt, hf, hgrid'⟩ :=
    shiftToTargetExponent_of_le (m := em.roundedMantissa) (e := t) (by omega) (by omega) (by omega)
  refine ⟨em.roundedMantissa * 2 ^ t, ht.nearby hgrid, ?_⟩
  rw [← hvalue, roundWithAccuracy]
  simp only [hfirst, hsecond]
  by_cases hzero : em'.mantissa = 0
  · rw [dif_pos hzero, hzero, Nat.cast_zero, zero_mul]
    exact .inl ⟨rfl, rfl⟩
  · rw [dif_neg hzero]
    exact .inr ⟨em'.mantissa, f, Nat.pos_of_ne_zero hzero,
      ⟨Nat.pos_of_ne_zero hzero, hlt, hf, hgrid'⟩, rfl, rfl⟩

end Round

end Binary64

end DisplayList
