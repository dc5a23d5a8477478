import DisplayList.Proofs.Number.Rounding

/-!
# Arithmetic never crosses a number

The exact result of an operation and the number that it is rounded to lie on the same side of every
value that a number can have. `RoundsTo` says so, an exact result beyond all numbers being rounded
to infinity, and it holds of sums, differences, products, quotients and magnitudes: `roundsTo_add`,
`roundsTo_sub`, `roundsTo_mul`, `roundsTo_div` and `RoundsTo.abs`. A number that is as large as no
finite one can be is an infinity (`eq_infinity_of_overflow_le`).
-/

namespace DisplayList

namespace Binary64

open Float.Model (Format UnpackedFloat totalExponent)
open Float.Model.UnpackedFloat

/-- A number and what it has been rounded from, with no value of a number between them. -/
structure RoundsTo (v : ℚ) (x : Float) : Prop where
  isNaN : x.isNaN = false
  le_value {c : ℚ} : Representable c → |c| ≤ overflow → c ≤ v → c ≤ value x
  value_le {c : ℚ} : Representable c → |c| ≤ overflow → v ≤ c → value x ≤ c

/-! ### Signs -/

section Sign

variable (s t : Sign) (p q : ℚ)

theorem signed_neg : signed (-s) q = -signed s q := by
  cases s
  · exact (neg_neg q).symm
  · rfl

theorem signed_mul : signed (s * t) (p * q) = signed s p * signed t q := by
  cases s <;> cases t <;> simp [signed]

theorem signed_div : signed (s / t) (p / q) = signed s p / signed t q := by
  cases s <;> cases t
  · exact (neg_div_neg_eq p q).symm
  · exact (neg_div q p).symm
  · exact (div_neg p).symm
  · rfl

theorem abs_signed : |signed s q| = |q| := by
  cases s
  · exact abs_neg q
  · rfl

end Sign

/-! ### Rounded results -/

section Results

variable {x : Float} {v q : ℚ} {m : ℕ} {e : ℤ}

theorem roundsTo_value (h : x.isNaN = false) (hv : value x = v) : RoundsTo v x where
  isNaN := h
  le_value _ _ hc := hv.symm ▸ hc
  value_le _ _ hc := hv.symm ▸ hc

theorem roundsTo_of_unpack {u : UnpackedFloat} (hx : x.toModel.unpack = u) (hu : u.isNaN = false)
    (hv : unpackedValue u = v) : RoundsTo v x := by
  refine roundsTo_value ?_ ?_
  · change x.toModel.unpack.isNaN = false
    rw [hx, hu]
  · rw [value, hx, hv]

theorem overflow_le_of_lt_exponent (h : Normalized m e) (he : 971 < e) :
    overflow ≤ m * 2 ^ e := by
  have hm : (2 : ℚ) ^ (52 : ℤ) ≤ m := by exact_mod_cast h.normal.resolve_right (by omega)
  calc overflow ≤ 2 ^ (52 + e) := zpow_le_zpow_right₀ one_le_two (by omega)
    _ = 2 ^ (52 : ℤ) * 2 ^ e := zpow_add₀ two_ne_zero _ _
    _ ≤ m * 2 ^ e := by gcongr

/-- What is left of a magnitude when it is packed is the magnitude itself or, beyond all numbers,
infinity. -/
theorem unpackedValue_repack (h : Normalized m e) (s : Sign) (hpos : 0 < m) :
    (repack (.finite s m e hpos)).isNaN = false ∧
      unpackedValue (repack (.finite s m e hpos)) = signed s (min (m * 2 ^ e) overflow) := by
  rcases le_or_gt e 971 with he | he
  · have hcanonical : Canonical m e := ⟨h, he⟩
    rw [hcanonical.repack, min_eq_left hcanonical.value_lt_overflow.le]
    exact ⟨rfl, rfl⟩
  · rw [repack_of_lt_exponent he, min_eq_right (overflow_le_of_lt_exponent h he)]
    exact ⟨rfl, rfl⟩

theorem roundsTo_signed_min (s : Sign) (hq : Nearby v q) (hnan : x.isNaN = false)
    (hx : value x = signed s (min q overflow)) : RoundsTo (signed s v) x := by
  cases s with
  | positive =>
      refine ⟨hnan, fun hc hrange hle => ?_, fun hc hrange hle => ?_⟩
      · rw [hx]
        exact le_min ((hq _ hc).1 hle) ((le_abs_self _).trans hrange)
      · rw [hx]
        exact (min_le_left _ _).trans ((hq _ hc).2 hle)
  | negative =>
      refine ⟨hnan, fun hc hrange hle => ?_, fun hc hrange hle => ?_⟩
      · rw [hx]
        exact le_neg.1 ((min_le_left _ _).trans ((hq _ hc.neg).2 (le_neg.1 hle)))
      · rw [hx]
        exact neg_le.1 (le_min ((hq _ hc.neg).1 (neg_le.1 hle))
          ((neg_le_abs _).trans hrange))

theorem roundsTo_roundWithAccuracy {a : Accuracy} (s : Sign)
    (h : Truncates v (.ofMantissaAndAccuracy m a) e)
    (he : e ≤ Format.binary64.targetExponent (totalExponent m e))
    (hx : x.toModel.unpack = repack (roundWithAccuracy Format.binary64 s m e a)) :
    RoundsTo (signed s v) x := by
  obtain ⟨q, hq, ⟨rfl, hround⟩ | ⟨n, f, hpos, hnormalized, rfl, hround⟩⟩ :=
    exists_nearby_roundWithAccuracy s h he
  · rw [hround, repack_zero] at hx
    refine roundsTo_signed_min s hq (congrArg UnpackedFloat.isNaN hx) ?_
    rw [value, hx, min_eq_left overflow_pos.le]
    cases s <;> simp [unpackedValue]
  · rw [hround] at hx
    obtain ⟨hnan, hvalue⟩ := unpackedValue_repack hnormalized s hpos
    refine roundsTo_signed_min s hq ((congrArg UnpackedFloat.isNaN hx).trans hnan) ?_
    rw [value, hx, hvalue]

theorem truncates_exact (m : ℕ) (e : ℤ) :
    Truncates (m * 2 ^ e) (.ofMantissaAndAccuracy m .exact) e where
  lower := le_rfl
  upper := mul_lt_mul_of_pos_right (lt_add_one _) (zpow_pos two_pos e)
  exact _ := ⟨rfl, rfl⟩

theorem shiftLeft_mul_zpow (m k : ℕ) (e : ℤ) : ((m <<< k : ℕ) * 2 ^ (e - k) : ℚ) = m * 2 ^ e := by
  rw [Nat.shiftLeft_eq, zpow_sub₀ two_ne_zero, zpow_natCast]
  push_cast
  field_simp

theorem add_le_log2_shiftLeft (hm : 0 < m) (k : ℕ) : m.log2 + k ≤ (m <<< k).log2 := by
  have hshift : 2 ^ (m.log2 + k) ≤ m <<< k := by
    rw [pow_add, Nat.shiftLeft_eq]
    exact Nat.mul_le_mul_right _ (Nat.log2_self_le hm.ne')
  exact (Nat.le_log2 (Nat.two_pow_pos _ |>.trans_le hshift).ne').2 hshift

theorem roundsTo_round (s : Sign) (hm : 0 < m)
    (hx : x.toModel.unpack = repack (round Format.binary64 s m e)) :
    RoundsTo (signed s (m * 2 ^ e)) x := by
  obtain ⟨t, ht⟩ : ∃ t, t = Format.binary64.targetExponent (totalExponent m e) := ⟨_, rfl⟩
  have hround : round Format.binary64 s m e = roundWithAccuracy Format.binary64 s
      (m <<< (e - t).toNat) (e - (e - t).toNat) .exact := by
    rw [ht]
    rfl
  rw [hround] at hx
  have hexact := truncates_exact (m <<< (e - t).toNat) (e - (e - t).toNat)
  rw [shiftLeft_mul_zpow] at hexact
  refine roundsTo_roundWithAccuracy s hexact ?_ hx
  have hlog := add_le_log2_shiftLeft hm (e - t).toNat
  rw [targetExponent_eq] at ht ⊢
  omega

theorem apply_mul_zpow (s : Sign) (k : ℕ) (e : ℤ) :
    ((s.apply k : ℤ) * 2 ^ e : ℚ) = signed s (k * 2 ^ e) := by
  cases s with
  | positive => rw [Sign.apply, Int.cast_natCast]; rfl
  | negative => rw [Sign.apply, Int.cast_neg, Int.cast_natCast, neg_mul]; rfl

theorem roundsTo_normalize {d : ℤ}
    (hx : x.toModel.unpack = repack (UnpackedFloat.normalize Format.binary64 d e .positive)) :
    RoundsTo (d * 2 ^ e) x := by
  rcases lt_trichotomy d 0 with hd | rfl | hd
  · have hvalue : (d * 2 ^ e : ℚ) = signed .negative ((-d).toNat * 2 ^ e) := by
      have hcast : ((-d).toNat : ℚ) = -d := by exact_mod_cast Int.toNat_of_nonneg (by omega)
      rw [hcast, signed_negative, neg_mul, neg_neg]
    rw [UnpackedFloat.normalize, Int.compare_eq_lt.2 hd] at hx
    rw [hvalue]
    exact roundsTo_round .negative (by omega) hx
  · rw [UnpackedFloat.normalize, Int.compare_eq_eq.2 rfl] at hx
    refine roundsTo_of_unpack (hx.trans (repack_zero _)) rfl ?_
    rw [Int.cast_zero, zero_mul]
    rfl
  · have hvalue : (d * 2 ^ e : ℚ) = signed .positive (d.toNat * 2 ^ e) := by
      have hcast : (d.toNat : ℚ) = d := by exact_mod_cast Int.toNat_of_nonneg hd.le
      rw [hcast, signed_positive]
    rw [UnpackedFloat.normalize, Int.compare_eq_gt.2 hd] at hx
    rw [hvalue]
    exact roundsTo_round .positive (by omega) hx

theorem decreaseExponent_mul_zpow {t : ℤ} (h : t ≤ e) :
    ((decreaseExponent m e t).1 * 2 ^ t : ℚ) = m * 2 ^ e := by
  have hexponent : e - (e - t).toNat = t := by omega
  have hshift := shiftLeft_mul_zpow m (e - t).toNat e
  rw [hexponent] at hshift
  exact hshift

theorem Canonical.add_le_target {n : ℕ} {f : ℤ} (hm : Canonical m e) (hn : Canonical n f) :
    e + f ≤ max ((m * n).log2 + (e + f) - 52) (-1074) := by
  have hmn : m * n ≠ 0 := (Nat.mul_pos hm.pos hn.pos).ne'
  rcases hm.normal with hnormal | he
  · have hlog : 52 ≤ (m * n).log2 :=
      (Nat.le_log2 hmn).2 (hnormal.trans (Nat.le_mul_of_pos_right m hn.pos))
    omega
  · rcases hn.normal with hnormal | hf
    · have hlog : 52 ≤ (m * n).log2 :=
        (Nat.le_log2 hmn).2 (hnormal.trans (Nat.le_mul_of_pos_left n hm.pos))
      omega
    · omega

/-- The integer quotient of two significands is their exact quotient cut off. -/
theorem truncates_div {N n : ℕ} (hn : 0 < n) (t : ℤ) :
    Truncates (N / n * 2 ^ t) (.ofMantissaAndAccuracy (N / n) (accuracyOfFraction (N % n) n)) t := by
  have hpow : (0 : ℚ) < 2 ^ t := zpow_pos two_pos t
  have hn' : (0 : ℚ) < n := Nat.cast_pos.2 hn
  refine ⟨?_, ?_, ?_⟩ <;> rw [mantissa_ofMantissaAndAccuracy]
  · exact mul_le_mul_of_nonneg_right Nat.cast_div_le hpow.le
  · refine mul_lt_mul_of_pos_right ?_ hpow
    rw [div_lt_iff₀ hn', mul_comm]
    exact_mod_cast Nat.lt_mul_div_succ N hn
  · intro heq
    have hquotient : (N / n : ℚ) = (N / n : ℕ) := mul_right_cancel₀ hpow.ne' heq
    have hexact : N = N / n * n := by
      rw [div_eq_iff hn'.ne'] at hquotient
      exact_mod_cast hquotient
    have hmod : N % n = 0 := by
      rw [hexact]
      exact Nat.mul_mod_left _ _
    rw [hmod]
    exact ⟨rfl, rfl⟩

/-- The quotient of two significands has enough digits to be rounded. -/
theorem exists_divCore {n : ℕ} (hm : 0 < m) (hn : 0 < n) (e f : ℤ) :
    ∃ (q : ℕ) (g : ℤ) (a : Accuracy), divCore Format.binary64 m e n f = (q, g, a) ∧
      Truncates (m * 2 ^ e / (n * 2 ^ f)) (.ofMantissaAndAccuracy q a) g ∧
      g ≤ Format.binary64.targetExponent (totalExponent q g) := by
  -- `g` is so low that the quotient gets 53 digits, unless the least exponent is reached before
  obtain ⟨g, hg⟩ : ∃ g, g = min (e - f)
      (Format.binary64.targetExponent (totalExponent m e - totalExponent n f)) := ⟨_, rfl⟩
  have hvalue : (m * 2 ^ e / (n * 2 ^ f) : ℚ) = (m <<< (e - f - g).toNat : ℕ) / n * 2 ^ g := by
    have hexponent : e - f - (e - f - g).toNat = g := by omega
    have hshift := shiftLeft_mul_zpow m (e - f - g).toNat (e - f)
    rw [hexponent] at hshift
    rw [div_mul_eq_mul_div, hshift, zpow_sub₀ two_ne_zero]
    field_simp
  refine ⟨m <<< (e - f - g).toNat / n, g, _, ?_, hvalue ▸ truncates_div hn g, ?_⟩
  · rw [hg]
    rfl
  · rw [targetExponent_eq]
    by_cases hleast : g ≤ -1074
    · omega
    · have htarget : g ≤ (m.log2 + 1 + e) - (n.log2 + 1 + f) - 53 := by
        have hmax : Format.binary64.targetExponent (totalExponent m e - totalExponent n f) =
          max ((m.log2 + 1 + e) - (n.log2 + 1 + f) - 53) (-1074) := rfl
        omega
      have hquotient : 2 ^ 52 ≤ m <<< (e - f - g).toNat / n := by
        rw [Nat.le_div_iff_mul_le hn]
        calc 2 ^ 52 * n ≤ 2 ^ 52 * 2 ^ (n.log2 + 1) :=
              Nat.mul_le_mul_left _ Nat.lt_log2_self.le
          _ = 2 ^ (52 + (n.log2 + 1)) := (pow_add ..).symm
          _ ≤ 2 ^ (m.log2 + (e - f - g).toNat) := Nat.pow_le_pow_right two_pos (by omega)
          _ = 2 ^ m.log2 * 2 ^ (e - f - g).toNat := pow_add ..
          _ ≤ m * 2 ^ (e - f - g).toNat := Nat.mul_le_mul_right _ (Nat.log2_self_le hm.ne')
          _ = m <<< (e - f - g).toNat := (Nat.shiftLeft_eq ..).symm
      have hlog := (Nat.le_log2 (Nat.two_pow_pos 52 |>.trans_le hquotient).ne').2 hquotient
      omega

end Results

namespace Proper

variable {u : UnpackedFloat}

theorem isNaN (h : Proper u) : u.isNaN = false := by
  cases u with
  | notANumber => exact h.elim
  | _ => rfl

/-- What a pattern stands for survives packing. -/
theorem repack (h : Proper u) : repack u = u := by
  cases u with
  | notANumber => exact h.elim
  | infinity s => exact repack_infinity s
  | zero s => exact repack_zero s
  | finite s m e hm => exact Canonical.repack h s hm

theorem abs (h : Proper u) : Proper u.abs := by
  cases u with
  | notANumber => exact h.elim
  | infinity s => trivial
  | zero s => trivial
  | finite s m e hm => exact h

theorem neg (h : Proper u) : Proper u.neg := by
  cases u with
  | notANumber => exact h.elim
  | infinity s => trivial
  | zero s => trivial
  | finite s m e hm => exact h

theorem unpackedValue_abs (h : Proper u) : unpackedValue u.abs = |unpackedValue u| := by
  cases u with
  | notANumber => exact h.elim
  | infinity s => exact (abs_signed s _ |>.trans (abs_of_pos overflow_pos)).symm
  | zero s => exact abs_zero.symm
  | finite s m e hm => exact (abs_signed s _ |>.trans (abs_of_pos (Canonical.value_pos h))).symm

end Proper

theorem unpackedValue_neg (u : UnpackedFloat) : unpackedValue u.neg = -unpackedValue u := by
  cases u with
  | notANumber => exact neg_zero.symm
  | infinity s => exact signed_neg s _
  | zero s => exact neg_zero.symm
  | finite s m e hm => exact signed_neg s _

/-- To add a number is to take its negative away. -/
theorem add_eq_sub_neg (spec : Format) (u v : UnpackedFloat) :
    UnpackedFloat.add spec u v = UnpackedFloat.sub spec u v.neg := by
  have hneg (t : Sign) : - -t = t := by cases t <;> rfl
  have happly (t : Sign) (k : ℤ) : (-t).apply k = -t.apply k := by
    cases t
    · exact (neg_neg k).symm
    · rfl
  cases u <;> cases v <;>
    simp only [UnpackedFloat.add, UnpackedFloat.sub, UnpackedFloat.neg, hneg, happly,
      sub_neg_eq_add]

/-! ### Operations -/

section Operations

variable {x y : Float}

theorem isNaN_of_isFinite (h : x.isFinite = true) : x.isNaN = false := by
  change x.toModel.unpack.isFinite = true at h
  change x.toModel.unpack.isNaN = false
  cases hx : x.toModel.unpack with
  | notANumber => rw [hx] at h; cases h
  | _ => rfl

theorem unpack_of_isFinite (h : x.isFinite = true) :
    (∃ s, x.toModel.unpack = .zero s) ∨
      ∃ (s : Sign) (m : ℕ) (e : ℤ) (hm : 0 < m), x.toModel.unpack = .finite s m e hm ∧
        Canonical m e := by
  have hproper := proper_unpack (isNaN_of_isFinite h)
  change x.toModel.unpack.isFinite = true at h
  cases hx : x.toModel.unpack with
  | notANumber => rw [hx] at h; cases h
  | infinity s => rw [hx] at h; cases h
  | zero s => exact .inl ⟨s, rfl⟩
  | finite s m e hm =>
      rw [hx] at hproper
      exact .inr ⟨s, m, e, hm, rfl, hproper⟩

theorem isFinite_of_abs_value_lt (h : x.isNaN = false) (hx : |value x| < overflow) :
    x.isFinite = true := by
  have hproper := proper_unpack h
  rw [value] at hx
  change x.toModel.unpack.isFinite = true
  cases hunpack : x.toModel.unpack with
  | notANumber => rw [hunpack] at hproper; exact hproper.elim
  | infinity s =>
      rw [hunpack, unpackedValue, abs_signed, abs_of_pos overflow_pos] at hx
      exact absurd hx (lt_irrefl _)
  | zero s => rfl
  | finite s m e hm => rfl

theorem unpack_mul (x y : Float) : (x * y).toModel.unpack =
    repack (mul Format.binary64 x.toModel.unpack y.toModel.unpack) := rfl

theorem unpack_sub (x y : Float) : (x - y).toModel.unpack =
    repack (sub Format.binary64 x.toModel.unpack y.toModel.unpack) := rfl

theorem unpack_div (x y : Float) : (x / y).toModel.unpack =
    repack (div Format.binary64 x.toModel.unpack y.toModel.unpack) := rfl

/-- A product is rounded from the exact one. -/
theorem roundsTo_mul (hx : x.isFinite = true) (hy : y.isFinite = true) :
    RoundsTo (value x * value y) (x * y) := by
  have hxy := unpack_mul x y
  rcases unpack_of_isFinite hx with ⟨s, hx⟩ | ⟨s, m, e, hm, hx, hcm⟩
  · have hzero : value x * value y = 0 := by rw [value, hx, unpackedValue, zero_mul]
    rcases unpack_of_isFinite hy with ⟨t, hy⟩ | ⟨t, n, f, hn, hy, -⟩
    · rw [hx, hy, mul, repack_zero] at hxy
      exact roundsTo_of_unpack hxy rfl hzero.symm
    · rw [hx, hy, mul, repack_zero] at hxy
      exact roundsTo_of_unpack hxy rfl hzero.symm
  · rcases unpack_of_isFinite hy with ⟨t, hy⟩ | ⟨t, n, f, hn, hy, hcn⟩
    · have hzero : value x * value y = 0 := by rw [value, value, hy, unpackedValue, mul_zero]
      rw [hx, hy, mul, repack_zero] at hxy
      exact roundsTo_of_unpack hxy rfl hzero.symm
    · have hvalue : value x * value y =
          signed (s * t) (((m * n : ℕ) : ℚ) * 2 ^ (e + f)) := by
        rw [value, value, hx, hy, unpackedValue, unpackedValue, ← signed_mul,
          zpow_add₀ two_ne_zero]
        push_cast
        ring_nf
      rw [hx, hy, mul] at hxy
      rw [hvalue]
      refine roundsTo_roundWithAccuracy _ (truncates_exact _ _) ?_ hxy
      rw [targetExponent_eq]
      exact hcm.add_le_target hcn

theorem unpack_abs (h : x.isNaN = false) : x.abs.toModel.unpack = abs x.toModel.unpack :=
  (proper_unpack h).abs.repack

theorem isNaN_abs (h : x.isNaN = false) : x.abs.isNaN = false := by
  change x.abs.toModel.unpack.isNaN = false
  rw [unpack_abs h]
  exact (proper_unpack h).abs.isNaN

theorem value_abs (h : x.isNaN = false) : value x.abs = |value x| := by
  rw [value, value, unpack_abs h, (proper_unpack h).unpackedValue_abs]

theorem RoundsTo.nonneg {v : ℚ} (h : RoundsTo v x) (hv : 0 ≤ v) : 0 ≤ value x :=
  h.le_value representable_zero (abs_zero.trans_le overflow_pos.le) hv

theorem RoundsTo.nonpos {v : ℚ} (h : RoundsTo v x) (hv : v ≤ 0) : value x ≤ 0 :=
  h.value_le representable_zero (abs_zero.trans_le overflow_pos.le) hv

/-- The magnitude of a rounded result is the magnitude, rounded. -/
theorem RoundsTo.abs {v : ℚ} (h : RoundsTo v x) : RoundsTo |v| x.abs := by
  refine ⟨isNaN_abs h.isNaN, fun {c} hc hrange hle => ?_, fun {c} hc hrange hle => ?_⟩
  · rw [value_abs h.isNaN]
    rcases le_total 0 v with hv | hv
    · rw [abs_of_nonneg hv] at hle
      exact (h.le_value hc hrange hle).trans (le_abs_self _)
    · rw [abs_of_nonpos hv, le_neg] at hle
      rw [← abs_neg] at hrange
      exact (le_neg.1 (h.value_le hc.neg hrange hle)).trans (neg_le_abs _)
  · rw [value_abs h.isNaN]
    rcases le_total 0 v with hv | hv
    · rw [abs_of_nonneg hv] at hle
      rw [abs_of_nonneg (h.nonneg hv)]
      exact h.value_le hc hrange hle
    · rw [abs_of_nonpos hv, neg_le] at hle
      rw [← abs_neg] at hrange
      rw [abs_of_nonpos (h.nonpos hv)]
      exact neg_le.1 (h.le_value hc.neg hrange hle)

/-- A difference is rounded from the exact one. -/
theorem roundsTo_sub (hx : x.isFinite = true) (hy : y.isFinite = true) :
    RoundsTo (value x - value y) (x - y) := by
  have hxy := unpack_sub x y
  rcases unpack_of_isFinite hx with ⟨s, hx⟩ | ⟨s, m, e, hm, hx, hcm⟩
  · rcases unpack_of_isFinite hy with ⟨t, hy⟩ | ⟨t, n, f, hn, hy, hcn⟩
    · have hzero : value x - value y = 0 := by
        rw [value, value, hx, hy, unpackedValue, unpackedValue, sub_zero]
      rw [hzero]
      rw [hx, hy, UnpackedFloat.sub] at hxy
      split at hxy <;> rw [repack_zero] at hxy <;> exact roundsTo_of_unpack hxy rfl rfl
    · rw [hx, hy, UnpackedFloat.sub, hcn.repack] at hxy
      refine roundsTo_of_unpack hxy rfl ?_
      rw [value, value, hx, hy, unpackedValue, unpackedValue, unpackedValue, signed_neg, zero_sub]
  · rcases unpack_of_isFinite hy with ⟨t, hy⟩ | ⟨t, n, f, hn, hy, hcn⟩
    · have hsub : UnpackedFloat.sub Format.binary64 (.finite s m e hm) (.zero t) =
          .finite s m e hm := rfl
      rw [hx, hy, hsub, hcm.repack] at hxy
      refine roundsTo_of_unpack hxy rfl ?_
      rw [value, value, hx, hy, unpackedValue, unpackedValue, sub_zero]
    · have hvalue : value x - value y =
          ((s.apply (decreaseExponent m e (min e f)).1 -
            t.apply (decreaseExponent n f (min e f)).1 : ℤ) : ℚ) * 2 ^ min e f := by
        rw [value, value, hx, hy, unpackedValue, unpackedValue, Int.cast_sub, sub_mul,
          apply_mul_zpow, apply_mul_zpow, decreaseExponent_mul_zpow (min_le_left e f),
          decreaseExponent_mul_zpow (min_le_right e f)]
      rw [hx, hy, UnpackedFloat.sub] at hxy
      rw [hvalue]
      exact roundsTo_normalize hxy

theorem unpack_neg (h : x.isNaN = false) : (-x).toModel.unpack = x.toModel.unpack.neg :=
  (proper_unpack h).neg.repack

theorem isFinite_neg (h : x.isFinite = true) : (-x).isFinite = true := by
  have hneg := unpack_neg (isNaN_of_isFinite h)
  change (-x).toModel.unpack.isFinite = true
  rcases unpack_of_isFinite h with ⟨s, hx⟩ | ⟨s, m, e, hm, hx, -⟩ <;> rw [hneg, hx] <;> rfl

theorem value_neg (h : x.isNaN = false) : value (-x) = -value x := by
  rw [value, unpack_neg h, unpackedValue_neg, value]

theorem add_eq_sub (x : Float) (h : y.isNaN = false) : x + y = x - -y := by
  have hadd : x + y = ⟨.pack (.add Format.binary64 x.toModel.unpack y.toModel.unpack)⟩ := rfl
  rw [hadd, add_eq_sub_neg, ← unpack_neg h]
  rfl

/-- A sum is rounded from the exact one. -/
theorem roundsTo_add (hx : x.isFinite = true) (hy : y.isFinite = true) :
    RoundsTo (value x + value y) (x + y) := by
  have hnan := isNaN_of_isFinite hy
  have hsub := roundsTo_sub hx (isFinite_neg hy)
  rwa [value_neg hnan, sub_neg_eq_add, ← add_eq_sub x hnan] at hsub

/-- A quotient is rounded from the exact one. -/
theorem roundsTo_div (hx : x.isFinite = true) (hy : y.isFinite = true) (hzero : value y ≠ 0) :
    RoundsTo (value x / value y) (x / y) := by
  have hxy := unpack_div x y
  rcases unpack_of_isFinite hy with ⟨t, hy⟩ | ⟨t, n, f, hn, hy, -⟩
  · exact absurd (by rw [value, hy, unpackedValue]) hzero
  · rcases unpack_of_isFinite hx with ⟨s, hx⟩ | ⟨s, m, e, hm, hx, -⟩
    · rw [hx, hy, UnpackedFloat.div, repack_zero] at hxy
      refine roundsTo_of_unpack hxy rfl ?_
      rw [value, hx, unpackedValue, unpackedValue, zero_div]
    · obtain ⟨q, g, a, hcore, htruncates, hg⟩ := exists_divCore hm hn e f
      have hvalue : value x / value y = signed (s / t) (m * 2 ^ e / (n * 2 ^ f)) := by
        rw [value, value, hx, hy, unpackedValue, unpackedValue, signed_div]
      rw [hx, hy, UnpackedFloat.div, hcore] at hxy
      rw [hvalue]
      exact roundsTo_roundWithAccuracy _ htruncates hg hxy

end Operations

/-! ### Infinities -/

section Infinities

variable {x : Float}

theorem value_infinity : value (ofMagnitude false infinity) = overflow := rfl

theorem value_neg_infinity : value (ofMagnitude true infinity) = -overflow := rfl

theorem abs_value_lt (h : x.isFinite = true) : |value x| < overflow := by
  rw [value]
  rcases unpack_of_isFinite h with ⟨s, hx⟩ | ⟨s, m, e, hm, hx, hcanonical⟩
  · rw [hx, unpackedValue, abs_zero]
    exact overflow_pos
  · rw [hx, unpackedValue, abs_signed, abs_of_pos hcanonical.value_pos]
    exact hcanonical.value_lt_overflow

theorem representable_value (h : x.isFinite = true) : Representable (value x) := by
  rw [value]
  rcases unpack_of_isFinite h with ⟨s, hx⟩ | ⟨s, m, e, hm, hx, hcanonical⟩
  · rw [hx]
    exact representable_zero
  · have hm : |(m : ℤ)| < 2 ^ 53 := by
      rw [Nat.abs_cast]
      exact_mod_cast hcanonical.lt
    have hmagnitude : Representable (m * 2 ^ e) := ⟨m, e, hm, hcanonical.le_exponent, rfl⟩
    rw [hx, unpackedValue]
    cases s
    · exact hmagnitude.neg
    · exact hmagnitude

/-- There are only two numbers beyond the finite ones. -/
theorem eq_infinity_of_not_isFinite (h : x.isNaN = false) (hx : x.isFinite = false) :
    x = ofMagnitude (isNegative x) infinity := by
  have hinf : x.isInf = true := by
    change x.toModel.unpack.isNaN = false at h
    change x.toModel.unpack.isFinite = false at hx
    change x.toModel.unpack.isInf = true
    cases hu : x.toModel.unpack with
    | infinity s => rfl
    | notANumber => rw [hu] at h; cases h
    | _ => rw [hu] at hx; cases hx
  rw [← magnitude_eq_infinity hinf, ofMagnitude_magnitude]

theorem not_isFinite_of_overflow_le_abs (h : overflow ≤ |value x|) : x.isFinite = false :=
  Bool.eq_false_iff.2 fun hfinite => (abs_value_lt hfinite).not_ge h

theorem eq_infinity_of_overflow_le (h : x.isNaN = false) (hx : overflow ≤ value x) :
    x = ofMagnitude false infinity := by
  have heq := eq_infinity_of_not_isFinite h
    (not_isFinite_of_overflow_le_abs (hx.trans (le_abs_self _)))
  cases hnegative : isNegative x with
  | false => rwa [hnegative] at heq
  | true =>
      rw [hnegative] at heq
      rw [heq, value_neg_infinity] at hx
      exact absurd (hx.trans (neg_neg_of_pos overflow_pos).le) overflow_pos.not_ge

theorem eq_neg_infinity_of_le (h : x.isNaN = false) (hx : value x ≤ -overflow) :
    x = ofMagnitude true infinity := by
  have heq := eq_infinity_of_not_isFinite h
    (not_isFinite_of_overflow_le_abs ((le_neg.1 hx).trans (neg_le_abs _)))
  cases hnegative : isNegative x with
  | true => rwa [hnegative] at heq
  | false =>
      rw [hnegative] at heq
      rw [heq, value_infinity] at hx
      exact absurd (hx.trans (neg_neg_of_pos overflow_pos).le) overflow_pos.not_ge

/-- An infinity has its value to itself. -/
theorem eq_of_value_eq_of_not_isFinite {y : Float} (hx : x.isNaN = false) (hy : y.isNaN = false)
    (hinfinite : x.isFinite = false) (hvalue : value y = value x) : y = x := by
  have heq := eq_infinity_of_not_isFinite hx hinfinite
  cases hnegative : isNegative x with
  | true =>
      rw [hnegative] at heq
      rw [heq, value_neg_infinity] at hvalue
      rw [heq, eq_neg_infinity_of_le hy hvalue.le]
  | false =>
      rw [hnegative] at heq
      rw [heq, value_infinity] at hvalue
      rw [heq, eq_infinity_of_overflow_le hy hvalue.ge]

end Infinities

end Binary64

end DisplayList
