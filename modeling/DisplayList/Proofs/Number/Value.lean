import DisplayList.Proofs.Number.Pattern

/-!
# The exact value of a number

`value` is the rational number that a double stands for. An infinity is given the least power of
two beyond the finite numbers, which keeps it on its side of all of them, and what is not a number
has no value to speak of. Numbers compare as their values do: `le_iff_value_le`,
`lt_iff_value_lt` and `beq_iff_value_eq`.
-/

namespace DisplayList

namespace Binary64

open Float.Model (Format UnpackedFloat)
open Float.Model.UnpackedFloat

/-- An amount on the side of zero that a sign tells. -/
def signed : Sign → ℚ → ℚ
  | .positive, q => q
  | .negative, q => -q

@[simp] theorem signed_positive (q : ℚ) : signed .positive q = q := rfl

@[simp] theorem signed_negative (q : ℚ) : signed .negative q = -q := rfl

/-- The least power of two beyond the finite numbers. -/
def overflow : ℚ := 2 ^ (1024 : ℤ)

theorem overflow_pos : 0 < overflow := zpow_pos two_pos _

/-- What an unpacked number stands for. -/
def unpackedValue : UnpackedFloat → ℚ
  | .notANumber => 0
  | .zero _ => 0
  | .infinity s => signed s overflow
  | .finite s m e _ => signed s (m * 2 ^ e)

/-- What a number stands for. -/
def value (x : Float) : ℚ := unpackedValue x.toModel.unpack

/-- A significand of 53 binary digits, the first of which is zero only at the least exponent. -/
structure Normalized (m : ℕ) (e : ℤ) : Prop where
  pos : 0 < m
  lt : m < 2 ^ 53
  le_exponent : -1074 ≤ e
  normal : 2 ^ 52 ≤ m ∨ e = -1074

/-- A significand and an exponent as finite numbers have them. -/
structure Canonical (m : ℕ) (e : ℤ) : Prop extends Normalized m e where
  exponent_le : e ≤ 971

/-- An unpacked number that a pattern stands for. -/
def Proper : UnpackedFloat → Prop
  | .notANumber => False
  | .finite _ m e _ => Canonical m e
  | _ => True

namespace Canonical

variable {m n : ℕ} {e f : ℤ}

theorem value_pos (h : Canonical m e) : 0 < (m * 2 ^ e : ℚ) :=
  mul_pos (Nat.cast_pos.2 h.pos) (zpow_pos two_pos e)

theorem value_lt_of_exponent_lt (hm : Canonical m e) (hn : Canonical n f) (h : e < f) :
    (m * 2 ^ e : ℚ) < n * 2 ^ f := by
  have hlow : (m : ℚ) < 2 ^ (53 : ℤ) := by exact_mod_cast hm.lt
  have hhigh : (2 : ℚ) ^ (52 : ℤ) ≤ n := by
    have := hn.normal.resolve_right (by have := hm.le_exponent; omega)
    exact_mod_cast this
  calc (m * 2 ^ e : ℚ) < 2 ^ (53 : ℤ) * 2 ^ e := by gcongr
    _ = 2 ^ (53 + e) := (zpow_add₀ two_ne_zero _ _).symm
    _ ≤ 2 ^ (52 + f) := zpow_le_zpow_right₀ one_le_two (by omega)
    _ = 2 ^ (52 : ℤ) * 2 ^ f := zpow_add₀ two_ne_zero _ _
    _ ≤ n * 2 ^ f := by gcongr

theorem value_lt_overflow (h : Canonical m e) : (m * 2 ^ e : ℚ) < overflow := by
  have hm : (m : ℚ) < 2 ^ (53 : ℤ) := by exact_mod_cast h.lt
  calc (m * 2 ^ e : ℚ) < 2 ^ (53 : ℤ) * 2 ^ e := by gcongr
    _ = 2 ^ (53 + e) := (zpow_add₀ two_ne_zero _ _).symm
    _ ≤ overflow := zpow_le_zpow_right₀ one_le_two (by have := h.exponent_le; omega)

theorem signed_bounds (h : Canonical m e) (s : Sign) :
    -overflow < signed s (m * 2 ^ e) ∧ signed s (m * 2 ^ e) < overflow := by
  have hlow := h.value_pos
  have hhigh := h.value_lt_overflow
  cases s
  · exact ⟨neg_lt_neg hhigh, (neg_lt_zero.2 hlow).trans overflow_pos⟩
  · exact ⟨(neg_lt_zero.2 overflow_pos).trans hlow, hhigh⟩

/-- Canonical magnitudes compare by their exponents first and their significands then. -/
theorem compare_eq (hm : Canonical m e) (hn : Canonical n f) :
    (compare e f).then (compare m n) = cmp (m * 2 ^ e : ℚ) (n * 2 ^ f) := by
  rcases lt_trichotomy e f with h | rfl | h
  · rw [Int.compare_eq_lt.2 h, (cmp_eq_lt_iff _ _).2 (hm.value_lt_of_exponent_lt hn h)]
    rfl
  · have hpow : (0 : ℚ) < 2 ^ e := zpow_pos two_pos e
    rw [Int.compare_eq_eq.2 rfl, cmp_mul_pos_right hpow]
    rcases lt_trichotomy m n with h | rfl | h
    · rw [Nat.compare_eq_lt.2 h, (cmp_eq_lt_iff _ _).2 (Nat.cast_lt.2 h)]
      rfl
    · rw [Nat.compare_eq_eq.2 rfl, cmp_self_eq_eq]
      rfl
    · rw [Nat.compare_eq_gt.2 h, (cmp_eq_gt_iff _ _).2 (Nat.cast_lt.2 h)]
      rfl
  · rw [Int.compare_eq_gt.2 h, (cmp_eq_gt_iff _ _).2 (hn.value_lt_of_exponent_lt hm h)]
    rfl

end Canonical

theorem canonical_of_unpack {b : BitVec Format.binary64.numBits} {s : Sign} {m : ℕ} {e : ℤ}
    {hpos : 0 < m} (h : unpack Format.binary64 b = .finite s m e hpos) : Canonical m e := by
  have hmant : (unpackMantissa b).toNat < 2 ^ 52 := (unpackMantissa b).isLt
  have hexp : (unpackExponent b).toNat < 2 ^ 11 := (unpackExponent b).isLt
  rw [unpack] at h
  split at h
  · split at h <;> cases h
  · next hmax =>
    have hmax' : (unpackExponent b).toNat ≠ 2047 := fun heq => hmax (BitVec.eq_of_toNat_eq heq)
    split at h
    · next hzero =>
      split at h
      · cases h
      · cases h
        rw [hzero]
        exact ⟨⟨hpos, by omega, by decide, .inr (by decide)⟩, by decide⟩
    · next hzero =>
      have hzero' : (unpackExponent b).toNat ≠ 0 := fun heq => hzero (BitVec.eq_of_toNat_eq heq)
      cases h
      have hhidden := toNat_hidden_append (unpackMantissa b)
      refine ⟨⟨hpos, ?_, ?_, .inl ?_⟩, ?_⟩
      · omega
      · change -1074 ≤ ((unpackExponent b).toNat : ℤ) - (1023 + 52)
        omega
      · omega
      · change ((unpackExponent b).toNat : ℤ) - (1023 + 52) ≤ 971
        omega

theorem proper_unpack {x : Float} (h : x.isNaN = false) : Proper x.toModel.unpack := by
  have hnan : (unpack Format.binary64 x.toModel.toBits.toBitVec).isNaN = false := h
  change Proper (unpack Format.binary64 x.toModel.toBits.toBitVec)
  cases hunpack : unpack Format.binary64 x.toModel.toBits.toBitVec with
  | notANumber => rw [hunpack] at hnan; cases hnan
  | zero s => trivial
  | infinity s => trivial
  | finite s m e hpos => exact canonical_of_unpack hunpack

/-- Proper numbers compare as what they stand for. -/
theorem compare_eq_cmp {a b : UnpackedFloat} (ha : Proper a) (hb : Proper b) :
    a.compare b = some (cmp (unpackedValue a) (unpackedValue b)) := by
  have hpos := overflow_pos
  have hneg : -overflow < 0 := neg_lt_zero.2 hpos
  cases a with
  | notANumber => exact ha.elim
  | infinity s =>
      cases b with
      | notANumber => exact hb.elim
      | infinity t =>
          have hlt : -overflow < overflow := hneg.trans hpos
          cases s <;> cases t <;>
            simp [UnpackedFloat.compare, unpackedValue, hlt.cmp_eq_lt, hlt.cmp_eq_gt] <;> rfl
      | zero t =>
          cases s <;> simp [UnpackedFloat.compare, unpackedValue, hneg.cmp_eq_lt,
            hpos.cmp_eq_gt]
      | finite t n f hn =>
          obtain ⟨hlow, hhigh⟩ := hb.signed_bounds t
          cases s <;> simp [UnpackedFloat.compare, unpackedValue, hlow.cmp_eq_lt,
            hhigh.cmp_eq_gt]
  | zero s =>
      cases b with
      | notANumber => exact hb.elim
      | infinity t =>
          cases t <;> simp [UnpackedFloat.compare, unpackedValue, hneg.cmp_eq_gt,
            hpos.cmp_eq_lt]
      | zero t => simp [UnpackedFloat.compare, unpackedValue]
      | finite t n f hn =>
          have hn : (0 : ℚ) < n * 2 ^ f := hb.value_pos
          have hn' : -(n * 2 ^ f : ℚ) < 0 := neg_lt_zero.2 hn
          cases t <;> simp [UnpackedFloat.compare, unpackedValue, hn.cmp_eq_lt,
            hn'.cmp_eq_gt]
  | finite s m e hm =>
      have hm : (0 : ℚ) < m * 2 ^ e := ha.value_pos
      have hm' : -(m * 2 ^ e : ℚ) < 0 := neg_lt_zero.2 hm
      cases b with
      | notANumber => exact hb.elim
      | infinity t =>
          obtain ⟨hlow, hhigh⟩ := ha.signed_bounds s
          cases t <;> simp [UnpackedFloat.compare, unpackedValue, hlow.cmp_eq_gt,
            hhigh.cmp_eq_lt]
      | zero t =>
          cases s <;> simp [UnpackedFloat.compare, unpackedValue, hm.cmp_eq_gt,
            hm'.cmp_eq_lt]
      | finite t n f hn =>
          have hn : (0 : ℚ) < n * 2 ^ f := hb.value_pos
          have hn' : -(n * 2 ^ f : ℚ) < 0 := neg_lt_zero.2 hn
          have hcompare := ha.compare_eq hb
          cases s <;> cases t
          · have hneg : cmp (-(m * 2 ^ e) : ℚ) (-(n * 2 ^ f)) =
                cmp (n * 2 ^ f : ℚ) (m * 2 ^ e) :=
              StrictAnti.cmp_map_eq (fun _ _ => neg_lt_neg) _ _
            simp [UnpackedFloat.compare, unpackedValue, hcompare, cmp_swap, hneg]
          · simp [UnpackedFloat.compare, unpackedValue, (hm'.trans hn).cmp_eq_lt]
          · simp [UnpackedFloat.compare, unpackedValue, (hn'.trans hm).cmp_eq_gt]
          · simp [UnpackedFloat.compare, unpackedValue, hcompare]

section Compare

variable {x y : Float}

theorem compare_unpack (hx : x.isNaN = false) (hy : y.isNaN = false) :
    x.toModel.unpack.compare y.toModel.unpack = some (cmp (value x) (value y)) :=
  compare_eq_cmp (proper_unpack hx) (proper_unpack hy)

theorem lt_iff_value_lt (hx : x.isNaN = false) (hy : y.isNaN = false) :
    x < y ↔ value x < value y := by
  have h := compare_unpack hx hy
  rw [← cmp_eq_lt_iff]
  change decide ((x.toModel.unpack.compare y.toModel.unpack == some .lt) = true) = true ↔ _
  rw [h]
  simp

theorem le_iff_value_le (hx : x.isNaN = false) (hy : y.isNaN = false) :
    x ≤ y ↔ value x ≤ value y := by
  have h := compare_unpack hx hy
  rw [← not_lt, ← cmp_eq_gt_iff]
  change decide ((x.toModel.unpack.compare y.toModel.unpack).any (·.isLE) = true) = true ↔ _
  rw [h]
  cases cmp (value x) (value y) <;> simp

theorem beq_iff_value_eq (hx : x.isNaN = false) (hy : y.isNaN = false) :
    (x == y) = true ↔ value x = value y := by
  have h := compare_unpack hx hy
  rw [← cmp_eq_eq_iff (value x)]
  change (x.toModel.unpack.compare y.toModel.unpack == some .eq) = true ↔ _
  rw [h]
  simp

/-- What is not a number does not compare with anything. -/
theorem isNaN_of_compare {u v : UnpackedFloat} {order : Ordering}
    (h : u.compare v = some order) : u.isNaN = false ∧ v.isNaN = false := by
  cases u <;> cases v <;> simp_all [UnpackedFloat.compare, UnpackedFloat.isNaN]

theorem isNaN_of_lt (h : x < y) : x.isNaN = false ∧ y.isNaN = false := by
  change decide ((x.toModel.unpack.compare y.toModel.unpack == some .lt) = true) = true at h
  exact isNaN_of_compare (eq_of_beq (of_decide_eq_true h))

theorem isNaN_of_beq (h : (x == y) = true) : x.isNaN = false ∧ y.isNaN = false := by
  change (x.toModel.unpack.compare y.toModel.unpack == some .eq) = true at h
  exact isNaN_of_compare (eq_of_beq h)

theorem not_le_of_lt (h : x < y) : ¬ y ≤ x := by
  obtain ⟨hx, hy⟩ := isNaN_of_lt h
  rw [le_iff_value_le hy hx, not_le]
  exact (lt_iff_value_lt hx hy).1 h

end Compare

end Binary64

end DisplayList
