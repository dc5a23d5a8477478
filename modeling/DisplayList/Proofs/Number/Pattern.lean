import DisplayList.Number.Binary64
import Mathlib

/-!
# Numbers and their patterns

A number in double precision is the same thing as its sign and its magnitude:
`ofMagnitude_magnitude`. The magnitude alone tells the kind of the number, which lies in the order
of the patterns: finite numbers come first, then infinity, and then what is not a number, of which
there is a single one.
-/

namespace DisplayList

namespace Binary64

open Float.Model (Format)
open Float.Model.UnpackedFloat

section Fields

variable (b : BitVec Format.binary64.numBits)

theorem toNat_unpackMantissa : (unpackMantissa b).toNat = b.toNat % 0x10000000000000 := by
  simp [unpackMantissa, BitVec.extractLsb, BitVec.extractLsb']

theorem toNat_unpackExponent :
    (unpackExponent b).toNat = b.toNat / 0x10000000000000 % 0x800 := by
  simp [unpackExponent, BitVec.extractLsb, BitVec.extractLsb', Nat.shiftRight_eq_div_pow]

theorem toNat_unpackSign :
    (unpackSign b).toNat = b.toNat / 0x8000000000000000 := by
  have hb : b.toNat < 2 ^ 64 := b.isLt
  simp [unpackSign, BitVec.extractLsb, BitVec.extractLsb', Nat.shiftRight_eq_div_pow]
  omega

theorem toNat_packComponents (s : Sign) (e : BitVec Format.binary64.exponentBits)
    (m : BitVec Format.binary64.mantissaBitsWithoutImplicit) :
    (packComponents Format.binary64 s e m).toNat =
      s.toBitVec.toNat * 0x8000000000000000 + e.toNat * 0x10000000000000 + m.toNat := by
  have he : e.toNat < 2 ^ 11 := e.isLt
  have hm : m.toNat < 2 ^ 52 := m.isLt
  rw [packComponents, BitVec.toNat_append, BitVec.toNat_append, ← Nat.shiftLeft_add_eq_or_of_lt he,
    ← Nat.shiftLeft_add_eq_or_of_lt hm, Nat.shiftLeft_eq, Nat.shiftLeft_eq]
  omega

theorem toBitVec_ofBitVec (v : BitVec 1) : (Sign.ofBitVec v).toBitVec = v := by
  revert v; decide

theorem packComponents_unpack :
    packComponents Format.binary64 (Sign.ofBitVec (unpackSign b)) (unpackExponent b)
      (unpackMantissa b) = b := by
  have hb : b.toNat < 2 ^ 64 := b.isLt
  apply BitVec.eq_of_toNat_eq
  rw [toNat_packComponents, toBitVec_ofBitVec, toNat_unpackSign, toNat_unpackExponent,
    toNat_unpackMantissa]
  omega

theorem toNat_hidden_append (m : BitVec 52) : (1#1 ++ m).toNat = 0x10000000000000 + m.toNat := by
  have hm : m.toNat < 2 ^ 52 := m.isLt
  rw [BitVec.toNat_append, ← Nat.shiftLeft_add_eq_or_of_lt hm, Nat.shiftLeft_eq]
  rfl

end Fields

theorem pack_normal (s : Sign) {e : BitVec 11} (m : BitVec 52) (hpos : 0 < (1#1 ++ m).toNat)
    (he : e.toNat ≠ 2047) :
    pack Format.binary64 (.finite s (1#1 ++ m).toNat ((e.toNat : Int) - (1023 + 52)) hpos) =
      packComponents Format.binary64 s e m := by
  have hm : m.toNat < 2 ^ 52 := m.isLt
  have he' : e.toNat < 2 ^ 11 := e.isLt
  have hlog : (1#1 ++ m).toNat.log2 = 52 := by
    rw [Nat.log2_eq_iff (Nat.ne_of_gt hpos), toNat_hidden_append]
    omega
  have hbiased : ((e.toNat : Int) - (1023 + 52) + 1023 + 52).toNat = e.toNat := by omega
  have hmant : BitVec.ofNat 52 (1#1 ++ m).toNat = m := by
    apply BitVec.eq_of_toNat_eq
    rw [BitVec.toNat_ofNat, toNat_hidden_append]
    omega
  change (if 2048 ≤ ((e.toNat : Int) - (1023 + 52) + 1023 + 52).toNat + 1 then _ else
    if (1#1 ++ m).toNat.log2 + 1 = 53 then packComponents Format.binary64 s
      (BitVec.ofNat 11 ((e.toNat : Int) - (1023 + 52) + 1023 + 52).toNat)
      (BitVec.ofNat 52 (1#1 ++ m).toNat) else _) = _
  rw [hbiased, if_neg (by omega), if_pos (by omega), hmant, BitVec.ofNat_toNat,
    BitVec.setWidth_eq]

theorem pack_subnormal (s : Sign) (m : BitVec 52) (hpos : 0 < m.toNat) :
    pack Format.binary64 (.finite s m.toNat (((0#11).toNat : Int) - (1023 + 52) + 1) hpos) =
      packComponents Format.binary64 s 0#11 m := by
  have hlog : m.toNat.log2 < 52 := (Nat.log2_lt (Nat.ne_of_gt hpos)).2 m.isLt
  change (if 2048 ≤ 2 then packedInfinity Format.binary64 s else
    if m.toNat.log2 + 1 = 53 then packComponents Format.binary64 s 1#11
      (BitVec.ofNat 52 m.toNat) else
    packComponents Format.binary64 s 0#11 (BitVec.ofNat 52 m.toNat)) = _
  rw [if_neg (by omega), if_neg (by omega), BitVec.ofNat_toNat, BitVec.setWidth_eq]

theorem pack_unpack (b : BitVec Format.binary64.numBits) (h : Format.binary64.Valid b) :
    pack Format.binary64 (unpack Format.binary64 b) = b := by
  have hb := packComponents_unpack b
  rw [unpack]
  split
  · next hexp =>
    split
    · next hmant =>
      rw [hexp, hmant] at hb
      exact hb
    · next hmant => exact (h.eq_packedNaN hexp hmant).symm
  · next hmax =>
    split
    · next hexp =>
      rw [hexp] at hb
      split
      · next hmant =>
        rw [hmant] at hb
        exact hb
      · next hmant =>
        simp only [hexp]
        exact (pack_subnormal _ _ _).trans hb
    · next hexp =>
      refine (pack_normal _ _ _ fun hmax' => hmax ?_).trans hb
      apply BitVec.eq_of_toNat_eq
      rw [hmax']
      rfl

theorem ofBits_toBits (x : Float) : Float.ofBits x.toBits = x := by
  obtain ⟨⟨bits, hvalid⟩⟩ := x
  have hpack := pack_unpack bits.toBitVec hvalid
  simp only [Float.ofBits, Float.toBits, Float.Model.ofBits, Float.Model.pack, hpack]

/-- A number is its sign and its magnitude. -/
theorem ofMagnitude_magnitude (x : Float) : ofMagnitude (isNegative x) (magnitude x) = x := by
  have hlt : x.toBits.toNat < 2 ^ 64 := x.toBits.toNat_lt
  have hbits : (if isNegative x then signBit + magnitude x else magnitude x) = x.toBits.toNat := by
    by_cases hneg : signBit ≤ x.toBits.toNat
    · rw [isNegative, decide_eq_true hneg, if_pos rfl, magnitude]
      simp only [signBit] at hneg ⊢
      omega
    · rw [isNegative, decide_eq_false hneg, if_neg Bool.false_ne_true, magnitude,
        Nat.mod_eq_of_lt (Nat.lt_of_not_le hneg)]
  rw [ofMagnitude, hbits, UInt64.ofNat_toNat, ofBits_toBits]

section Special

variable {b : BitVec Format.binary64.numBits}

theorem unpackExponent_eq_iff : unpackExponent b = -1#_ ↔ infinity ≤ b.toNat % signBit := by
  have hb : b.toNat < 2 ^ 64 := b.isLt
  rw [← BitVec.toNat_inj, toNat_unpackExponent]
  change _ = 2047 ↔ _
  simp only [infinity, signBit]
  omega

theorem unpackMantissa_eq_iff : unpackMantissa b = 0#_ ↔ b.toNat % hiddenBit = 0 := by
  rw [← BitVec.toNat_inj, toNat_unpackMantissa]
  rfl

theorem unpack_eq_notANumber (h : infinity < b.toNat % signBit) :
    unpack Format.binary64 b = .notANumber := by
  have hb : b.toNat < 2 ^ 64 := b.isLt
  have hmant : unpackMantissa b ≠ 0#_ := by
    rw [Ne, unpackMantissa_eq_iff]
    simp only [infinity, signBit, hiddenBit] at h ⊢
    omega
  rw [unpack, if_pos (unpackExponent_eq_iff.2 (Nat.le_of_lt h)), if_neg hmant]

theorem isInf_unpack (h : b.toNat % signBit = infinity) :
    (unpack Format.binary64 b).isInf = true := by
  have hb : b.toNat < 2 ^ 64 := b.isLt
  have hmant : unpackMantissa b = 0#_ := by
    rw [unpackMantissa_eq_iff]
    simp only [infinity, signBit, hiddenBit] at h ⊢
    omega
  rw [unpack, if_pos (unpackExponent_eq_iff.2 (Nat.le_of_eq h.symm)), if_pos hmant]
  rfl

theorem isFinite_unpack (h : b.toNat % signBit < infinity) :
    (unpack Format.binary64 b).isFinite = true := by
  rw [unpack, if_neg (mt unpackExponent_eq_iff.1 (Nat.not_le_of_lt h))]
  split
  · split <;> rfl
  · rfl

end Special

/-- The number that is not a number has a single pattern. -/
theorem ofMagnitude_notANumber {x : Float} (h : x.isNaN = true) :
    ofMagnitude false notANumber = x := by
  have hunpack : unpack Format.binary64 x.toBits.toBitVec = .notANumber := by
    have hnan : (unpack Format.binary64 x.toBits.toBitVec).isNaN = true := h
    cases hu : unpack Format.binary64 x.toBits.toBitVec with
    | notANumber => rfl
    | _ => rw [hu] at hnan; cases hnan
  have hcanonical : unpack Format.binary64 (UInt64.ofNat notANumber).toBitVec = .notANumber := by
    exact unpack_eq_notANumber (by decide)
  rw [← ofBits_toBits x, ofMagnitude, if_neg Bool.false_ne_true]
  simp only [Float.ofBits, Float.Model.ofBits, hunpack, hcanonical]

theorem magnitude_le {x : Float} (h : x.isNaN = false) : magnitude x ≤ infinity := by
  refine Nat.le_of_not_lt fun hlt => ?_
  have hunpack : unpack Format.binary64 x.toBits.toBitVec = .notANumber :=
    unpack_eq_notANumber hlt
  have hnan : (unpack Format.binary64 x.toBits.toBitVec).isNaN = false := h
  rw [hunpack] at hnan
  cases hnan

theorem magnitude_eq_infinity {x : Float} (h : x.isInf = true) : magnitude x = infinity := by
  have hinf : (unpack Format.binary64 x.toBits.toBitVec).isInf = true := h
  rcases Nat.lt_trichotomy (magnitude x) infinity with hlt | heq | hgt
  · have hfinite : (unpack Format.binary64 x.toBits.toBitVec).isFinite = true :=
      isFinite_unpack hlt
    cases hu : unpack Format.binary64 x.toBits.toBitVec with
    | infinity s => rw [hu] at hfinite; cases hfinite
    | _ => rw [hu] at hinf; cases hinf
  · exact heq
  · have hunpack : unpack Format.binary64 x.toBits.toBitVec = .notANumber :=
      unpack_eq_notANumber hgt
    rw [hunpack] at hinf
    cases hinf

theorem magnitude_lt {x : Float} (hnan : x.isNaN = false) (hinf : x.isInf = false) :
    magnitude x < infinity := by
  refine Nat.lt_of_le_of_ne (magnitude_le hnan) fun heq => ?_
  have hinf' : (unpack Format.binary64 x.toBits.toBitVec).isInf = true := isInf_unpack heq
  have hinf'' : (unpack Format.binary64 x.toBits.toBitVec).isInf = false := hinf
  rw [hinf'] at hinf''
  cases hinf''

end Binary64

end DisplayList
