import DisplayList.Proofs.Number.Arithmetic
import DisplayList.Proofs.Number.RoundTrip
import DisplayList.Svg.Arc
import Mathlib.Analysis.Real.Pi.Bounds

/-!
# The angle that an arc sweeps

The large flag of an arc in path data says whether it covers more than half a turn. It is derived
from the distance of the two angles and from the direction alone. However the distance in degrees
is rounded, it lies on the right side of half a turn if it is clear of that (`half_le_degrees_iff`).
So the flag is right about `Arc.swept`, the angle that the arc covers, if the end angle is the
greater one, and wrong otherwise: `arcFlags_iff`.
-/

namespace DisplayList

open Binary64 (value Representable RoundsTo)

/-- The flags behind each arc command, the large one and the one for the direction. -/
def arcFlags : List String → List (String × String)
  | [] => []
  | token :: rest =>
    if token = "A" then (rest.getD 3 "", rest.getD 4 "") :: arcFlags rest else arcFlags rest

theorem arcFlags_append_of_notMem {tokens : List String} (h : "A" ∉ tokens) (rest : List String) :
    arcFlags (tokens ++ rest) = arcFlags rest := by
  induction tokens with
  | nil => rfl
  | cons token tokens ih =>
      rw [List.mem_cons, not_or] at h
      rw [List.cons_append, arcFlags, if_neg (Ne.symm h.1), ih h.2]

theorem numberToken_ne_command (x : Float) : "A" ≠ numberToken x := by
  intro h
  obtain ⟨c, cs, hcons, hc⟩ := numberText_head x
  have hlist := congrArg String.toList h
  rw [numberToken, hcons, String.toList_ofList, String.toList_ofList] at hlist
  have hhead : 'A' = c := (List.cons.inj hlist).1
  exact absurd (hhead ▸ hc) (by decide)

theorem command_notMem_tokens (parameters : List Float) :
    "A" ∉ parameters.map numberToken := by
  rw [List.mem_map]
  rintro ⟨x, -, hx⟩
  exact numberToken_ne_command x hx.symm

namespace Arc

/-- An arc in one piece has one pair of flags. -/
theorem arcFlags_segment (a : Arc) (first : Bool) :
    arcFlags (a.segment first) = [(numberToken a.largeFlag, numberToken a.sweepFlag)] := by
  have hlead : "A" ∉ a.leadTo (if first then "M" else "L") a.start := by
    rw [leadTo, tokensOf, List.mem_cons, not_or]
    exact ⟨by cases first <;> decide, command_notMem_tokens _⟩
  have hrest := arcFlags_append_of_notMem (command_notMem_tokens
    [a.radius, a.radius, a.degrees, a.largeFlag, a.sweepFlag, a.pointX a.finish,
      a.pointY a.finish]) []
  rw [List.append_nil] at hrest
  rw [segment, arcFlags_append_of_notMem hlead, tokensOf, arcFlags, if_pos rfl, hrest]
  rfl

end Arc

theorem numberToken_zero : numberToken 0 = "0" := by decide +kernel

theorem numberToken_one : numberToken 1 = "1" := by decide +kernel

/-! ### The distance of the angles in degrees

Bounds are counted in units of `2 ^ (-20)`. Half a turn lies between 3294198 and 3294199 of them,
both within a millionth, and 180 times as many can be represented as well.
-/

namespace Binary64

section Units

variable {v : ℚ} {x : Float} {n : ℤ}

theorem abs_units_lt_overflow (hn : |n| ≤ 2 ^ 31) : |(n * 2 ^ (-20 : ℤ) : ℚ)| < overflow := by
  have hpow : (0 : ℚ) < 2 ^ (-20 : ℤ) := zpow_pos two_pos _
  have hn' : (|n| : ℚ) ≤ 2 ^ (31 : ℤ) := by exact_mod_cast hn
  calc |(n * 2 ^ (-20 : ℤ) : ℚ)| = |(n : ℚ)| * 2 ^ (-20 : ℤ) := by rw [abs_mul, abs_of_pos hpow]
    _ ≤ 2 ^ (31 : ℤ) * 2 ^ (-20 : ℤ) := by gcongr
    _ = 2 ^ (11 : ℤ) := by rw [← zpow_add₀ two_ne_zero]; rfl
    _ < overflow := zpow_lt_zpow_right₀ one_lt_two (by decide)

theorem representable_units (hn : |n| ≤ 2 ^ 31) : Representable (n * 2 ^ (-20 : ℤ)) :=
  ⟨n, -20, hn.trans_lt (by decide), by decide, rfl⟩

theorem RoundsTo.units_le (h : RoundsTo v x) (hn : |n| ≤ 2 ^ 31) (hv : n * 2 ^ (-20 : ℤ) ≤ v) :
    n * 2 ^ (-20 : ℤ) ≤ value x :=
  h.le_value (representable_units hn) (abs_units_lt_overflow hn).le hv

theorem RoundsTo.le_units (h : RoundsTo v x) (hn : |n| ≤ 2 ^ 31) (hv : v ≤ n * 2 ^ (-20 : ℤ)) :
    value x ≤ n * 2 ^ (-20 : ℤ) :=
  h.value_le (representable_units hn) (abs_units_lt_overflow hn).le hv

theorem isFinite_of_le_units (h : x.isNaN = false) (hpos : 0 ≤ value x) (hn : |n| ≤ 2 ^ 31)
    (hle : value x ≤ n * 2 ^ (-20 : ℤ)) : x.isFinite = true := by
  refine isFinite_of_abs_value_lt h ?_
  rw [abs_of_nonneg hpos]
  exact hle.trans_lt ((le_abs_self _).trans_lt (abs_units_lt_overflow hn))

end Units

theorem value_halfTurn : value halfTurn = 7074237752028440 * 2 ^ (-51 : ℤ) := rfl

theorem value_fullTurn : value fullTurn = 7074237752028440 * 2 ^ (-50 : ℤ) := rfl

theorem value_oneEighty : value 180 = 6333186975989760 * 2 ^ (-45 : ℤ) := rfl

end Binary64

namespace Arc

variable {a : Arc}

/-- The distance of the angles before it is rounded. -/
def distance (a : Arc) : ℚ := |value a.finish - value a.start|

theorem roundsTo_extent (hstart : a.start.isFinite = true) (hfinish : a.finish.isFinite = true) :
    RoundsTo a.distance a.extent :=
  (Binary64.roundsTo_sub hfinish hstart).abs

section Degrees

variable (hstart : a.start.isFinite = true) (hfinish : a.finish.isFinite = true)
  (hturn : a.extent < fullTurn)

include hstart hfinish hturn

theorem value_extent_mem : 0 ≤ value a.extent ∧ value a.extent ≤ 8 := by
  have hextent := roundsTo_extent hstart hfinish
  have hlt := (Binary64.lt_iff_value_lt hextent.isNaN rfl).1 hturn
  rw [Binary64.value_fullTurn] at hlt
  exact ⟨hextent.nonneg (abs_nonneg _), hlt.le.trans (by norm_num)⟩

theorem roundsTo_product : RoundsTo (value a.extent * 180) (a.extent * 180) := by
  obtain ⟨hpos, hle⟩ := value_extent_mem hstart hfinish hturn
  have hfinite : a.extent.isFinite = true := by
    refine Binary64.isFinite_of_le_units (n := 8388608) (roundsTo_extent hstart hfinish).isNaN hpos
      (by decide) (hle.trans ?_)
    norm_num
  have hvalue : (180 : ℚ) = value 180 := by
    rw [Binary64.value_oneEighty]
    norm_num
  rw [hvalue]
  exact Binary64.roundsTo_mul hfinite rfl

theorem roundsTo_degrees : RoundsTo (value (a.extent * 180) / value halfTurn) a.degrees := by
  obtain ⟨hpos, hle⟩ := value_extent_mem hstart hfinish hturn
  have hproduct := roundsTo_product hstart hfinish hturn
  have hfinite : (a.extent * 180).isFinite = true := by
    refine Binary64.isFinite_of_le_units (n := 1509949440) hproduct.isNaN
      (hproduct.nonneg (by positivity)) (by decide) (hproduct.le_units (by decide) ?_)
    calc value a.extent * 180 ≤ 8 * 180 := by gcongr
      _ = ((1509949440 : ℤ) : ℚ) * 2 ^ (-20 : ℤ) := by norm_num
  refine Binary64.roundsTo_div hfinite rfl ?_
  rw [Binary64.value_halfTurn]
  norm_num

/-- More than half a turn comes to 180 degrees or more, however it is rounded. -/
theorem degrees_of_half_le (h : 3294199 * 2 ^ (-20 : ℤ) ≤ a.distance) : 180 ≤ a.degrees := by
  have hdegrees := roundsTo_degrees hstart hfinish hturn
  have hextent : ((3294199 : ℤ) : ℚ) * 2 ^ (-20 : ℤ) ≤ value a.extent :=
    (roundsTo_extent hstart hfinish).units_le (by decide) h
  have hproduct : ((592955820 : ℤ) : ℚ) * 2 ^ (-20 : ℤ) ≤ value (a.extent * 180) := by
    refine (roundsTo_product hstart hfinish hturn).units_le (by decide) ?_
    calc ((592955820 : ℤ) : ℚ) * 2 ^ (-20 : ℤ) = ((3294199 : ℤ) : ℚ) * 2 ^ (-20 : ℤ) * 180 := by
          norm_num
      _ ≤ value a.extent * 180 := by gcongr
  have hquotient : ((188743680 : ℤ) : ℚ) * 2 ^ (-20 : ℤ) ≤
      value (a.extent * 180) / value halfTurn := by
    rw [Binary64.value_halfTurn, le_div_iff₀ (by norm_num)]
    exact le_trans (by norm_num) hproduct
  rw [Binary64.le_iff_value_le rfl hdegrees.isNaN, Binary64.value_oneEighty]
  exact le_trans (by norm_num) (hdegrees.units_le (by decide) hquotient)

/-- Less than half a turn comes to less than 180 degrees, however it is rounded. -/
theorem degrees_of_le_half (h : a.distance ≤ 3294198 * 2 ^ (-20 : ℤ)) : ¬ 180 ≤ a.degrees := by
  have hdegrees := roundsTo_degrees hstart hfinish hturn
  have hextent : value a.extent ≤ ((3294198 : ℤ) : ℚ) * 2 ^ (-20 : ℤ) :=
    (roundsTo_extent hstart hfinish).le_units (by decide) h
  have hproduct : value (a.extent * 180) ≤ ((592955640 : ℤ) : ℚ) * 2 ^ (-20 : ℤ) := by
    refine (roundsTo_product hstart hfinish hturn).le_units (by decide) ?_
    calc value a.extent * 180 ≤ ((3294198 : ℤ) : ℚ) * 2 ^ (-20 : ℤ) * 180 := by gcongr
      _ = ((592955640 : ℤ) : ℚ) * 2 ^ (-20 : ℤ) := by norm_num
  have hquotient : value (a.extent * 180) / value halfTurn ≤
      ((188743679 : ℤ) : ℚ) * 2 ^ (-20 : ℤ) := by
    rw [Binary64.value_halfTurn, div_le_iff₀ (by norm_num)]
    exact le_trans hproduct (by norm_num)
  rw [Binary64.le_iff_value_le rfl hdegrees.isNaN, not_le, Binary64.value_oneEighty]
  exact (hdegrees.le_units (by decide) hquotient).trans_lt (by norm_num)

/-- The degrees tell whether the distance is more than half a turn, if it is clear of that. -/
theorem half_le_degrees_iff (hclear : 1 / 10 ^ 6 < |a.distance - Real.pi|) :
    180 ≤ a.degrees ↔ Real.pi < a.distance := by
  have hgt := Real.pi_gt_d6
  have hlt := Real.pi_lt_d6
  rcases lt_abs.1 hclear with hmore | hless
  · have hhalf : ((3294199 * 2 ^ (-20 : ℤ) : ℚ) : ℝ) ≤ a.distance := by norm_num; linarith
    exact iff_of_true (degrees_of_half_le hstart hfinish hturn (Rat.cast_le.1 hhalf)) (by linarith)
  · have hhalf : (a.distance : ℝ) ≤ (3294198 * 2 ^ (-20 : ℤ) : ℚ) := by norm_num; linarith
    exact iff_of_false (degrees_of_le_half hstart hfinish hturn (Rat.cast_le.1 hhalf)) (by linarith)

end Degrees

/-! ### The angle that is swept -/

/-- The angle that an arc covers in its direction, from nothing to a full turn. -/
noncomputable def swept (a : Arc) : ℝ :=
  let angle :=
    if a.clockwise then value a.start - value a.finish else value a.finish - value a.start
  if angle < 0 then angle + 2 * Real.pi else angle

theorem swept_eq (h : value a.start ≠ value a.finish) :
    a.swept = if value a.start < value a.finish ↔ a.clockwise = false then (a.distance : ℝ)
      else 2 * Real.pi - a.distance := by
  rcases h.lt_or_gt with hlt | hgt
  · have hpos : 0 < value a.finish - value a.start := sub_pos.2 hlt
    have hdistance : a.distance = value a.finish - value a.start := abs_of_pos hpos
    have hneg : value a.start - value a.finish < 0 := sub_neg.2 hlt
    cases hclockwise : a.clockwise with
    | false =>
        rw [swept, hclockwise, if_neg Bool.false_ne_true, if_neg hpos.not_gt,
          if_pos (by simp [hlt]), hdistance]
    | true =>
        rw [swept, hclockwise, if_pos rfl, if_pos hneg, if_neg (by simp [hlt]), hdistance]
        push_cast
        ring
  · have hpos : 0 < value a.start - value a.finish := sub_pos.2 hgt
    have hneg : value a.finish - value a.start < 0 := sub_neg.2 hgt
    have hdistance : a.distance = value a.start - value a.finish := by
      rw [distance, abs_of_neg hneg, neg_sub]
    cases hclockwise : a.clockwise with
    | false =>
        rw [swept, hclockwise, if_neg Bool.false_ne_true, if_pos hneg,
          if_neg (by simp [hgt.not_gt]), hdistance]
        push_cast
        ring
    | true =>
        rw [swept, hclockwise, if_pos rfl, if_neg hpos.not_gt, if_pos (by simp [hgt.not_gt]),
          hdistance]

theorem abs_swept_sub (h : value a.start ≠ value a.finish) :
    |a.swept - Real.pi| = |a.distance - Real.pi| := by
  rw [swept_eq h]
  split
  · rfl
  · rw [← abs_neg]
    congr 1
    ring

theorem pi_lt_swept_iff (h : value a.start ≠ value a.finish) (hdistance : a.distance ≠ Real.pi) :
    Real.pi < a.swept ↔ (Real.pi < a.distance ↔
      (value a.start < value a.finish ↔ a.clockwise = false)) := by
  rw [swept_eq h]
  split
  · next hsame => simp [hsame]
  · next hother =>
      have hflip : Real.pi < 2 * Real.pi - a.distance ↔ ¬ Real.pi < a.distance := by
        rw [not_lt, hdistance.le_iff_lt]
        constructor <;> intro hlt <;> linarith
      simp only [hflip, hother, iff_false]

/-- The large flag tells whether more than half a turn is swept, if the end angle is the greater
one, and tells the opposite otherwise. -/
theorem largeFlag_eq (hstart : a.start.isFinite = true) (hfinish : a.finish.isFinite = true)
    (hne : value a.start ≠ value a.finish) (hturn : a.extent < fullTurn)
    (hclear : 1 / 10 ^ 6 < |a.swept - Real.pi|) :
    a.largeFlag = if Real.pi < a.swept ↔ a.start < a.finish then 1 else 0 := by
  rw [abs_swept_sub hne] at hclear
  have hdistance : (a.distance : ℝ) ≠ Real.pi := by
    intro heq
    rw [heq, sub_self, abs_zero] at hclear
    norm_num at hclear
  have hdegrees := half_le_degrees_iff hstart hfinish hturn hclear
  have hswept := pi_lt_swept_iff hne hdistance
  have horder := Binary64.lt_iff_value_lt (Binary64.isNaN_of_isFinite hstart)
    (Binary64.isNaN_of_isFinite hfinish)
  rw [← horder] at hswept
  -- what is left is to compare the three choices: the side of half a turn, the order, the direction
  simp only [largeFlag, hdegrees, hswept]
  by_cases hhalf : Real.pi < a.distance <;> by_cases hlt : a.start < a.finish <;>
    cases a.clockwise <;> simp [hhalf, hlt]

theorem tokens_eq_segment (hstart : a.start.isFinite = true) (hfinish : a.finish.isFinite = true)
    (hne : (a.start == a.finish) = false) (hturn : a.extent < fullTurn) (first : Bool) :
    a.tokens first = a.segment first := by
  have hnan := (roundsTo_extent hstart hfinish).isNaN
  have hpart : ¬ fullTurn ≤ a.extent := by
    rw [Binary64.le_iff_value_le rfl hnan, not_le]
    exact (Binary64.lt_iff_value_lt hnan rfl).1 hturn
  rw [tokens, hne, if_neg Bool.false_ne_true, if_neg hpart]

/-- An arc of less than a full turn, clear of half a turn, has one pair of flags. Its large flag is
set just if more than half a turn is swept, provided that the end angle is the greater one. If the
start angle is the greater one, the large flag is set just if less than half a turn is swept. -/
theorem arcFlags_iff {a : Arc} (hstart : a.start.isFinite = true)
    (hfinish : a.finish.isFinite = true) (hne : (a.start == a.finish) = false)
    (hturn : a.extent < fullTurn) (hclear : 1 / 10 ^ 6 < |a.swept - Real.pi|) (first : Bool) :
    arcFlags (a.tokens first) =
        [(if Real.pi < a.swept ↔ a.start < a.finish then "1" else "0",
          if a.clockwise then "0" else "1")] ∧
      (arcFlags (a.tokens first) =
          [(if Real.pi < a.swept then "1" else "0", if a.clockwise then "0" else "1")] ↔
        a.start < a.finish) := by
  have hvalue : value a.start ≠ value a.finish := by
    rw [Ne, ← Binary64.beq_iff_value_eq (Binary64.isNaN_of_isFinite hstart)
      (Binary64.isNaN_of_isFinite hfinish), hne]
    exact Bool.false_ne_true
  have hflags : arcFlags (a.tokens first) =
      [(if Real.pi < a.swept ↔ a.start < a.finish then "1" else "0",
        if a.clockwise then "0" else "1")] := by
    rw [tokens_eq_segment hstart hfinish hne hturn, arcFlags_segment,
      largeFlag_eq hstart hfinish hvalue hturn hclear, sweepFlag, apply_ite numberToken,
      apply_ite numberToken, numberToken_zero, numberToken_one]
  refine ⟨hflags, ?_⟩
  rw [hflags]
  by_cases hmore : Real.pi < a.swept <;> by_cases horder : a.start < a.finish <;>
    simp [hmore, horder]

theorem swept_zero_four : (⟨0, 0, 10, 0, 4, false⟩ : Arc).swept = 4 := by
  have hfour : value 4 = 4503599627370496 * 2 ^ (-50 : ℤ) := rfl
  have hzero : value 0 = 0 := rfl
  rw [swept, if_neg Bool.false_ne_true, hfour, hzero]
  norm_num

theorem arcFlags_iff_zero_four :
    let a : Arc := ⟨0, 0, 10, 0, 4, false⟩
    a.start.isFinite = true ∧ a.finish.isFinite = true ∧ (a.start == a.finish) = false ∧
      a.extent < fullTurn ∧ 1 / 10 ^ 6 < |a.swept - Real.pi| ∧ Real.pi < a.swept ∧
      ∀ first, arcFlags (a.tokens first) = [("1", "1")] := by
  intro a
  have hlt := Real.pi_lt_d6
  have hstart : a.start.isFinite = true := by decide +kernel
  have hfinish : a.finish.isFinite = true := by decide +kernel
  have hne : (a.start == a.finish) = false := by decide +kernel
  have hturn : a.extent < fullTurn := by decide +kernel
  have hmore : Real.pi < a.swept := by rw [swept_zero_four]; linarith
  have hclear : 1 / 10 ^ 6 < |a.swept - Real.pi| := by
    rw [lt_abs, swept_zero_four]
    exact .inl (by norm_num; linarith)
  refine ⟨hstart, hfinish, hne, hturn, hclear, hmore, fun first => ?_⟩
  have hflags := (arcFlags_iff hstart hfinish hne hturn hclear first).2.2 (by decide +kernel)
  rw [hflags, if_pos hmore]
  rfl

/-- From one radian back to the start, in the direction of increasing angles, an arc covers more
than half a turn. Its large flag says that it covers less. -/
theorem arcFlags_one_zero :
    let a : Arc := ⟨0, 0, 10, 1, 0, false⟩
    a.start.isFinite = true ∧ a.finish.isFinite = true ∧ (a.start == a.finish) = false ∧
      a.extent < fullTurn ∧ 1 / 10 ^ 6 < |a.swept - Real.pi| ∧ Real.pi < a.swept ∧
      ∀ first, arcFlags (a.tokens first) = [("0", "1")] := by
  intro a
  have hgt := Real.pi_gt_d6
  have hstart : a.start.isFinite = true := by decide +kernel
  have hfinish : a.finish.isFinite = true := by decide +kernel
  have hne : (a.start == a.finish) = false := by decide +kernel
  have hturn : a.extent < fullTurn := by decide +kernel
  have hswept : a.swept = 2 * Real.pi - 1 := by
    have hone : value 1 = 4503599627370496 * 2 ^ (-52 : ℤ) := rfl
    have hzero : value 0 = 0 := rfl
    rw [swept, if_neg Bool.false_ne_true, hone, hzero]
    norm_num
    ring
  refine ⟨hstart, hfinish, hne, hturn, ?_, ?_, fun first => ?_⟩
  · rw [lt_abs, hswept]
    exact .inl (by norm_num; linarith)
  · rw [hswept]
    linarith
  · have hlarge : numberToken a.largeFlag = "0" := by decide +kernel
    rw [tokens_eq_segment hstart hfinish hne hturn, arcFlags_segment, hlarge, sweepFlag,
      if_neg Bool.false_ne_true, numberToken_one]

end Arc

end DisplayList
