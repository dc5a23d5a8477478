import DisplayList.Proofs.Geometry.Box

/-!
# Calls that lack a number

A call that lacks one of the numbers that say where it draws should leave a box alone. It does so
from every box, unless it is a curve: of a curve the box takes every pair of numbers by itself
(`record_of_lacking`). So an incomplete curve is without effect exactly if none of its pairs is
there, or those that are there hold nothing that is a number: `record_eq_self_iff`.
-/

namespace DisplayList

theorem pointAt_zero_of_lacking {args : List Value} (h : numbers? 2 args = none) :
    pointAt args 0 = [] := by
  match args, h with
  | [], _ => rfl
  | [v], _ => cases v <;> rfl
  | v :: w :: _, h => cases v <;> cases w <;> first | rfl | cases h

/-- No operation but a curve offers a point to a box when it lacks a number. -/
theorem Operation.taken_of_lacking {op : Operation} {args : List Value}
    (h : numbers? op.reach args = none) (hop : op ≠ .method .bezierCurveTo) :
    op.taken args = [] := by
  cases op with
  | property p => rfl
  | method m =>
      cases m with
      | moveTo | lineTo => exact pointAt_zero_of_lacking h
      | strokeRect | fillRect | clearRect | arc =>
          simp only [taken, points]
          split
          · cases h
          · rfl
      | bezierCurveTo => exact absurd rfl hop
      | _ => rfl

namespace BoundingBox

/-- Of a call that lacks a number, a box takes the pairs of a curve and nothing else. -/
theorem record_of_lacking {op : Operation} {args : List Value}
    (h : numbers? op.reach args = none) (b : BoundingBox) :
    b.record op args =
      if op = .method .bezierCurveTo then
        (pointAt args 0 ++ pointAt args 2 ++ pointAt args 4).foldl includePoint b
      else b := by
  split
  · next hop =>
    subst hop
    rfl
  · next hop =>
    have hpoison : op ≠ .method .arcTo := by
      rintro rfl
      cases h
    rw [record_of_ne_arcTo hpoison, Operation.taken_of_lacking h hop]
    rfl

section Passive

variable {xs : List Float}

/-- What is not a number never moves an end, not even one that is no number itself. -/
theorem includePoint_of_isNaN {p : Float × Float} (hx : p.1.isNaN = true) (hy : p.2.isNaN = true)
    (b : BoundingBox) : b.includePoint p = b := by
  rw [includePoint, chooses_lesser.eq_left _ hx, chooses_lesser.eq_left _ hy,
    chooses_greater.eq_left _ hx, chooses_greater.eq_left _ hy]

/-- A number moves one of the ends of a new box: it is smaller than infinity or greater than
zero. -/
theorem isNaN_of_foldl_eq (hlow : xs.foldl lesser new.minX = new.minX)
    (hhigh : xs.foldl greater new.maxX = new.maxX) : ∀ x ∈ xs, x.isNaN = true := by
  intro x hx
  by_contra hnan
  have hlow' := (chooses_lesser.extreme_foldl (by decide : new.minX.isNaN = false) xs).covers x hx
    (Bool.eq_false_iff.2 hnan)
  have hhigh' := (chooses_greater.extreme_foldl (by decide : new.maxX.isNaN = false) xs).covers x hx
    (Bool.eq_false_iff.2 hnan)
  rw [hlow] at hlow'
  rw [hhigh] at hhigh'
  exact (hlow'.trans hhigh').not_gt Binary64.overflow_pos

end Passive

/-- Points leave every box alone just if they hold nothing that is a number. -/
theorem foldl_includePoint_eq_self_iff {ps : List (Float × Float)} :
    (∀ b : BoundingBox, ps.foldl includePoint b = b) ↔
      ∀ p ∈ ps, p.1.isNaN = true ∧ p.2.isNaN = true := by
  constructor
  · intro h p hp
    have hnew := h new
    rw [foldl_includePoint] at hnew
    have hx := isNaN_of_foldl_eq (congrArg minX hnew) (congrArg maxX hnew)
    have hy := isNaN_of_foldl_eq (congrArg minY hnew) (congrArg maxY hnew)
    exact ⟨hx _ (List.mem_map_of_mem hp), hy _ (List.mem_map_of_mem hp)⟩
  · intro h b
    induction ps with
    | nil => rfl
    | cons p ps ih =>
        obtain ⟨hx, hy⟩ := h p List.mem_cons_self
        rw [List.foldl_cons, includePoint_of_isNaN hx hy]
        exact ih fun q hq => h q (List.mem_cons_of_mem p hq)

/-- A call that lacks one of the numbers that say where it draws leaves every box as it was, unless
it is a curve with a pair of numbers. -/
theorem record_eq_self_iff {op : Operation} {args : List Value}
    (h : numbers? op.reach args = none) :
    (∀ b : BoundingBox, b.record op args = b) ↔
      op ≠ .method .bezierCurveTo ∨
        ∀ i ∈ [0, 2, 4], ∀ p ∈ pointAt args i, p.1.isNaN = true ∧ p.2.isNaN = true := by
  simp only [record_of_lacking h]
  by_cases hop : op = .method .bezierCurveTo
  · simp only [hop, if_true, foldl_includePoint_eq_self_iff]
    simp [or_imp, forall_and]
  · simp [hop]

/-- A rectangle without a height, and a curve whose only pair is not a number. -/
theorem record_eq_self_iff_rectangle :
    let rectangle := [.number 1, .number 2, .number 3, .text "4"]
    let curve := [.text "x", .number 2, .number (0 / 0), .number (0 / 0)]
    numbers? (Operation.method .fillRect).reach rectangle = none ∧
      numbers? (Operation.method .bezierCurveTo).reach curve = none ∧
      (∀ b : BoundingBox, b.record Method.fillRect rectangle = b) ∧
      ∀ b : BoundingBox, b.record Method.bezierCurveTo curve = b := by
  intro rectangle curve
  have hrectangle : numbers? (Operation.method .fillRect).reach rectangle = none := rfl
  have hcurve : numbers? (Operation.method .bezierCurveTo).reach curve = none := rfl
  exact ⟨hrectangle, hcurve, (record_eq_self_iff hrectangle).2 (.inl nofun),
    (record_eq_self_iff hcurve).2 (.inr (by decide +kernel))⟩

/-- A curve that lacks a coordinate of its second control point moves all four ends of a new box. -/
theorem incomplete_curve_moves_box :
    let curve := [.number 1, .number 2, .text "x", .number 4, .number 5, .number 6]
    numbers? (Operation.method .bezierCurveTo).reach curve = none ∧
      new.record Method.bezierCurveTo curve ≠ new ∧
      (new.record Method.bezierCurveTo curve).rect.toOption = some ⟨1, 2, 4, 4⟩ := by
  decide +kernel

end BoundingBox

end DisplayList
