import DisplayList.Geometry.BoundingBox
import DisplayList.Proofs.Number.Value

/-!
# Extremes of numbers

`lesser` and `greater` choose one of their operands and pass over what is not a number. `Chooses`
is what the two have in common, for the order of values and its reverse, since each is `preferred`
for a comparison. A fold with either comes to an `Extreme`: a number that comes before all others
and is the start or one of the list. But for the sign of a zero there is only one such number, so it
makes no difference in which order and how often the numbers stand in the list (`Extreme.beq`).
-/

namespace DisplayList

open Binary64 (value)

variable {before : ℚ → ℚ → Prop} {choose : Float → Float → Float}

/-- A choice between two numbers by the order of their values, which passes over what is not a
number. -/
structure Chooses (before : ℚ → ℚ → Prop) (choose : Float → Float → Float) : Prop where
  eq_or_eq (a b : Float) : choose a b = a ∨ choose a b = b
  eq_left (a : Float) {b : Float} : b.isNaN = true → choose a b = a
  left {a b : Float} : a.isNaN = false → b.isNaN = false → before (value (choose a b)) (value a)
  right {a b : Float} : a.isNaN = false → b.isNaN = false → before (value (choose a b)) (value b)

/-- The first of two numbers, or the second if that is to stand in its place. What is not a number
is passed over. -/
def preferred (replaces : Float → Float → Prop) [DecidableRel replaces] (a b : Float) : Float :=
  if a.isNaN then b else if b.isNaN then a else if replaces b a then b else a

section Preferred

variable {replaces : Float → Float → Prop} [DecidableRel replaces]

theorem preferred_of_isNaN_right (a : Float) {b : Float} (hb : b.isNaN = true) :
    preferred replaces a b = a := by
  cases ha : a.isNaN with
  | false => rw [preferred, ha, if_neg nofun, if_pos hb]
  | true =>
      -- what is not a number is all one, whichever operand it was
      rw [preferred, if_pos ha, ← Binary64.ofMagnitude_notANumber hb,
        ← Binary64.ofMagnitude_notANumber ha]

theorem preferred_of_numbers {a b : Float} (ha : a.isNaN = false) (hb : b.isNaN = false) :
    preferred replaces a b = if replaces b a then b else a := by
  rw [preferred, ha, if_neg nofun, hb, if_neg nofun]

theorem chooses_preferred [Std.Total before]
    (h : ∀ {a b : Float}, a.isNaN = false → b.isNaN = false →
      (replaces b a ↔ ¬ before (value a) (value b))) :
    Chooses before (preferred replaces) where
  eq_or_eq a b := by
    unfold preferred
    split_ifs <;> simp
  eq_left := preferred_of_isNaN_right
  left ha hb := by
    rw [preferred_of_numbers ha hb]
    split
    · next hb' => exact (Std.Total.total _ _).resolve_right ((h ha hb).1 hb')
    · exact Std.Refl.refl _
  right ha hb := by
    rw [preferred_of_numbers ha hb]
    split
    · exact Std.Refl.refl _
    · next ha' => exact not_not.1 (mt (h ha hb).2 ha')

end Preferred

theorem chooses_lesser : Chooses (· ≤ ·) lesser :=
  chooses_preferred fun ha hb => (Binary64.lt_iff_value_lt hb ha).trans not_le.symm

theorem chooses_greater : Chooses (· ≥ ·) greater :=
  chooses_preferred fun ha hb => (Binary64.lt_iff_value_lt ha hb).trans not_le.symm

/-- A number that comes before a start and before the numbers of a list, and is one of them. -/
structure Extreme (before : ℚ → ℚ → Prop) (start : Float) (xs : List Float) (x : Float) :
    Prop where
  isNaN : x.isNaN = false
  eq_or_mem : x = start ∨ x ∈ xs
  start : before (value x) (value start)
  covers : ∀ y ∈ xs, y.isNaN = false → before (value x) (value y)

section Fold

variable {start : Float}

theorem Extreme.before_of_subset {xs ys : List Float} {x y : Float}
    (hx : Extreme before start xs x) (hy : Extreme before start ys y) (h : ys ⊆ xs) :
    before (value x) (value y) := by
  rcases hy.eq_or_mem with rfl | hmem
  · exact hx.start
  · exact hx.covers y (h hmem) hy.isNaN

variable [IsPartialOrder ℚ before]

theorem Extreme.concat {xs : List Float} {x : Float} (h : Extreme before start xs x)
    (hchoose : Chooses before choose) (y : Float) :
    Extreme before start (xs ++ [y]) (choose x y) := by
  cases hy : y.isNaN with
  | true =>
      rw [hchoose.eq_left x hy]
      refine ⟨h.isNaN, h.eq_or_mem.imp_right (List.mem_append_left _), h.start, ?_⟩
      intro z hz hnan
      rcases List.mem_append.1 hz with hz | hz
      · exact h.covers z hz hnan
      · rw [List.mem_singleton.1 hz, hy] at hnan
        cases hnan
  | false =>
      have hleft := hchoose.left h.isNaN hy
      refine ⟨?_, ?_, IsTrans.trans _ _ _ hleft h.start, ?_⟩
      · rcases hchoose.eq_or_eq x y with heq | heq
        · rw [heq, h.isNaN]
        · rw [heq, hy]
      · rcases hchoose.eq_or_eq x y with heq | heq
        · rw [heq]
          exact h.eq_or_mem.imp_right (List.mem_append_left _)
        · rw [heq]
          exact .inr (List.mem_append_right _ (List.mem_singleton_self y))
      · intro z hz hnan
        rcases List.mem_append.1 hz with hz | hz
        · exact IsTrans.trans _ _ _ hleft (h.covers z hz hnan)
        · rw [List.mem_singleton.1 hz]
          exact hchoose.right h.isNaN hy

theorem Chooses.extreme_foldl (hchoose : Chooses before choose) (hstart : start.isNaN = false)
    (xs : List Float) : Extreme before start xs (xs.foldl choose start) := by
  induction xs using List.reverseRecOn with
  | nil => exact ⟨hstart, .inl rfl, refl _, fun y hy => absurd hy List.not_mem_nil⟩
  | append_singleton xs y ih =>
      rw [List.foldl_append, List.foldl_cons, List.foldl_nil]
      exact ih.concat hchoose y

/-- Lists with the same members have the same extreme, up to the sign of a zero. -/
theorem Extreme.beq {xs ys : List Float} {x y : Float} (hx : Extreme before start xs x)
    (hy : Extreme before start ys y) (h : ∀ z, z ∈ xs ↔ z ∈ ys) : (x == y) = true := by
  rw [Binary64.beq_iff_value_eq hx.isNaN hy.isNaN]
  exact antisymm (hx.before_of_subset hy fun z => (h z).2) (hy.before_of_subset hx fun z => (h z).1)

end Fold

end DisplayList
