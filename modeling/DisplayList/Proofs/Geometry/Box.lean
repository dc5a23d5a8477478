import DisplayList.Proofs.Geometry.Extremes
import Mathlib.Data.List.DropRight

/-!
# What a bounding box encloses

An operation goes by the numbers at the front of its arguments, `Operation.reach` of them, and
`Operation.spots` says which points these make. A run of records and resets leaves a box that is a
new one fed with the records since the last reset (`run_eq`), and feeding it comes to four folds
over the points that these offer and a look-out for `arcTo` (`recordAll_eq`). So the box spans the
points, whatever their order, and the rectangle is spoilt by an `arcTo` and by nothing else.
-/

namespace DisplayList

/-- The numbers at the front of some arguments, if there are that many. -/
def numbers? : Nat → List Value → Option (List Float)
  | 0, _ => some []
  | n + 1, .number x :: rest => (numbers? n rest).map (x :: ·)
  | _ + 1, _ => none

theorem eq_append_of_numbers? {n : Nat} {args : List Value} {xs : List Float}
    (h : numbers? n args = some xs) :
    xs.length = n ∧ ∃ rest, args = xs.map .number ++ rest := by
  induction n generalizing args xs with
  | zero =>
      cases h
      exact ⟨rfl, args, rfl⟩
  | succ n ih =>
      match args, h with
      | .number x :: rest, h =>
        obtain ⟨ys, hys, rfl⟩ := Option.map_eq_some_iff.1 h
        obtain ⟨hlength, later, hrest⟩ := ih hys
        exact ⟨congrArg (· + 1) hlength, later, congrArg (.number x :: ·) hrest⟩

namespace Operation

/-- How many arguments say where an operation draws. They stand ahead of all others. -/
def reach : Operation → Nat
  | .method .moveTo | .method .lineTo => 2
  | .method .arc => 3
  | .method .strokeRect | .method .fillRect | .method .clearRect => 4
  | .method .bezierCurveTo => 6
  | _ => 0

/-- The points that an operation goes by when these are its numbers. -/
def spots : Operation → List Float → List (Float × Float)
  | .method .moveTo, [x, y] | .method .lineTo, [x, y] => [(x, y)]
  | .method .bezierCurveTo, [cp1x, cp1y, cp2x, cp2y, x, y] => [(cp1x, cp1y), (cp2x, cp2y), (x, y)]
  | .method .strokeRect, [x, y, w, h] | .method .fillRect, [x, y, w, h]
  | .method .clearRect, [x, y, w, h] => [(x, y), (x + w, y + h)]
  | .method .arc, [x, y, r] => [(x - r, y - r), (x + r, y + r)]
  | _, _ => []

/-- The points of a call whose arguments that say where it draws are all numbers. -/
def spots? (op : Operation) (args : List Value) : Option (List (Float × Float)) :=
  (numbers? op.reach args).map op.spots

/-- The points that a box takes from an operation. -/
def taken : Operation → List Value → List (Float × Float)
  | .method m, args => points m args
  | .property _, _ => []

theorem taken_eq_of_spots? {op : Operation} {args : List Value} {ps : List (Float × Float)}
    (h : op.spots? args = some ps) : op.taken args = ps := by
  obtain ⟨xs, hxs, rfl⟩ := Option.map_eq_some_iff.1 h
  obtain ⟨hlength, rest, rfl⟩ := eq_append_of_numbers? hxs
  cases op with
  | property p => rfl
  | method m =>
      cases m with
      | moveTo | lineTo => match xs, hlength with | [x, y], _ => rfl
      | arc => match xs, hlength with | [x, y, r], _ => rfl
      | strokeRect | fillRect | clearRect => match xs, hlength with | [x, y, w, h], _ => rfl
      | bezierCurveTo =>
          match xs, hlength with | [cp1x, cp1y, cp2x, cp2y, x, y], _ => rfl
      | _ => rfl

theorem taken_of_reach {op : Operation} (h : op.reach = 0) (args : List Value) :
    op.taken args = [] := by
  cases op with
  | property p => rfl
  | method m => cases m <;> first | rfl | cases h

end Operation

namespace BoundingBox

/-- One thing that can be done with a box. -/
inductive Step
  | record (op : Operation) (args : List Value)
  | reset
deriving DecidableEq

namespace Step

/-- The box behind a step. -/
def apply : Step → BoundingBox → BoundingBox
  | record op args, b => b.record op args
  | reset, _ => new

/-- What a step records, if it records something. -/
def call? : Step → Option (Operation × List Value)
  | record op args => some (op, args)
  | reset => none

end Step

/-- The box that some steps make of a new one. -/
def run (steps : List Step) : BoundingBox := steps.foldl (fun b s => s.apply b) new

/-- What has been recorded since the last reset. -/
def sinceReset (steps : List Step) : List (Operation × List Value) :=
  (steps.rtakeWhile (· ≠ .reset)).filterMap Step.call?

/-- The points that have been offered since the last reset. -/
def offered (steps : List Step) : List (Float × Float) :=
  (sinceReset steps).flatMap fun call => (call.1.spots? call.2).getD []

/-- Feeds a box with calls. -/
def recordAll (b : BoundingBox) (calls : List (Operation × List Value)) : BoundingBox :=
  calls.foldl (fun b call => b.record call.1 call.2) b

/-- The points that a box takes from calls. -/
def takenFrom (calls : List (Operation × List Value)) : List (Float × Float) :=
  calls.flatMap fun call => call.1.taken call.2

theorem run_concat (steps : List Step) (s : Step) : run (steps ++ [s]) = s.apply (run steps) := by
  rw [run, List.foldl_append]
  rfl

/-- A run comes to feeding a new box with what has been recorded since the last reset. -/
theorem run_eq (steps : List Step) : run steps = new.recordAll (sinceReset steps) := by
  induction steps using List.reverseRecOn with
  | nil => rfl
  | append_singleton steps s ih =>
      rw [run_concat, sinceReset]
      cases s with
      | reset =>
          rw [List.rtakeWhile_concat_neg _ _ _ (by simp)]
          rfl
      | record op args =>
          rw [List.rtakeWhile_concat_pos _ _ _ (by simp), List.filterMap_append, recordAll,
            List.foldl_append]
          exact congrArg (BoundingBox.record · op args) ih

theorem foldl_includePoint (ps : List (Float × Float)) (b : BoundingBox) :
    ps.foldl includePoint b =
      ⟨(ps.map Prod.fst).foldl lesser b.minX, (ps.map Prod.snd).foldl lesser b.minY,
        (ps.map Prod.fst).foldl greater b.maxX, (ps.map Prod.snd).foldl greater b.maxY,
        b.unsupported⟩ := by
  induction ps generalizing b with
  | nil => rfl
  | cons p ps ih => rw [List.foldl_cons, ih]; rfl

theorem record_of_ne_arcTo {op : Operation} (h : op ≠ .method .arcTo) (b : BoundingBox)
    (args : List Value) : b.record op args = (op.taken args).foldl includePoint b := by
  cases op with
  | property p => rfl
  | method m => cases m <;> first | rfl | exact absurd rfl h

/-- Feeding a box comes to a fold over the points for each extreme, and to looking out for the
operation that the box cannot follow. -/
theorem recordAll_eq (calls : List (Operation × List Value)) (b : BoundingBox) :
    b.recordAll calls =
      ⟨((takenFrom calls).map Prod.fst).foldl lesser b.minX,
        ((takenFrom calls).map Prod.snd).foldl lesser b.minY,
        ((takenFrom calls).map Prod.fst).foldl greater b.maxX,
        ((takenFrom calls).map Prod.snd).foldl greater b.maxY,
        if .method .arcTo ∈ calls.map Prod.fst then some (.method .arcTo) else b.unsupported⟩ := by
  induction calls generalizing b with
  | nil => rfl
  | cons call calls ih =>
      obtain ⟨op, args⟩ := call
      have hcons : b.recordAll ((op, args) :: calls) = (b.record op args).recordAll calls := rfl
      have htaken : takenFrom ((op, args) :: calls) = op.taken args ++ takenFrom calls := rfl
      rw [hcons, htaken, ih, List.map_append, List.map_append]
      simp only [List.foldl_append, List.map_cons, List.mem_cons]
      -- an `arcTo` offers no points, and no other call has a part in the look-out
      by_cases hop : op = .method .arcTo
      · subst hop
        simp [record, Operation.taken, points]
      · rw [record_of_ne_arcTo hop, foldl_includePoint]
        simp only [Ne.symm hop, false_or]

theorem rect_eq_error_iff {b : BoundingBox} {fault : Fault} :
    b.rect = .error fault ↔ ∃ op, b.unsupported = some op ∧ fault = .notImplemented op := by
  unfold rect
  cases b.unsupported with
  | some op => simp [eq_comm]
  | none => split_ifs <;> simp

/-- Only an `arcTo` spoils the rectangle. -/
theorem rect_recordAll_new_eq_error_iff {calls : List (Operation × List Value)} {fault : Fault} :
    (new.recordAll calls).rect = .error fault ↔
      fault = .notImplemented (.method .arcTo) ∧ ∃ args, (.method .arcTo, args) ∈ calls := by
  have hmem : (∃ args, (.method .arcTo, args) ∈ calls) ↔ .method .arcTo ∈ calls.map Prod.fst := by
    simp
  rw [rect_eq_error_iff, recordAll_eq, hmem]
  by_cases h : .method .arcTo ∈ calls.map Prod.fst
  · simp [h]
  · simp [h, new]

/-- One side of a box, from a low end to a high end, spans some numbers: it leaves none out and
reaches no further than it has to, but that its high end starts at zero. -/
structure Spans (low high : Float) (xs : List Float) : Prop where
  covers : ∀ x ∈ xs, x.isNaN = false → low ≤ x ∧ x ≤ high
  low : low = Binary64.ofMagnitude false Binary64.infinity ∨ low ∈ xs
  high : high = 0 ∨ high ∈ xs

theorem spans_foldl (xs : List Float) :
    Spans (xs.foldl lesser new.minX) (xs.foldl greater new.maxX) xs := by
  have hlow := chooses_lesser.extreme_foldl (by decide : new.minX.isNaN = false) xs
  have hhigh := chooses_greater.extreme_foldl (by decide : new.maxX.isNaN = false) xs
  refine ⟨fun x hx hnan => ⟨?_, ?_⟩, hlow.eq_or_mem, hhigh.eq_or_mem⟩
  · exact (Binary64.le_iff_value_le hlow.isNaN hnan).2 (hlow.covers x hx hnan)
  · exact (Binary64.le_iff_value_le hnan hhigh.isNaN).2 (hhigh.covers x hx hnan)

/-- Two boxes that are the same but for the signs of zeros. -/
structure Alike (b c : BoundingBox) : Prop where
  minX : (b.minX == c.minX) = true
  minY : (b.minY == c.minY) = true
  maxX : (b.maxX == c.maxX) = true
  maxY : (b.maxY == c.maxY) = true
  unsupported : b.unsupported = c.unsupported

/-- The extremes of a box, which is all but the operation that it cannot follow. -/
def extremes (b : BoundingBox) : Float × Float × Float × Float := (b.minX, b.minY, b.maxX, b.maxY)

theorem takenFrom_sinceReset {steps : List Step}
    (h : ∀ call ∈ sinceReset steps, (call.1.spots? call.2).isSome) :
    takenFrom (sinceReset steps) = offered steps := by
  refine List.flatMap_congr fun call hcall => ?_
  obtain ⟨ps, hps⟩ := Option.isSome_iff_exists.1 (h call hcall)
  rw [hps, Operation.taken_eq_of_spots? hps, Option.getD_some]

theorem alike_recordAll {calls later : List (Operation × List Value)}
    (h : ∀ call, call ∈ calls ↔ call ∈ later) :
    Alike (new.recordAll calls) (new.recordAll later) := by
  have hpoints (p : Float × Float) : p ∈ takenFrom calls ↔ p ∈ takenFrom later := by
    simp only [takenFrom, List.mem_flatMap, h]
  have hxs (x : Float) :
      x ∈ (takenFrom calls).map Prod.fst ↔ x ∈ (takenFrom later).map Prod.fst := by
    simp only [List.mem_map, hpoints]
  have hys (y : Float) :
      y ∈ (takenFrom calls).map Prod.snd ↔ y ∈ (takenFrom later).map Prod.snd := by
    simp only [List.mem_map, hpoints]
  have hlow := chooses_lesser.extreme_foldl (by decide : new.minX.isNaN = false)
  have hhigh := chooses_greater.extreme_foldl (by decide : new.maxX.isNaN = false)
  rw [recordAll_eq, recordAll_eq]
  refine ⟨(hlow _).beq (hlow _) hxs, (hlow _).beq (hlow _) hys, (hhigh _).beq (hhigh _) hxs,
    (hhigh _).beq (hhigh _) hys, ?_⟩
  simp only [List.mem_map, h]

theorem extremes_record_of_reach {op : Operation} (h : op.reach = 0) (b : BoundingBox)
    (args : List Value) : (b.record op args).extremes = b.extremes := by
  by_cases hop : op = .method .arcTo
  · subst hop
    rfl
  · rw [record_of_ne_arcTo hop, Operation.taken_of_reach h]
    rfl

/-- Among steps of which those that draw somewhere have numbers for it, a box spans the points that
have been offered since the last reset. In whatever order the same records come, and however often
each, the box is the same but for the signs of zeros. Operations that draw nowhere leave the
extremes alone, and the rectangle is refused just if an `arcTo` has been recorded since the last
reset. -/
theorem box_spans_offered :
    (∀ steps, (∀ call ∈ sinceReset steps, (call.1.spots? call.2).isSome) →
        Spans (run steps).minX (run steps).maxX ((offered steps).map Prod.fst) ∧
          Spans (run steps).minY (run steps).maxY ((offered steps).map Prod.snd)) ∧
      (∀ steps steps', (∀ call, call ∈ sinceReset steps ↔ call ∈ sinceReset steps') →
        Alike (run steps) (run steps')) ∧
      (∀ (b : BoundingBox) (op : Operation) (args : List Value), op.reach = 0 →
        (b.record op args).extremes = b.extremes) ∧
      ∀ steps fault, (run steps).rect = .error fault ↔
        fault = .notImplemented (.method .arcTo) ∧
          ∃ args, (.method .arcTo, args) ∈ sinceReset steps := by
  refine ⟨fun steps h => ?_, fun steps steps' h => ?_, fun b op args h => ?_, fun steps fault => ?_⟩
  · rw [run_eq, recordAll_eq, takenFrom_sinceReset h]
    exact ⟨spans_foldl _, spans_foldl _⟩
  · rw [run_eq, run_eq]
    exact alike_recordAll h
  · exact extremes_record_of_reach h b args
  · rw [run_eq]
    exact rect_recordAll_new_eq_error_iff

/-- A rectangle drawn to the left, an arc of negative radius and a stroke after a reset. -/
theorem box_spans_offered_leftward :
    let steps : List Step := [.record Method.arcTo [], .reset,
      .record Method.fillRect [.number 10, .number 2, .number (-4), .number 3],
      .record Method.stroke [], .record Method.arc [.number 1, .number 1, .number (-2)]]
    (offered steps).map Prod.fst = [10, 6, 3, -1] ∧
      Spans (run steps).minX (run steps).maxX ((offered steps).map Prod.fst) ∧
      Alike (run steps) (run (steps ++ steps.drop 2)) ∧
      (new.record Method.arcTo []).extremes = new.extremes ∧
      (run steps).rect.toOption = some ⟨-1, -1, 11, 6⟩ ∧
      (run (steps.take 1)).rect = .error (.notImplemented Method.arcTo) := by
  intro steps
  obtain ⟨hspans, halike, hextremes, hrect⟩ := box_spans_offered
  have htwice : sinceReset (steps ++ steps.drop 2) = sinceReset steps ++ sinceReset steps := by
    decide +kernel
  refine ⟨by decide +kernel, (hspans steps (by decide +kernel)).1,
    halike _ _ (by simp [htwice]), hextremes _ _ _ rfl, by decide +kernel,
    (hrect _ _).2 ⟨rfl, [], by decide +kernel⟩⟩

end BoundingBox

end DisplayList
