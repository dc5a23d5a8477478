import DisplayList.Proofs.Geometry.Incomplete
import DisplayList.Proofs.Number.Arithmetic

/-!
# Boxes without geometry

A box counts as empty while its left end is infinite. If all numbers are finite, every call that
draws somewhere offers a point to the left of infinity (`exists_taken_lt`), so the left end is drawn
in as soon as there is such a call. But the sum or the difference that an edge is may overflow, and
then the left end is infinite on the other side. Besides, an incomplete curve fills a box by its
pairs. `isEmpty_run_iff` says that these are the only cases in which a box does not tell whether
something has been drawn.
-/

namespace DisplayList

open Binary64 (value)

/-- The infinity to the left of every number. -/
def leftInfinity : Float := Binary64.ofMagnitude true Binary64.infinity

/-- A call that has to say where it draws and says so with numbers. -/
def Drawn (call : Operation × List Value) : Prop :=
  call.1.reach ≠ 0 ∧ (numbers? call.1.reach call.2).isSome

instance : DecidablePred Drawn := fun _ => inferInstanceAs (Decidable (_ ∧ _))

/-- A curve that lacks a number but has a pair of them. -/
structure Ragged (call : Operation × List Value) : Prop where
  curve : call.1 = .method .bezierCurveTo
  lacks : numbers? call.1.reach call.2 = none
  pair : ∃ i ∈ [0, 2, 4], pointAt call.2 i ≠ []

/-- All numbers among the arguments of a call are finite. -/
def FiniteNumbers (call : Operation × List Value) : Prop :=
  ∀ x, .number x ∈ call.2 → x.isFinite = true

theorem finiteNumbers_iff {call : Operation × List Value} :
    FiniteNumbers call ↔ ∀ v ∈ call.2, v.number?.all Float.isFinite = true := by
  constructor
  · intro h v hv
    cases v with
    | number x => exact h x hv
    | _ => rfl
  · intro h x hx
    exact h _ hx

instance : DecidablePred FiniteNumbers := fun _ => decidable_of_iff _ finiteNumbers_iff.symm

section Call

variable {call : Operation × List Value}

theorem mem_of_mem_pointAt {args : List Value} {i : Nat} {p : Float × Float}
    (h : p ∈ pointAt args i) : .number p.1 ∈ args := by
  unfold pointAt at h
  split at h
  · next hx hy =>
    obtain rfl := List.mem_singleton.1 h
    exact List.mem_of_getElem? hx
  · exact absurd h List.not_mem_nil

theorem taken_of_curve (h : call.1 = .method .bezierCurveTo) :
    call.1.taken call.2 = pointAt call.2 0 ++ pointAt call.2 2 ++ pointAt call.2 4 := by
  rw [h]
  rfl

theorem isFinite_of_mem_curve (hfinite : FiniteNumbers call)
    (hcurve : call.1 = .method .bezierCurveTo) {p : Float × Float}
    (hp : p ∈ call.1.taken call.2) : p.1.isFinite = true := by
  rw [taken_of_curve hcurve, List.mem_append, List.mem_append] at hp
  rcases hp with (hp | hp) | hp
  all_goals exact hfinite _ (mem_of_mem_pointAt hp)

/-- Of the two ends of an arc at least one is to the left of infinity. -/
theorem sub_or_add_lt {x r : Float} (hx : x.isFinite = true) (hr : r.isFinite = true) :
    value (x - r) < Binary64.overflow ∨ value (x + r) < Binary64.overflow := by
  have hrange := (Binary64.abs_value_lt hx).le
  have hlt : value x < Binary64.overflow := (le_abs_self _).trans_lt (Binary64.abs_value_lt hx)
  rcases le_total 0 (value r) with hsign | hsign
  · left
    exact ((Binary64.roundsTo_sub hx hr).value_le (Binary64.representable_value hx) hrange
      (by linarith)).trans_lt hlt
  · right
    exact ((Binary64.roundsTo_add hx hr).value_le (Binary64.representable_value hx) hrange
      (by linarith)).trans_lt hlt

theorem exists_spot_lt {op : Operation} (hop : op.reach ≠ 0) {xs : List Float}
    (hlength : xs.length = op.reach) (hfinite : ∀ x ∈ xs, x.isFinite = true) :
    ∃ p ∈ op.spots xs, p.1.isNaN = false ∧ value p.1 < Binary64.overflow := by
  have hfirst : ∀ x ∈ xs, x.isNaN = false ∧ value x < Binary64.overflow := fun x hx =>
    ⟨Binary64.isNaN_of_isFinite (hfinite x hx),
      (le_abs_self _).trans_lt (Binary64.abs_value_lt (hfinite x hx))⟩
  cases op with
  | property p => exact absurd rfl hop
  | method m =>
      cases m with
      | moveTo | lineTo =>
          match xs, hlength with
          | [x, y], _ => exact ⟨_, List.mem_cons_self, hfirst x List.mem_cons_self⟩
      | strokeRect | fillRect | clearRect =>
          match xs, hlength with
          | [x, y, w, h], _ => exact ⟨_, List.mem_cons_self, hfirst x List.mem_cons_self⟩
      | bezierCurveTo =>
          match xs, hlength with
          | [cp1x, cp1y, cp2x, cp2y, x, y], _ =>
            exact ⟨_, List.mem_cons_self, hfirst cp1x List.mem_cons_self⟩
      | arc =>
          match xs, hlength with
          | [x, y, r], _ =>
            have hx := hfinite x (by simp)
            have hr := hfinite r (by simp)
            rcases sub_or_add_lt hx hr with hlt | hlt
            · exact ⟨(x - r, y - r), by simp [Operation.spots],
                (Binary64.roundsTo_sub hx hr).isNaN, hlt⟩
            · exact ⟨(x + r, y + r), by simp [Operation.spots],
                (Binary64.roundsTo_add hx hr).isNaN, hlt⟩
      | _ => exact absurd rfl hop

/-- A call that draws with finite numbers, if only a part of a curve, offers a box a point to the
left of infinity. -/
theorem exists_taken_lt (hfinite : FiniteNumbers call) (h : Drawn call ∨ Ragged call) :
    ∃ p ∈ call.1.taken call.2, p.1.isNaN = false ∧ value p.1 < Binary64.overflow := by
  rcases h with ⟨hreach, hsome⟩ | ⟨hcurve, -, i, hi, hpair⟩
  · obtain ⟨xs, hxs⟩ := Option.isSome_iff_exists.1 hsome
    obtain ⟨hlength, rest, hargs⟩ := eq_append_of_numbers? hxs
    have htaken := Operation.taken_eq_of_spots? (congrArg (Option.map call.1.spots) hxs)
    rw [htaken]
    refine exists_spot_lt hreach hlength fun x hx => hfinite x ?_
    rw [hargs]
    exact List.mem_append_left _ (List.mem_map_of_mem hx)
  · obtain ⟨p, hp⟩ := List.exists_mem_of_ne_nil _ hpair
    have hmem : p ∈ call.1.taken call.2 := by
      rw [taken_of_curve hcurve]
      simp only [List.mem_cons, List.not_mem_nil, or_false] at hi
      rcases hi with rfl | rfl | rfl <;> simp [hp]
    have hx := isFinite_of_mem_curve hfinite hcurve hmem
    exact ⟨p, hmem, Binary64.isNaN_of_isFinite hx,
      (le_abs_self _).trans_lt (Binary64.abs_value_lt hx)⟩

/-- A call that draws nowhere offers a box nothing. -/
theorem taken_eq_nil (hdrawn : ¬ Drawn call) (hragged : ¬ Ragged call) :
    call.1.taken call.2 = [] := by
  by_cases hreach : call.1.reach = 0
  · exact Operation.taken_of_reach hreach _
  · have hnone : numbers? call.1.reach call.2 = none := by
      rw [← Option.not_isSome_iff_eq_none]
      exact fun hsome => hdrawn ⟨hreach, hsome⟩
    by_cases hcurve : call.1 = .method .bezierCurveTo
    · have hpair : ∀ i ∈ [0, 2, 4], pointAt call.2 i = [] := by
        intro i hi
        by_contra hne
        exact hragged ⟨hcurve, hnone, i, hi, hne⟩
      rw [taken_of_curve hcurve]
      simp [hpair]
    · exact Operation.taken_of_lacking hnone hcurve

end Call

namespace BoundingBox

/-- The least of some numbers and infinity is infinite if one of the numbers lies to the left of all
others, or if none of them is left of infinity. -/
theorem isInf_foldl_lesser_iff {xs : List Float} :
    (xs.foldl lesser new.minX).isInf = true ↔
      leftInfinity ∈ xs ∨ ∀ x ∈ xs, x.isNaN = false → Binary64.overflow ≤ value x := by
  have hleast := chooses_lesser.extreme_foldl (by decide : new.minX.isNaN = false) xs
  generalize xs.foldl lesser new.minX = least at hleast
  constructor
  · intro hinf
    have hsign := Binary64.ofMagnitude_magnitude least
    rw [Binary64.magnitude_eq_infinity hinf] at hsign
    cases hnegative : Binary64.isNegative least with
    | true =>
        rw [hnegative] at hsign
        rcases hleast.eq_or_mem with hstart | hmem
        · rw [hstart] at hnegative
          exact absurd hnegative (by decide)
        · rw [← hsign] at hmem
          exact .inl hmem
    | false =>
        rw [hnegative] at hsign
        refine .inr fun x hx hnan => ?_
        rw [← Binary64.value_infinity, hsign]
        exact hleast.covers x hx hnan
  · rintro (hmem | hall)
    · have hle := hleast.covers _ hmem (by decide)
      rw [leftInfinity, Binary64.value_neg_infinity] at hle
      rw [Binary64.eq_neg_infinity_of_le hleast.isNaN hle]
      decide
    · have hle : Binary64.overflow ≤ value least := by
        rcases hleast.eq_or_mem with hstart | hmem
        · rw [hstart]
          exact Binary64.value_infinity.ge
        · exact hall least hmem hleast.isNaN
      rw [Binary64.eq_infinity_of_overflow_le hleast.isNaN hle]
      decide

section Run

variable {steps : List Step}

theorem isEmpty_run (steps : List Step) :
    (run steps).isEmpty =
      (((takenFrom (sinceReset steps)).map Prod.fst).foldl lesser new.minX).isInf := by
  rw [run_eq, recordAll_eq]
  rfl

/-- Only an edge that has been worked out can be infinite, so a complete call is to blame. -/
theorem leftInfinity_mem_iff (hfinite : ∀ call ∈ sinceReset steps, FiniteNumbers call) :
    leftInfinity ∈ (takenFrom (sinceReset steps)).map Prod.fst ↔
      leftInfinity ∈ (offered steps).map Prod.fst := by
  simp only [List.mem_map, takenFrom, offered, List.mem_flatMap]
  constructor
  · rintro ⟨p, ⟨call, hcall, hp⟩, hleft⟩
    refine ⟨p, ⟨call, hcall, ?_⟩, hleft⟩
    cases hspots : call.1.spots? call.2 with
    | some ps => rwa [← Operation.taken_eq_of_spots? hspots]
    | none =>
        have hnone : numbers? call.1.reach call.2 = none := Option.map_eq_none_iff.1 hspots
        by_cases hcurve : call.1 = .method .bezierCurveTo
        · have hx := isFinite_of_mem_curve (hfinite call hcall) hcurve hp
          rw [hleft] at hx
          exact absurd hx (by decide)
        · rw [Operation.taken_of_lacking hnone hcurve] at hp
          exact absurd hp List.not_mem_nil
  · rintro ⟨p, ⟨call, hcall, hp⟩, hleft⟩
    refine ⟨p, ⟨call, hcall, ?_⟩, hleft⟩
    cases hspots : call.1.spots? call.2 with
    | some ps =>
        rw [hspots] at hp
        rwa [Operation.taken_eq_of_spots? hspots]
    | none =>
        rw [hspots] at hp
        exact absurd hp List.not_mem_nil

/-- What is offered is offered by a call that draws. -/
theorem exists_drawn_of_mem_offered {p : Float × Float} (h : p ∈ offered steps) :
    ∃ call ∈ sinceReset steps, Drawn call := by
  obtain ⟨call, hcall, hp⟩ := List.mem_flatMap.1 h
  cases hspots : call.1.spots? call.2 with
  | none =>
      rw [hspots] at hp
      exact absurd hp List.not_mem_nil
  | some ps =>
      refine ⟨call, hcall, fun hreach => ?_, ?_⟩
      · rw [hspots, Option.getD_some, ← Operation.taken_eq_of_spots? hspots,
          Operation.taken_of_reach hreach] at hp
        exact List.not_mem_nil hp
      · exact Option.isSome_map.symm.trans (congrArg Option.isSome hspots)

theorem isEmpty_run_eq (hfinite : ∀ call ∈ sinceReset steps, FiniteNumbers call) :
    (run steps).isEmpty = true ↔
      leftInfinity ∈ (offered steps).map Prod.fst ∨
        ∀ call ∈ sinceReset steps, ¬ Drawn call ∧ ¬ Ragged call := by
  rw [isEmpty_run, isInf_foldl_lesser_iff, leftInfinity_mem_iff hfinite]
  refine or_congr_right ⟨fun hall call hcall => ?_, fun hnone x hx => ?_⟩
  · rw [← not_or]
    intro hdraws
    obtain ⟨p, hp, hnan, hlt⟩ := exists_taken_lt (hfinite call hcall) hdraws
    have hmem : p.1 ∈ (takenFrom (sinceReset steps)).map Prod.fst :=
      List.mem_map_of_mem (List.mem_flatMap.2 ⟨call, hcall, hp⟩)
    exact hlt.not_ge (hall p.1 hmem hnan)
  · obtain ⟨p, hp, rfl⟩ := List.mem_map.1 hx
    obtain ⟨call, hcall, hp⟩ := List.mem_flatMap.1 hp
    rw [taken_eq_nil (hnone call hcall).1 (hnone call hcall).2] at hp
    exact absurd hp List.not_mem_nil

/-- Among calls whose numbers are finite, a box is empty just if the left end of what has been
offered since the last reset has overflown, or neither a complete call nor a pair of an incomplete
curve has been recorded since. So it is empty exactly if no complete call has been recorded, unless
an end has overflown or there are incomplete curves alone. -/
theorem isEmpty_run_iff (hfinite : ∀ call ∈ sinceReset steps, FiniteNumbers call) :
    ((run steps).isEmpty = true ↔
        leftInfinity ∈ (offered steps).map Prod.fst ∨
          ∀ call ∈ sinceReset steps, ¬ Drawn call ∧ ¬ Ragged call) ∧
      (((run steps).isEmpty = true ↔ ∀ call ∈ sinceReset steps, ¬ Drawn call) ↔
        leftInfinity ∉ (offered steps).map Prod.fst ∧
          ((∃ call ∈ sinceReset steps, Ragged call) → ∃ call ∈ sinceReset steps, Drawn call)) := by
  refine ⟨isEmpty_run_eq hfinite, ?_⟩
  rw [isEmpty_run_eq hfinite]
  by_cases hleft : leftInfinity ∈ (offered steps).map Prod.fst
  · obtain ⟨p, hp, -⟩ := List.mem_map.1 hleft
    have hdrawn := exists_drawn_of_mem_offered hp
    simp only [hleft, true_or, true_iff, not_true, false_and, iff_false]
    push Not
    exact hdrawn
  · simp only [hleft, false_or, not_false_eq_true, true_and]
    constructor
    · rintro hiff ⟨call, hcall, hragged⟩
      by_contra hnone
      push Not at hnone
      exact (hiff.2 hnone call hcall).2 hragged
    · intro himp
      refine ⟨fun hnone call hcall => (hnone call hcall).1, fun hnone call hcall => ?_⟩
      refine ⟨hnone call hcall, fun hragged => ?_⟩
      obtain ⟨drawn, hmem, hdrawn⟩ := himp ⟨call, hcall, hragged⟩
      exact hnone drawn hmem hdrawn

end Run

/-- After a reset a box is empty, stays so while moves lack a coordinate, and is not once a
rectangle has been drawn. -/
theorem isEmpty_run_iff_reset :
    let moved : List Step := [.record Method.arc [.number 1, .number 1, .number (-2)], .reset,
      .record Method.moveTo [.number 1, .text "1"]]
    let drawn := moved ++ [.record Method.strokeRect [.number 1, .number 2, .number 3, .number 4]]
    (∀ call ∈ sinceReset moved, FiniteNumbers call) ∧ (run moved).isEmpty = true ∧
      (∀ call ∈ sinceReset drawn, FiniteNumbers call) ∧
      ((run drawn).isEmpty = true ↔ ∀ call ∈ sinceReset drawn, ¬ Drawn call) := by
  intro moved drawn
  have hmoved : ∀ call ∈ sinceReset moved, FiniteNumbers call := by decide +kernel
  have hdrawn : ∀ call ∈ sinceReset drawn, FiniteNumbers call := by decide +kernel
  have hnothing : ∀ call ∈ sinceReset moved, ¬ Drawn call ∧ ¬ Ragged call := by
    intro call hcall
    obtain rfl := List.mem_singleton.1 hcall
    exact ⟨by decide, fun hragged => absurd hragged.curve nofun⟩
  have hleft : leftInfinity ∉ (offered drawn).map Prod.fst := by
    have hxs : (offered drawn).map Prod.fst = [1, 4] := by decide +kernel
    rw [hxs, List.mem_pair]
    decide
  have hrectangle : ∃ call ∈ sinceReset drawn, Drawn call := by decide +kernel
  exact ⟨hmoved, (isEmpty_run_iff hmoved).1.2 (.inr hnothing), hdrawn,
    (isEmpty_run_iff hdrawn).2.2 ⟨hleft, fun _ => hrectangle⟩⟩

/-- A rectangle that is drawn to the left from far on the left leaves a box that counts as empty. -/
theorem overflown_edge_empties_box :
    let steps : List Step := [.record Method.fillRect
      [.number (-1.7e308), .number 0, .number (-1.7e308), .number 1]]
    (∀ call ∈ sinceReset steps, FiniteNumbers call) ∧ (∃ call ∈ sinceReset steps, Drawn call) ∧
      (run steps).isEmpty = true ∧ (run steps).rect.toOption = some Rect.zero := by
  decide +kernel

end BoundingBox

end DisplayList
