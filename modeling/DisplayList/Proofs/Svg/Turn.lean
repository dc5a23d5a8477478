import DisplayList.Proofs.Svg.Sweep

/-!
# How an arc is put together

An arc is drawn behind what has been drawn already, and a full turn is drawn as two halves that are
drawn in the same way, each as an arc of its own: `Arc.Extends` follows that recursion. Whenever it
comes to an end, what had been drawn before is still there in front, `Arc.prefix_of_extends`, and as
long as the halves are less than a full turn themselves it comes to `Arc.tokens`,
`Arc.extends_iff`. `Arc.tokens_decided` writes the tokens out, for an arc that ends where it
starts, for one in a single piece and for a full turn.
-/

namespace DisplayList

namespace Arc

variable {a : Arc} {first : Bool} {d d' : List String}

/-- What drawing an arc behind some tokens comes to. -/
inductive Extends : Arc → Bool → List String → List String → Prop
  | nothing {a : Arc} {first : Bool} {d : List String} (h : (a.start == a.finish) = true) :
      Extends a first d d
  | piece {a : Arc} {first : Bool} {d : List String} (hne : (a.start == a.finish) = false)
      (hpart : ¬ fullTurn ≤ a.extent) : Extends a first d (d ++ a.segment first)
  | turn {a : Arc} {first : Bool} {d half full : List String}
      (hne : (a.start == a.finish) = false) (hturn : fullTurn ≤ a.extent)
      (hfirst : Extends a.firstHalf first d half) (hsecond : Extends a.secondHalf false half full) :
      Extends a first d (full ++ a.leadTo "M" a.finish)

/-- An arc is drawn behind what has been drawn, which is left as it is. -/
theorem prefix_of_extends (h : a.Extends first d d') : d <+: d' := by
  induction h with
  | nothing => exact List.prefix_rfl
  | piece => exact List.prefix_append _ _
  | turn _ _ _ _ hfirst hsecond => exact (hfirst.trans hsecond).trans (List.prefix_append _ _)

theorem extends_piece_iff (h : ¬ fullTurn ≤ a.extent) :
    a.Extends first d d' ↔ d' = d ++ a.piece first := by
  rw [piece]
  constructor
  · rintro (hend | ⟨hne, -⟩ | ⟨-, hturn, -, -⟩)
    · rw [if_pos hend, List.append_nil]
    · rw [hne, if_neg Bool.false_ne_true]
    · exact absurd hturn h
  · rintro rfl
    split
    · next hend =>
      rw [List.append_nil]
      exact .nothing hend
    · next hne => exact .piece (Bool.eq_false_iff.2 hne) h

/-- Angles that are equal are no full turn apart. Two equal infinities have no distance at all. -/
theorem start_ne_finish_of_turn (h : fullTurn ≤ a.extent) : (a.start == a.finish) = false := by
  refine Bool.eq_false_iff.2 fun hend => ?_
  obtain ⟨hstart, hfinish⟩ := Binary64.isNaN_of_beq hend
  have hvalue := (Binary64.beq_iff_value_eq hstart hfinish).1 hend
  cases hfinite : a.start.isFinite with
  | true =>
      have hfinite' : a.finish.isFinite = true :=
        Binary64.isFinite_of_abs_value_lt hfinish (hvalue ▸ Binary64.abs_value_lt hfinite)
      have hextent := roundsTo_extent hfinite hfinite'
      have hdistance : a.distance = 0 := by rw [distance, hvalue, sub_self, abs_zero]
      have hle := (Binary64.le_iff_value_le rfl hextent.isNaN).1 h
      have hzero := hextent.nonpos hdistance.le
      rw [Binary64.value_fullTurn] at hle
      exact absurd (hle.trans hzero) (by norm_num)
  | false =>
      have hsame := Binary64.eq_of_value_eq_of_not_isFinite hstart hfinish hfinite hvalue.symm
      rw [extent, hsame, Binary64.eq_infinity_of_not_isFinite hstart hfinite] at h
      cases hnegative : Binary64.isNegative a.start
      all_goals
        rw [hnegative] at h
        exact absurd h (by decide +kernel)

/-- As long as the halves of a full turn are less than one, drawing an arc comes to an end, and what
it puts behind the rest are the tokens of the arc. -/
theorem extends_iff (h : fullTurn ≤ a.extent →
      ¬ fullTurn ≤ a.firstHalf.extent ∧ ¬ fullTurn ≤ a.secondHalf.extent) :
    a.Extends first d d' ↔ d' = d ++ a.tokens first := by
  by_cases hturn : fullTurn ≤ a.extent
  · obtain ⟨hfirst, hsecond⟩ := h hturn
    have hne := start_ne_finish_of_turn hturn
    have htokens : d ++ a.tokens first =
        d ++ a.firstHalf.piece first ++ a.secondHalf.piece false ++ a.leadTo "M" a.finish := by
      rw [tokens, hne, if_neg Bool.false_ne_true, if_pos hturn, List.append_assoc,
        List.append_assoc, List.append_assoc]
    rw [htokens]
    constructor
    · rintro (hend | ⟨-, hpart⟩ | ⟨-, -, hhalf, hfull⟩)
      · exact absurd hend (Bool.eq_false_iff.1 hne)
      · exact absurd hturn hpart
      · rw [(extends_piece_iff hsecond).1 hfull, (extends_piece_iff hfirst).1 hhalf]
    · rintro rfl
      exact .turn hne hturn ((extends_piece_iff hfirst).2 rfl) ((extends_piece_iff hsecond).2 rfl)
  · have htokens : a.tokens first = a.piece first := by rw [tokens, if_neg hturn, piece]
    rw [extends_piece_iff hturn, htokens]

/-- If the second half of a full turn is that full turn again, drawing it never comes to an end. -/
theorem not_extends_of_secondHalf_eq (hturn : fullTurn ≤ a.extent) (hsame : a.secondHalf = a) :
    ¬ a.Extends first d d' := by
  intro h
  -- Whatever drawing the arc comes to, it has drawn the second half before, the same arc.
  induction h with
  | nothing hend => exact absurd hend (Bool.eq_false_iff.1 (start_ne_finish_of_turn hturn))
  | piece _ hpart => exact hpart hturn
  | turn _ _ _ _ _ hsecond => exact hsecond (by rwa [hsame]) (congrArg secondHalf hsame)

-- Numbers of this size are eight apart, which loses half a turn and rounds a full one up.
example :
    let a : Arc := ⟨0, 0, 10, 36028797018963968, 36028797018963976, false⟩
    fullTurn ≤ a.extent ∧ a.secondHalf = a := by
  decide +kernel

/-! ### The tokens in full -/

/-- The tokens of the point at an angle. -/
def point (a : Arc) (angle : Float) : List String :=
  [numberToken (a.pointX angle), numberToken (a.pointY angle)]

/-- An arc puts some tokens behind what has been drawn, and nothing else. -/
structure Appends (a : Arc) (first : Bool) (tokens : List String) : Prop where
  tokens_eq : a.tokens first = tokens
  extends_iff (d d' : List String) : a.Extends first d d' ↔ d' = d ++ tokens

theorem appends_of_tokens_eq {tokens : List String} (h : a.tokens first = tokens)
    (hhalves : fullTurn ≤ a.extent →
      a.firstHalf.extent < fullTurn ∧ a.secondHalf.extent < fullTurn) :
    a.Appends first tokens where
  tokens_eq := h
  extends_iff d d' := by
    rw [← h]
    exact extends_iff fun hturn =>
      (hhalves hturn).imp Binary64.not_le_of_lt Binary64.not_le_of_lt

theorem count_leadTo {command : String} (hcommand : command ≠ "A") (angle : Float) :
    (a.leadTo command angle).count "A" = 0 := by
  rw [leadTo, tokensOf, List.count_cons_of_ne hcommand, List.count_eq_zero]
  exact command_notMem_tokens _

theorem count_segment (a : Arc) (first : Bool) : (a.segment first).count "A" = 1 := by
  have hlead : (if first then "M" else "L") ≠ "A" := by cases first <;> decide
  have hparameters := List.count_eq_zero.2 (command_notMem_tokens
    [a.radius, a.radius, a.degrees, a.largeFlag, a.sweepFlag, a.pointX a.finish,
      a.pointY a.finish])
  rw [segment, List.count_append, count_leadTo hlead, tokensOf, List.count_cons_self, hparameters]

theorem tokens_of_part (hne : (a.start == a.finish) = false) (h : ¬ fullTurn ≤ a.extent) :
    a.tokens first = a.segment first := by
  rw [tokens, hne, if_neg Bool.false_ne_true, if_neg h]

theorem tokens_of_turn (h : fullTurn ≤ a.extent)
    (hfirst : (a.firstHalf.start == a.firstHalf.finish) = false)
    (hsecond : (a.secondHalf.start == a.secondHalf.finish) = false) :
    a.tokens first =
      a.firstHalf.segment first ++ a.secondHalf.segment false ++ a.leadTo "M" a.finish := by
  rw [tokens, start_ne_finish_of_turn h, if_neg Bool.false_ne_true, if_pos h, piece, piece, hfirst,
    hsecond, if_neg Bool.false_ne_true, if_neg Bool.false_ne_true]

/-- What has been drawn stands in front of whatever drawing an arc comes to. An arc that ends where
it starts puts nothing behind it. One whose angles are not known to be a full turn apart leads to
its start, with a move if it is the first and a line otherwise, and is drawn from there to its end.
A full turn whose halves are arcs of less than that is drawn to the middle. The second half leads to
the same two tokens and is drawn from there once around, with the same radius and in the same
direction. Then comes a move to the point at the end angle. -/
theorem tokens_decided (a : Arc) (first : Bool) :
    let lead := if first then "M" else "L"
    let radius := numberToken a.radius
    let sweep := numberToken a.sweepFlag
    let middle := a.start + halfTurn
    let around := a.start + fullTurn
    (∀ d d', a.Extends first d d' → d <+: d') ∧
      ((a.start == a.finish) = true → a.Appends first []) ∧
      ((a.start == a.finish) = false → ¬ fullTurn ≤ (a.finish - a.start).abs →
        ∃ tokens, a.Appends first tokens ∧ tokens.length = 11 ∧
          tokens = [lead] ++ a.point a.start ++
            ["A", radius, radius, numberToken a.degrees, numberToken a.largeFlag, sweep] ++
            a.point a.finish) ∧
      (fullTurn ≤ (a.finish - a.start).abs → (a.start == middle) = false →
        (middle == around) = false → (middle - a.start).abs < fullTurn →
        (around - middle).abs < fullTurn →
        ∃ tokens, a.Appends first tokens ∧ tokens.length = 25 ∧ tokens.count "A" = 2 ∧
          tokens = [lead] ++ a.point a.start ++
            ["A", radius, radius, numberToken a.firstHalf.degrees,
              numberToken a.firstHalf.largeFlag, sweep] ++ a.point middle ++
            ["L"] ++ a.point middle ++
            ["A", radius, radius, numberToken a.secondHalf.degrees,
              numberToken a.secondHalf.largeFlag, sweep] ++ a.point around ++
            ["M"] ++ a.point a.finish) := by
  intro lead radius sweep middle around
  refine ⟨fun d d' => prefix_of_extends, fun hend => ?_, fun hne hpart => ?_,
    fun hturn hfirst hsecond hhalf hhalf' => ?_⟩
  · have hpart : ¬ fullTurn ≤ a.extent := fun hturn =>
      absurd hend (Bool.eq_false_iff.1 (start_ne_finish_of_turn hturn))
    refine appends_of_tokens_eq ?_ fun hturn => absurd hturn hpart
    rw [tokens, if_pos hend]
  · have htokens : a.tokens first = a.segment first := tokens_of_part hne hpart
    exact ⟨_, appends_of_tokens_eq htokens fun hturn => absurd hturn hpart, rfl, rfl⟩
  · have htokens : a.tokens first = _ := tokens_of_turn hturn hfirst hsecond
    refine ⟨_, appends_of_tokens_eq htokens fun _ => ⟨hhalf, hhalf'⟩, rfl, ?_, rfl⟩
    rw [List.count_append, List.count_append, count_segment, count_segment,
      count_leadTo (by decide)]

/-- An arc that stays where it is, one to an angle that is no number, more than a full turn that is
not the first to be drawn, and a full turn at angles so large that neither half gets anywhere. -/
theorem tokens_decided_one_eight :
    let still : Arc := ⟨1, 2, 10, 3, 3, false⟩
    let part : Arc := ⟨1, 2, 10, 3, 0 / 0, false⟩
    let turn : Arc := ⟨1, 2, 10, 1, 8, true⟩
    let wide : Arc := ⟨1, 2, 10, 144115188075855872, 288230376151711744, false⟩
    still.Appends true [] ∧
      (∃ tokens, part.Appends true tokens ∧ tokens.length = 11 ∧
        tokens.take 3 = "M" :: part.point 3) ∧
      (∃ tokens, turn.Appends false tokens ∧ tokens.length = 25 ∧ tokens.count "A" = 2 ∧
        tokens.take 3 = "L" :: turn.point 1 ∧
        (tokens.drop 11).take 3 = "L" :: (tokens.drop 9).take 2 ∧
        tokens.drop 22 = "M" :: turn.point 8) ∧
      ∃ d, wide.Extends false ["M", "0,0"] d ∧ ["M", "0,0"] <+: d := by
  intro still part turn wide
  obtain ⟨tokens, hpart, hlength, htokens⟩ := (tokens_decided part true).2.2.1
    (by decide +kernel) (by decide +kernel)
  obtain ⟨tokens', hturn, hlength', hcount, htokens'⟩ := (tokens_decided turn false).2.2.2
    (by decide +kernel) (by decide +kernel) (by decide +kernel) (by decide +kernel)
    (by decide +kernel)
  have hwide : wide.Extends false ["M", "0,0"] (["M", "0,0"] ++ wide.leadTo "M" wide.finish) :=
    .turn (by decide +kernel) (by decide +kernel) (.nothing (by decide +kernel))
      (.nothing (by decide +kernel))
  refine ⟨(tokens_decided still true).2.1 (by decide +kernel), ⟨tokens, hpart, hlength, ?_⟩,
    ⟨tokens', hturn, hlength', hcount, ?_, ?_, ?_⟩, _, hwide,
    (tokens_decided wide false).1 _ _ hwide⟩
  · rw [htokens]
    rfl
  all_goals rw [htokens']; rfl

end Arc

end DisplayList
