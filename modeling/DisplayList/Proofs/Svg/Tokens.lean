import DisplayList.Proofs.Svg.Drawing

/-!
# Path data in full

What a drawing adds to path data, with every token written out. An arc is drawn in one piece,
`Arc.Piece`, or in two and a move if it is a full turn, `Arc.Drawing`. A record that can be exported
adds to the tokens that have been there before it, `Record.Adds`, and `Traced` takes records one
after the other. Records that are not refused can be drawn in one way only, which comes to
`pathTokens`: `traced_iff`.
-/

namespace DisplayList

open Value (display)

namespace Arc

/-- The tokens of an arc in one piece. It has none if it ends where it starts. -/
inductive Piece : Arc → Bool → List String → Prop
  | nothing {a : Arc} {first : Bool} (h : (a.start == a.finish) = true) : Piece a first []
  | drawn {a : Arc} {first : Bool} (h : (a.start == a.finish) = false) :
      Piece a first
        [if first then "M" else "L",
          display (.number (a.x + a.start.cos * a.radius)),
          display (.number (a.y + a.start.sin * a.radius)),
          "A", display (.number a.radius), display (.number a.radius),
          display (.number ((a.finish - a.start).abs * 180 / 3.141592653589793)),
          display (.number (if (180 ≤ (a.finish - a.start).abs * 180 / 3.141592653589793 : Bool) =
            a.clockwise then 0 else 1)),
          display (.number (if a.clockwise then 0 else 1)),
          display (.number (a.x + a.finish.cos * a.radius)),
          display (.number (a.y + a.finish.sin * a.radius))]

/-- The tokens of an arc. A full turn consists of two halves and a move to its end. -/
inductive Drawing : Arc → Bool → List String → Prop
  | nothing {a : Arc} {first : Bool} (h : (a.start == a.finish) = true) : Drawing a first []
  | part {a : Arc} {first : Bool} {tokens : List String} (hne : (a.start == a.finish) = false)
      (hpart : ¬ 2 * 3.141592653589793 ≤ (a.finish - a.start).abs) (h : Piece a first tokens) :
      Drawing a first tokens
  | turn {a : Arc} {first : Bool} {half half' : List String} (hne : (a.start == a.finish) = false)
      (hturn : 2 * 3.141592653589793 ≤ (a.finish - a.start).abs)
      (h : Piece { a with finish := a.start + 3.141592653589793 } first half)
      (h' : Piece
        { a with
          start := a.start + 3.141592653589793
          finish := a.start + 2 * 3.141592653589793 } false half') :
      Drawing a first (half ++ half' ++
        ["M", display (.number (a.x + a.finish.cos * a.radius)),
          display (.number (a.y + a.finish.sin * a.radius))])

variable {a : Arc} {first : Bool} {tokens : List String}

theorem piece_iff : a.Piece first tokens ↔ tokens = a.piece first := by
  rw [piece]
  constructor
  · rintro (h | h)
    · rw [if_pos h]
    · rw [h, if_neg Bool.false_ne_true]
      rfl
  · rintro rfl
    split
    · next h => exact .nothing h
    · next h => exact .drawn (Bool.eq_false_iff.2 h)

/-- An arc in one piece, by what is displayed of its radius, its angle and its flags. -/
theorem piece_of_display {radius degrees large sweep : String}
    (hne : (a.start == a.finish) = false) (hradius : display (.number a.radius) = radius)
    (hdegrees : display (.number ((a.finish - a.start).abs * 180 / 3.141592653589793)) = degrees)
    (hlarge : display (.number
      (if (180 ≤ (a.finish - a.start).abs * 180 / 3.141592653589793 : Bool) = a.clockwise
        then 0 else 1)) = large)
    (hsweep : display (.number (if a.clockwise then 0 else 1)) = sweep) :
    a.Piece first
      ([if first then "M" else "L"] ++
        [display (.number (a.x + a.start.cos * a.radius)),
          display (.number (a.y + a.start.sin * a.radius))] ++
        ["A", radius, radius, degrees, large, sweep] ++
        [display (.number (a.x + a.finish.cos * a.radius)),
          display (.number (a.y + a.finish.sin * a.radius))]) := by
  subst hradius hdegrees hlarge hsweep
  exact .drawn hne

/-- An arc is drawn in one way only. -/
theorem drawing_iff : a.Drawing first tokens ↔ tokens = a.tokens first := by
  rw [Arc.tokens]
  constructor
  · rintro (h | ⟨hne, hpart, h⟩ | ⟨hne, hturn, h, h'⟩)
    · rw [if_pos h]
    · rw [piece_iff.1 h, piece, hne, if_neg Bool.false_ne_true, if_neg Bool.false_ne_true]
      exact (if_neg hpart).symm
    · rw [piece_iff.1 h, piece_iff.1 h', hne, if_neg Bool.false_ne_true]
      exact (if_pos hturn).symm
  · rintro rfl
    split
    · next h => exact .nothing h
    · next h =>
      have hne := Bool.eq_false_iff.2 h
      split
      · next hturn => exact .turn hne hturn (piece_iff.2 rfl) (piece_iff.2 rfl)
      · next hpart => exact .part hne hpart (.drawn hne)

/-- An arc comes from five numbers, whatever stands behind them. -/
theorem exists_of_ofArgs {args : List Value} (h : ofArgs args = .ok a) :
    ∃ rest, args = .number a.x :: .number a.y :: .number a.radius :: .number a.start ::
      .number a.finish :: rest := by
  obtain ⟨x, hx, h⟩ := bind_eq_ok h
  obtain ⟨y, hy, h⟩ := bind_eq_ok h
  obtain ⟨radius, hradius, h⟩ := bind_eq_ok h
  obtain ⟨start, hstart, h⟩ := bind_eq_ok h
  obtain ⟨finish, hfinish, h⟩ := bind_eq_ok h
  obtain rfl := Except.ok.inj h
  replace hx := getElem?_of_number hx
  replace hy := getElem?_of_number hy
  replace hradius := getElem?_of_number hradius
  replace hstart := getElem?_of_number hstart
  replace hfinish := getElem?_of_number hfinish
  -- with fewer arguments, the first that is missing would have been reported
  rcases args with _ | ⟨_, _ | ⟨_, _ | ⟨_, _ | ⟨_, _ | ⟨_, rest⟩⟩⟩⟩⟩
  · cases hx
  · cases hy
  · cases hradius
  · cases hstart
  · cases hfinish
  · cases hx
    cases hy
    cases hradius
    cases hstart
    cases hfinish
    exact ⟨rest, rfl⟩

end Arc

/-- What a value has to be to count as true. -/
def Value.IsTrue : Value → Prop
  | .number x => (x == 0) = false ∧ x.isNaN = false
  | .flag b => b = true
  | .text s => s ≠ ""

/-- What a record adds to the tokens that are there. An arc is the first if there are none, and goes
clockwise if it has a sixth argument that counts as true. -/
inductive Record.Adds : Record → List String → List String → Prop
  | moveTo (args : List Value) (d : List String) :
      Adds (.call .moveTo args) d (d ++ ["M", ",".intercalate (args.map display)])
  | lineTo (args : List Value) (d : List String) :
      Adds (.call .lineTo args) d (d ++ ["L", " ".intercalate (args.map display)])
  | bezierCurveTo (args : List Value) (d : List String) :
      Adds (.call .bezierCurveTo args) d (d ++ ["C", " ".intercalate (args.map display)])
  | arc {x y radius start finish : Float} {rest : List Value} {clockwise : Bool}
      {d tokens : List String}
      (hclockwise : clockwise = true ↔ ∃ v, rest.head? = some v ∧ v.IsTrue)
      (h : Arc.Drawing ⟨x, y, radius, start, finish, clockwise⟩ d.isEmpty tokens) :
      Adds (.call .arc (.number x :: .number y :: .number radius :: .number start ::
        .number finish :: rest)) d (d ++ tokens)
  | stroke (args : List Value) (d : List String) : Adds (.call .stroke args) d d
  | fill (args : List Value) (d : List String) : Adds (.call .fill args) d d
  | lineWidth (value : Value) (d : List String) : Adds (.set .lineWidth value) d d

/-- What records add to the tokens that are there, one after the other. -/
inductive Traced : List Record → List String → List String → Prop
  | nil (d : List String) : Traced [] d d
  | cons {r : Record} {rest : List Record} {d d' d'' : List String} (h : r.Adds d d')
      (hrest : Traced rest d' d'') : Traced (r :: rest) d d''

variable {r : Record} {records : List Record} {d d' : List String}

theorem Value.truthy_iff (v : Value) : v.truthy = true ↔ v.IsTrue := by
  cases v <;> simp [truthy, IsTrue, bne]

theorem any_truthy_iff (rest : List Value) :
    rest.head?.any Value.truthy = true ↔ ∃ v, rest.head? = some v ∧ v.IsTrue := by
  simp only [Option.any_eq_true, Value.truthy_iff]

theorem Arc.ofArgs_numbers (x y radius start finish : Float) (rest : List Value) :
    Arc.ofArgs
        (.number x :: .number y :: .number radius :: .number start :: .number finish :: rest) =
      .ok ⟨x, y, radius, start, finish, rest.head?.any Value.truthy⟩ := by
  cases rest <;> rfl

theorem Record.Adds.eq_append (h : r.Adds d d') : d' = d ++ r.tokens d.isEmpty := by
  cases h with
  | moveTo | lineTo | bezierCurveTo => rfl
  | @arc _ _ _ _ _ rest clockwise _ _ hclockwise h =>
      have hflag : rest.head?.any Value.truthy = clockwise :=
        Bool.eq_iff_iff.2 ((any_truthy_iff rest).trans hclockwise.symm)
      rw [tokens, Arc.ofArgs_numbers, hflag, Arc.drawing_iff.1 h]
  | stroke | fill | lineWidth => exact (List.append_nil d).symm

theorem Record.adds_tokens (h : r.refusal? = none) (d : List String) :
    r.Adds d (d ++ r.tokens d.isEmpty) := by
  have hkeep : d ++ [] = d := List.append_nil d
  cases r with
  | set p value =>
      cases p with
      | lineWidth => exact hkeep.symm ▸ .lineWidth value d
      | _ => cases h
  | call m args =>
      cases m with
      | moveTo => exact .moveTo args d
      | lineTo => exact .lineTo args d
      | bezierCurveTo => exact .bezierCurveTo args d
      | arc =>
          obtain ⟨a, ha⟩ := (Arc.demands_ofArgs args).2 (Option.map_eq_none_iff.1 h)
          obtain ⟨rest, rfl⟩ := Arc.exists_of_ofArgs ha
          refine .arc (any_truthy_iff rest) (Arc.drawing_iff.2 ?_)
          rw [tokens, Arc.ofArgs_numbers]
      | stroke => exact hkeep.symm ▸ .stroke args d
      | fill => exact hkeep.symm ▸ .fill args d
      | _ => cases h

/-- A record that is not refused adds to the tokens in one way only. -/
theorem Record.adds_iff (h : r.refusal? = none) :
    r.Adds d d' ↔ d' = d ++ r.tokens d.isEmpty :=
  ⟨Adds.eq_append, fun heq => heq ▸ adds_tokens h d⟩

theorem traced_nil_iff : Traced [] d d' ↔ d' = d := by
  constructor
  · rintro ⟨⟩
    rfl
  · rintro rfl
    exact .nil _

theorem traced_cons_iff {rest : List Record} :
    Traced (r :: rest) d d' ↔ ∃ between, r.Adds d between ∧ Traced rest between d' := by
  constructor
  · rintro ⟨⟩
    exact ⟨_, ‹_›, ‹_›⟩
  · rintro ⟨between, h, hrest⟩
    exact .cons h hrest

/-- Records that are not refused are drawn in one way only. -/
theorem traced_iff (h : ∀ r ∈ records, r.refusal? = none) :
    Traced records d d' ↔ d' = d ++ pathTokens d.isEmpty records := by
  induction records generalizing d with
  | nil => rw [traced_nil_iff, pathTokens, List.append_nil]
  | cons r rest ih =>
      obtain ⟨hr, hrest⟩ := List.forall_mem_cons.1 h
      simp only [traced_cons_iff, r.adds_iff hr, exists_eq_left, ih hrest, pathTokens,
        r.isEmpty_append_tokens, List.append_assoc]

end DisplayList
