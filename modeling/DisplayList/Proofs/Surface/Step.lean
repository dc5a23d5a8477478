import DisplayList.Proofs.Replay.Arguments
import DisplayList.Proofs.Replay.Outcome
import DisplayList.Surface.Canvas

/-!
# What an instruction does to a canvas

An instruction that is followed or turned down saves the paint, restores it, or leaves the stack of
saved paints alone. In the last case it repaints, and `follow_cases` says what it can issue:
nothing, one command of style, or the commands of a successful call.
-/

namespace DisplayList

/-- What a canvas draws with. -/
inductive Brush
  | stroke
  | fill
deriving DecidableEq

namespace Brush

/-- The property that holds the color. -/
def property : Brush → Property
  | stroke => .strokeStyle
  | fill => .fillStyle

/-- The color in a paint. -/
def color : Brush → Paint → Rgba
  | stroke, p => p.stroke
  | fill, p => p.fill

end Brush

/-- Whether a command sets how lines end, how they join, or how they are composed. -/
def Command.isStyle : Command → Bool
  | setLineWidth _ | setMiterLimit _ | setOperator _ | setLineCap _ | setLineJoin _ => true
  | _ => false

namespace Instruction

def isSave : Instruction → Bool
  | call (.method .save) _ => true
  | _ => false

def isRestore : Instruction → Bool
  | call (.method .restore) _ => true
  | _ => false

/-- The color that an instruction gives a brush: a text that denotes a color has to be assigned. -/
def color? (b : Brush) : Instruction → Option Rgba
  | set (.property p) (.text t) => if p = b.property then Rgba.parse? t else none
  | _ => none

/-- The opacity that an instruction sets: a number between zero and one has to be assigned. -/
def opacity? : Instruction → Option Float
  | set (.property .globalAlpha) (.number x) => if 0 ≤ x ∧ x ≤ 1 then some x else none
  | _ => none

/-- The brush that an instruction draws with and the command that it draws by. -/
def drawing? : Instruction → Option (Brush × Command)
  | call (.method .stroke) _ => some (.stroke, .strokePreserve)
  | call (.method .strokeRect) _ => some (.stroke, .stroke)
  | call (.method .fill) _ => some (.fill, .fillPreserve)
  | call (.method .fillRect) _ => some (.fill, .fill)
  | _ => none

/-- The paint behind an instruction that neither saves nor restores. -/
def repaint (i : Instruction) (p : Paint) : Paint where
  stroke := (i.color? .stroke).getD p.stroke
  fill := (i.color? .fill).getD p.fill
  alpha := i.opacity?.getD p.alpha

theorem save_or_restore_or (i : Instruction) :
    i.isSave ∨ i.isRestore ∨ i.isSave = false ∧ i.isRestore = false := by
  cases i.isSave <;> cases i.isRestore <;> simp

theorem exists_of_isSave {i : Instruction} (h : i.isSave) : ∃ args, i = call Method.save args := by
  unfold isSave at h
  split at h
  · exact ⟨_, rfl⟩
  · exact absurd h nofun

theorem exists_of_isRestore {i : Instruction} (h : i.isRestore) :
    ∃ args, i = call Method.restore args := by
  unfold isRestore at h
  split at h
  · exact ⟨_, rfl⟩
  · exact absurd h nofun

theorem color?_set_text (p : Property) (b : Brush) (t : String) :
    color? b (set p (.text t)) = if p = b.property then Rgba.parse? t else none := rfl

theorem color?_set_of_ne {p : Property} {b : Brush} (h : p ≠ b.property) (value : Value) :
    color? b (set p value) = none := by
  cases value with
  | text t => rw [color?_set_text, if_neg h]
  | _ => simp [color?]

theorem opacity?_set_of_ne {p : Property} (h : p ≠ .globalAlpha) (value : Value) :
    opacity? (set p value) = none := by
  cases p with
  | globalAlpha => exact absurd rfl h
  | _ => rfl

theorem repaint_set_of_ne (p : Property) (value : Value) (paint : Paint)
    (hstroke : p ≠ .strokeStyle) (hfill : p ≠ .fillStyle) (halpha : p ≠ .globalAlpha) :
    (set p value).repaint paint = paint := by
  rw [repaint, color?_set_of_ne hstroke, color?_set_of_ne hfill, opacity?_set_of_ne halpha]
  rfl

end Instruction

namespace Surface

theorem follow_save {i : Instruction} (h : i.isSave) (s : Surface) :
    (receiver.follow i s).state = { s with saved := s.paint :: s.saved }.issue [.save] := by
  obtain ⟨args, rfl⟩ := Instruction.exists_of_isSave h
  rfl

theorem follow_restore_nil {i : Instruction} (h : i.isRestore) {s : Surface} (hs : s.saved = []) :
    (receiver.follow i s).state = s := by
  obtain ⟨args, rfl⟩ := Instruction.exists_of_isRestore h
  simp only [Receiver.follow, receiver, call, hs]

theorem follow_restore_cons {i : Instruction} (h : i.isRestore) {s : Surface} {paint : Paint}
    {saved : List Paint} (hs : s.saved = paint :: saved) :
    (receiver.follow i s).state = { s with paint := paint, saved := saved }.issue [.restore] := by
  obtain ⟨args, rfl⟩ := Instruction.exists_of_isRestore h
  simp only [Receiver.follow, receiver, call, hs]

theorem call_method {m : Method} (hsave : m ≠ .save) (hrestore : m ≠ .restore)
    (args : List Value) (s : Surface) :
    call m args s =
      match commands s.paint m args with
      | .ok issued => { state := s.issue issued }
      | .error fault => { state := s, fault := some fault } := by
  cases m with
  | save => exact absurd rfl hsave
  | restore => exact absurd rfl hrestore
  | _ => rfl

/-- All that an assignment can do: it issues one command of style and does not repaint, or it
repaints and issues nothing. -/
theorem set_cases (op : Operation) (value : Value) (s : Surface) :
    ((Instruction.set op value).repaint s.paint = s.paint ∧
        ∃ c : Command, c.isStyle = true ∧ (set op value s).state = s.issue [c]) ∨
      (set op value s).state = { s with paint := (Instruction.set op value).repaint s.paint } := by
  cases op with
  | method m => exact .inr rfl
  | property p =>
      have hsame := Instruction.repaint_set_of_ne p value s.paint
      cases p with
      | lineWidth | miterLimit =>
          rw [hsame nofun nofun nofun]
          cases value with
          | number x => exact .inl ⟨rfl, _, rfl, rfl⟩
          | _ => exact .inr rfl
      | lineCap | lineJoin | globalCompositeOperation =>
          rw [hsame nofun nofun nofun]
          unfold set
          dsimp only
          split
          · exact .inl ⟨rfl, _, rfl, rfl⟩
          · exact .inr rfl
      | strokeStyle | fillStyle =>
          refine .inr ?_
          cases value with
          | text t =>
              simp only [set, assignColor, Instruction.repaint, Instruction.color?_set_text]
              cases Rgba.parse? t <;> rfl
          | _ => rfl
      | globalAlpha =>
          refine .inr ?_
          cases value with
          | number x =>
              simp only [set, assignNumber, Instruction.repaint, Instruction.color?,
                Instruction.opacity?]
              split <;> rfl
          | _ => rfl
      | _ => exact .inr (by rw [hsame nofun nofun nofun]; rfl)

theorem rectangle_eq_ok {m : Method} {args : List Value} {c : Command} (h : rectangle m args = .ok c) :
    ∃ x y width height, c = .extend (.rectangle x y width height) := by
  obtain ⟨x, -, h⟩ := bind_eq_ok h
  obtain ⟨y, -, h⟩ := bind_eq_ok h
  obtain ⟨width, -, h⟩ := bind_eq_ok h
  obtain ⟨height, -, h⟩ := bind_eq_ok h
  exact ⟨x, y, width, height, (Except.ok.inj h).symm⟩

/-- All that a successful call can issue, saving and restoring apart. -/
theorem commands_cases {p : Paint} {m : Method} {args : List Value} {issued : List Command}
    (hsave : m ≠ .save) (hrestore : m ≠ .restore) (h : commands p m args = .ok issued) :
    (∃ brush drawing, Instruction.drawing? (.call m args) = some (brush, drawing) ∧
        (issued = [source p (brush.color p), drawing] ∨
          ∃ x y width height, issued = source p (brush.color p) ::
            pathKept [.extend (.rectangle x y width height), drawing])) ∨
      Instruction.drawing? (.call m args) = none ∧
        (issued = [.newPath] ∨ (∃ piece, issued = [.extend piece]) ∨
          ∃ x y width height, issued = pathKept [.extend (.rectangle x y width height), .save,
            .setOperator .clear, .fill, .restore]) := by
  cases m with
  | save => exact absurd rfl hsave
  | restore => exact absurd rfl hrestore
  | beginPath => exact .inr ⟨rfl, .inl (Except.ok.inj h).symm⟩
  | closePath => exact .inr ⟨rfl, .inr (.inl ⟨_, (Except.ok.inj h).symm⟩)⟩
  | stroke => exact .inl ⟨.stroke, .strokePreserve, rfl, .inl (Except.ok.inj h).symm⟩
  | fill => exact .inl ⟨.fill, .fillPreserve, rfl, .inl (Except.ok.inj h).symm⟩
  | arcTo => exact absurd h nofun
  | moveTo | lineTo =>
      obtain ⟨x, -, h⟩ := bind_eq_ok h
      obtain ⟨y, -, h⟩ := bind_eq_ok h
      exact .inr ⟨rfl, .inr (.inl ⟨_, (Except.ok.inj h).symm⟩)⟩
  | bezierCurveTo =>
      obtain ⟨x₁, -, h⟩ := bind_eq_ok h
      obtain ⟨y₁, -, h⟩ := bind_eq_ok h
      obtain ⟨x₂, -, h⟩ := bind_eq_ok h
      obtain ⟨y₂, -, h⟩ := bind_eq_ok h
      obtain ⟨x, -, h⟩ := bind_eq_ok h
      obtain ⟨y, -, h⟩ := bind_eq_ok h
      exact .inr ⟨rfl, .inr (.inl ⟨_, (Except.ok.inj h).symm⟩)⟩
  | arc =>
      obtain ⟨a, -, h⟩ := bind_eq_ok h
      exact .inr ⟨rfl, .inr (.inl ⟨_, (Except.ok.inj h).symm⟩)⟩
  | strokeRect =>
      obtain ⟨c, hc, h⟩ := bind_eq_ok h
      obtain ⟨x, y, width, height, rfl⟩ := rectangle_eq_ok hc
      exact .inl ⟨.stroke, .stroke, rfl, .inr ⟨x, y, width, height, (Except.ok.inj h).symm⟩⟩
  | fillRect =>
      obtain ⟨c, hc, h⟩ := bind_eq_ok h
      obtain ⟨x, y, width, height, rfl⟩ := rectangle_eq_ok hc
      exact .inl ⟨.fill, .fill, rfl, .inr ⟨x, y, width, height, (Except.ok.inj h).symm⟩⟩
  | clearRect =>
      obtain ⟨c, hc, h⟩ := bind_eq_ok h
      obtain ⟨x, y, width, height, rfl⟩ := rectangle_eq_ok hc
      exact .inr ⟨rfl, .inr (.inr ⟨x, y, width, height, (Except.ok.inj h).symm⟩)⟩

/-- All that an instruction can do that neither saves nor restores. It repaints, and it issues
nothing, one command of style, or the commands of a successful call. -/
theorem follow_cases {i : Instruction} (hsave : i.isSave = false) (hrestore : i.isRestore = false)
    (s : Surface) :
    ∃ issued, (receiver.follow i s).state = ⟨i.repaint s.paint, s.saved, s.issued ++ issued⟩ ∧
      ((issued = [] ∧ (i.drawing? = none ∨ (receiver.follow i s).fault ≠ none)) ∨
        (i.drawing? = none ∧ ∃ c : Command, c.isStyle = true ∧ issued = [c]) ∨
        ∃ (m : Method) (args : List Value), i = .call m args ∧ m ≠ .save ∧ m ≠ .restore ∧
          commands s.paint m args = .ok issued ∧ (receiver.follow i s).fault = none) := by
  cases i with
  | set op value =>
      rcases set_cases op value s with ⟨hsame, c, hc, hstate⟩ | hstate
      · refine ⟨[c], ?_, .inr (.inl ⟨rfl, c, hc, rfl⟩)⟩
        rw [hsame]
        exact hstate
      · refine ⟨[], ?_, .inl ⟨rfl, .inl rfl⟩⟩
        rw [List.append_nil]
        exact hstate
  | call op args =>
      cases op with
      | property p => exact ⟨[], by rw [List.append_nil]; rfl, .inl ⟨rfl, .inl rfl⟩⟩
      | method m =>
          have hm : m ≠ .save := by
            rintro rfl
            exact absurd hsave nofun
          have hm' : m ≠ .restore := by
            rintro rfl
            exact absurd hrestore nofun
          have hcall : receiver.follow (.call m args) s = _ := call_method hm hm' args s
          cases hcommands : commands s.paint m args with
          | error fault =>
              rw [hcommands] at hcall
              refine ⟨[], ?_, .inl ⟨rfl, .inr ?_⟩⟩
              · rw [hcall, List.append_nil]
                rfl
              · rw [hcall]
                exact Option.some_ne_none fault
          | ok issued =>
              rw [hcommands] at hcall
              refine ⟨issued, ?_, .inr (.inr ⟨m, args, rfl, hm, hm', hcommands, ?_⟩)⟩
              · rw [hcall]
                rfl
              · rw [hcall]

theorem follow_other {i : Instruction} (hsave : i.isSave = false) (hrestore : i.isRestore = false)
    (s : Surface) :
    (receiver.follow i s).state.paint = i.repaint s.paint ∧
      (receiver.follow i s).state.saved = s.saved := by
  obtain ⟨issued, hstate, -⟩ := follow_cases hsave hrestore s
  rw [hstate]
  exact ⟨rfl, rfl⟩

/-- All that an instruction can issue, with what happens to the saved paints. -/
theorem issued_cases (i : Instruction) (s : Surface) :
    ∃ issued, (receiver.follow i s).state.issued = s.issued ++ issued ∧
      ((issued = [.save] ∧ (receiver.follow i s).state.saved = s.paint :: s.saved) ∨
        (issued = [.restore] ∧ ∃ paint, s.saved = paint :: (receiver.follow i s).state.saved) ∨
        (receiver.follow i s).state.saved = s.saved ∧
          (issued = [] ∨ (∃ c : Command, c.isStyle = true ∧ issued = [c]) ∨
            ∃ (m : Method) (args : List Value), i = .call m args ∧ m ≠ .save ∧ m ≠ .restore ∧
              commands s.paint m args = .ok issued ∧ (receiver.follow i s).fault = none)) := by
  rcases i.save_or_restore_or with hsave | hrestore | ⟨hsave, hrestore⟩
  · rw [follow_save hsave]
    exact ⟨[.save], rfl, .inl ⟨rfl, rfl⟩⟩
  · cases hsaved : s.saved with
    | nil =>
        rw [follow_restore_nil hrestore hsaved]
        exact ⟨[], (List.append_nil _).symm, .inr (.inr ⟨hsaved, .inl rfl⟩)⟩
    | cons paint saved =>
        rw [follow_restore_cons hrestore hsaved]
        exact ⟨[.restore], rfl, .inr (.inl ⟨rfl, paint, rfl⟩)⟩
  · obtain ⟨issued, hstate, hissued⟩ := follow_cases hsave hrestore s
    refine ⟨issued, by rw [hstate], .inr (.inr ⟨by rw [hstate], ?_⟩)⟩
    rcases hissued with ⟨hnone, -⟩ | ⟨-, hstyle⟩ | hcall
    · exact .inl hnone
    · exact .inr (.inl hstyle)
    · exact .inr (.inr hcall)

end Surface

end DisplayList
