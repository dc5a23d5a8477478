import DisplayList.Proofs.Surface.Effect

/-!
# The source that a canvas draws with

A canvas sets the source right before it draws, to the color in effect of the brush that it draws
with and the opacity in effect, and at no other time: `source_is_paint_in_effect`.
-/

namespace DisplayList

open Instruction

def Command.isSource : Command → Bool
  | setSource .. => true
  | _ => false

/-- Whether a command only puts the current path aside or outlines a rectangle. -/
def Command.Outlines : Command → Prop
  | copyPath | newPath | extend (.rectangle ..) => True
  | _ => False

/-- Among the issued commands the source is set once, and then a command draws, with nothing in
between but what outlines a rectangle. -/
structure DrawnFrom (source drawing : Command) (issued : List Command) : Prop where
  once : issued.filter Command.isSource = [source]
  before : ∃ between rest, issued = source :: (between ++ drawing :: rest) ∧
    ∀ c ∈ between, c.Outlines

namespace Surface

theorem isSource_of_drawing? {i : Instruction} {brush : Brush} {drawing : Command}
    (h : i.drawing? = some (brush, drawing)) : drawing.isSource = false := by
  unfold drawing? at h
  split at h
  all_goals cases h
  all_goals rfl

theorem drawnFrom_plain {source drawing : Command} (hsource : source.isSource)
    (h : drawing.isSource = false) : DrawnFrom source drawing [source, drawing] where
  once := by simp [hsource, h]
  before := ⟨[], [], rfl, nofun⟩

/-- A rectangle is drawn with the current path put aside. -/
theorem drawnFrom_rectangle {source drawing : Command} (hsource : source.isSource)
    (h : drawing.isSource = false) (x y width height : Float) :
    DrawnFrom source drawing
      (source :: pathKept [.extend (.rectangle x y width height), drawing]) where
  once := by
    rw [List.filter_cons_of_pos hsource]
    change source :: List.filter Command.isSource [drawing, .newPath, .appendPath] = [source]
    rw [List.filter_cons_of_neg (by simp [h])]
    rfl
  before := by
    refine ⟨[.copyPath, .newPath, .extend (.rectangle x y width height)],
      [.newPath, .appendPath], rfl, ?_⟩
    simp [Command.Outlines]

theorem drawnFrom_of_commands {p : Paint} {m : Method} {args : List Value} {issued : List Command}
    {brush : Brush} {drawing : Command} (hsave : m ≠ .save) (hrestore : m ≠ .restore)
    (h : commands p m args = .ok issued)
    (hdrawing : (Instruction.call m args).drawing? = some (brush, drawing)) :
    DrawnFrom (source p (brush.color p)) drawing issued := by
  have hplain := isSource_of_drawing? hdrawing
  rcases commands_cases hsave hrestore h with ⟨brush', drawing', hcall, hissued⟩ | ⟨hnone, -⟩
  · obtain ⟨rfl, rfl⟩ := Prod.mk.inj (Option.some.inj (hcall.symm.trans hdrawing))
    rcases hissued with rfl | ⟨x, y, width, height, rfl⟩
    · exact drawnFrom_plain rfl hplain
    · exact drawnFrom_rectangle rfl hplain x y width height
  · exact absurd (hnone.symm.trans hdrawing) nofun

theorem filter_isSource_of_commands {p : Paint} {m : Method} {args : List Value}
    {issued : List Command} (hsave : m ≠ .save) (hrestore : m ≠ .restore)
    (h : commands p m args = .ok issued) (hnone : (Instruction.call m args).drawing? = none) :
    issued.filter Command.isSource = [] := by
  rcases commands_cases hsave hrestore h with ⟨_, _, hdrawing, -⟩ | ⟨-, hissued⟩
  · exact absurd (hnone.symm.trans hdrawing) nofun
  · rcases hissued with rfl | ⟨piece, rfl⟩ | ⟨x, y, width, height, rfl⟩
    all_goals rfl

theorem filter_isSource_of_isStyle {c : Command} (h : c.isStyle = true) :
    [c].filter Command.isSource = [] := by
  cases c with
  | setSource => exact absurd h nofun
  | _ => rfl

theorem drawing?_of_isSave {i : Instruction} (h : i.isSave) : i.drawing? = none := by
  obtain ⟨args, rfl⟩ := exists_of_isSave h
  rfl

theorem drawing?_of_isRestore {i : Instruction} (h : i.isRestore) : i.drawing? = none := by
  obtain ⟨args, rfl⟩ := exists_of_isRestore h
  rfl

/-- What one instruction issues: nothing that sets the source, or the commands of a successful call
that draws. -/
theorem issued_follow (i : Instruction) (s : Surface) :
    ∃ issued, (receiver.follow i s).state.issued = s.issued ++ issued ∧
      (issued.filter Command.isSource = [] ∧
          (i.drawing? = none ∨ (receiver.follow i s).fault ≠ none) ∨
        (receiver.follow i s).fault = none ∧ ∃ brush drawing,
          i.drawing? = some (brush, drawing) ∧
          DrawnFrom (source s.paint (brush.color s.paint)) drawing issued) := by
  rcases i.save_or_restore_or with hsave | hrestore | ⟨hsave, hrestore⟩
  · rw [follow_save hsave]
    exact ⟨[.save], rfl, .inl ⟨rfl, .inl (drawing?_of_isSave hsave)⟩⟩
  · have hnone := drawing?_of_isRestore hrestore
    cases hsaved : s.saved with
    | nil =>
        rw [follow_restore_nil hrestore hsaved]
        exact ⟨[], s.issued.append_nil.symm, .inl ⟨rfl, .inl hnone⟩⟩
    | cons paint saved =>
        rw [follow_restore_cons hrestore hsaved]
        exact ⟨[.restore], rfl, .inl ⟨rfl, .inl hnone⟩⟩
  · obtain ⟨issued, hstate, hissued⟩ := follow_cases hsave hrestore s
    refine ⟨issued, by rw [hstate], ?_⟩
    rcases hissued with ⟨rfl, hnone⟩ | ⟨hnone, c, hc, rfl⟩ | ⟨m, args, rfl, hm, hm', hcall, hfault⟩
    · exact .inl ⟨rfl, hnone⟩
    · exact .inl ⟨filter_isSource_of_isStyle hc, .inl hnone⟩
    · cases hdrawing : (Instruction.call m args).drawing? with
      | none => exact .inl ⟨filter_isSource_of_commands hm hm' hcall hdrawing, .inl rfl⟩
      | some drawn =>
          obtain ⟨brush, drawing⟩ := drawn
          exact .inr ⟨hfault, brush, drawing, rfl, drawnFrom_of_commands hm hm' hcall hdrawing⟩

theorem inEffect_color_iff (brush : Brush) (history : List Instruction) (c : Rgba) :
    InEffect (color? brush) .black history c ↔ c = brush.color (run history).paint := by
  cases brush with
  | stroke => exact inEffect_iff (tracked_color .stroke) history c
  | fill => exact inEffect_iff (tracked_color .fill) history c

theorem inEffect_opacity_iff (history : List Instruction) (x : Float) :
    InEffect opacity? 1 history x ↔ x = (run history).paint.alpha :=
  inEffect_iff tracked_opacity history x

/-- Each instruction that draws sets the source once, before it draws, to the color in effect of
its brush with the opacity in effect multiplied in. An instruction that does not draw or that is
turned down does not set the source. -/
theorem source_is_paint_in_effect (history : List Instruction) (i : Instruction) :
    ∃ issued, (run (history ++ [i])).issued = (run history).issued ++ issued ∧
      (issued.filter Command.isSource = [] ∧
          (i.drawing? = none ∨ (receiver.follow i (run history)).fault ≠ none) ∨
        (receiver.follow i (run history)).fault = none ∧ ∃ brush drawing color opacity,
          i.drawing? = some (brush, drawing) ∧
          (∀ c, InEffect (color? brush) .black history c ↔ c = color) ∧
          (∀ x, InEffect opacity? 1 history x ↔ x = opacity) ∧
          DrawnFrom (.setSource color.r color.g color.b (color.a * opacity)) drawing issued) := by
  obtain ⟨issued, hissued, hquiet | ⟨hfault, brush, drawing, hdrawing, hdrawn⟩⟩ :=
    issued_follow i (run history)
  · exact ⟨issued, by rw [run_concat, hissued], .inl hquiet⟩
  · refine ⟨issued, by rw [run_concat, hissued], .inr ⟨hfault, brush, drawing, _, _, hdrawing, ?_,
      ?_, hdrawn⟩⟩
    · exact inEffect_color_iff brush history
    · exact inEffect_opacity_iff history

-- the assignment is undone before the canvas draws
example : (run [.call Method.save [], .set Property.strokeStyle (.text "none"),
    .set Property.fillStyle (.text "none"), .call Method.restore [], .call Method.stroke []]).issued =
      [.save, .restore, .setSource 0 0 0 (1 * 1), .strokePreserve] := rfl

end Surface

end DisplayList
