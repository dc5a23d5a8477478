import DisplayList.Proofs.Surface.Nesting

/-!
# The current path

A canvas has one current path, and only the calls that build it may change it. To draw a rectangle
the canvas puts the path aside in the context, so the commands in between may use up whatever path
the context has, as long as they copy none: `current_applyAll_pathKept`. Strokes and fills preserve
the path, styles and the stack of saved states have nothing to do with it, and an instruction that
is turned down issues nothing.
-/

namespace DisplayList

/-- Whether an instruction calls a method that builds the current path. -/
def Instruction.buildsPath : Instruction → Bool
  | call (.method .beginPath) _ | call (.method .closePath) _ | call (.method .moveTo) _
  | call (.method .lineTo) _ | call (.method .bezierCurveTo) _ | call (.method .arc) _ => true
  | _ => false

namespace PathState

theorem copied_applyAll {cs : List Command} (h : .copyPath ∉ cs) (q : PathState) :
    (q.applyAll cs).copied = q.copied := by
  induction cs generalizing q with
  | nil => rfl
  | cons c cs ih =>
      rw [List.mem_cons, not_or] at h
      obtain ⟨hc, hcs⟩ := h
      rw [applyAll_cons, ih hcs]
      cases c with
      | copyPath => exact absurd rfl hc
      | _ => rfl

theorem current_applyAll_pathKept {cs : List Command} (h : .copyPath ∉ cs) (q : PathState) :
    (q.applyAll (Surface.pathKept cs)).current = q.current := by
  have hcopied := copied_applyAll h ((q.apply .copyPath).apply .newPath)
  rw [Surface.pathKept, List.cons_append, List.cons_append, applyAll_cons, applyAll_cons,
    applyAll_append]
  exact hcopied

end PathState

namespace Surface

open Instruction

theorem current_applyAll_of_commands {p : Paint} {m : Method} {args : List Value}
    {issued : List Command} (hm : (Instruction.call m args).buildsPath = false)
    (h : commands p m args = .ok issued) (q : PathState) :
    (q.applyAll issued).current = q.current := by
  cases m with
  | save | restore | stroke | fill =>
      cases h
      rfl
  | arcTo => exact absurd h nofun
  | beginPath | closePath | moveTo | lineTo | bezierCurveTo | arc => exact absurd hm nofun
  | strokeRect | fillRect =>
      obtain ⟨c, hc, h⟩ := bind_eq_ok h
      obtain ⟨x, y, width, height, rfl⟩ := rectangle_eq_ok hc
      rw [← Except.ok.inj h, PathState.applyAll_cons, PathState.current_applyAll_pathKept (by simp)]
      rfl
  | clearRect =>
      obtain ⟨c, hc, h⟩ := bind_eq_ok h
      obtain ⟨x, y, width, height, rfl⟩ := rectangle_eq_ok hc
      rw [← Except.ok.inj h, PathState.current_applyAll_pathKept (by simp)]

theorem current_apply_of_isStyle {c : Command} (h : c.isStyle = true) (q : PathState) :
    (q.apply c).current = q.current := by
  cases c with
  | setLineWidth | setMiterLimit | setOperator | setLineCap | setLineJoin => rfl
  | _ => exact absurd h nofun

/-- What an instruction issues leaves the current path as it was, unless the instruction is
followed and builds the path. -/
theorem exists_issued_follow {i : Instruction} {s : Surface}
    (h : i.buildsPath = false ∨ (receiver.follow i s).fault ≠ none) :
    ∃ issued, (receiver.follow i s).state.issued = s.issued ++ issued ∧
      ∀ q : PathState, (q.applyAll issued).current = q.current := by
  obtain ⟨issued, hissued, hcases⟩ := issued_cases i s
  refine ⟨issued, hissued, fun q => ?_⟩
  rcases hcases with ⟨rfl, -⟩ | ⟨rfl, -⟩ |
    ⟨-, rfl | ⟨c, hc, rfl⟩ | ⟨m, args, rfl, -, -, hcall, hfault⟩⟩
  · rfl
  · rfl
  · rfl
  · exact current_apply_of_isStyle hc q
  · rcases h with hm | hfault'
    · exact current_applyAll_of_commands hm hcall q
    · exact absurd hfault hfault'

/-- From whatever path a context starts, an instruction changes the current path only if it calls a
method that builds the path and is followed. -/
theorem current_path_kept (q : PathState) (history : List Instruction) (i : Instruction)
    (h : i.buildsPath = false ∨ (receiver.follow i (run history)).fault ≠ none) :
    (q.applyAll (run (history ++ [i])).issued).current =
      (q.applyAll (run history).issued).current := by
  obtain ⟨issued, hissued, hcurrent⟩ := exists_issued_follow h
  rw [run_concat, hissued, PathState.applyAll_append, hcurrent]

/-- A rectangle is cleared in the midst of a path, and a line is turned down. -/
theorem current_path_kept_cleared :
    (PathState.applyAll {} (run ([.call Method.moveTo [.number 1, .number 2]] ++
        [.call Method.clearRect [.number 0, .number 0, .number 2, .number 2]])).issued).current =
          [.moveTo 1 2] ∧
      (receiver.follow (.call Method.lineTo [.number 1]) (run [])).fault ≠ none ∧
      (PathState.applyAll {} (run ([] ++ [.call Method.lineTo [.number 1]])).issued).current =
        [] := by
  have hfault : (receiver.follow (.call Method.lineTo [.number 1]) (run [])).fault ≠ none := nofun
  exact ⟨current_path_kept {} [.call Method.moveTo [.number 1, .number 2]] _ (.inl rfl), hfault,
    current_path_kept {} [] _ (.inr hfault)⟩

end Surface

end DisplayList
