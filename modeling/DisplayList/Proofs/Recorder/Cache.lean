import DisplayList.Proofs.Recorder.Run

/-!
# The program that a recorder holds

A recorder holds on to the program of its buffer until the buffer changes. The program that is
found there is always the one of the buffer at hand, so running it comes to replaying the buffer,
and nothing that leaves the buffer as it is drops the program.
-/

universe u

namespace DisplayList

/-- Running a program comes to replaying a buffer, for every receiver. -/
def Program.Replays (program : Program) (slots : List Slot) : Prop :=
  ∀ {σ : Type u} (receiver : Receiver σ) (s : σ),
    (program.run receiver s).outcome = (replay receiver slots s).outcome

namespace Recorder

theorem replays_history (steps : List Step) :
    Program.Replays.{u} ⟨history steps⟩ (run steps).slots := by
  intro σ receiver s
  have hrun := outcome_run receiver (readable_run steps) s
  rw [decode_run] at hrun
  exact hrun

theorem slots_compile (r : Recorder) : r.compile.2.slots = r.slots := by
  unfold compile
  split
  · rfl
  · split <;> rfl

theorem slots_foldl_record_ne {records : List Record} (h : records ≠ []) (r : Recorder) :
    (records.foldl record r).slots ≠ r.slots := by
  intro hslots
  rw [slots_foldl_record, List.append_right_eq_self] at hslots
  cases records with
  | nil => exact h rfl
  | cons rec records => exact List.cons_ne_nil _ _ hslots

/-- A step other than compiling leaves the recorder as it is, or it drops the program, and it does
so only if it resets or lengthens the slots. -/
theorem apply_eq_or_dropped {s : Step} (h : s ≠ .compile) (r : Recorder) :
    (s ≠ .reset ∧ s.apply r = r) ∨
      ((s = .reset ∨ (s.apply r).slots ≠ r.slots) ∧ (s.apply r).program = none) := by
  rcases apply_cases s r with ⟨hreset, happly⟩ | ⟨hcompile, -⟩ | ⟨hreset, -, happly⟩
  · refine .inr ⟨.inl hreset, ?_⟩
    rw [happly]
    rfl
  · exact absurd hcompile h
  · rw [happly]
    by_cases hrecords : s.records = []
    · refine .inl ⟨hreset, ?_⟩
      rw [hrecords, List.foldl_nil]
    · exact .inr ⟨.inr (slots_foldl_record_ne hrecords r), program_foldl_record hrecords r⟩

theorem program_apply_of_changed {s : Step} {r : Recorder}
    (h : s = .reset ∨ (s.apply r).slots ≠ r.slots) : (s.apply r).program = none := by
  have hcompile : s ≠ .compile := by
    rintro rfl
    rcases h with hreset | hslots
    · exact absurd hreset nofun
    · exact hslots (slots_compile r)
  rcases apply_eq_or_dropped hcompile r with ⟨hreset, happly⟩ | ⟨-, hprogram⟩
  · rcases h with h | h
    · exact absurd h hreset
    · exact absurd (congrArg slots happly) h
  · exact hprogram

theorem program_after {later : List Step} (h : .compile ∉ later) {r : Recorder}
    (hr : r.program = none) : (r.after later).program = none := by
  induction later generalizing r with
  | nil => exact hr
  | cons s later ih =>
      rw [List.mem_cons, not_or] at h
      refine ih (r := s.apply r) h.2 ?_
      rcases apply_eq_or_dropped (Ne.symm h.1) r with ⟨-, happly⟩ | ⟨-, hprogram⟩
      · rw [happly, hr]
      · exact hprogram

/-- A recorder never holds the program of another buffer than its own, and asking for the program
brings one of its own buffer, which is held from then on, while nothing else changes. Once a step
has changed the slots or reset the recorder, no program is held until the next time that one is
asked for. A step that leaves the slots alone, and neither resets nor compiles, leaves the whole
recorder alone. -/
theorem program_never_stale {r : Recorder} (h : Reachable r) :
    (∀ program, r.program = some program → Program.Replays.{u} program r.slots) ∧
      (∃ program, Program.Replays.{u} program r.slots ∧
        r.compile = (.ok program, { r with program := some program })) ∧
      (∀ (s : Step) (later : List Step), s = .reset ∨ (s.apply r).slots ≠ r.slots →
        .compile ∉ later → ((s.apply r).after later).isCompiled = false) ∧
      ∀ s : Step, s ≠ .reset → s ≠ .compile → (s.apply r).slots = r.slots → s.apply r = r := by
  obtain ⟨steps, rfl⟩ := h.exists_run
  refine ⟨?_, ⟨⟨history steps⟩, replays_history steps, compile_run steps⟩, ?_, ?_⟩
  · intro program hprogram
    rw [eq_of_program_run hprogram]
    exact replays_history steps
  · intro s later hchanged hlater
    rw [isCompiled, program_after hlater (program_apply_of_changed hchanged)]
    rfl
  · intro s hreset hcompile hslots
    rcases apply_eq_or_dropped hcompile (run steps) with ⟨-, happly⟩ | ⟨hchanged, -⟩
    · exact happly
    · rcases hchanged with hchanged | hchanged
      · exact absurd hchanged hreset
      · exact absurd hslots hchanged

/-- A stroke is compiled, drawn and then followed by a fill. -/
theorem program_never_stale_stroke :
    Program.Replays.{0} ⟨[.call .stroke []]⟩ (run [.stroke, .compile, .draw]).slots ∧
      (run [.stroke, .compile, .draw]).isCompiled = true ∧
      (run [.stroke, .compile, .draw, .fill, .read]).isCompiled = false ∧
      Step.apply (.call Property.font []) (run [.stroke, .compile, .draw]) =
        run [.stroke, .compile, .draw] := by
  have hstale := program_never_stale.{0} (reachable_run [.stroke, .compile, .draw])
  refine ⟨hstale.1 _ rfl, rfl, hstale.2.2.1 .fill [.read] (.inr (by decide)) (by decide), ?_⟩
  exact hstale.2.2.2 _ (by decide) (by decide) rfl

end Recorder

end DisplayList
