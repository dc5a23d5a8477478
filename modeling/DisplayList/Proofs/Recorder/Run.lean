import DisplayList.Proofs.Listing.RoundTrip
import Mathlib.Data.List.DropRight

/-!
# Runs of a recorder

A `Step` is one thing that can be done with a recorder, and `Recorder.run` does steps one after the
other, starting with a new recorder. `Step.records` says what a step adds to a drawing, with calls
of properties and assignments to methods set right, and `history` puts together what has been added
since the last reset. All that a step can do is to forget, to compile or to record (`apply_cases`),
so a run comes to recording its history (`exists_run_eq`).
-/

universe u

namespace DisplayList

/-- The records that an instruction stands for. A property that is called is assigned its first
argument, if it has one, and a method that is assigned to is called with the value. -/
def Instruction.records : Instruction → List Record
  | .call (.method m) args => [.call m args]
  | .call (.property p) (value :: _) => [.set p value]
  | .call (.property _) [] => []
  | .set (.property p) value => [.set p value]
  | .set (.method m) value => [.call m [value]]

namespace Recorder

/-- One thing that can be done with a recorder. -/
inductive Step
  | save
  | restore
  | beginPath
  | closePath
  | lineTo (x y : Float)
  | moveTo (x y : Float)
  | bezierCurveTo (cp1x cp1y cp2x cp2y x y : Float)
  | arc (x y radius start finish : Float) (clockwise : Bool)
  | arcTo (x1 y1 x2 y2 radius : Float)
  | stroke
  | fill
  | strokeRect (x y width height : Float)
  | fillRect (x y width height : Float)
  | clearRect (x y width height : Float)
  | /-- Any operation is called. -/
    call (op : Operation) (args : List Value)
  | /-- Any operation is assigned to. -/
    assign (op : Operation) (value : Value)
  | /-- A property is assigned by its own setter. -/
    setter (p : Property) (value : Value)
  | /-- The recorder is handed an instruction as a receiver. -/
    received (i : Instruction)
  | /-- A buffer is replayed into the recorder, as far as it can be read. -/
    replayed (slots : List Slot)
  | compile
  | reset
  | /-- The recorder is drawn into a receiver. -/
    draw
  | disassemble
  | exportPath
  | /-- The slots, the value of a property or the rectangle are looked at. -/
    read
deriving DecidableEq

namespace Step

/-- The recorder behind a step. -/
def apply : Step → Recorder → Recorder
  | save, r => r.save
  | restore, r => r.restore
  | beginPath, r => r.beginPath
  | closePath, r => r.closePath
  | lineTo x y, r => r.lineTo x y
  | moveTo x y, r => r.moveTo x y
  | bezierCurveTo cp1x cp1y cp2x cp2y x y, r => r.bezierCurveTo cp1x cp1y cp2x cp2y x y
  | arc x y radius start finish clockwise, r => r.arc x y radius start finish clockwise
  | arcTo x1 y1 x2 y2 radius, r => r.arcTo x1 y1 x2 y2 radius
  | stroke, r => r.stroke
  | fill, r => r.fill
  | strokeRect x y width height, r => r.strokeRect x y width height
  | fillRect x y width height, r => r.fillRect x y width height
  | clearRect x y width height, r => r.clearRect x y width height
  | call op args, r => r.call op args
  | assign op value, r => r.assign op value
  | setter p value, r => r.assign p value
  | received i, r => (receiver.follow i r).state
  | replayed slots, r => (replay receiver slots r).state
  | compile, r => r.compile.2
  | reset, r => r.reset
  | draw, r | disassemble, r | exportPath, r | read, r => r

/-- The records that a step adds. -/
def records : Step → List Record
  | save => [.call .save []]
  | restore => [.call .restore []]
  | beginPath => [.call .beginPath []]
  | closePath => [.call .closePath []]
  | lineTo x y => [.call .lineTo [.number x, .number y]]
  | moveTo x y => [.call .moveTo [.number x, .number y]]
  | bezierCurveTo cp1x cp1y cp2x cp2y x y =>
    [.call .bezierCurveTo
      [.number cp1x, .number cp1y, .number cp2x, .number cp2y, .number x, .number y]]
  | arc x y radius start finish clockwise =>
    [.call .arc
      [.number x, .number y, .number radius, .number start, .number finish, .flag clockwise]]
  | arcTo x1 y1 x2 y2 radius =>
    [.call .arcTo [.number x1, .number y1, .number x2, .number y2, .number radius]]
  | stroke => [.call .stroke []]
  | fill => [.call .fill []]
  | strokeRect x y width height =>
    [.call .strokeRect [.number x, .number y, .number width, .number height]]
  | fillRect x y width height =>
    [.call .fillRect [.number x, .number y, .number width, .number height]]
  | clearRect x y width height =>
    [.call .clearRect [.number x, .number y, .number width, .number height]]
  | call op args => (Instruction.call op args).records
  | assign op value => (Instruction.set op value).records
  | setter p value => [.set p value]
  | received i => i.records
  | replayed slots => (decode slots).records
  | compile | reset | draw | disassemble | exportPath | read => []

end Step

/-- The recorder behind some steps. -/
def after (r : Recorder) (steps : List Step) : Recorder := steps.foldl (fun r s => s.apply r) r

/-- The recorder that some steps make of a new one. -/
def run (steps : List Step) : Recorder := new.after steps

/-- What has been recorded since the last reset. -/
def history (steps : List Step) : List Record :=
  (steps.rtakeWhile (· ≠ .reset)).flatMap Step.records

theorem run_concat (steps : List Step) (s : Step) : run (steps ++ [s]) = s.apply (run steps) := by
  rw [run, after, List.foldl_append]
  rfl

theorem history_concat_reset (steps : List Step) : history (steps ++ [.reset]) = [] := by
  rw [history, List.rtakeWhile_concat_neg _ _ _ (by simp), List.flatMap_nil]

theorem history_concat {s : Step} (h : s ≠ .reset) (steps : List Step) :
    history (steps ++ [s]) = history steps ++ s.records := by
  rw [history, List.rtakeWhile_concat_pos _ _ _ (by simpa using h), List.flatMap_append,
    List.flatMap_singleton]
  rfl

theorem call_eq_foldl (r : Recorder) (op : Operation) (args : List Value) :
    r.call op args = (Instruction.call op args).records.foldl record r := by
  cases op with
  | method m => rfl
  | property p => cases args <;> rfl

theorem assign_eq_foldl (r : Recorder) (op : Operation) (value : Value) :
    r.assign op value = (Instruction.set op value).records.foldl record r := by
  cases op <;> rfl

theorem follow_eq_foldl (r : Recorder) (i : Instruction) :
    (receiver.follow i r).state = i.records.foldl record r := by
  cases i with
  | call op args => exact call_eq_foldl r op args
  | set op value => exact assign_eq_foldl r op value

/-- All that a step can do. -/
theorem apply_cases (s : Step) (r : Recorder) :
    (s = .reset ∧ s.apply r = .new) ∨ (s = .compile ∧ s.apply r = r.compile.2) ∨
      (s ≠ .reset ∧ s ≠ .compile ∧ s.apply r = s.records.foldl record r) := by
  cases s with
  | reset => exact .inl ⟨rfl, rfl⟩
  | compile => exact .inr (.inl ⟨rfl, rfl⟩)
  | call op args => exact .inr (.inr ⟨nofun, nofun, call_eq_foldl r op args⟩)
  | assign op value => exact .inr (.inr ⟨nofun, nofun, assign_eq_foldl r op value⟩)
  | received i => exact .inr (.inr ⟨nofun, nofun, follow_eq_foldl r i⟩)
  | replayed slots =>
      exact .inr (.inr ⟨nofun, nofun, congrArg Prod.fst (outcome_replay_receiver slots r)⟩)
  | _ => exact .inr (.inr ⟨nofun, nofun, rfl⟩)

theorem compile_of_some {r : Recorder} {program : Program} (h : r.program = some program) :
    r.compile = (.ok program, r) := by
  rw [compile, h]

theorem compile_of_none {r : Recorder} {records : List Record} (h : r.program = none)
    (hdecode : decode r.slots = ⟨records, none⟩) :
    r.compile = (.ok ⟨records⟩, { r with program := some ⟨records⟩ }) := by
  have hreadable : Readable r.slots := by rw [Readable, hdecode]
  rw [compile, h, compile_of_readable hreadable, hdecode]

/-- Apart from the program that it may hold, a run comes to recording its history, and a program
that it holds has the history for its steps. -/
theorem exists_run_eq (steps : List Step) :
    ∃ cache, run steps = { (history steps).foldl record .new with program := cache } ∧
      ∀ program, cache = some program → program.steps = history steps := by
  induction steps using List.reverseRecOn with
  | nil => exact ⟨none, rfl, nofun⟩
  | append_singleton steps s ih =>
      obtain ⟨cache, hrun, hcache⟩ := ih
      rw [run_concat]
      rcases apply_cases s (run steps) with ⟨rfl, happly⟩ | ⟨rfl, happly⟩ | ⟨hreset, -, happly⟩
      · rw [happly, history_concat_reset]
        exact ⟨none, rfl, nofun⟩
      · rw [happly, history_concat (by simp), Step.records, List.append_nil]
        cases hprogram : (run steps).program with
        | some program =>
            rw [compile_of_some hprogram]
            exact ⟨cache, hrun, hcache⟩
        | none =>
            have hslots : (run steps).slots = encodeAll (history steps) := by
              rw [hrun]
              exact slots_foldl_record (history steps) .new
            have hdecode : decode (run steps).slots = ⟨history steps, none⟩ := by
              rw [hslots, decode_encodeAll]
            rw [compile_of_none hprogram hdecode, hrun]
            refine ⟨some ⟨history steps⟩, rfl, fun program hsome => ?_⟩
            rw [← Option.some.inj hsome]
      · rw [happly, history_concat hreset, hrun]
        by_cases hrecords : s.records = []
        · rw [hrecords, List.append_nil]
          exact ⟨cache, rfl, hcache⟩
        · refine ⟨none, ?_, nofun⟩
          have hprogram := program_foldl_record hrecords ((history steps).foldl record .new)
          rw [foldl_record_of_program hrecords, List.foldl_append, ← hprogram]

theorem slots_run (steps : List Step) : (run steps).slots = encodeAll (history steps) := by
  obtain ⟨cache, hrun, -⟩ := exists_run_eq steps
  rw [hrun]
  exact slots_foldl_record (history steps) .new

theorem decode_run (steps : List Step) : decode (run steps).slots = ⟨history steps, none⟩ := by
  rw [slots_run, decode_encodeAll]

theorem readable_run (steps : List Step) : Readable (run steps).slots := by
  rw [Readable, decode_run]

theorem eq_of_program_run {steps : List Step} {program : Program}
    (h : (run steps).program = some program) : program = ⟨history steps⟩ := by
  obtain ⟨cache, hrun, hcache⟩ := exists_run_eq steps
  rw [hrun] at h
  rw [← hcache program h]

/-- Asking for the program of a run brings the one with the history for its steps, which the
recorder holds from then on, and changes nothing else. -/
theorem compile_run (steps : List Step) :
    (run steps).compile =
      (.ok ⟨history steps⟩, { run steps with program := some ⟨history steps⟩ }) := by
  cases hprogram : (run steps).program with
  | none => exact compile_of_none hprogram (decode_run steps)
  | some program => rw [compile_of_some hprogram, ← eq_of_program_run hprogram, ← hprogram]

theorem length_encodeAll (records : List Record) :
    (encodeAll records).length = (records.map fun record => 2 + record.values.length).sum := by
  induction records with
  | nil => rfl
  | cons record records ih =>
      rw [encodeAll_cons, List.length_append, Record.length_encode, ih, List.map_cons, List.sum_cons]
      rfl

/-- A recorder holds what it has been told since the last reset, record by record and in order. Its
cursor counts two slots and the arguments for each record, it can be compiled and disassembled, and
drawing it fails only with a record that the receiver turns down. -/
theorem run_holds_history (steps : List Step) :
    decode (run steps).slots = ⟨history steps, none⟩ ∧
      (run steps).cursor =
        ((history steps).map fun record => 2 + record.values.length).sum ∧
      (∃ program, (run steps).compile.1 = .ok program ∧ program.steps = history steps) ∧
      disassemble (run steps).slots = .ok (String.ofList (listing (history steps))) ∧
      ∀ {σ : Type u} (receiver : Receiver σ) (s : σ),
        (∃ t, Accepts receiver.take (history steps) s t ∧
          (replay receiver (run steps).slots s).outcome = (t, none)) ∨
        ∃ before record after mid fault,
          history steps = before ++ record :: after ∧ Accepts receiver.take before s mid ∧
            (receiver.take record mid).fault = some fault ∧
            (replay receiver (run steps).slots s).outcome =
              ((receiver.take record mid).state, some fault) := by
  have hdecode := decode_run steps
  refine ⟨hdecode, ?_, ⟨⟨history steps⟩, ?_, rfl⟩, ?_, fun receiver s => ?_⟩
  · rw [cursor, slots_run, length_encodeAll]
  · rw [compile_run]
  · rw [disassemble_of_readable (readable_run steps), hdecode]
  · rw [outcome_replay, hdecode]
    rcases accepts_or_exists_fault receiver.take (history steps) s with
      ⟨t, ht⟩ | ⟨before, record, after, mid, fault, hrecords, hbefore, hfault⟩
    · exact .inl ⟨t, ht, visitAll_of_accepts ht⟩
    · refine .inr ⟨before, record, after, mid, fault, hrecords, hbefore, hfault, ?_⟩
      rw [hrecords, visitAll_of_fault hbefore hfault]

/-- A recorder that can come about: a new one, one that is assembled from a listing, and whatever
steps make of these. -/
inductive Reachable : Recorder → Prop
  | new : Reachable .new
  | assembled {text : String} {r : Recorder} : assemble text = .ok r → Reachable r
  | step {r : Recorder} (s : Step) : Reachable r → Reachable (s.apply r)

/-- Assembling a listing is one way of running a recorder. -/
theorem Reachable.exists_run {r : Recorder} (h : Reachable r) : ∃ steps, run steps = r := by
  induction h with
  | new => exact ⟨[], rfl⟩
  | assembled hassemble =>
      obtain ⟨records, -, hrecords⟩ := assemble_eq_ok_iff.1 hassemble
      have hreplay := congrArg Prod.fst (outcome_replay_receiver (encodeAll records) .new)
      rw [decode_encodeAll, hrecords] at hreplay
      exact ⟨[.replayed (encodeAll records)], hreplay⟩
  | step s _ ih =>
      obtain ⟨steps, rfl⟩ := ih
      exact ⟨steps ++ [s], run_concat steps s⟩

theorem reachable_run (steps : List Step) : Reachable (run steps) := by
  induction steps using List.reverseRecOn with
  | nil => exact .new
  | append_singleton steps s ih =>
      rw [run_concat]
      exact ih.step s

end Recorder

end DisplayList
