import DisplayList.Proofs.Geometry.Box
import DisplayList.Proofs.Record.Composition
import DisplayList.Proofs.Recorder.Reads

/-!
# Drawing a recorder into another

A recorder that can come about holds a readable buffer, so drawing it into another one comes to
recording its records there, `state_drawInto`. All that the other answers afterwards is made up of
what the two answered before: its slots are put end to end, values go over those of before, the box
is fed with the calls, and the program is dropped unless there was nothing to draw.
-/

namespace DisplayList

namespace BoundingBox

theorem recordCalls_append (b : BoundingBox) (records later : List Record) :
    b.recordCalls (records ++ later) = (b.recordCalls records).recordCalls later := by
  rw [recordCalls, List.filterMap_append, List.foldl_append]
  rfl

theorem recordCalls_eq_recordAll (b : BoundingBox) (records : List Record) :
    b.recordCalls records =
      b.recordAll ((records.filterMap Record.call?).map (Prod.map .method id)) := by
  rw [recordAll, List.foldl_map]
  rfl

theorem rect_recordCalls_new_eq_error_iff {records : List Record} {fault : Fault} :
    (new.recordCalls records).rect = .error fault ↔
      fault = .notImplemented (.method .arcTo) ∧ ∃ args, .call .arcTo args ∈ records := by
  have hmem (args : List Value) :
      (Operation.method .arcTo, args) ∈
          (records.filterMap Record.call?).map (Prod.map .method id) ↔
        .call .arcTo args ∈ records := by
    constructor
    · intro h
      obtain ⟨call, hcall, heq⟩ := List.mem_map.1 h
      obtain ⟨rec, hrec, hsome⟩ := List.mem_filterMap.1 hcall
      cases rec with
      | set p value => cases hsome
      | call m args' =>
          cases hsome
          cases heq
          exact hrec
    · intro h
      exact List.mem_map.2 ⟨(.arcTo, args), List.mem_filterMap.2 ⟨_, h, rfl⟩, rfl⟩
  rw [recordCalls_eq_recordAll, rect_recordAll_new_eq_error_iff]
  simp only [hmem]

end BoundingBox

namespace Recorder

/-- What comes back from drawing a recorder into another one. -/
def drawInto (r t : Recorder) : Reply Recorder := replay receiver r.slots t

theorem Reachable.readable {r : Recorder} (h : Reachable r) : Readable r.slots := by
  obtain ⟨steps, rfl⟩ := h.exists_run
  exact readable_run steps

theorem Reachable.drawInto {t : Recorder} (h : Reachable t) (r : Recorder) :
    Reachable (r.drawInto t).state :=
  h.step (.replayed r.slots)

theorem state_drawInto (r t : Recorder) :
    (r.drawInto t).state = (decode r.slots).records.foldl record t :=
  congrArg Prod.fst (outcome_replay_receiver r.slots t)

theorem fault_drawInto {r : Recorder} (h : Readable r.slots) (t : Recorder) :
    (r.drawInto t).fault = none :=
  (congrArg Prod.snd (outcome_replay_receiver r.slots t)).trans h

theorem slots_drawInto {r : Recorder} (h : Reachable r) (t : Recorder) :
    (r.drawInto t).state.slots = t.slots ++ r.slots := by
  rw [state_drawInto, slots_foldl_record, encodeAll_decode h.readable]

theorem value?_drawInto {r : Recorder} (h : Reachable r) (t : Recorder) (op : Operation) :
    (r.drawInto t).state.value? op = (r.value? op).or (t.value? op) := by
  rw [state_drawInto, value?_foldl_record, h.answers.1]

theorem bounds_drawInto (r t : Recorder) :
    (r.drawInto t).state.bounds = t.bounds.recordCalls (decode r.slots).records := by
  rw [state_drawInto, bounds_foldl_record]

/-- An `arcTo` of either recorder spoils the rectangle, and nothing else does. -/
theorem boundingRect_drawInto {t : Recorder} (ht : Reachable t) (r : Recorder) {fault : Fault} :
    (r.drawInto t).state.boundingRect = .error fault ↔
      fault = .notImplemented (.method .arcTo) ∧
        ∃ args, .call .arcTo args ∈ (decode t.slots).records ∨
          .call .arcTo args ∈ (decode r.slots).records := by
  rw [boundingRect, bounds_drawInto, ht.answers.2, ← BoundingBox.recordCalls_append,
    BoundingBox.rect_recordCalls_new_eq_error_iff]
  simp only [List.mem_append]

theorem program_drawInto (r t : Recorder) :
    (r.drawInto t).state.program =
      if (decode r.slots).records = [] then t.program else none := by
  rw [state_drawInto]
  split
  · next h => rw [h, List.foldl_nil]
  · next h => exact program_foldl_record h t

theorem drawInto_append {r r' s : Recorder} (hr : Reachable r) (hr' : Reachable r')
    (h : s.slots = r.slots ++ r'.slots) (t : Recorder) :
    (s.drawInto t).outcome = (r'.drawInto (r.drawInto t).state).outcome := by
  have hdecode := decode_append hr.readable hr'.readable
  have hreadable : Readable s.slots := by rw [h, Readable, hdecode]
  refine Prod.ext ?_ ((fault_drawInto hreadable t).trans (fault_drawInto hr'.readable _).symm)
  change (s.drawInto t).state = (r'.drawInto (r.drawInto t).state).state
  rw [state_drawInto, h, hdecode, List.foldl_append, ← state_drawInto, ← state_drawInto]

/-- Drawing a recorder into another one succeeds and leaves the drawn one as it is. The other then
holds its old slots and those of the drawn one behind them, has the value of the drawn one wherever
that has one and its old value elsewhere, and its box has been fed with the calls of the drawn one,
so that an `arcTo` of either spoils the rectangle. Its program is dropped if there is a record to
draw and kept if there is none. What is drawn into a new recorder is a copy, and drawing two
recorders one after the other comes to drawing one that holds the slots of both. -/
theorem drawing_appends {r t : Recorder} (hr : Reachable r) (ht : Reachable t) :
    (r.drawInto t).fault = none ∧ Step.draw.apply r = r ∧
      Reachable (r.drawInto t).state ∧
      (r.drawInto t).state.slots = t.slots ++ r.slots ∧
      (∀ op, (r.drawInto t).state.value? op = (r.value? op).or (t.value? op)) ∧
      (r.drawInto t).state.bounds = t.bounds.recordCalls (decode r.slots).records ∧
      (∀ fault, (r.drawInto t).state.boundingRect = .error fault ↔
        fault = .notImplemented (.method .arcTo) ∧
          ∃ args, .call .arcTo args ∈ (decode t.slots).records ∨
            .call .arcTo args ∈ (decode r.slots).records) ∧
      (r.drawInto t).state.program =
        (if (decode r.slots).records = [] then t.program else none) ∧
      ((r.drawInto .new).state.slots = r.slots ∧
        (∀ op, (r.drawInto .new).state.value? op = r.value? op) ∧
        (r.drawInto .new).state.boundingRect = r.boundingRect) ∧
      ∀ r' s : Recorder, Reachable r' → s.slots = r.slots ++ r'.slots →
        (s.drawInto t).outcome = (r'.drawInto (r.drawInto t).state).outcome := by
  refine ⟨fault_drawInto hr.readable t, rfl, ht.drawInto r, slots_drawInto hr t, value?_drawInto hr t,
    bounds_drawInto r t, fun fault => boundingRect_drawInto ht r, program_drawInto r t,
    ⟨slots_drawInto hr .new, fun op => ?_, ?_⟩, fun r' s hr' hs => drawInto_append hr hr' hs t⟩
  · have hnew : Recorder.new.value? op = none := by cases op <;> rfl
    rw [value?_drawInto hr, hnew, Option.or_none]
  · rw [boundingRect, boundingRect, bounds_drawInto, hr.answers.2]
    rfl

/-- A recorder with an assignment and an `arcTo` is drawn into one that has been compiled, as is a
new one, with which nothing changes. -/
theorem drawing_appends_arcTo :
    let r := run [.setter .lineWidth (.number 2), .arcTo 0 0 1 1 3]
    let t := run [.setter .lineWidth (.number 5), .setter .font (.text "serif"), .compile]
    (r.drawInto t).state.slots = t.slots ++ r.slots ∧
      (r.drawInto t).state.value? Property.lineWidth = some (.number 2) ∧
      (r.drawInto t).state.value? Property.font = some (.text "serif") ∧
      (r.drawInto t).state.boundingRect = .error (.notImplemented Method.arcTo) ∧
      (r.drawInto t).state.program = none ∧
      (new.drawInto t).state.isCompiled = true := by
  intro r t
  have hr : Reachable r := reachable_run _
  have ht : Reachable t := reachable_run _
  obtain ⟨-, -, -, hslots, hvalues, -, hrect, hprogram, -⟩ := drawing_appends hr ht
  obtain ⟨-, -, -, -, -, -, -, hkept, -⟩ := drawing_appends .new ht
  have hcall : .call .arcTo [.number 0, .number 0, .number 1, .number 1, .number 3] ∈
      (decode r.slots).records := by
    rw [decode_run]
    exact List.mem_cons_of_mem _ List.mem_cons_self
  refine ⟨hslots, ?_, ?_, (hrect _).2 ⟨rfl, _, .inr hcall⟩, hprogram, ?_⟩
  · rw [hvalues]
    rfl
  · rw [hvalues]
    rfl
  · rw [isCompiled, hkept]
    rfl

end Recorder

end DisplayList
