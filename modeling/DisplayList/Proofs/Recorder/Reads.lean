import DisplayList.Proofs.Recorder.Run

/-!
# What a recorder answers

Beside its slots a recorder keeps the values of the properties and a bounding box, and updates them
as it records. Neither ever says anything that the slots do not: a value is that of the last
assignment among the records, and the box is a new one that was fed with their calls. So recorders
with the same slots give the same answers, however they were reached.
-/

namespace DisplayList

namespace Record

/-- The value that a record gives an operation, if it is an assignment to it. -/
def valueFor? (op : Operation) : Record → Option Value
  | call _ _ => none
  | set p value => if op = .property p then some value else none

/-- The method and the arguments of a record, if it is a call. -/
def call? : Record → Option (Method × List Value)
  | call m args => some (m, args)
  | set _ _ => none

end Record

/-- The value of the last assignment to an operation. -/
def lastValue? (op : Operation) (records : List Record) : Option Value :=
  (records.filterMap (Record.valueFor? op)).getLast?

/-- The box behind the calls among some records. -/
def BoundingBox.recordCalls (b : BoundingBox) (records : List Record) : BoundingBox :=
  (records.filterMap Record.call?).foldl (fun b call => b.record (.method call.1) call.2) b

theorem lastValue?_concat (op : Operation) (records : List Record) (rec : Record) :
    lastValue? op (records ++ [rec]) = (rec.valueFor? op).or (lastValue? op records) := by
  rw [lastValue?, List.filterMap_append, List.getLast?_append, List.filterMap_cons]
  cases rec.valueFor? op <;> rfl

theorem lastValue?_method (m : Method) (records : List Record) :
    lastValue? m records = none := by
  have hnone : records.filterMap (Record.valueFor? (.method m)) = [] := by
    rw [List.filterMap_eq_nil_iff]
    intro rec _
    cases rec with
    | call _ _ => rfl
    | set p value => rw [Record.valueFor?, if_neg nofun]
  rw [lastValue?, hnone, List.getLast?_nil]

namespace Recorder

theorem value?_record (r : Recorder) (rec : Record) (op : Operation) :
    (r.record rec).value? op = (rec.valueFor? op).or (r.value? op) := by
  cases rec with
  | call m args => cases op <;> rfl
  | set p value =>
      cases op with
      | method m => rw [Record.valueFor?, if_neg nofun]; rfl
      | property q =>
          by_cases hq : q = p
          · subst hq
            simp [Record.valueFor?, value?, record]
          · simp [Record.valueFor?, value?, record, hq]

theorem value?_foldl_record (records : List Record) (r : Recorder) (op : Operation) :
    (records.foldl record r).value? op = (lastValue? op records).or (r.value? op) := by
  induction records using List.reverseRecOn with
  | nil => rfl
  | append_singleton records rec ih =>
      rw [List.foldl_append, List.foldl_cons, List.foldl_nil, value?_record, ih,
        lastValue?_concat, Option.or_assoc]

theorem bounds_foldl_record (records : List Record) (r : Recorder) :
    (records.foldl record r).bounds = r.bounds.recordCalls records := by
  induction records generalizing r with
  | nil => rfl
  | cons rec records ih =>
      rw [List.foldl_cons, ih]
      cases rec <;> rfl

/-- The answers of a recorder are read off its slots. -/
theorem Reachable.answers {r : Recorder} (h : Reachable r) :
    (∀ op, r.value? op = lastValue? op (decode r.slots).records) ∧
      r.bounds = BoundingBox.new.recordCalls (decode r.slots).records := by
  obtain ⟨steps, rfl⟩ := h.exists_run
  obtain ⟨cache, hrun, -⟩ := exists_run_eq steps
  rw [decode_run]
  constructor
  · intro op
    have hvalue := value?_foldl_record (history steps) .new op
    have hnew : Recorder.new.value? op = none := by cases op <;> rfl
    rw [hnew, Option.or_none] at hvalue
    rw [hrun, ← hvalue]
    cases op <;> rfl
  · rw [hrun]
    exact bounds_foldl_record (history steps) .new

/-- What a recorder answers depends on its slots alone. The value of an operation is that of the
last assignment to it among the records, and no method has one. The box is as empty and has the
same rectangle as a new one that is fed with the calls among the records, each once and in order.
So two recorders with the same slots cannot be told apart. -/
theorem slots_determine_answers :
    (∀ r, Reachable r →
        (∀ op, r.value? op = lastValue? op (decode r.slots).records) ∧
          (∀ m : Method, r.value? m = none) ∧
          r.bounds.isEmpty = (BoundingBox.new.recordCalls (decode r.slots).records).isEmpty ∧
          r.boundingRect = (BoundingBox.new.recordCalls (decode r.slots).records).rect) ∧
      ∀ r t, Reachable r → Reachable t → r.slots = t.slots →
        (∀ op, r.value? op = t.value? op) ∧ r.boundingRect = t.boundingRect := by
  constructor
  · intro r hr
    obtain ⟨hvalues, hbounds⟩ := hr.answers
    refine ⟨hvalues, fun m => ?_, ?_, ?_⟩
    · rw [hvalues, lastValue?_method]
    · rw [hbounds]
    · rw [boundingRect, hbounds]
  · intro r t hr ht hslots
    obtain ⟨hvalues, hbounds⟩ := hr.answers
    obtain ⟨hvalues', hbounds'⟩ := ht.answers
    constructor
    · intro op
      rw [hvalues, hvalues', hslots]
    · rw [boundingRect, boundingRect, hbounds, hbounds', hslots]

/-- A call of a property and its own setter lead to the same answers, with a reset in between. -/
theorem slots_determine_answers_rerouted :
    (run [.call Property.lineWidth [.number 2, .number 9]]).value? Property.lineWidth =
        some (.number 2) ∧
      ∀ op, (run [.call Property.lineWidth [.number 2, .number 9]]).value? op =
        (run [.stroke, .reset, .setter .lineWidth (.number 2)]).value? op := by
  have hcalled := reachable_run [.call Property.lineWidth [.number 2, .number 9]]
  have hset := reachable_run [.stroke, .reset, .setter .lineWidth (.number 2)]
  refine ⟨?_, (slots_determine_answers.2 _ _ hcalled hset rfl).1⟩
  rw [(slots_determine_answers.1 _ hcalled).1]
  decide

end Recorder

end DisplayList
