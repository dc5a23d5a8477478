import DisplayList.Proofs.Replay.Outcome
import DisplayList.Recorder

/-!
# Recording records one by one

A recorder turns nothing down, so replaying a buffer into it comes to recording the records of the
buffer one by one. The slots it holds are then the ones it held before and those of the records,
and the program that it may have held is dropped with the first of them.
-/

namespace DisplayList

namespace Recorder

theorem slots_foldl_record (records : List Record) (r : Recorder) :
    (records.foldl record r).slots = r.slots ++ encodeAll records := by
  induction records generalizing r with
  | nil => rw [List.foldl_nil, encodeAll_nil, List.append_nil]
  | cons rec records ih =>
      rw [List.foldl_cons, ih, encodeAll_cons, ← List.append_assoc]
      rfl

theorem program_foldl_record {records : List Record} (h : records ≠ []) (r : Recorder) :
    (records.foldl record r).program = none := by
  induction records generalizing r with
  | nil => exact absurd rfl h
  | cons rec records ih =>
      by_cases hrecords : records = []
      · subst hrecords
        rfl
      · rw [List.foldl_cons, ih hrecords]

/-- Recording takes no notice of the program. -/
theorem foldl_record_of_program {records : List Record} (h : records ≠ []) (r : Recorder)
    (cache : Option Program) :
    records.foldl record { r with program := cache } = records.foldl record r := by
  cases records with
  | nil => exact absurd rfl h
  | cons rec records => rfl

theorem outcome_take (rec : Record) (r : Recorder) :
    (receiver.take rec r).outcome = (r.record rec, none) := by
  cases rec <;> rfl

theorem visitAll_take (ending : Option Fault) (records : List Record) (r : Recorder) :
    visitAll receiver.take ending records r = (records.foldl record r, ending) := by
  induction records generalizing r with
  | nil => rfl
  | cons rec records ih =>
      have hstate : (receiver.take rec r).state = r.record rec :=
        congrArg Prod.fst (outcome_take rec r)
      have hfault : (receiver.take rec r).fault = none := congrArg Prod.snd (outcome_take rec r)
      rw [visitAll, hfault, List.foldl_cons, ← hstate]
      exact ih _

/-- Replaying a buffer into a recorder records its records one by one. -/
theorem outcome_replay_receiver (slots : List Slot) (r : Recorder) :
    (replay receiver slots r).outcome =
      ((decode slots).records.foldl record r, (decode slots).fault) := by
  rw [outcome_replay, visitAll_take]

end Recorder

end DisplayList
