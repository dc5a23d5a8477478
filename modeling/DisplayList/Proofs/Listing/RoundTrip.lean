import DisplayList.Proofs.Listing.Line
import DisplayList.Proofs.Recorder.Recording

/-!
# Assembling a listing again

Assembling records what the lines denote one by one, just as replaying a buffer records its records,
and the lines of a listing denote the records that it was written for. `assemble_disassemble` puts
the two together: the listing of a readable buffer leads back to that buffer, in a recorder that
cannot be told from one into which the buffer was replayed.
-/

namespace DisplayList

theorem assemble_eq_ok_iff {text : String} {r : Recorder} :
    assemble text = .ok r ↔ ∃ records, recordsOfListing text.toList = .ok records ∧
      records.foldl Recorder.record .new = r := by
  rw [assemble]
  cases recordsOfListing text.toList <;> simp [Except.map]

theorem assemble_eq_error_iff {text : String} {fault : ListingFault} :
    assemble text = .error fault ↔ recordsOfListing text.toList = .error fault := by
  rw [assemble]
  cases recordsOfListing text.toList <;> simp [Except.map]

theorem disassemble_of_readable {slots : List Slot} (h : Readable slots) :
    disassemble slots = .ok (String.ofList (listing (decode slots).records)) := by
  rw [Readable] at h
  rw [disassemble, decodeAll, h]
  rfl

theorem assemble_listing (records : List Record) :
    assemble (String.ofList (listing records)) = .ok (records.foldl Recorder.record .new) := by
  rw [assemble_eq_ok_iff, String.toList_ofList, recordsOfListing_listing]
  exact ⟨records, rfl, rfl⟩

/-- The listing of a readable buffer can be assembled. The recorder that comes of it holds the
buffer slot for slot, is the one that a replay of the buffer makes of a new recorder, and has the
same listing again. -/
theorem assemble_disassemble {slots : List Slot} (h : Readable slots) :
    ∃ text recorder, disassemble slots = .ok text ∧ assemble text = .ok recorder ∧
      recorder.slots = slots ∧
      (replay Recorder.receiver slots .new).outcome = (recorder, none) ∧
      disassemble recorder.slots = .ok text := by
  have hlisting := disassemble_of_readable h
  have hslots : ((decode slots).records.foldl Recorder.record .new).slots = slots := by
    rw [Recorder.slots_foldl_record, encodeAll_decode h]
    rfl
  refine ⟨_, _, hlisting, assemble_listing _, hslots, ?_, ?_⟩
  · rw [Recorder.outcome_replay_receiver, h]
  · rw [hslots, hlisting]

theorem assemble_disassemble_quoted_font :
    ∃ text recorder,
      disassemble [.code 0xc0, .count 1, .arg (.text "9px \"A\\B\"\n#=é")] = .ok text ∧
        assemble text = .ok recorder ∧
        recorder.slots = [.code 0xc0, .count 1, .arg (.text "9px \"A\\B\"\n#=é")] := by
  have hreadable : Readable [.code 0xc0, .count 1, .arg (.text "9px \"A\\B\"\n#=é")] := by decide
  obtain ⟨text, recorder, hlisting, hrecorder, hslots, -, -⟩ := assemble_disassemble hreadable
  exact ⟨text, recorder, hlisting, hrecorder, hslots⟩

end DisplayList
