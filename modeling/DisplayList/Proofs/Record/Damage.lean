import DisplayList.Proofs.Record.RoundTrip

/-!
# Where damage is found

Slots are `Viable` when some readable buffer begins with them. A malformed buffer is viable up to
the slot that its fault names and not beyond it, unless it merely stops inside a record, and an
unused code is named where a record should begin. The records ahead of the damage are those of
the buffer cut off at a boundary: `fault_located`.
-/

namespace DisplayList

/-- What reading a buffer brings, one item after the other. -/
def Decoding.items (d : Decoding) : List (Except Fault Record) :=
  d.records.map .ok ++ (d.fault.map .error).toList

/-- Slots with which a readable buffer can begin. -/
def Viable (slots : List Slot) : Prop := ∃ rest, Readable (slots ++ rest)

/-- Some but not all slots of a record. -/
def InsideRecord (slots : List Slot) : Prop :=
  ∃ (record : Record) (k : Nat), 0 < k ∧ k < record.size ∧ slots = record.encode.take k

/-- What a fault says of a buffer whose last boundary is at `start`. -/
def Locates (slots : List Slot) (start : Nat) : Fault → Prop
  | .malformed p =>
      p ≤ slots.length ∧ Viable (slots.take p) ∧
        (p < slots.length ∧ ¬ Viable (slots.take (p + 1)) ∨
          p = slots.length ∧ InsideRecord (slots.drop start))
  | .invalidCode c => slots[start]? = some (.code c) ∧ ∀ op : Operation, op.code ≠ c
  | _ => False

theorem insideRecord_pending {phase : Phase} (h : phase ≠ .boundary) :
    InsideRecord phase.pending := by
  obtain ⟨record, rest, hrest, hencode⟩ := exists_pending_append h
  have hsize : record.size = phase.pending.length + rest.length := by
    rw [← Record.length_encode, ← hencode, List.length_append]
  refine ⟨record, phase.pending.length, ?_, ?_, ?_⟩
  · exact List.length_pos_iff.2 (mt Phase.pending_eq_nil_iff.1 h)
  · rw [hsize]
    exact Nat.lt_add_of_pos_right (List.length_pos_iff.2 hrest)
  · rw [← hencode, List.take_left]

theorem viable_pending (records : List Record) (phase : Phase) :
    Viable (encodeAll records ++ phase.pending) := by
  by_cases h : phase = .boundary
  · subst h
    exact ⟨[], by rw [Phase.pending_boundary, List.append_nil, List.append_nil]
                  exact readable_encodeAll records⟩
  · obtain ⟨record, rest, -, hencode⟩ := exists_pending_append h
    refine ⟨rest, ?_⟩
    have hall : encodeAll records ++ record.encode = encodeAll (records ++ [record]) := by
      rw [encodeAll_append, encodeAll_cons, encodeAll_nil, List.append_nil]
    rw [List.append_assoc, hencode, hall]
    exact readable_encodeAll _

theorem not_viable_of_refuses (records : List Record) {phase : Phase} {slot : Slot}
    (h : phase.Refuses slot) : ¬ Viable (encodeAll records ++ phase.pending ++ [slot]) := by
  rintro ⟨rest, hrest⟩
  obtain ⟨fault, hdecode, -⟩ := exists_fault_of_refuses records h
  rw [List.append_assoc, List.append_assoc, List.singleton_append, Readable, hdecode] at hrest
  simp at hrest

theorem decode_inside (before : List Record) {record : Record} {k : Nat} (hpos : 0 < k)
    (hk : k < record.size) :
    decode (encodeAll before ++ record.encode.take k) =
      ⟨before, some (.malformed ((encodeAll before).length + k))⟩ := by
  obtain ⟨phase, hphase⟩ := exists_pending_eq_take record hk
  have hlength : phase.pending.length = k := by
    rw [hphase, List.length_take, Record.length_encode, Nat.min_eq_left (Nat.le_of_lt hk)]
  rw [← hphase, decode_pending, List.length_append, hlength]
  cases phase with
  | boundary => exact absurd hlength (Nat.ne_of_lt hpos)
  | opened op => rfl
  | filling m taken missing => rfl
  | assigning p => rfl

/-- A cut inside a record leaves the records before it and a fault at the cut. -/
theorem decode_take {slots : List Slot} {before after : List Record} {record : Record} {k : Nat}
    (hslots : Readable slots) (hrecords : (decode slots).records = before ++ record :: after)
    (hlow : (encodeAll before).length < k)
    (hhigh : k < (encodeAll before).length + record.size) :
    decode (slots.take k) = ⟨before, some (.malformed k)⟩ := by
  obtain ⟨j, rfl⟩ := Nat.exists_eq_add_of_lt hlow
  have hj : j + 1 < record.size := by omega
  have htake : slots.take ((encodeAll before).length + j + 1) =
      encodeAll before ++ record.encode.take (j + 1) := by
    rw [← encodeAll_decode hslots, hrecords, encodeAll_append, encodeAll_cons, Nat.add_assoc,
      List.take_length_add_append, List.take_append_of_le_length]
    rw [Record.length_encode]
    exact Nat.le_of_lt hj
  rw [htake, decode_inside before (Nat.succ_pos j) hj, Nat.add_assoc]

/-- A buffer that runs out has its fault at its end. -/
theorem locates_pending (records : List Record) {phase : Phase} (h : phase ≠ .boundary) :
    ∃ fault, decode (encodeAll records ++ phase.pending) = ⟨records, some fault⟩ ∧
      Locates (encodeAll records ++ phase.pending) (encodeAll records).length fault := by
  refine ⟨.malformed (encodeAll records ++ phase.pending).length, ?_, Nat.le_refl _, ?_,
    .inr ⟨rfl, ?_⟩⟩
  · rw [decode_pending]
    cases phase with
    | boundary => exact absurd rfl h
    | opened op => rfl
    | filling m taken missing => rfl
    | assigning p => rfl
  · rw [List.take_length]
    exact viable_pending records phase
  · rw [List.drop_left]
    exact insideRecord_pending h

/-- A buffer with a refused slot has its fault at that slot. -/
theorem locates_of_refuses (records : List Record) {phase : Phase} {slot : Slot}
    (h : phase.Refuses slot) (rest : List Slot) :
    ∃ fault, decode (encodeAll records ++ (phase.pending ++ slot :: rest)) =
        ⟨records, some fault⟩ ∧
      Locates (encodeAll records ++ (phase.pending ++ slot :: rest)) (encodeAll records).length
        fault := by
  obtain ⟨fault, hdecode, rfl | ⟨c, rfl, rfl, rfl, hc⟩⟩ := exists_fault_of_refuses records h
  · refine ⟨_, hdecode rest, ?_⟩
    rw [← List.append_assoc]
    have hlt : (encodeAll records ++ phase.pending).length <
        (encodeAll records ++ phase.pending ++ slot :: rest).length := by
      simp only [List.length_append, List.length_cons]
      omega
    refine ⟨Nat.le_of_lt hlt, ?_, .inl ⟨hlt, ?_⟩⟩
    · rw [List.take_left]
      exact viable_pending records phase
    · rw [List.take_length_add_append, List.take_succ_cons, List.take_zero]
      exact not_viable_of_refuses records h
  · refine ⟨_, hdecode rest, ?_, fun op hop => ?_⟩
    · rw [Phase.pending_boundary, List.nil_append, List.getElem?_append_right (Nat.le_refl _),
        Nat.sub_self, List.getElem?_cons_zero]
    · rw [← hop, Operation.ofCode?_code] at hc
      exact absurd hc (by simp)

theorem exists_locates {slots : List Slot} (h : ¬ Readable slots) :
    ∃ (records : List Record) (tail : List Slot) (fault : Fault),
      slots = encodeAll records ++ tail ∧ decode slots = ⟨records, some fault⟩ ∧
        Locates slots (encodeAll records).length fault := by
  obtain ⟨records, phase, tail, rfl, rfl | ⟨slot, rest, rfl, href⟩⟩ := exists_split slots
  · rw [List.append_nil] at h ⊢
    have hphase : phase ≠ .boundary := by
      rintro rfl
      rw [Phase.pending_boundary, List.append_nil] at h
      exact h (readable_encodeAll records)
    obtain ⟨fault, hdecode, hlocates⟩ := locates_pending records hphase
    exact ⟨records, _, fault, rfl, hdecode, hlocates⟩
  · obtain ⟨fault, hdecode, hlocates⟩ := locates_of_refuses records href rest
    exact ⟨records, _, fault, rfl, hdecode, hlocates⟩

/-- A buffer with a fault has it last, behind the records of the buffer cut off at a boundary, and
the fault names the first slot that makes the buffer hopeless. A readable buffer that is cut inside
a record is malformed at the cut. -/
theorem fault_located :
    (∀ (slots : List Slot) (fault : Fault), (decode slots).fault = some fault →
      ∃ start, start ≤ slots.length ∧ Readable (slots.take start) ∧
        (decode slots).items = (decode (slots.take start)).items ++ [.error fault] ∧
        Locates slots start fault) ∧
      ∀ (slots : List Slot) (before after : List Record) (record : Record) (k : Nat),
        Readable slots → (decode slots).records = before ++ record :: after →
        (encodeAll before).length < k → k < (encodeAll before).length + record.size →
        decode (slots.take k) = ⟨before, some (.malformed k)⟩ := by
  constructor
  · intro slots fault hfault
    have hunreadable : ¬ Readable slots := by simp [Readable, hfault]
    obtain ⟨records, tail, found, hslots, hdecode, hlocates⟩ := exists_locates hunreadable
    obtain rfl : found = fault := by
      rw [hdecode] at hfault
      exact Option.some.inj hfault
    have htake : slots.take (encodeAll records).length = encodeAll records := by
      rw [hslots, List.take_left]
    refine ⟨(encodeAll records).length, ?_, ?_, ?_, hlocates⟩
    · rw [hslots, List.length_append]
      exact Nat.le_add_right _ _
    · rw [htake]
      exact readable_encodeAll records
    · rw [hdecode, htake, decode_encodeAll]
      simp [Decoding.items]
  · intro slots before after record k
    exact decode_take

theorem fault_located_cut_line :
    (decode [.code 0x20, .count 2, .arg (.number 1)]).fault = some (.malformed 3) ∧
      (∃ start, start ≤ 3 ∧
        Locates [.code 0x20, .count 2, .arg (.number 1)] start (.malformed 3)) ∧
      Readable [.code 0x20, .count 2, .arg (.number 1), .arg (.number 7)] ∧
      decode [.code 0x20, .count 2] = ⟨[], some (.malformed 2)⟩ := by
  have hfault : (decode [.code 0x20, .count 2, .arg (.number 1)]).fault =
      some (.malformed 3) := by
    decide
  have hreadable : Readable [.code 0x20, .count 2, .arg (.number 1), .arg (.number 7)] := by
    decide
  obtain ⟨start, hstart, -, -, hlocates⟩ := fault_located.1 _ _ hfault
  have hcut := fault_located.2 _ [] [] (.call .lineTo [.number 1, .number 7]) 2 hreadable rfl
    (by decide) (by decide)
  exact ⟨hfault, ⟨start, hstart, hlocates⟩, hreadable, hcut⟩

end DisplayList
