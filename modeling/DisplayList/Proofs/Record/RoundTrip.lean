import DisplayList.Proofs.Record.Pending

/-!
# Reading back what is written

A buffer is `Readable` when reading it ends without a fault. On records, writing and reading undo
each other: `decode_encodeAll` and `encodeAll_decode`. The writer itself is offered instructions of
any operation, and an `Instruction` is a record only if it is well-kinded, that is if it calls a
method or assigns to a property. `instructions_decode_encode` says that the readable buffers are
exactly what well-kinded instructions are written as.
-/

namespace DisplayList

/-- A buffer that can be read to its end. -/
def Readable (slots : List Slot) : Prop := (decode slots).fault = none

instance : DecidablePred Readable := fun slots =>
  inferInstanceAs (Decidable ((decode slots).fault = none))

theorem decode_encodeAll (records : List Record) :
    decode (encodeAll records) = ⟨records, none⟩ := by
  simpa [Phase.faultAtEnd] using decode_pending records .boundary

theorem encodeAll_decode {slots : List Slot} (h : Readable slots) :
    encodeAll (decode slots).records = slots := by
  obtain ⟨records, phase, tail, rfl, rfl | ⟨slot, rest, rfl, href⟩⟩ := exists_split slots
  · rw [Readable, List.append_nil, decode_pending] at h
    cases phase with
    | boundary => rw [List.append_nil, decode_pending, Phase.pending_boundary, List.append_nil]
    | opened op => simp [Phase.faultAtEnd] at h
    | filling m taken missing => simp [Phase.faultAtEnd] at h
    | assigning p => simp [Phase.faultAtEnd] at h
  · obtain ⟨fault, hdecode, -⟩ := exists_fault_of_refuses records href
    rw [Readable, hdecode] at h
    simp at h

theorem readable_encodeAll (records : List Record) : Readable (encodeAll records) := by
  rw [Readable, decode_encodeAll]

/-- A call or an assignment of any operation, whichever kind the operation has. -/
inductive Instruction
  | call (op : Operation) (args : List Value)
  | set (op : Operation) (value : Value)
deriving DecidableEq

namespace Instruction

def WellKinded : Instruction → Prop
  | call op _ => op.kind = .method
  | set op _ => op.kind = .property

instance : DecidablePred WellKinded
  | call op _ => inferInstanceAs (Decidable (op.kind = .method))
  | set op _ => inferInstanceAs (Decidable (op.kind = .property))

/-- The slots that the writer appends. It takes the kind from the way of driving and not from the
operation, so an assignment sets the bit of properties and counts one value. -/
def encode : Instruction → List Slot
  | call op args => .code op.code :: .count args.length :: args.map .arg
  | set op value => [.code (op.code ||| propertyTag), .count 1, .arg value]

def encodeAll (instructions : List Instruction) : List Slot := instructions.flatMap encode

end Instruction

def Record.instruction : Record → Instruction
  | call m args => .call m args
  | set p value => .set p value

def Decoding.instructions (d : Decoding) : List Instruction := d.records.map Record.instruction

namespace Instruction

theorem wellKinded_instruction (record : Record) : record.instruction.WellKinded := by
  cases record <;> rfl

theorem exists_record_of_wellKinded {i : Instruction} (h : i.WellKinded) :
    ∃ record : Record, record.instruction = i := by
  cases i with
  | call op args =>
      cases op with
      | method m => exact ⟨.call m args, rfl⟩
      | property p => simp [WellKinded, Operation.kind] at h
  | set op value =>
      cases op with
      | method m => simp [WellKinded, Operation.kind] at h
      | property p => exact ⟨.set p value, rfl⟩

theorem code_or_propertyTag (p : Property) : p.code ||| propertyTag = p.code := by
  cases p <;> decide

theorem encode_instruction (record : Record) : record.instruction.encode = record.encode := by
  cases record with
  | call m args => rfl
  | set p value =>
      simp [Record.instruction, encode, Operation.code, code_or_propertyTag, Record.encode,
        Record.op, Record.values]

theorem encodeAll_map_instruction (records : List Record) :
    encodeAll (records.map Record.instruction) = DisplayList.encodeAll records := by
  induction records with
  | nil => rfl
  | cons record records ih =>
      rw [List.map_cons, encodeAll, List.flatMap_cons, encode_instruction, encodeAll_cons, ← ih]
      rfl

theorem exists_records_of_wellKinded {instructions : List Instruction}
    (h : ∀ i ∈ instructions, i.WellKinded) :
    ∃ records : List Record, records.map Record.instruction = instructions := by
  induction instructions with
  | nil => exact ⟨[], rfl⟩
  | cons i instructions ih =>
      obtain ⟨record, hrecord⟩ := exists_record_of_wellKinded (h i List.mem_cons_self)
      obtain ⟨records, hrecords⟩ := ih fun j hj => h j (List.mem_cons_of_mem i hj)
      exact ⟨record :: records, by rw [List.map_cons, hrecord, hrecords]⟩

end Instruction

/-- Well-kinded instructions are read back as they were given, a buffer without a fault holds
well-kinded instructions and is what they are written as, and so the buffers without a fault are
the written ones. -/
theorem instructions_decode_encode :
    (∀ instructions : List Instruction, (∀ i ∈ instructions, i.WellKinded) →
        Readable (Instruction.encodeAll instructions) ∧
          (decode (Instruction.encodeAll instructions)).instructions = instructions) ∧
      (∀ slots : List Slot, Readable slots →
        (∀ i ∈ (decode slots).instructions, i.WellKinded) ∧
          Instruction.encodeAll (decode slots).instructions = slots) ∧
      ∀ slots : List Slot, Readable slots ↔
        ∃ instructions : List Instruction, (∀ i ∈ instructions, i.WellKinded) ∧
          Instruction.encodeAll instructions = slots := by
  have hwrite : ∀ instructions : List Instruction, (∀ i ∈ instructions, i.WellKinded) →
      Readable (Instruction.encodeAll instructions) ∧
        (decode (Instruction.encodeAll instructions)).instructions = instructions := by
    intro instructions h
    obtain ⟨records, rfl⟩ := Instruction.exists_records_of_wellKinded h
    rw [Instruction.encodeAll_map_instruction]
    refine ⟨readable_encodeAll records, ?_⟩
    rw [Decoding.instructions, decode_encodeAll]
  have hread : ∀ slots : List Slot, Readable slots →
      (∀ i ∈ (decode slots).instructions, i.WellKinded) ∧
        Instruction.encodeAll (decode slots).instructions = slots := by
    intro slots h
    constructor
    · intro i hi
      obtain ⟨record, -, rfl⟩ := List.mem_map.1 hi
      exact Instruction.wellKinded_instruction record
    · rw [Decoding.instructions, Instruction.encodeAll_map_instruction, encodeAll_decode h]
  refine ⟨hwrite, hread, fun slots => ⟨fun h => ⟨_, hread slots h⟩, ?_⟩⟩
  rintro ⟨instructions, hkinds, rfl⟩
  exact (hwrite instructions hkinds).1

theorem instructions_decode_encode_stroke :
    (∀ i ∈ [Instruction.set Property.lineWidth (.number 2), .call Method.stroke []],
        i.WellKinded) ∧
      (decode (Instruction.encodeAll
          [.set Property.lineWidth (.number 2), .call Method.stroke []])).instructions =
        [.set Property.lineWidth (.number 2), .call Method.stroke []] ∧
      Readable [.code 0x80, .count 1, .arg (.number 2), .code 0x70, .count 0] ∧
      Instruction.encodeAll
          (decode [.code 0x80, .count 1, .arg (.number 2), .code 0x70, .count 0]).instructions =
        [.code 0x80, .count 1, .arg (.number 2), .code 0x70, .count 0] := by
  have hkinds : ∀ i ∈ [Instruction.set Property.lineWidth (.number 2), .call Method.stroke []],
      i.WellKinded := by
    decide
  have hreadable : Readable [.code 0x80, .count 1, .arg (.number 2), .code 0x70, .count 0] := by
    decide
  exact ⟨hkinds, (instructions_decode_encode.1 _ hkinds).2, hreadable,
    (instructions_decode_encode.2.1 _ hreadable).2⟩

end DisplayList
