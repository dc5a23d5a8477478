import DisplayList.Record.Decoding

/-!
# What the reader has in hand

The reader never needs more than the slots of the record it is in. `Phase.pending` writes those
slots down, so a phase is the same thing as the beginning of a record, and a buffer falls into
complete records, the pending slots of one phase, and a tail that is empty or begins with a slot
which that phase refuses. `next_cases` is all that a step can do, and `exists_split` is the shape
of every buffer.
-/

namespace DisplayList

namespace Phase

/-- The slots taken since the last boundary. -/
def pending : Phase → List Slot
  | boundary => []
  | opened op => [.code op.code]
  | filling m taken missing =>
      .code m.code :: .count (taken.length + missing + 1) :: taken.map .arg
  | assigning p => [.code p.code, .count 1]

/-- A slot that ends the reading, wherever it stands. -/
def Refuses (phase : Phase) (slot : Slot) : Prop :=
  (∃ c, phase = boundary ∧ slot = .code c ∧ Operation.ofCode? c = none) ∨
    ∀ position, phase.next position slot = .error (.malformed position)

@[simp] theorem pending_boundary : pending boundary = [] := rfl

theorem pending_eq_nil_iff {phase : Phase} : phase.pending = [] ↔ phase = boundary := by
  cases phase <;> simp [pending]

/-- Everything that one slot can do: it is taken, it completes a record, or it is refused. -/
theorem next_cases (phase : Phase) (slot : Slot) :
    (∃ later, (∀ position, phase.next position slot = .ok (later, none)) ∧
        later.pending = phase.pending ++ [slot]) ∨
      (∃ record, (∀ position, phase.next position slot = .ok (boundary, some record)) ∧
        record.encode = phase.pending ++ [slot]) ∨
      phase.Refuses slot := by
  rcases phase with _ | ⟨m | p⟩ | ⟨m, taken, _ | missing⟩ | p <;> rcases slot with c | n | v
  case boundary.code =>
      cases h : Operation.ofCode? c with
      | none => exact .inr (.inr (.inl ⟨c, rfl, rfl, h⟩))
      | some op =>
          refine .inl ⟨opened op, fun position => by simp [next, h], ?_⟩
          simp [pending, Operation.code_of_ofCode? h]
  case opened.method.count =>
      cases n with
      | zero => exact .inr (.inl ⟨.call m [], fun _ => rfl, rfl⟩)
      | succ n =>
          exact .inl ⟨filling m [] n, fun _ => rfl, by simp [pending, Operation.code]⟩
  case opened.property.count =>
      by_cases hn : n = 1
      · subst hn
        exact .inl ⟨assigning p, fun _ => rfl, rfl⟩
      · exact .inr (.inr (.inr fun position => by simp [next, hn]))
  case filling.zero.arg =>
      refine .inr (.inl ⟨.call m (taken ++ [v]), fun _ => rfl, ?_⟩)
      simp [Record.encode, Record.op, Record.values, Operation.code, pending]
  case filling.succ.arg =>
      refine .inl ⟨filling m (taken ++ [v]) missing, fun _ => rfl, ?_⟩
      have hcount : (taken ++ [v]).length + missing + 1 = taken.length + (missing + 1) + 1 := by
        rw [List.length_append, List.length_singleton]; omega
      simp only [pending, hcount, List.map_append, List.map_cons, List.map_nil, List.cons_append]
  case assigning.arg => exact .inr (.inl ⟨.set p v, fun _ => rfl, rfl⟩)
  all_goals exact .inr (.inr (.inr fun _ => rfl))

/-- A refused slot ends the reading with one of two faults, whatever follows. -/
theorem Refuses.exists_fault {phase : Phase} {slot : Slot} (h : phase.Refuses slot)
    (position : Nat) :
    ∃ fault, (∀ rest, decodeFrom position phase (slot :: rest) = ⟨[], some fault⟩) ∧
      (fault = .malformed position ∨
        ∃ c, fault = .invalidCode c ∧ phase = boundary ∧ slot = .code c ∧
          Operation.ofCode? c = none) := by
  rcases h with ⟨c, rfl, rfl, hc⟩ | h
  · refine ⟨.invalidCode c, fun rest => ?_, .inr ⟨c, rfl, rfl, rfl, hc⟩⟩
    simp [decodeFrom, next, hc]
  · refine ⟨.malformed position, fun rest => ?_, .inl rfl⟩
    simp [decodeFrom, h position]

end Phase

/-- A decoding with some records in front of it. -/
def Decoding.after (records : List Record) (d : Decoding) : Decoding :=
  ⟨records ++ d.records, d.fault⟩

theorem decodeFrom_taken {phase later : Phase} {slot : Slot}
    (h : ∀ position, phase.next position slot = .ok (later, none)) (position : Nat)
    (rest : List Slot) :
    decodeFrom position phase (slot :: rest) = decodeFrom (position + 1) later rest := by
  simp [decodeFrom, h position]

theorem decodeFrom_completed {phase : Phase} {slot : Slot} {record : Record}
    (h : ∀ position, phase.next position slot = .ok (.boundary, some record)) (position : Nat)
    (rest : List Slot) :
    decodeFrom position phase (slot :: rest) =
      (decodeFrom (position + 1) .boundary rest).after [record] := by
  simp [decodeFrom, h position, Decoding.after]

section Pending

open Phase

theorem decodeFrom_args (m : Method) (position : Nat) (taken more : List Value) (missing : Nat)
    (rest : List Slot) :
    decodeFrom position (filling m taken (more.length + missing)) (more.map .arg ++ rest) =
      decodeFrom (position + more.length) (filling m (taken ++ more) missing) rest := by
  induction more generalizing position taken with
  | nil => simp
  | cons v more ih =>
      have hlength : (v :: more).length + missing = more.length + missing + 1 := by
        rw [List.length_cons, Nat.add_right_comm]
      rw [hlength, List.map_cons, List.cons_append, decodeFrom_taken (fun _ => rfl), ih,
        List.append_assoc, List.singleton_append, List.length_cons, Nat.add_assoc,
        Nat.add_comm 1]

theorem decodeFrom_pending (phase : Phase) (position : Nat) (rest : List Slot) :
    decodeFrom position .boundary (phase.pending ++ rest) =
      decodeFrom (position + phase.pending.length) phase rest := by
  cases phase with
  | boundary => rfl
  | opened op => simp [pending, decodeFrom, next]
  | filling m taken missing =>
      have hcode : Operation.ofCode? m.code = some (.method m) :=
        Operation.ofCode?_code (.method m)
      have hargs := decodeFrom_args m (position + 1 + 1) [] taken missing rest
      simp only [pending, List.cons_append, decodeFrom, next, hcode, hargs, List.nil_append]
      congr 1
      simp only [List.length_cons, List.length_map]
      omega
  | assigning p =>
      have hcode : Operation.ofCode? p.code = some (.property p) :=
        Operation.ofCode?_code (.property p)
      simp [pending, decodeFrom, next, hcode]

theorem exists_encode_eq (record : Record) :
    ∃ (phase : Phase) (slot : Slot), record.encode = phase.pending ++ [slot] ∧
      ∀ position, phase.next position slot = .ok (.boundary, some record) := by
  cases record with
  | set p v => exact ⟨assigning p, .arg v, rfl, fun _ => rfl⟩
  | call m args =>
      rcases List.eq_nil_or_concat args with rfl | ⟨taken, v, rfl⟩
      · exact ⟨opened m, .count 0, rfl, fun _ => rfl⟩
      · refine ⟨filling m taken 0, .arg v, ?_, fun _ => by simp [next]⟩
        simp [Record.encode, Record.op, Record.values, Operation.code, pending]

theorem exists_pending_eq_take (record : Record) {k : Nat} (hk : k < record.size) :
    ∃ phase : Phase, phase.pending = record.encode.take k := by
  rcases k with _ | _ | k
  · exact ⟨boundary, rfl⟩
  · exact ⟨opened record.op, rfl⟩
  · cases record with
    | set p v =>
        have hk : k = 0 := by simp [Record.size, Record.values] at hk; omega
        subst hk
        exact ⟨assigning p, rfl⟩
    | call m args =>
        have hk : k < args.length := by simp [Record.size, Record.values] at hk; omega
        refine ⟨filling m (args.take k) (args.length - k - 1), ?_⟩
        have hcount : (args.take k).length + (args.length - k - 1) + 1 = args.length := by
          rw [List.length_take]; omega
        simp only [pending, hcount, Record.encode, Record.op, Record.values, Operation.code,
          List.take_succ_cons, List.map_take]

/-- What is pending behind a boundary is a proper beginning of some record. -/
theorem exists_pending_append {phase : Phase} (h : phase ≠ boundary) :
    ∃ (record : Record) (rest : List Slot), rest ≠ [] ∧ phase.pending ++ rest = record.encode := by
  cases phase with
  | boundary => exact absurd rfl h
  | opened op =>
      cases op with
      | method m => exact ⟨.call m [], [.count 0], by simp, rfl⟩
      | property p => exact ⟨.set p (.flag true), [.count 1, .arg (.flag true)], by simp, rfl⟩
  | filling m taken missing =>
      refine ⟨.call m (taken ++ List.replicate (missing + 1) (.flag true)),
        (List.replicate (missing + 1) (.flag true)).map .arg, by simp, ?_⟩
      simp [pending, Record.encode, Record.op, Record.values, Operation.code, Nat.add_assoc]
  | assigning p => exact ⟨.set p (.flag true), [.arg (.flag true)], by simp, rfl⟩

end Pending

theorem decodeFrom_encode (record : Record) (position : Nat) (rest : List Slot) :
    decodeFrom position .boundary (record.encode ++ rest) =
      (decodeFrom (position + record.size) .boundary rest).after [record] := by
  obtain ⟨phase, slot, hencode, hnext⟩ := exists_encode_eq record
  have hsize : position + record.size = position + phase.pending.length + 1 := by
    rw [← Record.length_encode, hencode, List.length_append, List.length_singleton,
      Nat.add_assoc]
  rw [hencode, List.append_assoc, decodeFrom_pending, List.singleton_append,
    decodeFrom_completed hnext, hsize]

theorem decodeFrom_encodeAll (records : List Record) (position : Nat) (rest : List Slot) :
    decodeFrom position .boundary (encodeAll records ++ rest) =
      (decodeFrom (position + (encodeAll records).length) .boundary rest).after records := by
  induction records generalizing position with
  | nil => rfl
  | cons record records ih =>
      rw [encodeAll_cons, List.append_assoc, decodeFrom_encode, ih, List.length_append,
        Record.length_encode, Nat.add_assoc]
      rfl

/-- A buffer is complete records, the pending slots of a phase, and nothing more or a slot that
the phase refuses. -/
theorem exists_split (slots : List Slot) :
    ∃ (records : List Record) (phase : Phase) (tail : List Slot),
      slots = encodeAll records ++ (phase.pending ++ tail) ∧
        (tail = [] ∨ ∃ slot rest, tail = slot :: rest ∧ phase.Refuses slot) := by
  -- The induction is on what is left to read, so the slots taken before are carried as a phase.
  suffices h : ∀ start : Phase, ∃ (records : List Record) (phase : Phase) (tail : List Slot),
      start.pending ++ slots = encodeAll records ++ (phase.pending ++ tail) ∧
        (tail = [] ∨ ∃ slot rest, tail = slot :: rest ∧ phase.Refuses slot) from h .boundary
  induction slots with
  | nil => exact fun start => ⟨[], start, [], rfl, .inl rfl⟩
  | cons slot rest ih =>
      intro start
      rcases start.next_cases slot with ⟨later, -, hpending⟩ | ⟨record, -, hencode⟩ | href
      · obtain ⟨records, phase, tail, hslots, htail⟩ := ih later
        refine ⟨records, phase, tail, ?_, htail⟩
        rw [← hslots, hpending, List.append_assoc, List.singleton_append]
      · obtain ⟨records, phase, tail, hslots, htail⟩ := ih .boundary
        refine ⟨record :: records, phase, tail, ?_, htail⟩
        rw [encodeAll_cons, List.append_assoc, ← hslots, hencode, List.append_assoc,
          List.singleton_append, Phase.pending_boundary, List.nil_append]
      · exact ⟨[], start, slot :: rest, rfl, .inr ⟨slot, rest, rfl, href⟩⟩

theorem decode_pending (records : List Record) (phase : Phase) :
    decode (encodeAll records ++ phase.pending) =
      ⟨records, phase.faultAtEnd (encodeAll records ++ phase.pending).length⟩ := by
  have hpending := decodeFrom_pending phase (0 + (encodeAll records).length) []
  rw [List.append_nil] at hpending
  rw [decode, decodeFrom_encodeAll, hpending, List.length_append, Nat.zero_add, decodeFrom,
    Decoding.after, List.append_nil]

theorem exists_fault_of_refuses (records : List Record) {phase : Phase} {slot : Slot}
    (h : phase.Refuses slot) :
    ∃ fault, (∀ rest, decode (encodeAll records ++ (phase.pending ++ slot :: rest)) =
        ⟨records, some fault⟩) ∧
      (fault = .malformed (encodeAll records ++ phase.pending).length ∨
        ∃ c, fault = .invalidCode c ∧ phase = .boundary ∧ slot = .code c ∧
          Operation.ofCode? c = none) := by
  obtain ⟨fault, hdecode, hfault⟩ := h.exists_fault (encodeAll records ++ phase.pending).length
  refine ⟨fault, fun rest => ?_, hfault⟩
  rw [decode, decodeFrom_encodeAll, decodeFrom_pending, Nat.zero_add, ← List.length_append,
    hdecode, Decoding.after, List.append_nil]

end DisplayList
