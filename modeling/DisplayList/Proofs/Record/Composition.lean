import DisplayList.Proofs.Listing.RoundTrip
import DisplayList.Proofs.Record.Damage

/-!
# Buffers one behind the other

A position is only ever counted, so reading a buffer further along names the same faults at later
positions: `decodeFrom_add`. A record says where it ends, so behind a readable buffer another one is
read as it is on its own, `decode_append_of_readable`. Once a slot has been refused nothing is read,
so what comes behind it makes no difference, `decode_append_of_located`.
-/

namespace DisplayList

/-- The fault as it is named when `n` more slots stand in front. -/
def Fault.behind (n : Nat) : Fault → Fault
  | malformed position => malformed (position + n)
  | fault => fault

/-- The decoding as it is when `n` more slots stand in front. -/
def Decoding.behind (n : Nat) (d : Decoding) : Decoding := ⟨d.records, d.fault.map (.behind n)⟩

/-- A fault at a slot, rather than at the end of a buffer of that length. -/
def Fault.IsAtSlot (length : Nat) : Fault → Prop
  | malformed position => position < length
  | invalidCode _ => True
  | _ => False

theorem Decoding.items_behind (n : Nat) (d : Decoding) :
    (d.behind n).items = d.items.map (Except.mapError (.behind n)) := by
  obtain ⟨records, fault⟩ := d
  have hrecords : (records.map (Except.ok (ε := Fault))).map (Except.mapError (Fault.behind n)) =
      records.map .ok := List.map_map
  rw [items, items, List.map_append, hrecords]
  cases fault <;> rfl

theorem Decoding.items_after (records : List Record) (d : Decoding) :
    (d.after records).items = records.map .ok ++ d.items := by
  rw [items, items, after, List.map_append, List.append_assoc]

theorem Phase.faultAtEnd_add (phase : Phase) (position n : Nat) :
    phase.faultAtEnd (position + n) = (phase.faultAtEnd position).map (.behind n) := by
  cases phase <;> rfl

/-- A step depends on the position only for naming it. -/
theorem Phase.next_add (phase : Phase) (slot : Slot) (position n : Nat) :
    phase.next (position + n) slot = (phase.next position slot).mapError (.behind n) := by
  rcases phase.next_cases slot with
    ⟨later, htaken, -⟩ | ⟨record, hcompleted, -⟩ | ⟨c, rfl, rfl, hc⟩ | hrefused
  · rw [htaken, htaken]
    rfl
  · rw [hcompleted, hcompleted]
    rfl
  · simp only [next, hc]
    rfl
  · rw [hrefused, hrefused]
    rfl

theorem decodeFrom_add (phase : Phase) (slots : List Slot) (position n : Nat) :
    decodeFrom (position + n) phase slots = (decodeFrom position phase slots).behind n := by
  induction slots generalizing position phase with
  | nil => rw [decodeFrom, decodeFrom, Phase.faultAtEnd_add, Decoding.behind]
  | cons slot rest ih =>
      rw [decodeFrom, decodeFrom, phase.next_add, Nat.add_right_comm]
      rcases phase.next position slot with fault | ⟨later, _ | record⟩
      · rfl
      · exact ih later (position + 1)
      · simp only [Except.mapError, ih]
        rfl

/-- Behind a readable buffer another one is read as on its own. -/
theorem decode_append_of_readable {slots : List Slot} (h : Readable slots) (later : List Slot) :
    decode (slots ++ later) =
      ((decode later).behind slots.length).after (decode slots).records := by
  have hslots := encodeAll_decode h
  have hadd := decodeFrom_add .boundary later 0 slots.length
  have hall := decodeFrom_encodeAll (decode slots).records 0 later
  rw [hslots, hadd] at hall
  exact hall

theorem decode_append {slots later : List Slot} (h : Readable slots) (hlater : Readable later) :
    decode (slots ++ later) = ⟨(decode slots).records ++ (decode later).records, none⟩ := by
  rw [Readable] at hlater
  rw [decode_append_of_readable h, Decoding.after, Decoding.behind, hlater]
  rfl

/-- Behind a refused slot nothing is read. -/
theorem decode_append_of_located {slots : List Slot} {fault : Fault}
    (h : (decode slots).fault = some fault) (hslot : fault.IsAtSlot slots.length)
    (later : List Slot) : decode (slots ++ later) = decode slots := by
  obtain ⟨records, phase, tail, rfl, rfl | ⟨slot, rest, rfl, href⟩⟩ := exists_split slots
  · -- A buffer that runs out has its fault at its end.
    rw [List.append_nil] at h hslot
    rw [decode_pending] at h
    cases phase with
    | boundary => cases h
    | opened op | filling m taken missing | assigning p =>
        obtain rfl := Option.some.inj h
        exact absurd hslot (Nat.lt_irrefl _)
  · obtain ⟨found, hdecode, -⟩ := exists_fault_of_refuses records href
    rw [List.append_assoc, List.append_assoc, List.cons_append, hdecode, hdecode]

theorem disassemble_append {slots later : List Slot} (h : Readable slots)
    (hlater : Readable later) :
    ∃ text text', disassemble slots = .ok text ∧ disassemble later = .ok text' ∧
      disassemble (slots ++ later) = .ok (text ++ text') := by
  have hdecode := decode_append h hlater
  have hboth : Readable (slots ++ later) := congrArg Decoding.fault hdecode
  refine ⟨_, _, disassemble_of_readable h, disassemble_of_readable hlater, ?_⟩
  rw [disassemble_of_readable hboth, hdecode, listing_append, String.ofList_append]

/-- Behind a readable buffer the items of another one follow those of the first, with positions
counted from further ahead. A buffer with a fault at one of its slots keeps its items whatever is
put behind it. So the listing of two readable buffers is the one listing behind the other. -/
theorem items_composed (slots later : List Slot) :
    (Readable slots → (decode (slots ++ later)).items =
        (decode slots).items ++
          (decode later).items.map (Except.mapError (.behind slots.length))) ∧
      (∀ fault, (decode slots).fault = some fault → fault.IsAtSlot slots.length →
        (decode (slots ++ later)).items = (decode slots).items) ∧
      (Readable slots → Readable later →
        ∃ text text', disassemble slots = .ok text ∧ disassemble later = .ok text' ∧
          disassemble (slots ++ later) = .ok (text ++ text')) := by
  refine ⟨fun h => ?_, fun fault hfault hslot => ?_, disassemble_append⟩
  · have hitems : (decode slots).items = (decode slots).records.map .ok := by
      rw [Readable] at h
      rw [Decoding.items, h]
      exact List.append_nil _
    rw [decode_append_of_readable h, Decoding.items_after, Decoding.items_behind, hitems]
  · rw [decode_append_of_located hfault hslot]

/-- A wrong count is named two slots later behind a stroke, and stays as it is in front of one. -/
theorem items_composed_wrong_count :
    Readable [.code 0x70, .count 0] ∧
      (decode [.code 0x80, .count 2]).items = [.error (.malformed 1)] ∧
      (decode [.code 0x70, .count 0, .code 0x80, .count 2]).items =
        [.ok (.call .stroke []), .error (.malformed 3)] ∧
      (decode [.code 0x80, .count 2, .code 0x70, .count 0]).items = [.error (.malformed 1)] ∧
      disassemble [.code 0x70, .count 0, .code 0x70, .count 0] = .ok "stroke\nstroke\n" := by
  have hstroke : Readable [.code 0x70, .count 0] := by decide
  have hlisting : disassemble [.code 0x70, .count 0] = .ok "stroke\n" := rfl
  have hfault : (decode [.code 0x80, .count 2]).fault = some (.malformed 1) := rfl
  have hslot : (Fault.malformed 1).IsAtSlot 2 := Nat.lt_succ_self 1
  have hbehind := (items_composed [.code 0x70, .count 0] [.code 0x80, .count 2]).1 hstroke
  have hfront := (items_composed [.code 0x80, .count 2] [.code 0x70, .count 0]).2.1 _ hfault hslot
  obtain ⟨text, text', htext, htext', htexts⟩ :=
    (items_composed [.code 0x70, .count 0] [.code 0x70, .count 0]).2.2 hstroke hstroke
  rw [hlisting] at htext htext'
  obtain rfl := Except.ok.inj htext
  obtain rfl := Except.ok.inj htext'
  exact ⟨hstroke, rfl, hbehind, hfront, htexts⟩

end DisplayList
