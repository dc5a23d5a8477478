import DisplayList.Fault
import DisplayList.Notice
import DisplayList.Record.Layout

/-!
# Reading records from a buffer

A buffer is read slot by slot. Between two slots the reader stands in a `Phase`: at the boundary of
a record, behind a code, or among the values of a record. `Phase.next` takes one slot, so nothing
ahead of the slot in hand is ever looked at, and a fault lies at the first slot with which no
readable buffer goes on. `decode` collects the records and the fault that ends them, if any.
-/

namespace DisplayList

/-- Where in a record the reader stands. -/
inductive Phase
  | /-- Between two records. -/
    boundary
  | /-- Behind the code of a record. -/
    opened (op : Operation)
  | /-- Behind some arguments of a call, with one more than `missing` to come. -/
    filling (m : Method) (taken : List Value) (missing : Nat)
  | /-- Before the value of an assignment. -/
    assigning (p : Property)
deriving DecidableEq

namespace Phase

/-- Takes the slot at a position: the phase behind it, with the record that it completes if it
completes one. -/
def next (position : Nat) : Phase → Slot → Except Fault (Phase × Option Record)
  | boundary, .code c =>
    match Operation.ofCode? c with
    | some op => .ok (opened op, none)
    | none => .error (.invalidCode c)
  | opened (.method m), .count 0 => .ok (boundary, some (.call m []))
  | opened (.method m), .count (n + 1) => .ok (filling m [] n, none)
  | opened (.property p), .count 1 => .ok (assigning p, none)
  | filling m taken 0, .arg v => .ok (boundary, some (.call m (taken ++ [v])))
  | filling m taken (n + 1), .arg v => .ok (filling m (taken ++ [v]) n, none)
  | assigning p, .arg v => .ok (boundary, some (.set p v))
  | _, _ => .error (.malformed position)

/-- The fault of a buffer that ends at a position in this phase. -/
def faultAtEnd (position : Nat) : Phase → Option Fault
  | boundary => none
  | _ => some (.malformed position)

end Phase

/-- The records read from a buffer and the fault that ended the reading, if one did. -/
structure Decoding where
  records : List Record
  fault : Option Fault
deriving DecidableEq

/-- Reads slots in a phase, the first of them at a position. -/
def decodeFrom (position : Nat) (phase : Phase) : List Slot → Decoding
  | [] => ⟨[], phase.faultAtEnd position⟩
  | slot :: rest =>
    match phase.next position slot with
    | .error fault => ⟨[], some fault⟩
    | .ok (phase, none) => decodeFrom (position + 1) phase rest
    | .ok (phase, some record) =>
      let later := decodeFrom (position + 1) phase rest
      ⟨record :: later.records, later.fault⟩

/-- Reads a buffer from its first slot on. -/
def decode (slots : List Slot) : Decoding := decodeFrom 0 .boundary slots

/-- The records of a buffer without fault, or its fault. -/
def decodeAll (slots : List Slot) : Except Fault (List Record) :=
  match (decode slots).fault with
  | none => .ok (decode slots).records
  | some fault => .error fault

/-- What is noticed on reading some records, the first from a position on. -/
def readingNotices : (position : Nat) → List Record → List Notice
  | _, [] => []
  | position, r :: rs => .decoded r.op position :: readingNotices (position + r.size) rs

/-- What is noticed on reading a buffer. -/
def Decoding.notices (d : Decoding) : List Notice := readingNotices 0 d.records

end DisplayList
