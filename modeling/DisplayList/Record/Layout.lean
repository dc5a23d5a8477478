import DisplayList.Operation
import DisplayList.Value

/-!
# Records and slots

A record is one call or one assignment. In a buffer it is laid out as slots: the code of the
operation, the number of values, and the values one by one. `Record.encode` writes that layout, and
an assignment always carries exactly one value.
-/

namespace DisplayList

/-- One cell of a buffer. -/
inductive Slot
  | code (c : UInt8)
  | count (n : Nat)
  | arg (v : Value)
deriving DecidableEq

/-- Whether two slots hold the same, numbers being compared as numbers. -/
def Slot.equal : Slot → Slot → Bool
  | code c, code d => c == d
  | count m, count n => m == n
  | arg v, arg w => v.equal w
  | _, _ => false

/-- Whether two buffers hold the same slot for slot, numbers being compared as numbers. -/
def slotsEqual : List Slot → List Slot → Bool
  | [], [] => true
  | s :: ss, t :: ts => s.equal t && slotsEqual ss ts
  | _, _ => false

/-- One step of a drawing: a method called with arguments or a property given a value. -/
inductive Record
  | call (m : Method) (args : List Value)
  | set (p : Property) (value : Value)
deriving DecidableEq

namespace Record

/-- The operation of a record. -/
def op : Record → Operation
  | call m _ => .method m
  | set p _ => .property p

/-- The values that a record carries. -/
def values : Record → List Value
  | call _ args => args
  | set _ value => [value]

/-- The number of slots that a record takes up. -/
def size (r : Record) : Nat := 2 + r.values.length

/-- The slots of a record. -/
def encode (r : Record) : List Slot :=
  .code r.op.code :: .count r.values.length :: r.values.map .arg

@[simp] theorem length_encode (r : Record) : r.encode.length = r.size := by
  simp [encode, size]; omega

/-- What a call of any operation stands for: a property takes its first argument as the value of an
assignment, and without an argument nothing is meant. -/
def ofCall? : Operation → List Value → Option Record
  | .method m, args => some (call m args)
  | .property p, value :: _ => some (set p value)
  | .property _, [] => none

/-- What an assignment to any operation stands for: a method is called with the value as its only
argument. -/
def ofAssignment : Operation → Value → Record
  | .property p, value => set p value
  | .method m, value => call m [value]

end Record

/-- The slots of some records one after the other. -/
def encodeAll (records : List Record) : List Slot := records.flatMap Record.encode

@[simp] theorem encodeAll_nil : encodeAll [] = [] := rfl

@[simp] theorem encodeAll_cons (r : Record) (rs : List Record) :
    encodeAll (r :: rs) = r.encode ++ encodeAll rs := rfl

@[simp] theorem encodeAll_append (rs ss : List Record) :
    encodeAll (rs ++ ss) = encodeAll rs ++ encodeAll ss := List.flatMap_append

end DisplayList
