import DisplayList.Replay.Receiver

/-!
# Receivers that write down what they get

A transcript has a line for every operation that its `Policy` admits, with all values displayed.
-/

namespace DisplayList

/-- What a transcript turns down: some operations altogether, and of some others those that carry
anything but numbers. -/
structure Policy where
  deny : List Operation := []
  numeric : List Operation := []

namespace Policy

/-- Why an operation with these values is turned down, if it is. An operation that is to carry
numbers has to carry at least one. -/
def refusal? (policy : Policy) (op : Operation) (values : List Value) : Option Fault :=
  if op ∈ policy.deny then some (.unsupported op)
  else if op ∈ policy.numeric then
    (List.range (max 1 values.length)).findSome? fun i =>
      match number op values i with
      | .ok _ => none
      | .error fault => some fault
  else none

/-- Writes a line down unless the operation is turned down. -/
def write (policy : Policy) (op : Operation) (values : List Value) (line : String)
    (lines : List String) : Reply (List String) :=
  match policy.refusal? op values with
  | some fault => { state := lines, fault := some fault }
  | none => { state := lines ++ [line] }

/-- The transcript of what the policy admits. -/
def transcript (policy : Policy) : Receiver (List String) where
  call op args := policy.write op args (op.name ++ "(" ++ displayAll "," args ++ ")")
  set op value := policy.write op [value] (op.name ++ "=" ++ value.display)

end Policy

end DisplayList
