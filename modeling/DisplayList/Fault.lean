import DisplayList.Operation
import DisplayList.Text.Hex
import DisplayList.Value

/-!
# What can go wrong

A `Fault` is the reason why a buffer cannot be read, or why a receiver turns an operation down.
`number` reads an argument that has to be a number.
-/

namespace DisplayList

/-- Why reading or replaying stops. -/
inductive Fault
  | /-- The receiver has no counterpart for the operation. -/
    unsupported (op : Operation)
  | /-- The receiver knows the operation but cannot carry it out. -/
    notImplemented (op : Operation)
  | /-- No operation has the code. -/
    invalidCode (code : UInt8)
  | /-- The slot at the position is not what the layout of records calls for. -/
    malformed (position : Nat)
  | /-- The argument at the index is missing or is not a number. -/
    notANumber (op : Operation) (index : Nat)
  | /-- A line of a listing cannot be read. A receiver may meet one that reads listings itself. -/
    listing (line : Nat) (cause : String)
deriving DecidableEq, Repr

/-- The wording of a fault. -/
def Fault.message : Fault → String
  | unsupported op => "unsupported operation `" ++ op.name ++ "`"
  | notImplemented op => "`" ++ op.name ++ "` is not implemented"
  | invalidCode code => "invalid opcode " ++ hexCode code
  | malformed position => "malformed sequence at slot " ++ toString position
  | notANumber op index =>
    "argument " ++ toString index ++ " of `" ++ op.name ++ "` must be a number"
  | listing line cause => "listing line " ++ toString line ++ ": " ++ cause

/-- The argument of an operation at an index, which has to be a number. -/
def number (op : Operation) (args : List Value) (index : Nat) : Except Fault Float :=
  match args[index]? with
  | some (.number x) => .ok x
  | _ => .error (.notANumber op index)

end DisplayList
