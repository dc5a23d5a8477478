import DisplayList.Replay.Receiver

/-!
# Programs

A `Program` is a buffer read once and for all. Running it hands the records over without touching
slots again. A damaged buffer has no program, so its damage is found before any receiver sees a
record.
-/

universe u

namespace DisplayList

/-- The records of a buffer, ready to be handed over any number of times. -/
structure Program where
  steps : List Record
deriving DecidableEq

namespace Program

/-- Reads a whole buffer. -/
def compile (slots : List Slot) : Except Fault Program := (decodeAll slots).map mk

/-- What is noticed on compiling a buffer. -/
def compileNotices (slots : List Slot) : List Notice :=
  let d := decode slots
  match d.fault with
  | none => d.notices ++ [.compiled d.records.length slots.length]
  | some _ => d.notices

/-- Hands the records over to a receiver. -/
def run {σ : Type u} (p : Program) (receiver : Receiver σ) (s : σ) : Reply σ :=
  receiver.takeAll p.steps s

/-- The number of records. -/
def length (p : Program) : Nat := p.steps.length

def isEmpty (p : Program) : Bool := p.steps.isEmpty

/-- A program in one line, of which only the number of records shows. -/
def summary (p : Program) : String := "Program \x7b steps: " ++ toString p.length ++ " \x7d"

end Program

end DisplayList
