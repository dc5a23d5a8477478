import DisplayList.Record.Decoding

/-!
# Replaying a buffer into a receiver

A `Receiver` is any state with an answer to calls and to assignments. `replay` reads a buffer and
hands each record over as soon as its last slot is read, so a receiver has already taken the
records ahead of a damaged slot when the damage is found. `walk` is the same reading for any
visitor of records.
-/

universe u

namespace DisplayList

/-- What comes back from handing something over: the state that it left, why it was turned down if
it was, and what was noticed on the way. -/
structure Reply (σ : Type u) where
  state : σ
  fault : Option Fault := none
  notices : List Notice := []

/-- A receiver of operations with a state. A call comes with its arguments exactly as recorded. -/
structure Receiver (σ : Type u) where
  call : Operation → List Value → σ → Reply σ
  set : Operation → Value → σ → Reply σ

namespace Receiver

variable {σ : Type u}

/-- Hands one record over. -/
def take (receiver : Receiver σ) : Record → σ → Reply σ
  | .call m args => receiver.call m args
  | .set p value => receiver.set p value

/-- Hands records over one by one until one is turned down. -/
def takeAll (receiver : Receiver σ) : List Record → σ → Reply σ
  | [], s => { state := s }
  | record :: rest, s =>
    let reply := receiver.take record s
    match reply.fault with
    | some _ => reply
    | none =>
      let later := receiver.takeAll rest reply.state
      { later with notices := reply.notices ++ later.notices }

end Receiver

section Walk

variable {σ : Type u}

/-- Reads slots in a phase, the first of them at a position, and shows every record to a visitor
when it is complete. The first record that the visitor turns down ends the walk, and so does the
first slot that cannot be read. -/
def walkFrom (visit : Record → σ → Reply σ) (position : Nat) (phase : Phase) :
    List Slot → σ → Reply σ
  | [], s => { state := s, fault := phase.faultAtEnd position }
  | slot :: rest, s =>
    match phase.next position slot with
    | .error fault => { state := s, fault := some fault }
    | .ok (phase, none) => walkFrom visit (position + 1) phase rest s
    | .ok (phase, some record) =>
      let reply := visit record s
      let seen := Notice.decoded record.op (position + 1 - record.size) :: reply.notices
      match reply.fault with
      | some _ => { reply with notices := seen }
      | none =>
        let later := walkFrom visit (position + 1) phase rest reply.state
        { later with notices := seen ++ later.notices }

/-- Shows the records of a buffer to a visitor. -/
def walk (visit : Record → σ → Reply σ) (slots : List Slot) (s : σ) : Reply σ :=
  walkFrom visit 0 .boundary slots s

/-- Replays a buffer into a receiver. -/
def replay (receiver : Receiver σ) (slots : List Slot) (s : σ) : Reply σ :=
  walk receiver.take slots s

end Walk

end DisplayList
