import DisplayList.Proofs.Record.RoundTrip
import DisplayList.Replay.Program
import DisplayList.Replay.Transcript

/-!
# What a replay comes to

Apart from notices, a visitor that walks through a buffer comes to the same as one that is shown
the records of the decoding and then told its fault: `outcome_walk`. A program holds these records
and has no fault to tell, so replaying a readable buffer and running its program agree for every
receiver. The first record that a receiver turns down is the last one that reaches it, which
`Receiver.logged` makes visible.
-/

universe u

namespace DisplayList

variable {σ : Type u}

/-- The state that a reply left and the fault in it, whatever was noticed on the way. -/
def Reply.outcome (reply : Reply σ) : σ × Option Fault := (reply.state, reply.fault)

/-- Shows records to a visitor until one is turned down, and ends as told if none is. -/
def visitAll (visit : Record → σ → Reply σ) (ending : Option Fault) :
    List Record → σ → σ × Option Fault
  | [], s => (s, ending)
  | record :: rest, s =>
    match (visit record s).fault with
    | some fault => ((visit record s).state, some fault)
    | none => visitAll visit ending rest (visit record s).state

/-- A visitor takes records one by one without turning any down. -/
inductive Accepts (visit : Record → σ → Reply σ) : List Record → σ → σ → Prop
  | nil (s : σ) : Accepts visit [] s s
  | cons {record : Record} {rest : List Record} {s t : σ} :
      (visit record s).fault = none → Accepts visit rest (visit record s).state t →
      Accepts visit (record :: rest) s t

section Visitor

variable {visit : Record → σ → Reply σ} {ending : Option Fault}

theorem visitAll_of_accepts {records : List Record} {s t : σ}
    (h : Accepts visit records s t) : visitAll visit ending records s = (t, ending) := by
  induction h with
  | nil s => rfl
  | cons hfault _ ih => rw [visitAll, hfault]; exact ih

/-- What follows a record that is turned down makes no difference. -/
theorem visitAll_of_fault {before : List Record} {record : Record} {s mid : σ} {fault : Fault}
    (h : Accepts visit before s mid) (hfault : (visit record mid).fault = some fault)
    (after : List Record) :
    visitAll visit ending (before ++ record :: after) s =
      ((visit record mid).state, some fault) := by
  induction h with
  | nil s => rw [List.nil_append, visitAll, hfault]
  | cons hnone _ ih =>
      rw [List.cons_append, visitAll, hnone]
      exact ih hfault

/-- Either all records are taken or there is a first one that is not. -/
theorem accepts_or_exists_fault (visit : Record → σ → Reply σ) (records : List Record) (s : σ) :
    (∃ t, Accepts visit records s t) ∨
      ∃ before record after mid fault, records = before ++ record :: after ∧
        Accepts visit before s mid ∧ (visit record mid).fault = some fault := by
  induction records generalizing s with
  | nil => exact .inl ⟨s, .nil s⟩
  | cons record rest ih =>
      cases hfault : (visit record s).fault with
      | some fault => exact .inr ⟨[], record, rest, s, fault, rfl, .nil s, hfault⟩
      | none =>
          rcases ih (visit record s).state with
            ⟨t, ht⟩ | ⟨before, later, after, mid, fault, rfl, hbefore, hlater⟩
          · exact .inl ⟨t, .cons hfault ht⟩
          · exact .inr ⟨record :: before, later, after, mid, fault, rfl, .cons hfault hbefore,
              hlater⟩

theorem outcome_walkFrom (visit : Record → σ → Reply σ) (position : Nat) (phase : Phase)
    (slots : List Slot) (s : σ) :
    (walkFrom visit position phase slots s).outcome =
      visitAll visit (decodeFrom position phase slots).fault
        (decodeFrom position phase slots).records s := by
  induction slots generalizing position phase s with
  | nil => rfl
  | cons slot rest ih =>
      rw [walkFrom, decodeFrom]
      rcases phase.next position slot with fault | ⟨later, _ | record⟩
      · rfl
      · exact ih (position + 1) later s
      · cases hfault : (visit record s).fault with
        | some fault => simp only [visitAll, hfault, Reply.outcome]
        | none =>
            simp only [visitAll, hfault]
            exact ih (position + 1) later (visit record s).state

theorem outcome_walk (visit : Record → σ → Reply σ) (slots : List Slot) (s : σ) :
    (walk visit slots s).outcome = visitAll visit (decode slots).fault (decode slots).records s :=
  outcome_walkFrom visit 0 .boundary slots s

end Visitor

namespace Receiver

theorem outcome_takeAll (receiver : Receiver σ) (records : List Record) (s : σ) :
    (receiver.takeAll records s).outcome = visitAll receiver.take none records s := by
  induction records generalizing s with
  | nil => rfl
  | cons record rest ih =>
      rw [takeAll, visitAll]
      cases hfault : (receiver.take record s).fault with
      | some fault => rw [Reply.outcome, hfault]
      | none => exact ih (receiver.take record s).state

/-- Hands an instruction over, whichever kind its operation has. -/
def follow (receiver : Receiver σ) : Instruction → σ → Reply σ
  | .call op args => receiver.call op args
  | .set op value => receiver.set op value

end Receiver

theorem outcome_replay (receiver : Receiver σ) (slots : List Slot) (s : σ) :
    (replay receiver slots s).outcome =
      visitAll receiver.take (decode slots).fault (decode slots).records s :=
  outcome_walk receiver.take slots s

theorem compile_of_readable {slots : List Slot} (h : Readable slots) :
    Program.compile slots = .ok ⟨(decode slots).records⟩ := by
  rw [Readable] at h
  rw [Program.compile, decodeAll, h]
  rfl

theorem outcome_run (receiver : Receiver σ) {slots : List Slot} (h : Readable slots) (s : σ) :
    (Program.run ⟨(decode slots).records⟩ receiver s).outcome =
      (replay receiver slots s).outcome := by
  rw [Program.run, Receiver.outcome_takeAll, outcome_replay, h]

end DisplayList
