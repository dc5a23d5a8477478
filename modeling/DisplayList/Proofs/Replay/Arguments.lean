import DisplayList.Fault

/-!
# Arguments that have to be numbers

Arguments are read one by one, and the first that is missing or no number ends the reading. A
reading that `Demands` the arguments at some indices comes to nothing but that: it fails at the
first of the indices where there is no number, and is successful if there is none.
-/

namespace DisplayList

/-- Whether there is no number at an index. -/
def lacksNumber (args : List Value) (i : Nat) : Bool := (args[i]?.bind Value.number?).isNone

/-- Reading that comes to something has come to something at each step. -/
theorem bind_eq_ok {α β : Type} {x : Except Fault α} {f : α → Except Fault β} {b : β}
    (h : (x >>= f) = .ok b) : ∃ a, x = .ok a ∧ f a = .ok b := by
  cases x with
  | error fault => exact absurd h nofun
  | ok a => exact ⟨a, rfl, h⟩

section Demands

variable {α : Type} {op : Operation} {args : List Value}

theorem getElem?_of_number {i : Nat} {x : Float} (h : number op args i = .ok x) :
    args[i]? = some (.number x) := by
  unfold number at h
  split at h
  · next y hy => rw [hy, Except.ok.inj h]
  · cases h

/-- A reading fails at the first of some indices where a number is lacking, and only then. -/
def Demands (op : Operation) (args : List Value) (indices : List Nat) (reading : Except Fault α) :
    Prop :=
  (∀ i, indices.find? (lacksNumber args) = some i → reading = .error (.notANumber op i)) ∧
    (indices.find? (lacksNumber args) = none → ∃ a, reading = .ok a)

theorem demands_nil (a : α) : Demands op args [] (.ok a) := ⟨nofun, fun _ => ⟨a, rfl⟩⟩

theorem number_of_lacksNumber {i : Nat} (h : lacksNumber args i = true) :
    number op args i = .error (.notANumber op i) := by
  unfold number
  split
  · rename_i hx
    simp [lacksNumber, hx, Value.number?] at h
  · rfl

theorem exists_number_of_not_lacksNumber {i : Nat} (h : lacksNumber args i = false) :
    ∃ x, number op args i = .ok x := by
  unfold number
  split
  · exact ⟨_, rfl⟩
  · rename_i hx
    cases hi : args[i]? with
    | none => simp [lacksNumber, hi] at h
    | some value =>
        cases value with
        | number x => exact absurd hi (hx x)
        | _ => simp [lacksNumber, hi, Value.number?] at h

theorem demands_cons {i : Nat} {rest : List Nat} {reading : Float → Except Fault α}
    (h : ∀ x, Demands op args rest (reading x)) :
    Demands op args (i :: rest) (number op args i >>= reading) := by
  cases hi : lacksNumber args i with
  | true =>
      rw [number_of_lacksNumber hi, Demands, List.find?_cons_of_pos hi]
      refine ⟨fun j hj => ?_, nofun⟩
      obtain rfl := Option.some.inj hj
      rfl
  | false =>
      obtain ⟨x, hx⟩ : ∃ x, number op args i = .ok x := exists_number_of_not_lacksNumber hi
      rw [hx, Demands, List.find?_cons_of_neg (by simp [hi])]
      exact h x

end Demands

end DisplayList
