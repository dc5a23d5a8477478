import DisplayList.Proofs.Surface.Stack
import DisplayList.Proofs.Svg.Drawing

/-!
# What a canvas turns down

A canvas turns an instruction down or follows it, whatever state it is in: `Instruction.refusal?`
says which and why, from the instruction alone. What is turned down leaves paint, stack and commands
as they were, so a replay comes to following the instructions ahead of the first refusal
(`outcome_replay_receiver`).
-/

namespace DisplayList

/-- How many arguments a call has to find numbers in, from the first on. -/
def Method.demand : Method → Nat
  | .moveTo | .lineTo => 2
  | .strokeRect | .fillRect | .clearRect => 4
  | .arc => 5
  | .bezierCurveTo => 6
  | _ => 0

/-- Whether a canvas takes a value for a property. Where it does, it may still pass it over. -/
def Property.takes : Property → Value → Bool
  | .lineWidth, value | .miterLimit, value | .globalAlpha, value => value.number?.isSome
  | .strokeStyle, value | .fillStyle, value => value.text?.isSome
  | _, _ => true

/-- Why a canvas turns an instruction down, if it does. -/
def Instruction.refusal? : Instruction → Option Fault
  | call (.property p) _ => some (.unsupported (.property p))
  | call (.method .arcTo) _ => some (.notImplemented (.method .arcTo))
  | call (.method m) args =>
    ((List.range m.demand).find? (lacksNumber args)).map (.notANumber (.method m))
  | set (.method m) _ => some (.unsupported (.method m))
  | set (.property p) value =>
    if p.takes value then none else some (.notANumber (.property p) 0)

theorem Demands.map {α β : Type} {op : Operation} {args : List Value} {indices : List Nat}
    {reading : Except Fault α} (h : Demands op args indices reading) (f : α → β) :
    Demands op args indices (reading >>= fun a => .ok (f a)) := by
  refine ⟨fun i hi => ?_, fun hnone => ?_⟩
  · rw [h.1 i hi]
    rfl
  · obtain ⟨a, ha⟩ := h.2 hnone
    rw [ha]
    exact ⟨f a, rfl⟩

namespace Surface

theorem demands_rectangle (m : Method) (args : List Value) :
    Demands (.method m) args (List.range 4) (rectangle m args) :=
  demands_cons fun _ => demands_cons fun _ => demands_cons fun _ => demands_cons fun _ =>
    demands_nil _

/-- A call comes to its commands if it finds the numbers that it needs. -/
theorem demands_commands {m : Method} (hm : m ≠ .arcTo) (p : Paint) (args : List Value) :
    Demands (.method m) args (List.range m.demand) (commands p m args) := by
  cases m with
  | arcTo => exact absurd rfl hm
  | moveTo | lineTo => exact demands_cons fun _ => demands_cons fun _ => demands_nil _
  | bezierCurveTo =>
      exact demands_cons fun _ => demands_cons fun _ => demands_cons fun _ => demands_cons fun _ =>
        demands_cons fun _ => demands_cons fun _ => demands_nil _
  | arc => exact (Arc.demands_ofArgs args).map _
  | strokeRect | fillRect | clearRect => exact (demands_rectangle _ args).map _
  | _ => exact demands_nil _

theorem refusal?_call {m : Method} (hm : m ≠ .arcTo) (args : List Value) :
    (Instruction.call m args).refusal? =
      ((List.range m.demand).find? (lacksNumber args)).map (.notANumber (.method m)) := by
  cases m with
  | arcTo => exact absurd rfl hm
  | _ => rfl

/-- What a canvas makes of an assignment whose value it takes has no fault, and no other assignment
has an effect. -/
theorem outcome_set (p : Property) (value : Value) (s : Surface) :
    (set p value s).outcome =
      if p.takes value then ((set p value s).state, none)
      else (s, some (.notANumber (.property p) 0)) := by
  cases p with
  | lineWidth | miterLimit | globalAlpha => cases value <;> rfl
  | strokeStyle | fillStyle =>
      cases value with
      | text t =>
          simp only [set, assignColor]
          cases Rgba.parse? t <;> rfl
      | _ => rfl
  | lineCap =>
      simp only [set]
      cases lineCapOf? value.display <;> rfl
  | lineJoin =>
      simp only [set]
      cases CanvasJoin.ofName? value.display <;> rfl
  | globalCompositeOperation =>
      simp only [set]
      cases compositingOf? value.display <;> rfl
  | _ => rfl

/-- A call that finds the numbers it needs has no fault, and no other call has an effect. -/
theorem outcome_call {m : Method} (hm : m ≠ .arcTo) (args : List Value) (s : Surface) :
    (call m args s).outcome =
      match (List.range m.demand).find? (lacksNumber args) with
      | none => ((call m args s).state, none)
      | some index => (s, some (.notANumber (.method m) index)) := by
  by_cases hsave : m = .save
  · subst hsave
    rfl
  by_cases hrestore : m = .restore
  · subst hrestore
    obtain ⟨paint, saved, issued⟩ := s
    cases saved <;> rfl
  obtain ⟨hfails, hsucceeds⟩ := demands_commands hm s.paint args
  rw [call_method hsave hrestore]
  cases hindex : (List.range m.demand).find? (lacksNumber args) with
  | some index =>
      rw [hfails index hindex]
      rfl
  | none =>
      obtain ⟨issued, hissued⟩ := hsucceeds hindex
      rw [hissued]
      rfl

/-- What is turned down changes nothing, and the instruction alone decides what is. -/
theorem outcome_follow (i : Instruction) (s : Surface) :
    (receiver.follow i s).outcome =
      match i.refusal? with
      | none => ((receiver.follow i s).state, none)
      | some fault => (s, some fault) := by
  cases i with
  | call op args =>
      cases op with
      | property p => rfl
      | method m =>
          by_cases hm : m = .arcTo
          · subst hm
            rfl
          · have hcall : (receiver.follow (.call m args) s).outcome = _ := outcome_call hm args s
            rw [hcall, refusal?_call hm]
            cases (List.range m.demand).find? (lacksNumber args) <;> rfl
  | set op value =>
      cases op with
      | method m => rfl
      | property p =>
          have hset : (receiver.follow (.set p value) s).outcome = _ := outcome_set p value s
          rw [hset, Instruction.refusal?]
          cases p.takes value <;> rfl

theorem fault_follow (i : Instruction) (s : Surface) :
    (receiver.follow i s).fault = i.refusal? := by
  have hfault : (receiver.follow i s).fault = _ := congrArg Prod.snd (outcome_follow i s)
  rw [hfault]
  cases i.refusal? <;> rfl

theorem state_follow_of_refused {i : Instruction} (h : i.refusal? ≠ none) (s : Surface) :
    (receiver.follow i s).state = s := by
  obtain ⟨fault, hfault⟩ := Option.ne_none_iff_exists'.1 h
  have houtcome := outcome_follow i s
  rw [hfault] at houtcome
  exact congrArg Prod.fst houtcome

theorem take_eq_follow (r : Record) : receiver.take r = receiver.follow r.instruction := by
  cases r <;> rfl

/-- Records come to what the instructions ahead of the first refusal come to. -/
theorem visitAll_take_eq (ending : Option Fault) (records : List Record) (s : Surface) :
    visitAll receiver.take ending records s =
      (s.after ((records.map Record.instruction).takeWhile (·.refusal?.isNone)),
        ((records.map Record.instruction).findSome? Instruction.refusal?).or ending) := by
  induction records generalizing s with
  | nil => rfl
  | cons r rest ih =>
      rw [visitAll, take_eq_follow, fault_follow, List.map_cons, List.findSome?_cons]
      cases hrefusal : r.instruction.refusal? with
      | some fault =>
          rw [List.takeWhile_cons_of_neg (by simp [hrefusal]),
            state_follow_of_refused (by simp [hrefusal])]
          rfl
      | none =>
          rw [List.takeWhile_cons_of_pos (by simp [hrefusal]), after_cons]
          exact ih _

/-- A replay comes to following the instructions of a buffer ahead of the first that is refused, and
ends with that refusal, or else with the fault of the buffer. -/
theorem outcome_replay_receiver (slots : List Slot) (s : Surface) :
    (replay receiver slots s).outcome =
      (s.after ((decode slots).instructions.takeWhile (·.refusal?.isNone)),
        ((decode slots).instructions.findSome? Instruction.refusal?).or (decode slots).fault) := by
  rw [outcome_replay]
  exact visitAll_take_eq _ _ _

/-- A canvas in any state turns down just the instructions that it has to, and each for its reason:
an operation of the wrong kind, an `arcTo`, the first argument at which a needed number is lacking,
or a value that is no number or no text where it should be one. What it turns down leaves it as it
was. So a replay that stops has issued just what the instructions ahead of the refused one issue, or
those ahead of the damage. -/
theorem refusals_change_nothing :
    (∀ (i : Instruction) (s : Surface), (receiver.follow i s).fault = i.refusal?) ∧
      (∀ (i : Instruction) (s : Surface), (receiver.follow i s).fault ≠ none →
        (receiver.follow i s).state = s) ∧
      ∀ (slots : List Slot) (s : Surface), (replay receiver slots s).outcome =
        (s.after ((decode slots).instructions.takeWhile (·.refusal?.isNone)),
          ((decode slots).instructions.findSome? Instruction.refusal?).or (decode slots).fault) := by
  refine ⟨fault_follow, fun i s h => ?_, outcome_replay_receiver⟩
  rw [fault_follow] at h
  exact state_follow_of_refused h s

/-- A curve without its fifth number and an opacity that is a text are refused, and a replay stops
at a line with one coordinate. -/
theorem refusals_change_nothing_curve :
    let curve := Instruction.call Method.bezierCurveTo
      [.number 1, .number 2, .number 3, .number 4, .flag true]
    let opacity := Instruction.set Property.globalAlpha (.text "1")
    let drawing := encodeAll [.call .save [.text "x"],
      .call .moveTo [.number 1, .number 2, .text "x"], .call .lineTo [.number 1], .call .stroke []]
    (receiver.follow curve new).fault = some (.notANumber Method.bezierCurveTo 4) ∧
      (receiver.follow curve new).state = new ∧
      (receiver.follow opacity new).fault = some (.notANumber Property.globalAlpha 0) ∧
      (receiver.follow opacity new).state = new ∧
      (replay receiver drawing new).fault = some (.notANumber Method.lineTo 1) ∧
      (replay receiver drawing new).state.issued = [.save, .extend (.moveTo 1 2)] := by
  intro curve opacity drawing
  obtain ⟨hfault, hstate, hreplay⟩ := refusals_change_nothing
  have hcurve : curve.refusal? = some (.notANumber Method.bezierCurveTo 4) := by decide
  have hopacity : opacity.refusal? = some (.notANumber Property.globalAlpha 0) := by decide
  have hdrawing := hreplay drawing new
  refine ⟨(hfault curve new).trans hcurve, hstate curve new ?_,
    (hfault opacity new).trans hopacity, hstate opacity new ?_, ?_, ?_⟩
  · rw [hfault, hcurve]
    exact Option.some_ne_none _
  · rw [hfault, hopacity]
    exact Option.some_ne_none _
  · exact (congrArg Prod.snd hdrawing).trans (by decide)
  · have hafter : (replay receiver drawing new).state = _ := congrArg Prod.fst hdrawing
    rw [hafter]
    decide

end Surface

end DisplayList
