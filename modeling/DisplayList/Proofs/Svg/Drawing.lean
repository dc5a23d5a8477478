import DisplayList.Proofs.Replay.Arguments
import DisplayList.Proofs.Replay.Outcome
import DisplayList.Proofs.Svg.Attributes
import DisplayList.Svg.Export

/-!
# What an export makes of records

A record is refused or it is not, whatever has been drawn before it. One that is not refused makes a
setting, or adds tokens to the path data, or does nothing. `outcome_visit` says that of one record,
`accepts_visit` of records none of which is refused, and `outcome_exportInto_of_refused` of an
export that a record ends.
-/

universe u

namespace DisplayList

namespace Record

/-- Why a record cannot be exported, if it cannot. -/
def refusal? : Record → Option Fault
  | call .moveTo _ | call .lineTo _ | call .bezierCurveTo _ | call .stroke _ | call .fill _ => none
  | call .arc args =>
    ((List.range 5).find? (lacksNumber args)).map (.notANumber (.method .arc))
  | call .arcTo _ => some (.notImplemented (.method .arcTo))
  | call .save _ => some (.notImplemented (.method .save))
  | call .restore _ => some (.notImplemented (.method .restore))
  | call m _ => some (.unsupported (.method m))
  | set .lineWidth _ => none
  | set p _ => some (.unsupported (.property p))

/-- Whether a record adds to the path data. An arc that ends where it starts does not. -/
def draws : Record → Bool
  | call .moveTo _ | call .lineTo _ | call .bezierCurveTo _ => true
  | call .arc args =>
    match Arc.ofArgs args with
    | .ok a => !(a.start == a.finish)
    | .error _ => false
  | _ => false

/-- What a record adds to the path data. An arc needs to know whether it is the first that does. -/
def tokens (first : Bool) : Record → List String
  | call .moveTo args => ["M", displayAll "," args]
  | call .lineTo args => ["L", displayAll " " args]
  | call .bezierCurveTo args => ["C", displayAll " " args]
  | call .arc args =>
    match Arc.ofArgs args with
    | .ok a => a.tokens first
    | .error _ => []
  | _ => []

end Record

/-- The path data of some records, token by token. -/
def pathTokens : (first : Bool) → List Record → List String
  | _, [] => []
  | first, r :: rest => r.tokens first ++ pathTokens (first && !r.draws) rest

/-- The setting that a record makes, if it makes one. -/
def Exporter.setting? (e : Exporter) : Record → Option (String × String)
  | .call .stroke _ => some ("stroke", e.color)
  | .call .fill _ => some ("fill", e.color)
  | .set .lineWidth value => some ("stroke-width", value.display)
  | _ => none

/-- The settings that some records make. -/
def Exporter.settings (e : Exporter) (records : List Record) : List (String × String) :=
  records.filterMap e.setting?

theorem Arc.demands_ofArgs (args : List Value) :
    Demands (.method .arc) args (List.range 5) (Arc.ofArgs args) :=
  demands_cons fun _ => demands_cons fun _ => demands_cons fun _ => demands_cons fun _ =>
    demands_cons fun _ => demands_nil _

/-- An arc has no tokens exactly when it ends where it starts. -/
theorem Arc.isEmpty_tokens (a : Arc) (first : Bool) :
    (a.tokens first).isEmpty = (a.start == a.finish) := by
  unfold Arc.tokens
  split
  · rename_i h
    rw [h]
    rfl
  · rename_i h
    rw [Bool.eq_false_iff.2 h]
    split
    · simp [leadTo, tokensOf]
    · rfl

theorem Record.isEmpty_tokens (r : Record) (first : Bool) :
    (r.tokens first).isEmpty = !r.draws := by
  cases r with
  | set p value => rfl
  | call m args =>
      cases m with
      | arc =>
          simp only [tokens, draws]
          cases Arc.ofArgs args with
          | error fault => rfl
          | ok a => rw [Arc.isEmpty_tokens, Bool.not_not]
      | _ => rfl

/-- Behind a record that draws, an arc is not the first. -/
theorem Record.isEmpty_append_tokens (r : Record) (d : List String) :
    (d ++ r.tokens d.isEmpty).isEmpty = (d.isEmpty && !r.draws) := by
  cases d with
  | nil => exact r.isEmpty_tokens true
  | cons token d => rfl

namespace Exporter

variable {τ : Type u} [AttributeTarget τ]

theorem outcome_visit_arc (e : Exporter) (args : List Value) (d : Draft τ) :
    (e.visit (.call .arc args) d).outcome =
      match (Record.call .arc args).refusal? with
      | some fault => (d, some fault)
      | none =>
        (⟨d.target, d.tokens ++ (Record.call .arc args).tokens d.tokens.isEmpty⟩, none) := by
  obtain ⟨hfails, hsucceeds⟩ := Arc.demands_ofArgs args
  simp only [visit, Record.refusal?, Record.tokens]
  cases hfirst : (List.range 5).find? (lacksNumber args) with
  | some i =>
      rw [hfails i hfirst]
      rfl
  | none =>
      obtain ⟨a, ha⟩ := hsucceeds hfirst
      rw [ha]
      rfl

/-- All that an export can make of one record. -/
theorem outcome_visit (e : Exporter) (r : Record) (d : Draft τ) :
    (e.visit r d).outcome =
      match r.refusal? with
      | some fault => (d, some fault)
      | none => (⟨setAll (e.setting? r).toList d.target, d.tokens ++ r.tokens d.tokens.isEmpty⟩,
          none) := by
  have hkeep (target : τ) : (⟨target, d.tokens⟩ : Draft τ) = ⟨target, d.tokens ++ []⟩ := by
    rw [List.append_nil]
  cases r with
  | set p value =>
      cases p with
      | lineWidth => exact congrArg (·, none) (hkeep _)
      | _ => rfl
  | call m args =>
      cases m with
      | arc => exact e.outcome_visit_arc args d
      | stroke | fill => exact congrArg (·, none) (hkeep _)
      | _ => rfl

theorem outcome_visit_of_accepted {e : Exporter} {r : Record} (h : r.refusal? = none)
    (d : Draft τ) :
    (e.visit r d).outcome =
      (⟨setAll (e.setting? r).toList d.target, d.tokens ++ r.tokens d.tokens.isEmpty⟩, none) := by
  rw [outcome_visit, h]

theorem settings_cons (e : Exporter) (r : Record) (rest : List Record) :
    e.settings (r :: rest) = (e.setting? r).toList ++ e.settings rest := by
  rw [settings, List.filterMap_cons]
  cases e.setting? r <;> rfl

/-- Records that are not refused make their settings and add their tokens, one after the other. -/
theorem accepts_visit {records : List Record} (e : Exporter)
    (h : ∀ r ∈ records, r.refusal? = none) (d : Draft τ) :
    Accepts e.visit records d
      ⟨setAll (e.settings records) d.target,
        d.tokens ++ pathTokens d.tokens.isEmpty records⟩ := by
  induction records generalizing d with
  | nil =>
      rw [pathTokens, List.append_nil]
      exact .nil d
  | cons r rest ih =>
      have hvisit := outcome_visit_of_accepted (e := e) (h r List.mem_cons_self) d
      have hfault : (e.visit r d).fault = none := congrArg Prod.snd hvisit
      have hstate : (e.visit r d).state = _ := congrArg Prod.fst hvisit
      have hrest := ih (fun r' hr' => h r' (List.mem_cons_of_mem r hr')) (e.visit r d).state
      rw [hstate, r.isEmpty_append_tokens, List.append_assoc, ← setAll_append] at hrest
      rw [settings_cons, pathTokens]
      refine .cons hfault ?_
      rwa [hstate]

theorem outcome_exportInto (e : Exporter) (slots : List Slot) (target : τ) :
    (e.exportInto slots target).outcome =
      match visitAll e.visit (decode slots).fault (decode slots).records ⟨target, []⟩ with
      | (d, some fault) => (d.target, some fault)
      | (d, none) => (setAttribute "d" (" ".intercalate d.tokens) d.target, none) := by
  rw [← outcome_walk, exportInto, Reply.outcome, Reply.outcome]
  cases (walk e.visit slots ⟨target, []⟩).fault <;> rfl

/-- An export that ends with a record has made the settings of the records before it. -/
theorem outcome_exportInto_of_refused (e : Exporter) {slots : List Slot}
    {before after : List Record} {r : Record} {fault : Fault}
    (hrecords : (decode slots).records = before ++ r :: after)
    (hbefore : ∀ r ∈ before, r.refusal? = none) (hr : r.refusal? = some fault) (target : τ) :
    (e.exportInto slots target).outcome = (setAll (e.settings before) target, some fault) := by
  have haccepts := e.accepts_visit hbefore ⟨target, []⟩
  have hvisit (d : Draft τ) : (e.visit r d).outcome = (d, some fault) := by
    rw [outcome_visit, hr]
  rw [outcome_exportInto, hrecords,
    visitAll_of_fault haccepts (congrArg Prod.snd (hvisit _)) after]
  exact congrArg (fun d : Draft τ => (d.target, some fault)) (congrArg Prod.fst (hvisit _))

/-- An export that no record ends makes the settings of all records. Then it sets the path data,
unless the buffer cannot be read to its end. -/
theorem outcome_exportInto_of_accepted (e : Exporter) {slots : List Slot}
    (h : ∀ r ∈ (decode slots).records, r.refusal? = none) (target : τ) :
    (e.exportInto slots target).outcome =
      match (decode slots).fault with
      | some fault => (setAll (e.settings (decode slots).records) target, some fault)
      | none => (setAttribute "d" (" ".intercalate (pathTokens true (decode slots).records))
          (setAll (e.settings (decode slots).records) target), none) := by
  rw [outcome_exportInto, visitAll_of_accepts (e.accepts_visit h ⟨target, []⟩)]
  cases (decode slots).fault <;> rfl

end Exporter

end DisplayList
