import DisplayList.Proofs.Record.Damage
import DisplayList.Proofs.Recorder.Reads
import DisplayList.Proofs.Svg.Tokens

/-!
# What a buffer is exported as

The first objection among the items of a decoding decides an export: it fails with just that, and
without an objection it is successful. Either way it comes to some settings that depend on the
buffer and not on the target, `outcome_exportInto_eq`: those of the records ahead of the first
objection and, if there is none, the path data. An exported element then has an attribute for each
name that the records set, in the order in which they set it first, and the path data as the last.
-/

universe u

namespace DisplayList

open Value (display)

/-- Why an item of a decoding ends an export, if it does: it is a fault, or a record that is
refused. -/
def objection? : Except Fault Record → Option Fault
  | .error fault => some fault
  | .ok r => r.refusal?

/-- The first objection to exporting a buffer, if there is one. -/
def firstObjection? (slots : List Slot) : Option Fault :=
  (decode slots).items.findSome? objection?

theorem firstObjection?_eq (slots : List Slot) :
    firstObjection? slots =
      ((decode slots).records.findSome? Record.refusal?).or (decode slots).fault := by
  rw [firstObjection?, Decoding.items, List.findSome?_append, List.findSome?_map]
  cases (decode slots).fault <;> rfl

/-- The records ahead of the first objection to exporting a buffer. -/
def exportedRecords (slots : List Slot) : List Record :=
  (decode slots).records.takeWhile fun r => r.refusal?.isNone

theorem refusal?_of_mem_exportedRecords {slots : List Slot} :
    ∀ r ∈ exportedRecords slots, r.refusal? = none := by
  intro r hr
  exact Option.isNone_iff_eq_none.1
    (List.mem_takeWhile_imp (p := fun r : Record => r.refusal?.isNone) hr)

theorem exportedRecords_of_accepted {slots : List Slot}
    (h : ∀ r ∈ (decode slots).records, r.refusal? = none) :
    exportedRecords slots = (decode slots).records :=
  List.takeWhile_eq_self_iff.2 fun r hr => Option.isNone_iff_eq_none.2 (h r hr)

theorem exportedRecords_of_refused {slots : List Slot} {before after : List Record} {r : Record}
    {fault : Fault} (hrecords : (decode slots).records = before ++ r :: after)
    (hbefore : ∀ r ∈ before, r.refusal? = none) (hr : r.refusal? = some fault) :
    exportedRecords slots = before := by
  rw [exportedRecords, hrecords, List.takeWhile_append_of_pos
    fun r hr => Option.isNone_iff_eq_none.2 (hbefore r hr), List.takeWhile_cons_of_neg,
    List.append_nil]
  rw [hr]
  exact Bool.false_ne_true

theorem accepted_of_none {slots : List Slot} (h : firstObjection? slots = none) :
    ∀ r ∈ (decode slots).records, r.refusal? = none := by
  rw [firstObjection?_eq, Option.or_eq_none_iff, List.findSome?_eq_none_iff] at h
  exact h.1

theorem exportedRecords_of_none {slots : List Slot} (h : firstObjection? slots = none) :
    exportedRecords slots = (decode slots).records :=
  exportedRecords_of_accepted (accepted_of_none h)

/-- Either no record is refused or there is a first one that is. -/
theorem refused_or_accepted (slots : List Slot) :
    (∃ before r after fault, (decode slots).records = before ++ r :: after ∧
        (∀ r ∈ before, r.refusal? = none) ∧ r.refusal? = some fault ∧
        firstObjection? slots = some fault) ∨
      (∀ r ∈ (decode slots).records, r.refusal? = none) ∧
        firstObjection? slots = (decode slots).fault := by
  rw [firstObjection?_eq]
  cases hrefusal : (decode slots).records.findSome? Record.refusal? with
  | some fault =>
      obtain ⟨before, r, after, hrecords, hr, hbefore⟩ := List.findSome?_eq_some_iff.1 hrefusal
      exact .inl ⟨before, r, after, fault, hrecords, hbefore, hr, rfl⟩
  | none => exact .inr ⟨List.findSome?_eq_none_iff.1 hrefusal, rfl⟩

namespace Exporter

section Outcome

variable (e : Exporter) (slots : List Slot)

/-- The settings that an export comes to, the path data last. -/
def assignments : List (String × String) :=
  e.settings (exportedRecords slots) ++
    match firstObjection? slots with
    | none => [("d", " ".intercalate (pathTokens true (exportedRecords slots)))]
    | some _ => []

/-- Whatever the target is, an export makes the same settings and ends the same way. -/
theorem outcome_exportInto_eq {τ : Type u} [AttributeTarget τ] (target : τ) :
    (e.exportInto slots target).outcome =
      (setAll (e.assignments slots) target, firstObjection? slots) := by
  rcases refused_or_accepted slots with
    ⟨before, r, after, fault, hrecords, hbefore, hr, hfirst⟩ | ⟨haccepted, hfirst⟩
  · rw [outcome_exportInto_of_refused e hrecords hbefore hr, assignments, hfirst,
      exportedRecords_of_refused hrecords hbefore hr, List.append_nil]
  · rw [outcome_exportInto_of_accepted e haccepted, assignments, hfirst,
      exportedRecords_of_accepted haccepted]
    cases (decode slots).fault with
    | some fault => rw [List.append_nil]
    | none => rw [setAll_concat]

theorem state_exportInto {τ : Type u} [AttributeTarget τ] (target : τ) :
    (e.exportInto slots target).state = setAll (e.assignments slots) target :=
  congrArg Prod.fst (e.outcome_exportInto_eq slots target)

theorem fault_exportInto {τ : Type u} [AttributeTarget τ] (target : τ) :
    (e.exportInto slots target).fault = firstObjection? slots :=
  congrArg Prod.snd (e.outcome_exportInto_eq slots target)

end Outcome

variable (e : Exporter) (records : List Record)

/-- All settings that a record can make. -/
theorem setting?_cases {e : Exporter} {r : Record} {setting : String × String}
    (h : e.setting? r = some setting) :
    (∃ m args, (m = .stroke ∨ m = .fill) ∧ r = .call m args ∧ setting = (m.name, e.color)) ∨
      ∃ value, r = .set .lineWidth value ∧ setting = ("stroke-width", value.display) := by
  unfold setting? at h
  split at h
  · exact .inl ⟨.stroke, _, .inl rfl, rfl, (Option.some.inj h).symm⟩
  · exact .inl ⟨.fill, _, .inr rfl, rfl, (Option.some.inj h).symm⟩
  · exact .inr ⟨_, rfl, (Option.some.inj h).symm⟩
  · exact absurd h nofun

theorem mem_settings_iff {m : Method} (hm : m = .stroke ∨ m = .fill) {v : String} :
    (m.name, v) ∈ e.settings records ↔ v = e.color ∧ ∃ args, .call m args ∈ records := by
  rw [settings, List.mem_filterMap]
  constructor
  · rintro ⟨r, hr, hsetting⟩
    rcases setting?_cases hsetting with ⟨m', args, hm', rfl, heq⟩ | ⟨value, -, heq⟩
    · obtain ⟨hname, rfl⟩ := Prod.mk.inj heq
      have hsame : Operation.ofName? (Operation.method m).name =
          Operation.ofName? (Operation.method m').name := congrArg Operation.ofName? hname
      rw [Operation.ofName?_name, Operation.ofName?_name] at hsame
      obtain rfl := Operation.method.inj (Option.some.inj hsame)
      exact ⟨rfl, args, hr⟩
    · have hname := congrArg Prod.fst heq
      rcases hm with rfl | rfl
      all_goals exact absurd hname (by simp [Method.name])
  · rintro ⟨rfl, args, hr⟩
    refine ⟨_, hr, ?_⟩
    rcases hm with rfl | rfl
    all_goals rfl

/-- Strokes and fills can only set one value, that of the exporter. -/
theorem lastSetting?_name_eq_some_iff {m : Method} (hm : m = .stroke ∨ m = .fill) (v : String) :
    lastSetting? m.name (e.settings records) = some v ↔
      v = e.color ∧ ∃ args, .call m args ∈ records := by
  rw [← mem_settings_iff e records hm]
  constructor
  · exact mem_of_lastSetting?
  · intro hmem
    obtain ⟨w, hw⟩ := exists_lastSetting? hmem
    obtain ⟨rfl, -⟩ := (mem_settings_iff e records hm).1 hmem
    obtain ⟨rfl, -⟩ := (mem_settings_iff e records hm).1 (mem_of_lastSetting? hw)
    exact hw

theorem lastSetting?_lineWidth :
    lastSetting? "stroke-width" (e.settings records) =
      (lastValue? Property.lineWidth records).map Value.display := by
  rw [lastSetting?, lastValue?, ← List.getLast?_map, List.map_filterMap, settings,
    List.filterMap_filterMap]
  congr 2
  funext r
  cases r with
  | call m args => cases m <;> rfl
  | set p value => cases p <;> rfl

/-- The path data is not among the settings. -/
theorem data_notMem_names_settings : "d" ∉ names (e.settings records) := by
  rw [names, List.mem_map]
  rintro ⟨setting, hmem, hname⟩
  obtain ⟨r, -, hsetting⟩ := List.mem_filterMap.1 hmem
  rcases setting?_cases hsetting with ⟨m, args, rfl | rfl, -, rfl⟩ | ⟨value, -, rfl⟩
  all_goals exact absurd hname (by simp [Method.name])

/-- The element that an export comes to without an objection. -/
def element : PathElement :=
  setAttribute "d" (" ".intercalate (pathTokens true records))
    (setAll (e.settings records) { xmlNamespace := e.xmlNamespace })

theorem exportPath_eq (slots : List Slot) :
    e.exportPath slots =
      match (e.exportInto slots ({ xmlNamespace := e.xmlNamespace } : PathElement)).outcome with
      | (_, some fault) => .error fault
      | (path, none) => .ok path := by
  rw [exportPath, exportReply, Reply.outcome]
  cases (e.exportInto slots ({ xmlNamespace := e.xmlNamespace } : PathElement)).fault <;> rfl

theorem exportPath_of_some {slots : List Slot} {fault : Fault}
    (h : firstObjection? slots = some fault) : e.exportPath slots = .error fault := by
  rw [exportPath_eq, outcome_exportInto_eq, h]

theorem exportPath_of_none {slots : List Slot} (h : firstObjection? slots = none) :
    e.exportPath slots = .ok (e.element (decode slots).records) := by
  rw [exportPath_eq, outcome_exportInto_eq, assignments, h, exportedRecords_of_none h,
    setAll_concat]
  rfl

theorem names_element :
    names (e.element records).attributes = (names (e.settings records)).eraseDups ++ ["d"] := by
  have hnames := PathElement.names_setAll (e.settings records)
    (e := { xmlNamespace := e.xmlNamespace }) rfl
  have hset := names_setInPlace "d" (" ".intercalate (pathTokens true records))
    (setAll (e.settings records) ({ xmlNamespace := e.xmlNamespace } : PathElement)).attributes
  rw [hnames, if_neg (mt List.mem_eraseDups.1 (e.data_notMem_names_settings records))] at hset
  exact hset

theorem attribute?_element (n : String) :
    (e.element records).attribute? n =
      if "d" = n then some (" ".intercalate (pathTokens true records))
      else lastSetting? n (e.settings records) := by
  have hnew : ({ xmlNamespace := e.xmlNamespace } : PathElement).attribute? n = none := rfl
  rw [element, PathElement.attribute?_setAttribute, PathElement.attribute?_setAll, hnew,
    Option.or_none]

/-- The first objection to a buffer is what its export fails with. If there is none, the export is
an element in the namespace of the exporter. Its attributes have the names that the records set, in
the order in which they set them first, and at last that of the path data. Strokes and fills set
the color, the last assignment of a line width sets the width, and the path data are what the
records draw, which is decided by them. -/
theorem export_decided (slots : List Slot) :
    (∀ fault, firstObjection? slots = some fault → e.exportPath slots = .error fault) ∧
      (firstObjection? slots = none → ∃ path, e.exportPath slots = .ok path ∧
        path.xmlNamespace = e.xmlNamespace ∧
        names path.attributes =
          (names (e.settings (decode slots).records)).eraseDups ++ ["d"] ∧
        (names path.attributes).Nodup ∧
        (∀ m, m = .stroke ∨ m = .fill → ∀ v, path.attribute? m.name = some v ↔
          v = e.color ∧ ∃ args, .call m args ∈ (decode slots).records) ∧
        path.attribute? "stroke-width" =
          (lastValue? Property.lineWidth (decode slots).records).map Value.display ∧
        ∃ tokens, (∀ d, Traced (decode slots).records [] d ↔ d = tokens) ∧
          path.attribute? "d" = some (" ".intercalate tokens)) := by
  refine ⟨fun fault => e.exportPath_of_some, fun hnone => ?_⟩
  refine ⟨_, e.exportPath_of_none hnone, ?_, e.names_element _, ?_, fun m hm v => ?_, ?_,
    _, fun d => traced_iff (accepted_of_none hnone), ?_⟩
  · exact PathElement.xmlNamespace_setAll _ _
  · rw [names_element]
    refine List.Nodup.append (nodup_eraseDups _) (List.nodup_singleton _) ?_
    simpa using e.data_notMem_names_settings (decode slots).records
  · have hname : "d" ≠ m.name := by rcases hm with rfl | rfl <;> simp [Method.name]
    rw [attribute?_element, if_neg hname]
    exact e.lastSetting?_name_eq_some_iff _ hm v
  · rw [attribute?_element, if_neg (by decide), lastSetting?_lineWidth]
  · rw [attribute?_element, if_pos rfl, List.nil_append, List.isEmpty_nil]

/-- A center that is no number is the first objection. An arc that ends where it starts is none at
all, and the next one is the first to be drawn, with a move to its start. A full turn takes two
halves. -/
theorem export_decided_moved :
    let refused := encodeAll [.call .stroke [], .call .arc [.number 1, .text "2"], .call .save []]
    let records : List Record := [.set .lineWidth (.text "2"),
      .call .arc (List.replicate 5 (.number 0)), .call .stroke [],
      .call .arc [.number 1, .number 2, .number 10, .number 0, .number 3, .number 0],
      .call .moveTo [.text "1", .text "2"],
      .call .arc [.number 1, .number 2, .number 10, .number 1, .number 8, .text "cw"],
      .set .lineWidth (.text "3")]
    let point (angle : Float) : List String :=
      [(Value.number (1 + angle.cos * 10)).display, (Value.number (2 + angle.sin * 10)).display]
    let middle : Float := 1 + 3.141592653589793
    let around : Float := 1 + 2 * 3.141592653589793
    firstObjection? refused = some (.notANumber Method.arc 1) ∧
      exportPath {} refused = .error (.notANumber Method.arc 1) ∧
      firstObjection? (encodeAll records) = none ∧
      ∃ path, exportPath {} (encodeAll records) = .ok path ∧
        names path.attributes = ["stroke-width", "stroke", "d"] ∧
        path.attribute? "stroke-width" = some "3" ∧
        path.attribute? "d" = some (" ".intercalate
          (["M"] ++ point 0 ++ ["A", "10", "10", "171.88733853924697", "0", "1"] ++ point 3 ++
            ["M", "1,2"] ++
            ["L"] ++ point 1 ++ ["A", "10", "10", "180", "0", "0"] ++ point middle ++
            ["L"] ++ point middle ++ ["A", "10", "10", "180", "0", "0"] ++ point around ++
            ["M"] ++ point 8)) := by
  intro refused records point middle around
  have hrefused : firstObjection? refused = some (.notANumber Method.arc 1) := by decide
  have haccepted : firstObjection? (encodeAll records) = none := by decide
  have hradius : display (.number 10) = "10" := by decide +kernel
  have hne : ((0 : Float) == 3) = false := by decide +kernel
  have hpart : Arc.Drawing ⟨1, 2, 10, 0, 3, false⟩ true
      (["M"] ++ point 0 ++ ["A", "10", "10", "171.88733853924697", "0", "1"] ++ point 3) :=
    .part hne (by decide +kernel) (Arc.piece_of_display hne hradius (by decide +kernel)
      (by decide +kernel) (by decide +kernel))
  have hhalf : Arc.Piece ⟨1, 2, 10, 1, middle, true⟩ false
      (["L"] ++ point 1 ++ ["A", "10", "10", "180", "0", "0"] ++ point middle) :=
    Arc.piece_of_display (by decide +kernel) hradius (by decide +kernel) (by decide +kernel)
      (by decide +kernel)
  have hhalf' : Arc.Piece ⟨1, 2, 10, middle, around, true⟩ false
      (["L"] ++ point middle ++ ["A", "10", "10", "180", "0", "0"] ++ point around) :=
    Arc.piece_of_display (by decide +kernel) hradius (by decide +kernel) (by decide +kernel)
      (by decide +kernel)
  have hturn : Arc.Drawing ⟨1, 2, 10, 1, 8, true⟩ false _ :=
    .turn (by decide +kernel) (by decide +kernel) hhalf hhalf'
  obtain ⟨path, hpath, -, hnames, -, -, hwidth, tokens, htraced, hdata⟩ :=
    (export_decided {} _).2 haccepted
  rw [decode_encodeAll] at htraced
  have hzero : ([.number 0] : List Value).head?.any Value.truthy = false := by decide +kernel
  have hmove : ",".intercalate ([.text "1", .text "2"].map display) = "1,2" := by decide
  have htokens := (htraced _).1 <|
    .cons (.lineWidth _ _) <| .cons (.arc (any_truthy_iff []) (.nothing (by decide +kernel))) <|
    .cons (.stroke _ _) <| .cons (.arc (hzero ▸ any_truthy_iff [.number 0]) hpart) <|
    .cons (.moveTo _ _) <| .cons (.arc (any_truthy_iff [.text "cw"]) hturn) <|
    .cons (.lineWidth _ _) (.nil _)
  refine ⟨hrefused, (export_decided {} _).1 _ hrefused, haccepted, path, hpath, ?_, ?_, ?_⟩
  · rw [hnames]
    decide
  · rw [hwidth]
    decide
  · rw [hdata, ← htokens, hmove]
    rfl

end Exporter

end DisplayList
