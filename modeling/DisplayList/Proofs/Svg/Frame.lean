import DisplayList.Proofs.Svg.Export

/-!
# What an export leaves alone

An export comes to the settings of the records ahead of the first objection and, if there is none,
the path data. So it changes no other attribute of an element, a failed one does not touch the path
data either, and no attribute is lost or listed twice: `export_frame`.
-/

namespace DisplayList

/-- The names that records can set. -/
def recordNames : List String := ["stroke", "fill", "stroke-width"]

/-- Attributes keep their places and, unless they may change, their values. New ones are among those
that may change, and no name is listed twice on that account. -/
structure PathElement.KeepsOthers (mayChange : String → Prop) (before after : PathElement) :
    Prop where
  xmlNamespace : after.xmlNamespace = before.xmlNamespace
  places : ∀ (i : Nat) (n v : String), before.attributes[i]? = some (n, v) →
    ∃ w, after.attributes[i]? = some (n, w) ∧ (¬mayChange n → w = v)
  fresh : ∀ n ∈ names after.attributes, n ∈ names before.attributes ∨ mayChange n
  nodup : (names before.attributes).Nodup → (names after.attributes).Nodup

/-- What records make of the attributes that they can set. A name that none of them sets keeps its
value. -/
structure Exporter.Sets (e : Exporter) (records : List Record) (before after : PathElement) :
    Prop where
  painted : ∀ m, m = .stroke ∨ m = .fill → (∃ args, .call m args ∈ records) →
    after.attribute? m.name = some e.color
  unpainted : ∀ m, m = .stroke ∨ m = .fill → (∀ args, .call m args ∉ records) →
    after.attribute? m.name = before.attribute? m.name
  width : after.attribute? "stroke-width" =
    ((lastValue? Property.lineWidth records).map Value.display).or
      (before.attribute? "stroke-width")

theorem PathElement.keepsOthers_setAll {settings : List (String × String)}
    {mayChange : String → Prop} (h : ∀ n ∈ names settings, mayChange n) (e : PathElement) :
    KeepsOthers mayChange e (setAll settings e) where
  xmlNamespace := xmlNamespace_setAll settings e
  places := by
    intro i n v hi
    obtain ⟨w, hw, hkept⟩ := getElem?_attributes_setAll settings hi
    exact ⟨w, hw, fun hn => hkept (mt (h n) hn)⟩
  fresh := fun n hn => (mem_names_setAll.1 hn).imp_right (h n)
  nodup := nodup_names_setAll settings

/-- Behind the records ahead of the first objection comes the item that is objected to, if there is
one at all. -/
theorem items_eq_exportedRecords (slots : List Slot) :
    ∃ rest, (decode slots).items = (exportedRecords slots).map .ok ++ rest ∧
      (firstObjection? slots = none → rest = []) ∧
      ∀ fault, firstObjection? slots = some fault →
        ∃ item later, rest = item :: later ∧ objection? item = some fault := by
  rcases refused_or_accepted slots with
    ⟨before, r, after, fault, hrecords, hbefore, hr, hfirst⟩ | ⟨haccepted, hfirst⟩
  · rw [exportedRecords_of_refused hrecords hbefore hr, Decoding.items, hrecords, List.map_append,
      List.append_assoc, hfirst]
    refine ⟨_, rfl, fun hnone => ?_, fun fault' hfault => ?_⟩
    · exact absurd hnone (Option.some_ne_none fault)
    · exact ⟨_, _, rfl, hr.trans hfault⟩
  · rw [exportedRecords_of_accepted haccepted, Decoding.items, hfirst]
    refine ⟨_, rfl, fun hnone => ?_, fun fault hfault => ?_⟩
    · rw [hnone]
      rfl
    · rw [hfault]
      exact ⟨_, _, rfl, rfl⟩

namespace Exporter

variable (e : Exporter) (slots : List Slot)

theorem mem_recordNames {records : List Record} {n : String}
    (h : n ∈ names (e.settings records)) : n ∈ recordNames := by
  obtain ⟨setting, hmem, rfl⟩ := List.mem_map.1 h
  obtain ⟨r, -, hsetting⟩ := List.mem_filterMap.1 hmem
  rcases setting?_cases hsetting with ⟨m, args, rfl | rfl, -, rfl⟩ | ⟨value, -, rfl⟩
  all_goals simp [recordNames, Method.name]

theorem mem_names_assignments {n : String} (h : n ∈ names (e.assignments slots)) :
    n ∈ recordNames ∨ n = "d" ∧ firstObjection? slots = none := by
  rw [names, assignments, List.map_append, List.mem_append] at h
  refine h.imp e.mem_recordNames fun hdata => ?_
  cases hfirst : firstObjection? slots with
  | none =>
      rw [hfirst] at hdata
      exact ⟨List.mem_singleton.1 hdata, rfl⟩
  | some fault =>
      rw [hfirst] at hdata
      exact absurd hdata List.not_mem_nil

/-- The path data do not come between the other settings. -/
theorem lastSetting?_assignments {n : String} (h : n ≠ "d") :
    lastSetting? n (e.assignments slots) =
      lastSetting? n (e.settings (exportedRecords slots)) := by
  rw [assignments, lastSetting?_append]
  cases firstObjection? slots with
  | none =>
      rw [lastSetting?_of_notMem (mt List.mem_singleton.1 h)]
      rfl
  | some fault => rfl

theorem sets_setAll_assignments (p : PathElement) :
    e.Sets (exportedRecords slots) p (setAll (e.assignments slots) p) := by
  have hname (m : Method) (hm : m = .stroke ∨ m = .fill) : m.name ≠ "d" := by
    rcases hm with rfl | rfl <;> decide
  constructor
  · intro m hm hcalled
    have hlast := (e.lastSetting?_name_eq_some_iff (exportedRecords slots) hm e.color).2
      ⟨rfl, hcalled⟩
    rw [PathElement.attribute?_setAll, e.lastSetting?_assignments slots (hname m hm), hlast]
    rfl
  · intro m hm hcalled
    have hlast : lastSetting? m.name (e.settings (exportedRecords slots)) = none := by
      rw [Option.eq_none_iff_forall_ne_some]
      intro v hv
      obtain ⟨-, args, hargs⟩ := (e.lastSetting?_name_eq_some_iff _ hm v).1 hv
      exact hcalled args hargs
    rw [PathElement.attribute?_setAll, e.lastSetting?_assignments slots (hname m hm), hlast]
    rfl
  · rw [PathElement.attribute?_setAll, e.lastSetting?_assignments slots (by decide),
      lastSetting?_lineWidth]

theorem data_setAll_assignments (p : PathElement) :
    (firstObjection? slots ≠ none →
        (setAll (e.assignments slots) p).attribute? "d" = p.attribute? "d") ∧
      (firstObjection? slots = none →
        (setAll (e.assignments slots) p).attribute? "d" =
          some (" ".intercalate (pathTokens true (exportedRecords slots)))) := by
  rw [PathElement.attribute?_setAll]
  constructor
  · intro hfirst
    have hdata : "d" ∉ names (e.assignments slots) := by
      intro h
      rcases e.mem_names_assignments slots h with hrecord | ⟨-, hnone⟩
      · exact absurd hrecord (by decide)
      · exact hfirst hnone
    rw [lastSetting?_of_notMem hdata]
    rfl
  · intro hfirst
    rw [assignments, hfirst, lastSetting?_concat]
    rfl

/-- An export changes nothing of an element but the attributes that records set and, if it is
successful, the path data. The records ahead of the item that ends it set what they set. If an item
does end it, the path data stay as they were, there or not there. -/
theorem export_frame (p : PathElement) :
    let reply := e.exportInto slots p
    PathElement.KeepsOthers (fun n => n ∈ recordNames ∨ n = "d" ∧ reply.fault = none) p
        reply.state ∧
      e.Sets (exportedRecords slots) p reply.state ∧
      (∀ r ∈ exportedRecords slots, r.refusal? = none) ∧
      ∃ rest, (decode slots).items = (exportedRecords slots).map .ok ++ rest ∧
        (reply.fault = none → rest = [] ∧ reply.state.attribute? "d" =
          some (" ".intercalate (pathTokens true (exportedRecords slots)))) ∧
        ∀ fault, reply.fault = some fault →
          (∃ item later, rest = item :: later ∧ objection? item = some fault) ∧
            reply.state.attribute? "d" = p.attribute? "d" := by
  intro reply
  have hstate : reply.state = setAll (e.assignments slots) p := e.state_exportInto slots p
  have hfault : reply.fault = firstObjection? slots := e.fault_exportInto slots p
  obtain ⟨rest, hitems, hnone, hsome⟩ := items_eq_exportedRecords slots
  obtain ⟨hfailed, hdone⟩ := e.data_setAll_assignments slots p
  rw [hstate, hfault]
  refine ⟨PathElement.keepsOthers_setAll (fun n => e.mem_names_assignments slots) p,
    e.sets_setAll_assignments slots p, refusal?_of_mem_exportedRecords, rest, hitems, ?_, ?_⟩
  · exact fun h => ⟨hnone h, hdone h⟩
  · exact fun fault h => ⟨hsome fault h, hfailed (h ▸ Option.some_ne_none fault)⟩

/-- A stroke ahead of a save sets its color, the fill behind it does not, and of the path only the
old data are left. -/
theorem export_frame_saved :
    let slots := encodeAll [.call .stroke [], .call .moveTo [.text "1"], .call .save [],
      .call .fill []]
    let p : PathElement := { attributes := [("d", "M 0,0"), ("stroke", "red"), ("id", "a")] }
    let reply := exportInto {} slots p
    reply.fault = some (.notImplemented Method.save) ∧
      reply.state.attribute? "d" = some "M 0,0" ∧
      reply.state.attribute? "stroke" = some "black" ∧ reply.state.attribute? "fill" = none ∧
      reply.state.attributes[2]? = some ("id", "a") ∧ (names reply.state.attributes).Nodup := by
  intro slots p reply
  have hfault : reply.fault = some (.notImplemented Method.save) := rfl
  obtain ⟨hkeeps, hsets, -, rest, -, -, hfailed⟩ := export_frame {} slots p
  have hstroke : ∃ args, .call .stroke args ∈ exportedRecords slots := ⟨[], by decide⟩
  have hfill : ∀ args, .call .fill args ∉ exportedRecords slots := by
    have htaken : exportedRecords slots = [.call .stroke [], .call .moveTo [.text "1"]] := rfl
    simp [htaken]
  obtain ⟨w, hplace, hvalue⟩ := hkeeps.places 2 "id" "a" rfl
  have hid : ¬("id" ∈ recordNames ∨ "id" = "d" ∧ reply.fault = none) := by
    rw [hfault]
    decide
  rw [hvalue hid] at hplace
  exact ⟨hfault, (hfailed _ hfault).2, hsets.painted .stroke (.inl rfl) hstroke,
    hsets.unpainted .fill (.inr rfl) hfill, hplace, hkeeps.nodup (by decide)⟩

end Exporter

end DisplayList
