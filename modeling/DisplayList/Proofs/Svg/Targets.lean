import DisplayList.Proofs.Svg.Frame

/-!
# One export, different targets

An export makes the same settings on any target. A path element that has taken them lists each name
once, with the value set last, so setting its attributes on a new target leads to the same look-ups
as making the settings there. Sorted attributes are determined by what is found in them, so there
the two are equal. `exportInto_agrees` says so for an export on top of any settings.
-/

universe u

namespace DisplayList

theorem PathElement.lastSetting?_attributes {e : PathElement} (h : (names e.attributes).Nodup)
    (n : String) : lastSetting? n e.attributes = e.attribute? n := by
  refine Option.ext fun v => ?_
  rw [lastSetting?_eq_some_iff_mem h]
  exact (find?_eq_some_iff_mem h).symm

namespace Attributes

/-- The value of an attribute, if it has been set. -/
def value? (a : Attributes) (name : String) : Option String :=
  (a.entries.find? fun entry => entry.1 == name).map Prod.snd

/-- The names come in strictly increasing order. -/
def InOrder (entries : List (String × String)) : Prop := entries.Pairwise fun a b => a.1 < b.1

section SetSorted

variable (name value : String) {entries : List (String × String)}

theorem mem_setSorted {a : String × String} (h : a ∈ setSorted name value entries) :
    a = (name, value) ∨ a ∈ entries := by
  induction entries with
  | nil => exact .inl (List.mem_singleton.1 h)
  | cons entry entries ih =>
      rw [setSorted] at h
      split at h
      · exact (List.mem_cons.1 h).imp_right (List.mem_cons_of_mem _)
      · split at h
        · exact List.mem_cons.1 h
        · rcases List.mem_cons.1 h with rfl | h
          · exact .inr List.mem_cons_self
          · exact (ih h).imp_right (List.mem_cons_of_mem _)

theorem InOrder.setSorted (h : InOrder entries) : InOrder (setSorted name value entries) := by
  induction entries with
  | nil => exact List.pairwise_singleton _ _
  | cons entry entries ih =>
      obtain ⟨hentry, hentries⟩ := List.pairwise_cons.1 h
      rw [DisplayList.setSorted]
      split
      · next heq =>
        subst heq
        exact List.pairwise_cons.2 ⟨hentry, hentries⟩
      · next hne =>
        split
        · next hlt =>
          refine List.pairwise_cons.2 ⟨fun a ha => ?_, h⟩
          rcases List.mem_cons.1 ha with rfl | ha
          · exact hlt
          · exact String.lt_trans hlt (hentry a ha)
        · next hge =>
          refine List.pairwise_cons.2 ⟨fun a ha => ?_, ih hentries⟩
          rcases mem_setSorted name value ha with rfl | ha
          · exact Std.lt_of_le_of_ne (String.not_lt.1 hge) hne
          · exact hentry a ha

theorem find?_setSorted (n : String) :
    ((setSorted name value entries).find? fun a => a.1 == n).map Prod.snd =
      if name = n then some value else (entries.find? fun a => a.1 == n).map Prod.snd := by
  induction entries with
  | nil => by_cases hn : name = n <;> simp [setSorted, hn]
  | cons entry entries ih =>
      obtain ⟨m, v⟩ := entry
      rw [setSorted]
      split
      · next hm =>
        subst hm
        by_cases hn : m = n <;> simp [hn]
      · next hm =>
        split
        · by_cases hn : name = n <;> simp [hn]
        · by_cases hn : m = n
          · subst hn
            simp [Ne.symm hm]
          · simpa [hn] using ih

end SetSorted

theorem findsLast_value? : FindsLast value? := fun name value _ n => find?_setSorted name value n

theorem inOrder_setAll (settings : List (String × String)) {a : Attributes}
    (h : InOrder a.entries) : InOrder (setAll settings a).entries := by
  induction settings generalizing a with
  | nil => exact h
  | cons setting settings ih =>
      exact ih (a := setAttribute setting.1 setting.2 a) (h.setSorted setting.1 setting.2)

theorem InOrder.nodup_names {entries : List (String × String)} (h : InOrder entries) :
    (names entries).Nodup := by
  rw [names, List.nodup_iff_pairwise_ne, List.pairwise_map]
  refine h.imp fun {a b} hlt heq => ?_
  rw [heq] at hlt
  exact String.lt_irrefl b.1 hlt

/-- Sorted attributes are determined by what is found in them. -/
theorem ext_of_value? {a b : Attributes} (ha : InOrder a.entries) (hb : InOrder b.entries)
    (h : ∀ n, a.value? n = b.value? n) : a = b := by
  have hmem (entry : String × String) : entry ∈ a.entries ↔ entry ∈ b.entries := by
    obtain ⟨n, v⟩ := entry
    rw [← find?_eq_some_iff_mem ha.nodup_names, ← find?_eq_some_iff_mem hb.nodup_names]
    exact iff_of_eq (congrArg (· = some v) (h n))
  have hperm : a.entries.Perm b.entries :=
    (List.perm_ext_iff_of_nodup (.of_map _ ha.nodup_names) (.of_map _ hb.nodup_names)).2 hmem
  have hentries : a.entries = b.entries :=
    hperm.eq_of_pairwise (fun _ _ _ _ hlt hgt => absurd hgt (String.lt_asymm hlt)) ha hb
  exact congrArg Attributes.mk hentries

end Attributes

section Targets

variable {τ : Type u} [AttributeTarget τ] {look : τ → String → Option String}

/-- Making some settings, and setting the attributes of an element that has taken them, lead to the
same look-ups. -/
theorem look_setAll_attributes (hlook : FindsLast look) (new : τ)
    (settings : List (String × String)) (xmlNamespace n : String) :
    look (setAll (setAll settings ({ xmlNamespace } : PathElement)).attributes new) n =
      look (setAll settings new) n := by
  have hnodup : (names (setAll settings ({ xmlNamespace } : PathElement)).attributes).Nodup :=
    PathElement.nodup_names_setAll settings List.nodup_nil
  rw [hlook.setAll, hlook.setAll, PathElement.lastSetting?_attributes hnodup,
    PathElement.attribute?_setAll]
  exact congrArg (Option.or · _) (Option.or_none)

theorem sorted_setAll (settings : List (String × String)) (xmlNamespace : String) :
    (setAll settings ({ xmlNamespace } : PathElement)).sorted = setAll settings {} :=
  Attributes.ext_of_value? (Attributes.inOrder_setAll _ .nil) (Attributes.inOrder_setAll _ .nil)
    (look_setAll_attributes Attributes.findsLast_value? {} settings xmlNamespace)

theorem attributes_setAll (settings : List (String × String)) (e : PathElement) :
    (setAll settings e).attributes =
      settings.foldl (fun attributes setting => setInPlace setting.1 setting.2 attributes)
        e.attributes := by
  induction settings generalizing e with
  | nil => rfl
  | cons setting settings ih => exact ih (setAttribute setting.1 setting.2 e)

/-- An export on top of some settings ends the same way in a path element and in any other target
that finds under every name the value set last, also if it fails, and the attributes of the element,
set on a new target of that kind, lead to the same look-ups. Sorted attributes are even equal to
those of the element. Without settings ahead, a successful export into an element, whatever its
namespace, leaves the attributes of the exported path in their order. -/
theorem exportInto_agrees (hlook : FindsLast look) (new : τ) (e : Exporter) (slots : List Slot)
    (presets : List (String × String)) (xmlNamespace : String) :
    let path := e.exportInto slots (setAll presets ({ xmlNamespace } : PathElement))
    let other := e.exportInto slots (setAll presets new)
    let element := e.exportInto slots (setAll presets ({} : Attributes))
    (path.fault = other.fault ∧
        ∀ n, look (setAll path.state.attributes new) n = look other.state n) ∧
      (path.fault = element.fault ∧ path.state.sorted = element.state) ∧
      (presets = [] → path.fault = none →
        ∃ exported, e.exportPath slots = .ok exported ∧
          path.state.attributes = exported.attributes) := by
  intro path other element
  have hpath : path.state = setAll (presets ++ e.assignments slots) { xmlNamespace } := by
    rw [setAll_append]
    exact e.state_exportInto slots _
  have hother : other.state = setAll (presets ++ e.assignments slots) new := by
    rw [setAll_append]
    exact e.state_exportInto slots _
  have helement : element.state = setAll (presets ++ e.assignments slots) {} := by
    rw [setAll_append]
    exact e.state_exportInto slots _
  have hfault : path.fault = firstObjection? slots := e.fault_exportInto slots _
  refine ⟨⟨hfault.trans (e.fault_exportInto slots _).symm, fun n => ?_⟩,
    ⟨hfault.trans (e.fault_exportInto slots _).symm, ?_⟩, fun hpresets hsuccess => ?_⟩
  · rw [hpath, hother]
    exact look_setAll_attributes hlook new _ xmlNamespace n
  · rw [hpath, helement]
    exact sorted_setAll _ xmlNamespace
  · refine ⟨setAll (e.assignments slots) { xmlNamespace := e.xmlNamespace }, ?_, ?_⟩
    · rw [e.exportPath_eq, e.outcome_exportInto_eq, ← hfault, hsuccess]
    · rw [hpath, hpresets, List.nil_append, attributes_setAll, attributes_setAll]

/-- A failed export on top of a preset color, into sorted attributes and as they are made of a path
element, and a successful one on top of nothing. -/
theorem exportInto_agrees_saved :
    let presets := [("stroke", "red"), ("fill", "red")]
    let saved := encodeAll [.call .stroke [], .call .save []]
    let stroked := encodeAll [.call .stroke []]
    let path := Exporter.exportInto {} saved (setAll presets ({} : PathElement))
    let element := Exporter.exportInto {} saved (setAll presets ({} : Attributes))
    FindsLast Attributes.value? ∧ path.fault = some (.notImplemented Method.save) ∧
      path.fault = element.fault ∧
      (∀ n, (setAll path.state.attributes ({} : Attributes)).value? n = element.state.value? n) ∧
      path.state.sorted = element.state ∧
      element.state.entries = [("fill", "red"), ("stroke", "black")] ∧
      ∃ exported, Exporter.exportPath {} stroked = .ok exported ∧
        exported.attributes = [("stroke", "black"), ("d", "")] := by
  intro presets saved stroked path element
  have hlook := Attributes.findsLast_value?
  obtain ⟨⟨hfault, hvalues⟩, ⟨-, hsorted⟩, -⟩ :=
    exportInto_agrees hlook {} {} saved presets svgNamespace
  obtain ⟨-, -, hexported⟩ := exportInto_agrees hlook {} {} stroked [] svgNamespace
  obtain ⟨exported, hpath, hattributes⟩ := hexported rfl rfl
  exact ⟨hlook, rfl, hfault, hvalues, hsorted, by decide, exported, hpath, hattributes.symm⟩

end Targets

end DisplayList
