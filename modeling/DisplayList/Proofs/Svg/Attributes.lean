import DisplayList.Svg.Element
import Mathlib.Data.List.Induction
import Mathlib.Data.List.Nodup

/-!
# Attributes set one after the other

`setAll` makes some settings in turn, on any target. Whatever finds under a name the value that was
set last, `FindsLast`, then finds the last of the settings or, without one, what it found before. A
path element lists each name once, so that it finds the same from the front as from the back, in the
order of the first settings, and what it listed before keeps its place.
-/

universe u

namespace DisplayList

/-- The names among some attributes, in their order. -/
def names (attributes : List (String × String)) : List String := attributes.map Prod.fst

/-- Makes some settings, one after the other. -/
def setAll {τ : Type u} [AttributeTarget τ] (settings : List (String × String)) (target : τ) : τ :=
  settings.foldl (fun target setting => setAttribute setting.1 setting.2 target) target

/-- The value in the last setting of a name. -/
def lastSetting? (name : String) (settings : List (String × String)) : Option String :=
  (settings.filterMap fun setting => if setting.1 = name then some setting.2 else none).getLast?

/-- A way of looking attributes up that finds under every name the value that was set last. -/
def FindsLast {τ : Type u} [AttributeTarget τ] (look : τ → String → Option String) : Prop :=
  ∀ name value target n,
    look (setAttribute name value target) n = if name = n then some value else look target n

section EraseDups

variable {α : Type} [DecidableEq α]

theorem eraseDups_concat (l : List α) (a : α) :
    (l ++ [a]).eraseDups = if a ∈ l then l.eraseDups else l.eraseDups ++ [a] := by
  rw [List.eraseDups_append, List.removeAll, List.filter_cons]
  by_cases ha : a ∈ l
  · rw [if_pos ha, if_neg (by simp [ha])]
    exact List.append_nil _
  · rw [if_neg ha, if_pos (by simp [ha])]
    rfl

theorem nodup_eraseDups (l : List α) : l.eraseDups.Nodup := by
  induction l using List.reverseRecOn with
  | nil => exact List.nodup_nil
  | append_singleton l a ih =>
      rw [eraseDups_concat]
      split
      · exact ih
      · rename_i ha
        exact List.Nodup.append ih (List.nodup_singleton a) (by simpa using ha)

end EraseDups

section Names

variable (name value : String) (attributes : List (String × String))

theorem names_setInPlace :
    names (setInPlace name value attributes) =
      if name ∈ names attributes then names attributes else names attributes ++ [name] := by
  induction attributes with
  | nil => rfl
  | cons a attributes ih =>
      obtain ⟨n, v⟩ := a
      by_cases hn : n = name
      · subst hn
        simp [setInPlace, names]
      · have hcons : names (setInPlace name value ((n, v) :: attributes)) =
            n :: names (setInPlace name value attributes) := by
          rw [setInPlace, if_neg hn]
          rfl
        have hmem : name ∈ names ((n, v) :: attributes) ↔ name ∈ names attributes := by
          simp [names, Ne.symm hn]
        rw [hcons, ih, apply_ite (List.cons n)]
        simp only [hmem]
        rfl

/-- An attribute keeps its name and its place, and its value as well unless it is the one that is
set. -/
theorem getElem?_setInPlace {i : Nat} {n v : String} (h : attributes[i]? = some (n, v)) :
    ∃ w, (setInPlace name value attributes)[i]? = some (n, w) ∧ (n ≠ name → w = v) := by
  induction attributes generalizing i with
  | nil => cases h
  | cons a attributes ih =>
      obtain ⟨m, u⟩ := a
      by_cases hm : m = name
      · rw [setInPlace, if_pos hm]
        cases i with
        | zero =>
            obtain ⟨rfl, rfl⟩ := Prod.mk.inj (Option.some.inj h)
            exact ⟨value, rfl, absurd hm⟩
        | succ i => exact ⟨v, h, fun _ => rfl⟩
      · rw [setInPlace, if_neg hm]
        cases i with
        | zero => exact ⟨v, h, fun _ => rfl⟩
        | succ i => exact ih h

end Names

theorem lastSetting?_concat (n : String) (settings : List (String × String))
    (setting : String × String) :
    lastSetting? n (settings ++ [setting]) =
      if setting.1 = n then some setting.2 else lastSetting? n settings := by
  rw [lastSetting?, List.filterMap_append, List.getLast?_append]
  by_cases hn : setting.1 = n <;> simp [hn, lastSetting?]

theorem lastSetting?_append (n : String) (settings later : List (String × String)) :
    lastSetting? n (settings ++ later) = (lastSetting? n later).or (lastSetting? n settings) := by
  rw [lastSetting?, List.filterMap_append, List.getLast?_append]
  rfl

theorem mem_of_lastSetting? {n v : String} {settings : List (String × String)}
    (h : lastSetting? n settings = some v) : (n, v) ∈ settings := by
  obtain ⟨⟨m, w⟩, hmem, hv⟩ := List.mem_filterMap.1 (List.mem_of_getLast? h)
  obtain ⟨rfl, rfl⟩ : m = n ∧ w = v := by simpa using hv
  exact hmem

theorem exists_lastSetting? {n v : String} {settings : List (String × String)}
    (h : (n, v) ∈ settings) : ∃ w, lastSetting? n settings = some w := by
  cases hlast : lastSetting? n settings with
  | some w => exact ⟨w, rfl⟩
  | none =>
      rw [lastSetting?, List.getLast?_eq_none_iff, List.filterMap_eq_nil_iff] at hlast
      exact absurd (hlast (n, v) h) (by simp)

theorem lastSetting?_of_notMem {n : String} {settings : List (String × String)}
    (h : n ∉ names settings) : lastSetting? n settings = none := by
  cases hlast : lastSetting? n settings with
  | none => rfl
  | some v => exact absurd (List.mem_map_of_mem (mem_of_lastSetting? hlast)) h

theorem lastSetting?_eq_none_iff {n : String} {settings : List (String × String)} :
    lastSetting? n settings = none ↔ n ∉ names settings := by
  refine ⟨fun hnone hmem => ?_, lastSetting?_of_notMem⟩
  obtain ⟨⟨m, v⟩, hsetting, rfl⟩ := List.mem_map.1 hmem
  obtain ⟨w, hw⟩ := exists_lastSetting? hsetting
  exact absurd (hw.symm.trans hnone) (Option.some_ne_none w)

section Listed

variable {n v : String} {attributes : List (String × String)}

theorem eq_of_mem_of_mem {w : String} (h : (names attributes).Nodup) (hv : (n, v) ∈ attributes)
    (hw : (n, w) ∈ attributes) : v = w :=
  (Prod.mk.inj (List.inj_on_of_nodup_map h hv hw rfl)).2

/-- Where names are listed once, the first attribute of a name is the only one. -/
theorem find?_eq_some_iff_mem (h : (names attributes).Nodup) :
    (attributes.find? fun a => a.1 == n).map Prod.snd = some v ↔ (n, v) ∈ attributes := by
  have hfound {m w : String} (hfind : attributes.find? (fun a => a.1 == n) = some (m, w)) :
      (n, w) ∈ attributes := by
    have hname : m = n := by simpa using List.find?_some hfind
    exact hname ▸ List.mem_of_find?_eq_some hfind
  cases hfind : attributes.find? fun a => a.1 == n with
  | none =>
      refine iff_of_false nofun fun hmem => ?_
      exact absurd (beq_iff_eq.2 rfl) (List.find?_eq_none.1 hfind _ hmem)
  | some a =>
      obtain ⟨m, w⟩ := a
      constructor
      · intro hvalue
        obtain rfl := Option.some.inj hvalue
        exact hfound hfind
      · intro hmem
        exact congrArg some (eq_of_mem_of_mem h (hfound hfind) hmem)

/-- Where names are listed once, so is the last. -/
theorem lastSetting?_eq_some_iff_mem (h : (names attributes).Nodup) :
    lastSetting? n attributes = some v ↔ (n, v) ∈ attributes := by
  constructor
  · exact mem_of_lastSetting?
  · intro hmem
    obtain ⟨w, hw⟩ := exists_lastSetting? hmem
    rw [hw, eq_of_mem_of_mem h hmem (mem_of_lastSetting? hw)]

end Listed

section SetAll

variable {τ : Type u} [AttributeTarget τ]

theorem setAll_append (settings later : List (String × String)) (target : τ) :
    setAll (settings ++ later) target = setAll later (setAll settings target) :=
  List.foldl_append

theorem setAll_concat (settings : List (String × String)) (setting : String × String)
    (target : τ) :
    setAll (settings ++ [setting]) target =
      setAttribute setting.1 setting.2 (setAll settings target) :=
  setAll_append settings [setting] target

theorem FindsLast.setAll {look : τ → String → Option String} (h : FindsLast look)
    (settings : List (String × String)) (target : τ) (n : String) :
    look (setAll settings target) n = (lastSetting? n settings).or (look target n) := by
  induction settings using List.reverseRecOn with
  | nil => rfl
  | append_singleton settings setting ih =>
      rw [setAll_concat, h, ih, lastSetting?_concat]
      split <;> rfl

end SetAll

namespace PathElement

theorem attribute?_setAttribute (name value n : String) (e : PathElement) :
    (setAttribute name value e).attribute? n =
      if name = n then some value else e.attribute? n := by
  obtain ⟨xmlNamespace, attributes⟩ := e
  change ((setInPlace name value attributes).find? fun a => a.1 == n).map Prod.snd =
    if name = n then some value else (attributes.find? fun a => a.1 == n).map Prod.snd
  induction attributes with
  | nil => by_cases hn : name = n <;> simp [setInPlace, hn]
  | cons a attributes ih =>
      obtain ⟨m, v⟩ := a
      by_cases hm : m = name
      · subst hm
        by_cases hn : m = n <;> simp [setInPlace, hn]
      · by_cases hn : m = n
        · subst hn
          simp [setInPlace, hm, Ne.symm hm]
        · simpa [setInPlace, hm, hn] using ih

theorem findsLast_attribute? : FindsLast attribute? :=
  fun name value e n => attribute?_setAttribute name value n e

theorem attribute?_setAll (settings : List (String × String)) (n : String) (e : PathElement) :
    (setAll settings e).attribute? n = (lastSetting? n settings).or (e.attribute? n) :=
  findsLast_attribute?.setAll settings e n

theorem xmlNamespace_setAll (settings : List (String × String)) (e : PathElement) :
    (setAll settings e).xmlNamespace = e.xmlNamespace := by
  induction settings using List.reverseRecOn with
  | nil => rfl
  | append_singleton settings setting ih =>
      rw [setAll_concat]
      exact ih

theorem names_setAttribute (name value : String) (e : PathElement) :
    names (setAttribute name value e).attributes =
      if name ∈ names e.attributes then names e.attributes else names e.attributes ++ [name] :=
  names_setInPlace name value e.attributes

theorem getElem?_attributes_setAll (settings : List (String × String)) {e : PathElement} {i : Nat}
    {n v : String} (h : e.attributes[i]? = some (n, v)) :
    ∃ w, (setAll settings e).attributes[i]? = some (n, w) ∧ (n ∉ names settings → w = v) := by
  induction settings generalizing e v with
  | nil => exact ⟨v, h, fun _ => rfl⟩
  | cons setting settings ih =>
      obtain ⟨u, hu, hkept⟩ := getElem?_setInPlace setting.1 setting.2 e.attributes h
      obtain ⟨w, hw, hkept'⟩ := ih (e := setAttribute setting.1 setting.2 e) hu
      refine ⟨w, hw, fun hn => ?_⟩
      rw [names, List.map_cons, List.mem_cons, not_or] at hn
      rw [hkept' hn.2, hkept hn.1]

theorem mem_names_setAll {settings : List (String × String)} {e : PathElement} {n : String} :
    n ∈ names (setAll settings e).attributes ↔ n ∈ names e.attributes ∨ n ∈ names settings := by
  induction settings generalizing e with
  | nil => simp [setAll, names]
  | cons setting settings ih =>
      have hset : n ∈ names (setAttribute setting.1 setting.2 e).attributes ↔
          n ∈ names e.attributes ∨ n = setting.1 := by
        rw [names_setAttribute]
        split
        · next hmem => exact ⟨.inl, fun h => h.elim id fun heq => heq ▸ hmem⟩
        · rw [List.mem_append, List.mem_singleton]
      have hcons : n ∈ names (setting :: settings) ↔ n = setting.1 ∨ n ∈ names settings :=
        List.mem_cons
      have hrest := ih (e := setAttribute setting.1 setting.2 e)
      rw [hset, or_assoc, ← hcons] at hrest
      exact hrest

theorem nodup_names_setAll (settings : List (String × String)) {e : PathElement}
    (h : (names e.attributes).Nodup) : (names (setAll settings e).attributes).Nodup := by
  induction settings generalizing e with
  | nil => exact h
  | cons setting settings ih =>
      refine ih (e := setAttribute setting.1 setting.2 e) ?_
      rw [names_setAttribute]
      split
      · exact h
      · next hmem =>
        exact List.Nodup.append h (List.nodup_singleton _) (by simpa using hmem)

/-- Names come in the order in which they were set first. -/
theorem names_setAll (settings : List (String × String)) {e : PathElement}
    (h : e.attributes = []) :
    names (setAll settings e).attributes = (names settings).eraseDups := by
  induction settings using List.reverseRecOn with
  | nil =>
      rw [setAll, List.foldl_nil, h]
      rfl
  | append_singleton settings setting ih =>
      have hnames : names (settings ++ [setting]) = names settings ++ [setting.1] := by
        rw [names, List.map_append, List.map_singleton]
        rfl
      rw [setAll_concat, hnames, eraseDups_concat, names_setAttribute, ih]
      simp only [List.mem_eraseDups]

end PathElement

end DisplayList
