import DisplayList.Proofs.Svg.Attributes

/-!
# Attributes in their places

The attributes of a path element are a list that serves as an ordered map: a name is looked up from
the front, and a setting is made in the place of the name or behind all others. That finds the value
set last as long as no name is listed twice, which every setting keeps up. So after any settings
each name stands once, in the order of the first settings, with its last value, and a further
setting moves no other name: `settings_listed`.
-/

namespace DisplayList

/-- Without its repetitions, a list is in the order in which its elements come up first. -/
theorem pairwise_idxOf_eraseDups {α : Type} [DecidableEq α] (l : List α) :
    l.eraseDups.Pairwise fun a b => l.idxOf a < l.idxOf b := by
  induction l using List.reverseRecOn with
  | nil => exact .nil
  | append_singleton l c ih =>
      have hplace {a : α} (ha : a ∈ l.eraseDups) : (l ++ [c]).idxOf a = l.idxOf a :=
        List.idxOf_append_of_mem (List.mem_eraseDups.1 ha)
      have hkept : l.eraseDups.Pairwise fun a b => (l ++ [c]).idxOf a < (l ++ [c]).idxOf b := by
        refine ih.imp_of_mem fun ha hb hlt => ?_
        rwa [hplace ha, hplace hb]
      rw [eraseDups_concat]
      split
      · exact hkept
      · next hc =>
        refine List.pairwise_append.2 ⟨hkept, List.pairwise_singleton _ _, fun a ha b hb => ?_⟩
        obtain rfl := List.mem_singleton.1 hb
        have hlast : (l ++ [b]).idxOf b = l.length := by
          rw [List.idxOf_append_of_notMem hc, List.idxOf_cons_self, Nat.add_zero]
        rw [hplace ha, hlast]
        exact List.idxOf_lt_length_of_mem (List.mem_eraseDups.1 ha)

/-- A setting leaves every other attribute in its place, and puts none there. -/
theorem getElem?_setInPlace_of_ne {name n : String} (hn : n ≠ name) (value v : String)
    (attributes : List (String × String)) (i : Nat) :
    (setInPlace name value attributes)[i]? = some (n, v) ↔ attributes[i]? = some (n, v) := by
  have hother {w u : String} : (some (name, w) = some (n, u)) → False := fun h =>
    hn (Prod.mk.inj (Option.some.inj h)).1.symm
  induction attributes generalizing i with
  | nil =>
      cases i with
      | zero => exact iff_of_false hother nofun
      | succ i => exact Iff.rfl
  | cons a attributes ih =>
      obtain ⟨m, u⟩ := a
      rw [setInPlace]
      split
      · next hm =>
        subst hm
        cases i with
        | zero => exact iff_of_false hother hother
        | succ i => exact Iff.rfl
      · cases i with
        | zero => exact Iff.rfl
        | succ i => exact ih i

namespace PathElement

/-- After any settings, an element lists each name that has been set once, in the order of the first
settings, with its last value. Under a name it finds that value, or nothing if the name has not been
set, and the path data are empty until they are set. One more setting changes neither the value nor
the place of any other name. -/
theorem settings_listed (settings : List (String × String)) (xmlNamespace : String) :
    let e := setAll settings ({ xmlNamespace } : PathElement)
    ((names e.attributes).Nodup ∧
        (names e.attributes).Pairwise fun m n =>
          (names settings).idxOf m < (names settings).idxOf n) ∧
      (∀ n v, (n, v) ∈ e.attributes ↔ lastSetting? n settings = some v) ∧
      (∀ n, e.attribute? n = lastSetting? n settings ∧
        (e.attribute? n = none ↔ n ∉ names settings)) ∧
      e.data = (lastSetting? "d" settings).getD "" ∧
      ∀ name value n : String, n ≠ name →
        (setAttribute name value e).attribute? n = e.attribute? n ∧
          ∀ (i : Nat) (v : String), (setAttribute name value e).attributes[i]? = some (n, v) ↔
            e.attributes[i]? = some (n, v) := by
  intro e
  have hnames : names e.attributes = (names settings).eraseDups := names_setAll settings rfl
  have hnodup : (names e.attributes).Nodup := hnames ▸ nodup_eraseDups _
  have hfound (n : String) : e.attribute? n = lastSetting? n settings :=
    (attribute?_setAll settings n _).trans Option.or_none
  refine ⟨⟨hnodup, hnames ▸ pairwise_idxOf_eraseDups _⟩, fun n v => ?_,
    fun n => ⟨hfound n, ?_⟩, ?_, fun name value n hn => ⟨?_, fun i v => ?_⟩⟩
  · rw [← hfound]
    exact (find?_eq_some_iff_mem hnodup).symm
  · rw [hfound]
    exact lastSetting?_eq_none_iff
  · rw [data, hfound]
  · rw [attribute?_setAttribute, if_neg (Ne.symm hn)]
  · exact getElem?_setInPlace_of_ne hn value v e.attributes i

/-- A width that is set before and after the path data keeps its place, and a third setting leaves
the path data in theirs. -/
theorem settings_listed_width :
    let e := setAll [("stroke-width", "1"), ("d", "M 0 0"), ("stroke-width", "3")]
      ({} : PathElement)
    "d" ≠ "stroke-width" ∧ names e.attributes = ["stroke-width", "d"] ∧
      e.attribute? "stroke-width" = some "3" ∧ e.attribute? "fill" = none ∧ e.data = "M 0 0" ∧
      (setAttribute "stroke-width" "5" e).attributes[1]? = some ("d", "M 0 0") := by
  intro e
  have hne : "d" ≠ "stroke-width" := by decide
  obtain ⟨-, -, hfound, hdata, hother⟩ := settings_listed
    [("stroke-width", "1"), ("d", "M 0 0"), ("stroke-width", "3")] svgNamespace
  refine ⟨hne, rfl, (hfound "stroke-width").1, (hfound "fill").2.2 (by decide), hdata, ?_⟩
  exact ((hother "stroke-width" "5" "d" hne).2 1 "M 0 0").2 rfl

end PathElement

end DisplayList
