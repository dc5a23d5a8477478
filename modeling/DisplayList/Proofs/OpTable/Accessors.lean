import DisplayList.Proofs.OpTable.Expansion
import Mathlib.Data.List.Nodup

/-!
# Telling accessors apart

The name of the accessors of a property has an underscore for each capital of the identifier but the
first, and no capitals. If the identifier begins with a capital and holds no underscores, it can be
told from that name: behind each underscore there was a capital, and one more at the front, so
`raised` finds it back. Different identifiers therefore lead to different names, and the setters and
the getters of a table are told apart just as its properties are: `accessors_told_apart`.
-/

namespace DisplayList.OpTable

/-- Letters and digits, of which the first is a capital. -/
def CapitalName : List Char → Prop
  | [] => False
  | c :: rest => c.isUpper ∧ ∀ d ∈ rest, d.isAlphanum

instance : DecidablePred CapitalName
  | [] => instDecidableFalse
  | c :: rest =>
    @instDecidableAnd _ (∀ d ∈ rest, d.isAlphanum) (decEq c.isUpper true)
      (List.decidableBAll _ rest)

/-- A text with the underscores taken out and the characters behind them raised. -/
def raised : List Char → List Char
  | [] => []
  | '_' :: c :: rest => c.toUpper :: raised rest
  | c :: rest => c :: raised rest

section Names

variable {s t : List Char}

theorem isAlphanum_iff {c : Char} : c.isAlphanum ↔ (c.isUpper ∨ c.isLower) ∨ c.isDigit := by
  rw [← Bool.or_eq_true, ← Bool.or_eq_true]
  exact Iff.rfl

theorem toNat_lt_of_isAlphanum {c : Char} (hc : c.isAlphanum) : c.toNat < 0x80 := by
  have hle (d : Char) (hd : d.toNat < 0x80) (h : c.val ≤ d.val) : c.toNat < 0x80 :=
    Nat.lt_of_le_of_lt (UInt32.le_iff_toNat_le.1 h) hd
  rcases isAlphanum_iff.1 hc with (hupper | hlower) | hdigit
  · exact hle 'Z' (by decide) (isUpper_iff_val.1 hupper).2
  · exact hle 'z' (by decide) (of_decide_eq_true (Bool.and_eq_true_iff.1 hlower).2)
  · exact hle '9' (by decide) (of_decide_eq_true (Bool.and_eq_true_iff.1 hdigit).2)

theorem CapitalName.isAlphanum (h : CapitalName s) : ∀ c ∈ s, c.isAlphanum := by
  cases s with
  | nil => exact h.elim
  | cons c rest => exact List.forall_mem_cons.2 ⟨isAlphanum_iff.2 (.inl (.inl h.1)), h.2⟩

theorem CapitalName.underscore_notMem (h : CapitalName s) : '_' ∉ s :=
  fun hmem => absurd (h.isAlphanum _ hmem) (by decide)

theorem CapitalName.plainName {name : String} (h : CapitalName name.toList) : PlainName name :=
  fun c hc => ⟨toNat_lt_of_isAlphanum (h.isAlphanum c hc),
    fun hmark => absurd (hmark ▸ h.isAlphanum c hc) (by decide)⟩

/-- An underscore that is put in front makes up for the first capital, which has got none. -/
theorem CapitalName.cons_underscored (h : CapitalName s) :
    '_' :: lowered (underscored s) = lowered (s.flatMap parted) := by
  cases s with
  | nil => exact h.elim
  | cons c rest =>
      rw [flatMap_parted_cons h.1]
      rfl

theorem raised_cons_of_ne {c : Char} (hc : c ≠ '_') (s : List Char) :
    raised (c :: s) = c :: raised s := by
  rw [raised]
  exact fun _ _ h => absurd h hc

theorem raised_lowered_parted (h : '_' ∉ s) : raised (lowered (s.flatMap parted)) = s := by
  induction s with
  | nil => rfl
  | cons c s ih =>
      rw [List.mem_cons, not_or] at h
      by_cases hc : c.isUpper
      · have hunderscore : '_'.toLower = '_' := rfl
        rw [flatMap_parted_cons hc, lowered_cons, lowered_cons, hunderscore, raised,
          toUpper_toLower hc, ih h.2]
      · rw [flatMap_parted_cons_of_not hc, lowered_cons, toLower_of_not_isUpper hc,
          raised_cons_of_ne (Ne.symm h.1), ih h.2]

/-- The identifier can be told from the name of the accessors. -/
theorem CapitalName.raised_underscored (h : CapitalName s) :
    raised ('_' :: lowered (underscored s)) = s := by
  rw [h.cons_underscored, raised_lowered_parted h.underscore_notMem]

theorem CapitalName.underscored_inj (hs : CapitalName s) (ht : CapitalName t) :
    lowered (underscored s) = lowered (underscored t) ↔ s = t := by
  refine ⟨fun h => ?_, fun h => h ▸ rfl⟩
  rw [← hs.raised_underscored, h, ht.raised_underscored]

theorem CapitalName.snakeCase?_eq (h : CapitalName s) :
    snakeCase? s = some (lowered (underscored s)) :=
  snakeCase?_of_ascii fun c hc => toNat_lt_of_isAlphanum (h.isAlphanum c hc)

end Names

section Table

variable {d : Declaration} {t : Table}

/-- The identifiers of the properties, in the order of their declaration. -/
def Declaration.properties (d : Declaration) : List String :=
  (d.variants.filter fun v => v.kinds = [.property]).map Variant.name

theorem getters_of_expand (h : expand d = .ok t)
    (hplain : ∀ v ∈ d.variants, v.kinds = [.property] → PlainName v.name) :
    t.getters.map Prod.snd = d.properties.map accessorName := by
  have hsound := sound_of_expand h
  obtain rfl := Except.ok.inj (h.symm.trans (expand_of_sound hsound hplain))
  rw [getters_tableOf hsound, Declaration.properties, List.map_map, List.map_map]
  rfl

theorem nodup_accessorName_iff {names : List String} (h : ∀ n ∈ names, CapitalName n.toList) :
    (names.map accessorName).Nodup ↔ names.Nodup := by
  refine ⟨List.Nodup.of_map _, fun hnodup => hnodup.map_on fun a ha b hb heq => ?_⟩
  exact String.toList_inj.1 (((h a ha).underscored_inj (h b hb)).1 (String.ofList_injective heq))

theorem names_functions (t : Table) :
    t.functions.map Prod.fst = "set_property" :: "property" ::
      (t.getters.map Prod.snd).flatMap fun getter => ["set_" ++ getter, getter] := by
  rw [Table.functions, List.map_cons, List.map_cons, List.map_flatMap, List.flatMap_map]
  rfl

end Table

/-- Different identifiers of this form give different names to their accessors. So in a table whose
properties have such identifiers no two getters have the same name, and no two setters have, unless
variants of the enumeration have the same identifier. -/
theorem accessors_told_apart :
    (∀ a b, CapitalName a → CapitalName b →
        ∃ x y, snakeCase? a = some x ∧ snakeCase? b = some y ∧ (x = y ↔ a = b)) ∧
      ∀ (d : Declaration) (t : Table), expand d = .ok t →
        (∀ name ∈ d.properties, CapitalName name.toList) →
        let getters := t.getters.map Prod.snd
        let setters := getters.map fun getter => "set_" ++ getter
        t.functions.map Prod.fst = "set_property" :: "property" ::
            getters.flatMap (fun getter => ["set_" ++ getter, getter]) ∧
          (getters.Nodup ↔ d.properties.Nodup) ∧ (setters.Nodup ↔ d.properties.Nodup) := by
  refine ⟨fun a b ha hb => ⟨_, _, ha.snakeCase?_eq, hb.snakeCase?_eq, ha.underscored_inj hb⟩,
    fun d t h hnames => ?_⟩
  intro getters setters
  have hplain : ∀ v ∈ d.variants, v.kinds = [.property] → PlainName v.name := fun v hv hkinds =>
    (hnames v.name (List.mem_map_of_mem
      (List.mem_filter.2 ⟨hv, decide_eq_true hkinds⟩))).plainName
  have hgetters : getters.Nodup ↔ d.properties.Nodup := by
    have heq : getters = d.properties.map accessorName := getters_of_expand h hplain
    rw [heq]
    exact nodup_accessorName_iff hnames
  have hsetters : setters.Nodup ↔ getters.Nodup :=
    List.nodup_map_iff fun a b hab => (String.append_right_inj "set_").1 hab
  exact ⟨names_functions t, hgetters, hsetters.trans hgetters⟩

/-- Two properties whose identifiers differ in the case of one letter. -/
theorem accessors_told_apart_lineWidth :
    let property (name code : String) : Variant :=
      ⟨name, [⟨[.word "property"]⟩], .none, some [.number code]⟩
    let d : Declaration :=
      { accessors := "Access"
        name := "Code"
        variants := [property "LineWidth" "0x80", property "Linewidth" "0x81"] }
    CapitalName "LineWidth".toList ∧ CapitalName "Linewidth".toList ∧
      (∃ x y, snakeCase? "LineWidth".toList = some x ∧ snakeCase? "Linewidth".toList = some y ∧
        x ≠ y) ∧
      (∀ name ∈ d.properties, CapitalName name.toList) ∧
      ∃ t, expand d = .ok t ∧ (t.getters.map Prod.snd).Nodup ∧
        ((t.getters.map Prod.snd).map fun getter => "set_" ++ getter).Nodup := by
  intro property d
  have hwide : CapitalName "LineWidth".toList := by decide
  have hnarrow : CapitalName "Linewidth".toList := by decide
  have hfirst : (property "LineWidth" "0x80").Lawful .property 0x80 :=
    lawful_of_number (by decide) _ _ (by decide) (by decide)
  have hsecond : (property "Linewidth" "0x81").Lawful .property 0x81 :=
    lawful_of_number (by decide) _ _ (by decide) (by decide)
  have hsound : d.Sound := sound_of_pair rfl rfl rfl hfirst hsecond (by decide)
  have hproperties : d.properties = ["LineWidth", "Linewidth"] := by decide
  have hnames : ∀ name ∈ d.properties, CapitalName name.toList := by
    rw [hproperties, List.forall_mem_cons, List.forall_mem_singleton]
    exact ⟨hwide, hnarrow⟩
  have hdistinct : d.properties.Nodup := by
    rw [hproperties]
    decide
  have hexpand : expand d = .ok (tableOf d) := expand_of_sound hsound (by decide)
  obtain ⟨happart, htable⟩ := accessors_told_apart
  obtain ⟨x, y, hx, hy, hxy⟩ := happart _ _ hwide hnarrow
  obtain ⟨-, hgetters, hsetters⟩ := htable d _ hexpand hnames
  exact ⟨hwide, hnarrow, ⟨x, y, hx, hy, mt hxy.1 (by decide)⟩, hnames, _, hexpand,
    hgetters.2 hdistinct, hsetters.2 hdistinct⟩

end DisplayList.OpTable
