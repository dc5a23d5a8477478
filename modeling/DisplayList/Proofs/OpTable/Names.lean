import DisplayList.Proofs.OpTable.Expansion
import Mathlib.Data.List.Nodup

/-!
# Names that tell variants apart

A table finds an operation by the name that it gives it, and the match that does so picks the first
variant with that name. Literals tell names apart (`textLiteral_inj`) and names tell identifiers
apart but for the case of the first letter (`camelCase_eq_iff`). A table is not checked for two
identifiers that differ in nothing else, so every operation is found back by its name exactly if
there are none: `found_back_iff`.
-/

namespace DisplayList.OpTable

/-! ### Numbers in base sixteen -/

theorem eq_digitChar_of_mem_toDigits {n : ℕ} {c : Char} (h : c ∈ Nat.toDigits 16 n) :
    ∃ d, c = Nat.digitChar d := by
  induction n using Nat.strong_induction_on with
  | _ n ih =>
      rw [Nat.toDigits_eq_if (by decide)] at h
      split at h
      · exact ⟨n, List.mem_singleton.1 h⟩
      · next hn =>
          rcases List.mem_append.1 h with h | h
          · exact ih (n / 16) (Nat.div_lt_self (by omega) (by decide)) h
          · exact ⟨n % 16, List.mem_singleton.1 h⟩

theorem brace_not_mem_toDigits (n : ℕ) : '\x7d' ∉ Nat.toDigits 16 n := by
  intro h
  obtain ⟨d, hd⟩ := eq_digitChar_of_mem_toDigits h
  exact Nat.digitChar_ne '\x7d' (by decide) hd.symm

theorem digitChar_inj_of_lt : ∀ m < 16, ∀ n < 16, Nat.digitChar m = Nat.digitChar n → m = n := by
  decide

theorem toDigits_sixteen_inj {m n : ℕ} (h : Nat.toDigits 16 m = Nat.toDigits 16 n) : m = n := by
  induction m using Nat.strong_induction_on generalizing n with
  | _ m ih =>
      rw [Nat.toDigits_eq_if (by decide), Nat.toDigits_eq_if (n := n) (by decide)] at h
      -- the last digits are those of the remainders, and those before them of the quotients
      split_ifs at h with hm hn hn
      · exact digitChar_inj_of_lt m hm n hn (List.singleton_inj.1 h)
      · exact absurd (List.append_eq_singleton_iff.1 h.symm) (by simp [Nat.toDigits_ne_nil])
      · exact absurd (List.append_eq_singleton_iff.1 h) (by simp [Nat.toDigits_ne_nil])
      · obtain ⟨hhigh, hlow⟩ := List.append_inj' h rfl
        have hquotient := ih (m / 16) (Nat.div_lt_self (by omega) (by decide)) hhigh
        have hrest := digitChar_inj_of_lt _ (Nat.mod_lt m (by decide)) _ (Nat.mod_lt n (by decide))
          (List.singleton_inj.1 hlow)
        omega

theorem takeWhile_toDigits_brace (n : ℕ) (r : List Char) :
    (Nat.toDigits 16 n ++ '\x7d' :: r).takeWhile (· ≠ '\x7d') = Nat.toDigits 16 n := by
  rw [List.takeWhile_append_of_pos, List.takeWhile_cons_of_neg (by decide), List.append_nil]
  intro c hc
  exact decide_eq_true fun hbrace => brace_not_mem_toDigits n (hbrace ▸ hc)

/-- The digits of a number are told from what follows by a brace. -/
theorem toDigits_brace_inj {m n : ℕ} {r s : List Char}
    (h : Nat.toDigits 16 m ++ '\x7d' :: r = Nat.toDigits 16 n ++ '\x7d' :: s) : m = n ∧ r = s := by
  have hdigits := congrArg (List.takeWhile (· ≠ '\x7d')) h
  rw [takeWhile_toDigits_brace, takeWhile_toDigits_brace] at hdigits
  rw [hdigits] at h
  exact ⟨toDigits_sixteen_inj hdigits, (List.cons.inj (List.append_cancel_left h)).2⟩

/-! ### Literals -/

/-- The characters that are written as a backslash and a mark, with their marks. -/
def marks : List (Char × Char) :=
  [('"', '"'), ('\\', '\\'), ('\n', 'n'), ('\r', 'r'), ('\t', 't'), ('\x00', '0')]

/-- How a character may stand in a literal. -/
inductive Written : Char → List Char → Prop
  | plain {c : Char} : c ≠ '\\' → Written c [c]
  | marked {c m : Char} : (c, m) ∈ marks → Written c ['\\', m]
  | null : Written '\x00' ['\\', 'x', '0', '0']
  | number (c : Char) :
      Written c ('\\' :: 'u' :: '\x7b' :: Nat.toDigits 16 c.toNat ++ ['\x7d'])

theorem written_shownChar (c : Char) : Written c (shownChar c) := by
  unfold shownChar
  split
  · exact .marked (by decide)
  · exact .marked (by decide)
  · exact .marked (by decide)
  · exact .marked (by decide)
  · exact .marked (by decide)
  · exact .marked (by decide)
  · next hbackslash _ _ _ _ =>
    split
    · exact .plain hbackslash
    · exact .number c

/-- The characters of a literal can be told apart from the front. -/
theorem Written.append_inj {c d : Char} {x y r s : List Char} (hc : Written c x)
    (hd : Written d y) (h : x ++ r = y ++ s) : c = d ∧ r = s := by
  have hmarks : ∀ p ∈ marks, ∀ q ∈ marks, p.2 = q.2 → p.1 = q.1 := by decide
  have hother : ∀ p ∈ marks, p.2 ≠ 'x' ∧ p.2 ≠ 'u' := by decide
  cases hc with
  | plain hc =>
      cases hd with
      | plain hd => exact List.cons.inj h
      | marked hd => exact absurd (List.cons.inj h).1 hc
      | null => exact absurd (List.cons.inj h).1 hc
      | number => exact absurd (List.cons.inj h).1 hc
  | marked hc =>
      have hhead := hother _ hc
      cases hd with
      | plain hd => exact absurd (List.cons.inj h).1.symm hd
      | marked hd =>
          obtain ⟨hmark, hrest⟩ := List.cons.inj (List.cons.inj h).2
          exact ⟨hmarks _ hc _ hd hmark, hrest⟩
      | null => exact absurd (List.cons.inj (List.cons.inj h).2).1 hhead.1
      | number => exact absurd (List.cons.inj (List.cons.inj h).2).1 hhead.2
  | null =>
      cases hd with
      | plain hd => exact absurd (List.cons.inj h).1.symm hd
      | marked hd =>
          exact absurd (List.cons.inj (List.cons.inj h).2).1.symm (hother _ hd).1
      | null => exact ⟨rfl, List.append_cancel_left h⟩
      | number => exact absurd (List.cons.inj (List.cons.inj h).2).1 (by decide)
  | number =>
      cases hd with
      | plain hd => exact absurd (List.cons.inj h).1.symm hd
      | marked hd =>
          exact absurd (List.cons.inj (List.cons.inj h).2).1.symm (hother _ hd).2
      | null => exact absurd (List.cons.inj (List.cons.inj h).2).1 (by decide)
      | number =>
          have hdigits : Nat.toDigits 16 c.toNat ++ '\x7d' :: r =
              Nat.toDigits 16 d.toNat ++ '\x7d' :: s := by
            simpa using h
          obtain ⟨hnumber, hrest⟩ := toDigits_brace_inj hdigits
          exact ⟨Char.toNat_inj.1 hnumber, hrest⟩

theorem exists_written_literalBody (c : Char) (rest : List Char) :
    ∃ x, Written c x ∧ literalBody (c :: rest) = x ++ literalBody rest := by
  rw [literalBody]
  split
  · next h => exact ⟨_, h.1 ▸ Written.null, rfl⟩
  · exact ⟨shownChar c, written_shownChar c, rfl⟩

theorem Written.ne_nil {c : Char} {x : List Char} (h : Written c x) : x ≠ [] := by
  cases h <;> exact List.cons_ne_nil _ _

theorem literalBody_inj {s t : List Char} (h : literalBody s = literalBody t) : s = t := by
  induction s generalizing t with
  | nil =>
      cases t with
      | nil => rfl
      | cons d t =>
          obtain ⟨y, hy, hbody⟩ := exists_written_literalBody d t
          rw [hbody] at h
          exact absurd (List.append_eq_nil_iff.1 h.symm).1 hy.ne_nil
  | cons c s ih =>
      obtain ⟨x, hx, hbody⟩ := exists_written_literalBody c s
      rw [hbody] at h
      cases t with
      | nil => exact absurd (List.append_eq_nil_iff.1 h).1 hx.ne_nil
      | cons d t =>
          obtain ⟨y, hy, hbody'⟩ := exists_written_literalBody d t
          rw [hbody'] at h
          obtain ⟨rfl, hrest⟩ := hx.append_inj hy h
          rw [ih hrest]

/-- Different texts have different literals. -/
theorem textLiteral_inj {s t : List Char} : textLiteral s = textLiteral t ↔ s = t := by
  refine ⟨fun h => ?_, fun h => h ▸ rfl⟩
  have hlist := String.ofList_injective h
  exact literalBody_inj (List.append_cancel_right (List.cons.inj hlist).2)

/-! ### Identifiers -/

/-- Two identifiers differ in the case of the first letter and in nothing else. -/
def Clash (a b : String) : Prop :=
  ∃ c d rest, a.toList = c :: rest ∧ b.toList = d :: rest ∧ c ≠ d ∧ c.toLower = d.toLower

theorem camelCase_eq_iff {a b : String} :
    camelCase a.toList = camelCase b.toList ↔ a = b ∨ Clash a b := by
  constructor
  · intro h
    cases ha : a.toList with
    | nil =>
        cases hb : b.toList with
        | nil => exact .inl (String.toList_inj.1 (ha.trans hb.symm))
        | cons d rest => rw [ha, hb] at h; cases h
    | cons c rest =>
        cases hb : b.toList with
        | nil => rw [ha, hb] at h; cases h
        | cons d rest' =>
            rw [ha, hb] at h
            obtain ⟨hfirst, rfl⟩ := List.cons.inj h
            by_cases hcd : c = d
            · subst hcd
              exact .inl (String.toList_inj.1 (ha.trans hb.symm))
            · exact .inr ⟨c, d, rest, ha, hb, hcd, hfirst⟩
  · rintro (rfl | ⟨c, d, rest, ha, hb, -, hfirst⟩)
    · rfl
    · rw [ha, hb, camelCase, camelCase, hfirst]

theorem Clash.ne {a b : String} (h : Clash a b) : a ≠ b := by
  rintro rfl
  obtain ⟨c, d, rest, ha, hb, hne, -⟩ := h
  exact hne (List.cons.inj (ha.symm.trans hb)).1

instance (a b : String) : Decidable (Clash a b) :=
  decidable_of_iff (camelCase a.toList = camelCase b.toList ∧ a ≠ b)
    ⟨fun h => (camelCase_eq_iff.1 h.1).resolve_left h.2,
      fun h => ⟨camelCase_eq_iff.2 (.inr h), h.ne⟩⟩

theorem Variant.canvasLiteral_eq_iff {v w : Variant} :
    v.canvasLiteral = w.canvasLiteral ↔ v.name = w.name ∨ Clash v.name w.name :=
  textLiteral_inj.trans camelCase_eq_iff

/-! ### Looking names up -/

section Table

variable {d : Declaration} {t : Table}

/-- The entries of a table are those of the variants, one for each and in order. -/
theorem exists_getters_of_expand (h : expand d = .ok t) :
    ∃ getters, t = ⟨d, d.variants.map Variant.asEntry, getters⟩ := by
  rw [expand, entriesOf_of_sound (sound_of_expand h)] at h
  simp only [bind, Except.bind] at h
  split at h
  · cases h
  · next getters _ => exact ⟨getters, (Except.ok.inj h).symm⟩

theorem path_inj {e f : Entry} : t.path e = t.path f ↔ e.name = f.name := by
  rw [Table.path, Table.path, String.append_right_inj]

theorem path_ne_wildcard (e : Entry) : t.path e ≠ "_" := by
  intro h
  have hlength := congrArg String.length h
  have hshort : "::".length = 2 ∧ "_".length = 1 := ⟨rfl, rfl⟩
  rw [Table.path, String.length_append, String.length_append] at hlength
  omega

/-- What a table finds by the name that it gives to the operation of a variant. -/
def Table.foundByName? (t : Table) (v : Variant) : Option String :=
  (chosen? t.nameArms (t.path v.asEntry)).bind (chosen? t.ofNameArms)

theorem chosen?_nameArms (h : expand d = .ok t) {v : Variant} (hv : v ∈ d.variants) :
    chosen? t.nameArms (t.path v.asEntry) = some v.canvasLiteral := by
  obtain ⟨getters, rfl⟩ := exists_getters_of_expand h
  rw [chosen?, Table.nameArms, List.map_map, List.find?_map]
  cases hfind : d.variants.find? _ with
  | none =>
      have hnone := List.find?_eq_none.1 hfind v hv
      simp at hnone
  | some w =>
      have hpath := List.find?_some hfind
      simp only [Function.comp, Bool.or_eq_true, decide_eq_true_eq, path_ne_wildcard, or_false,
        path_inj] at hpath
      have hname : w.name = v.name := hpath
      rw [Option.map_some, Option.map_some, Variant.canvasLiteral, ← hname]
      rfl

/-- The first variant with the same name is the one that is found. -/
theorem exists_foundByName? (h : expand d = .ok t) {v : Variant} (hv : v ∈ d.variants) :
    ∃ w, (d.variants.find? fun w => w.canvasLiteral = v.canvasLiteral) = some w ∧
      t.foundByName? v = some ("Some(" ++ t.path w.asEntry ++ ")") := by
  cases hfind : d.variants.find? fun w => w.canvasLiteral = v.canvasLiteral with
  | none =>
      have hnone := List.find?_eq_none.1 hfind v hv
      simp at hnone
  | some w =>
      refine ⟨w, rfl, ?_⟩
      rw [Table.foundByName?, chosen?_nameArms h hv, Option.bind_some]
      obtain ⟨getters, rfl⟩ := exists_getters_of_expand h
      have hchosen := chosen?_ofNameArms (d := d) v.canvasLiteral
      rw [hfind] at hchosen
      exact hchosen

theorem found_iff {v w : Variant} :
    some ("Some(" ++ t.path w.asEntry ++ ")") = some ("Some(" ++ t.path v.asEntry ++ ")") ↔
      w.name = v.name := by
  rw [Option.some_inj, String.append_left_inj, String.append_right_inj, path_inj]
  rfl

theorem nodup_canvasName_iff (h : expand d = .ok t)
    (hnames : (d.variants.map Variant.name).Nodup) :
    (t.entries.map Table.canvasName).Nodup ↔
      ∀ v ∈ d.variants, ∀ w ∈ d.variants, ¬ Clash v.name w.name := by
  have hname : ∀ {v w : Variant}, v ∈ d.variants → w ∈ d.variants → v.name = w.name → v = w :=
    fun hv hw => List.inj_on_of_nodup_map hnames hv hw
  have hliterals : t.entries.map Table.canvasName = d.variants.map Variant.canvasLiteral := by
    obtain ⟨getters, rfl⟩ := exists_getters_of_expand h
    exact List.map_map
  rw [hliterals, List.nodup_map_iff_inj_on hnames.of_map]
  constructor
  · intro hinj v hv w hw hclash
    have heq := hinj v hv w hw (Variant.canvasLiteral_eq_iff.2 (.inr hclash))
    exact hclash.ne (congrArg Variant.name heq)
  · intro hclash v hv w hw heq
    rcases Variant.canvasLiteral_eq_iff.1 heq with hvw | hvw
    · exact hname hv hw hvw
    · exact absurd hvw (hclash v hv w hw)

theorem forall_foundByName?_iff (h : expand d = .ok t) :
    (∀ v ∈ d.variants, t.foundByName? v = some ("Some(" ++ t.path v.asEntry ++ ")")) ↔
      ∀ v ∈ d.variants, ∀ w ∈ d.variants, ¬ Clash v.name w.name := by
  constructor
  · intro hfound v hv w hw hclash
    -- both names find the same variant, which cannot be both of them
    obtain ⟨u, hu, hv'⟩ := exists_foundByName? h hv
    obtain ⟨u', hu', hw'⟩ := exists_foundByName? h hw
    rw [← Variant.canvasLiteral_eq_iff.2 (.inr hclash), hu] at hu'
    obtain rfl := Option.some.inj hu'
    have huv := found_iff.1 (hv'.symm.trans (hfound v hv))
    have huw := found_iff.1 (hw'.symm.trans (hfound w hw))
    exact hclash.ne (huv.symm.trans huw)
  · intro hclash v hv
    obtain ⟨w, hw, hfound⟩ := exists_foundByName? h hv
    have heq : w.canvasLiteral = v.canvasLiteral := by simpa using List.find?_some hw
    rw [hfound, found_iff]
    exact (Variant.canvasLiteral_eq_iff.1 heq).resolve_right
      (hclash w (List.mem_of_find?_eq_some hw) v hv)

end Table

/-! ### Tables of two methods -/

/-- The declaration of a method. -/
abbrev methodVariant (name code : String) : Variant :=
  ⟨name, [⟨[.word "method"]⟩], .none, some [.number code]⟩

/-- Two methods with the codes `0x70` and `0x71`. -/
abbrev twoMethods (first second : String) : Declaration where
  accessors := "Access"
  name := "Code"
  variants := [methodVariant first "0x70", methodVariant second "0x71"]

theorem lawful_methodVariant (name text : String) (code : UInt8)
    (h : integerLiteral? text.toList = some code.toNat) (hside : code &&& propertyTag = 0) :
    (methodVariant name text).Lawful .method code :=
  lawful_of_number (by decide) name text h (by simp [hside])

theorem expand_twoMethods (first second : String) :
    expand (twoMethods first second) = .ok (tableOf (twoMethods first second)) := by
  have hfirst := lawful_methodVariant first "0x70" 0x70 (by decide) (by decide)
  have hsecond := lawful_methodVariant second "0x71" 0x71 (by decide) (by decide)
  refine expand_of_sound (sound_of_pair rfl rfl rfl hfirst hsecond (by decide)) ?_
  rw [List.forall_mem_cons, List.forall_mem_singleton, hfirst.kinds_eq, hsecond.kinds_eq]
  exact ⟨nofun, nofun⟩

/-! ### The names of a table -/

/-- A table names the operations of its variants apart, and finds each back by its name, exactly if
no two identifiers differ in nothing but the case of the first letter. That this is so is not
checked. -/
theorem found_back_iff {d : Declaration} {t : Table} (h : expand d = .ok t)
    (hnames : (d.variants.map Variant.name).Nodup) :
    ((t.entries.map Table.canvasName).Nodup ↔
        ∀ v ∈ d.variants, ∀ w ∈ d.variants, ¬ Clash v.name w.name) ∧
      ((∀ v ∈ d.variants, t.foundByName? v = some ("Some(" ++ t.path v.asEntry ++ ")")) ↔
        ∀ v ∈ d.variants, ∀ w ∈ d.variants, ¬ Clash v.name w.name) :=
  ⟨nodup_canvasName_iff h hnames, forall_foundByName?_iff h⟩

theorem found_back_iff_fill :
    let d := twoMethods "Stroke" "Fill"
    expand d = .ok (tableOf d) ∧ (d.variants.map Variant.name).Nodup ∧
      ∀ v ∈ d.variants, (tableOf d).foundByName? v =
        some ("Some(" ++ (tableOf d).path v.asEntry ++ ")") := by
  intro d
  have hexpand := expand_twoMethods "Stroke" "Fill"
  have hnames : (d.variants.map Variant.name).Nodup := by decide
  have hclash : ∀ v ∈ d.variants, ∀ w ∈ d.variants, ¬ Clash v.name w.name := by decide
  exact ⟨hexpand, hnames, (found_back_iff hexpand hnames).2.2 hclash⟩

/-- Two identifiers of one table may come to the same name, which then finds the first of them. -/
theorem name_finds_other_stroke :
    let d := twoMethods "Stroke" "stroke"
    expand d = .ok (tableOf d) ∧ (d.variants.map Variant.name).Nodup ∧
      (tableOf d).entries.map Table.canvasName = ["\"stroke\"", "\"stroke\""] ∧
      d.variants.map (tableOf d).foundByName? =
        [some "Some(Code::Stroke)", some "Some(Code::Stroke)"] := by
  intro d
  refine ⟨expand_twoMethods "Stroke" "stroke", by decide, by decide +kernel, by decide +kernel⟩

end DisplayList.OpTable
