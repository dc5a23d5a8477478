import DisplayList.OpTable.Table
import DisplayList.Proofs.OpTable.Identifier
import DisplayList.Proofs.OpTable.Rules

/-!
# What a declaration is expanded to

Which declarations make a table, how every other is rejected, and what the parts of a table say
about the variants: `expand_decided`. The parts are made from the entries one by one, so `Describes`
gives each in terms of the variants alone. A match is read by `chosen?`.
-/

namespace DisplayList.OpTable

/-- A name that its accessors can be named after: each character takes one byte, and the mark of
raw identifiers is not among them. -/
def PlainName (name : String) : Prop := ∀ c ∈ name.toList, c.toNat < 0x80 ∧ c ≠ '#'

instance : DecidablePred PlainName := fun name => List.decidableBAll _ name.toList

/-- The name of the getter of a property with a plain name. -/
def accessorName (name : String) : String := String.ofList (lowered (underscored name.toList))

/-- The body that a match picks for what is written like this: that of the first arm with it or
with the wildcard as its pattern. -/
def chosen? (arms : List Arm) (written : String) : Option String :=
  (arms.find? fun arm => arm.1 = written || arm.1 = "_").map Prod.snd

/-- The kind of a variant by its full path. -/
def Variant.kindPath (v : Variant) : String :=
  if v.kinds = [.property] then "OpKind::Property" else "OpKind::Method"

/-- The name under which a canvas offers the operation of a variant, as a literal. Only the first
letter of the identifier is lowered. -/
def Variant.canvasLiteral (v : Variant) : String :=
  textLiteral (match v.name.toList with
    | [] => []
    | c :: rest => c.toLower :: rest)

/-- The declaration makes a table. -/
structure Declaration.Sound (d : Declaration) : Prop where
  parameters : d.parameters = []
  shape : d.shape = .enumeration
  lawful : ∀ v ∈ d.variants, ∃ kind code, v.Lawful kind code
  distinct : d.variants.Pairwise fun v w => v.code? ≠ w.code?

/-- What is held against a declaration: its parameters, or else its shape, or else the first rule
that its first bad variant breaks. -/
def Declaration.Objection (d : Declaration) (rejection : Rejection) : Prop :=
  if d.parameters ≠ [] then rejection = .generic
  else if d.shape ≠ .enumeration then rejection = .notAnEnumeration
  else ∃ before v after, d.variants = before ++ v :: after ∧ Unbroken before ∧
    firstBroken? before v = some rejection

/-- The parts of a table in terms of the variants of a declaration. -/
structure Table.Describes (t : Table) (d : Declaration) : Prop where
  declaration_eq : t.declaration = d
  entries_eq : t.entries = d.variants.map Variant.asEntry
  all_eq : t.all =
    "&[" ++ ",".intercalate (d.variants.map fun v => d.name ++ "::" ++ v.name) ++ "]"
  ofKind_eq : ∀ kind, t.ofKind kind =
    "&[" ++ ",".intercalate ((d.variants.filter fun v => v.kinds = [kind]).map fun v =>
      d.name ++ "::" ++ v.name) ++ "]"
  kindArms_eq : t.kindArms = d.variants.map fun v => (d.name ++ "::" ++ v.name, v.kindPath)
  nameArms_eq : t.nameArms = d.variants.map fun v => (d.name ++ "::" ++ v.name, v.canvasLiteral)
  chosen_code : ∀ code : UInt8, chosen? t.codeArms (toString code.toNat ++ "u8") =
    match d.variants.find? fun v => v.code? = some code with
    | some v => some ("Some(" ++ (d.name ++ "::" ++ v.name) ++ ")")
    | none => some "None"
  chosen_name : ∀ literal, chosen? t.ofNameArms literal =
    match d.variants.find? fun v => v.canvasLiteral = literal with
    | some v => some ("Some(" ++ (d.name ++ "::" ++ v.name) ++ ")")
    | none => some "None"
  functions_eq : t.functions = ("set_property", none) :: ("property", none) ::
    (d.variants.filter fun v => v.kinds = [.property]).flatMap fun v =>
      [("set_" ++ accessorName v.name,
          some ("\x7bself.set_property(" ++ (d.name ++ "::" ++ v.name) ++ ",value.into())\x7d")),
        (accessorName v.name, some ("\x7bself.property(" ++ (d.name ++ "::" ++ v.name) ++ ")\x7d"))]

/-! ### The checks -/

section Checks

variable {d : Declaration}

theorem sound_iff : d.Sound ↔ d.parameters = [] ∧ d.shape = .enumeration ∧ Unbroken d.variants := by
  constructor
  · rintro ⟨hparameters, hshape, hlawful, hdistinct⟩
    exact ⟨hparameters, hshape, unbroken_iff.2 ⟨hlawful, hdistinct⟩⟩
  · rintro ⟨hparameters, hshape, hunbroken⟩
    obtain ⟨hlawful, hdistinct⟩ := unbroken_iff.1 hunbroken
    exact ⟨hparameters, hshape, hlawful, hdistinct⟩

theorem entriesOf_of_sound (h : d.Sound) :
    entriesOf d = .ok (d.variants.map Variant.asEntry) := by
  obtain ⟨hparameters, hshape, hunbroken⟩ := sound_iff.1 h
  rw [entriesOf, if_neg (not_not.2 hparameters), if_neg (not_not.2 hshape),
    entriesAfter_of_unbroken hunbroken]

theorem entriesOf_of_objection {rejection : Rejection} (h : d.Objection rejection) :
    entriesOf d = .error rejection := by
  rw [Declaration.Objection] at h
  rw [entriesOf]
  split_ifs at h ⊢ with hparameters hshape
  · rw [h]
  · rw [h]
  · obtain ⟨before, v, after, hvariants, hbefore, hv⟩ := h
    rw [hvariants, entriesAfter_of_broken hbefore hv]

theorem sound_or_exists_objection (d : Declaration) :
    d.Sound ∨ ∃ rejection, d.Objection rejection := by
  by_cases hparameters : d.parameters = []
  case neg => exact Or.inr ⟨.generic, by rw [Declaration.Objection, if_pos hparameters]⟩
  by_cases hshape : d.shape = .enumeration
  case neg =>
    exact Or.inr ⟨.notAnEnumeration, by
      rw [Declaration.Objection, if_neg (not_not.2 hparameters), if_pos hshape]⟩
  rcases unbroken_or_exists_broken d.variants with h | ⟨before, v, after, rejection, h⟩
  · exact Or.inl (sound_iff.2 ⟨hparameters, hshape, h⟩)
  · refine Or.inr ⟨rejection, ?_⟩
    rw [Declaration.Objection, if_neg (not_not.2 hparameters), if_neg (not_not.2 hshape)]
    exact ⟨before, v, after, h⟩

end Checks

/-! ### The names of the accessors -/

theorem getterName_of_plain {e : Entry} (h : PlainName e.name) :
    getterName e = .ok (e, accessorName e.name) := by
  have hmark : '#' ∉ lowered (underscored e.name.toList) :=
    not_mark_mem_snakeCase fun hc => (h '#' hc).2 rfl
  rw [getterName, snakeCase?_of_ascii fun c hc => (h c hc).1]
  exact if_neg hmark

theorem mapM_getterName {entries : List Entry} (h : ∀ e ∈ entries, PlainName e.name) :
    entries.mapM getterName = .ok (entries.map fun e => (e, accessorName e.name)) := by
  induction entries with
  | nil => rfl
  | cons e rest ih =>
      rw [List.mapM_cons, getterName_of_plain (h e List.mem_cons_self),
        ih fun e' he' => h e' (List.mem_cons_of_mem e he')]
      rfl

/-! ### The parts of a table -/

section Variants

variable {variants : List Variant}

theorem Variant.Lawful.asEntry_kind {v : Variant} {kind : Kind} {code : UInt8}
    (h : v.Lawful kind code) : v.asEntry.kind = kind := by
  rw [Variant.asEntry, h.kinds_eq]
  rfl

theorem Variant.Lawful.asEntry_code {v : Variant} {kind : Kind} {code : UInt8}
    (h : v.Lawful kind code) : v.asEntry.code = code := by
  rw [Variant.asEntry, h.code_eq]
  rfl

theorem filter_map_asEntry (h : ∀ v ∈ variants, ∃ kind code, v.Lawful kind code) (kind : Kind) :
    ((variants.map Variant.asEntry).filter fun e => e.kind = kind) =
      (variants.filter fun v => v.kinds = [kind]).map Variant.asEntry := by
  rw [List.filter_map]
  congr 1
  refine List.filter_congr fun v hv => ?_
  obtain ⟨kind', code, hlawful⟩ := h v hv
  simp only [Function.comp, hlawful.asEntry_kind, hlawful.kinds_eq, List.cons.injEq, and_true]

/-- A match with one arm for each variant picks that of the first variant with the pattern, or the
wildcard at the end. -/
theorem chosen?_arms (pattern body : Variant → String) (written : String)
    (h : ∀ v ∈ variants, pattern v ≠ "_") :
    chosen? ((variants.map fun v => (pattern v, body v)) ++ [Table.noneArm]) written =
      match variants.find? fun v => pattern v = written with
      | some v => some (body v)
      | none => some "None" := by
  have hfind : ((variants.map fun v => (pattern v, body v)).find? fun arm =>
      arm.1 = written || arm.1 = "_") =
        (variants.find? fun v => pattern v = written).map fun v => (pattern v, body v) := by
    rw [List.find?_map]
    congr 1
    refine List.find?_congr fun v hv => ?_
    simp [h v hv]
  have hnone : [Table.noneArm].find? (fun arm => arm.1 = written || arm.1 = "_") =
      some Table.noneArm := by
    simp [Table.noneArm]
  rw [chosen?, List.find?_append, hfind, hnone]
  cases variants.find? fun v => pattern v = written <;> rfl

end Variants

/-- The patterns of two codes differ. -/
theorem bytePattern_inj {a b : UInt8} :
    toString a.toNat ++ "u8" = toString b.toNat ++ "u8" ↔ a = b := by
  constructor
  · intro h
    have hrepr : Nat.repr a.toNat = Nat.repr b.toNat := (String.append_left_inj "u8").1 h
    have hdigits := congrArg String.toList hrepr
    rw [Nat.toList_repr, Nat.toList_repr] at hdigits
    rw [← UInt8.toNat_inj, ← @Nat.ofDigitChars_ten_toDigits a.toNat, hdigits,
      Nat.ofDigitChars_ten_toDigits]
  · rintro rfl
    rfl

theorem bytePattern_ne_wildcard (a : UInt8) : toString a.toNat ++ "u8" ≠ "_" := by
  intro h
  have hlength := congrArg String.length h
  have hshort : "u8".length = 2 ∧ "_".length = 1 := ⟨rfl, rfl⟩
  rw [String.length_append] at hlength
  omega

theorem Variant.canvasLiteral_ne_wildcard (v : Variant) : v.canvasLiteral ≠ "_" := by
  intro h
  have hlist := congrArg String.toList h
  rw [Variant.canvasLiteral, textLiteral, String.toList_ofList] at hlist
  exact absurd (List.cons.inj hlist).1 (by decide)

section Parts

variable {d : Declaration}

/-- The table of a declaration whose properties have plain names. -/
abbrev tableOf (d : Declaration) : Table :=
  let entries := d.variants.map Variant.asEntry
  ⟨d, entries, (entries.filter fun e => e.kind = .property).map fun e => (e, accessorName e.name)⟩

theorem chosen?_codeArms (h : d.Sound) (code : UInt8) :
    chosen? (tableOf d).codeArms (toString code.toNat ++ "u8") =
      match d.variants.find? fun v => v.code? = some code with
      | some v => some ("Some(" ++ (tableOf d).path v.asEntry ++ ")")
      | none => some "None" := by
  have hfind : (d.variants.find? fun v => v.code? = some code) =
      d.variants.find? fun v =>
        toString v.asEntry.code.toNat ++ "u8" = toString code.toNat ++ "u8" := by
    refine List.find?_congr fun v hv => ?_
    obtain ⟨kind, code', hlawful⟩ := h.lawful v hv
    simp only [hlawful.asEntry_code, hlawful.code_eq, bytePattern_inj, Option.some.injEq]
  rw [hfind, Table.codeArms, List.map_map]
  exact chosen?_arms (fun v => toString v.asEntry.code.toNat ++ "u8")
    (fun v => "Some(" ++ (tableOf d).path v.asEntry ++ ")") _
    fun v _ => bytePattern_ne_wildcard v.asEntry.code

theorem chosen?_ofNameArms (literal : String) :
    chosen? (tableOf d).ofNameArms literal =
      match d.variants.find? fun v => v.canvasLiteral = literal with
      | some v => some ("Some(" ++ (tableOf d).path v.asEntry ++ ")")
      | none => some "None" := by
  rw [Table.ofNameArms, List.map_map]
  exact chosen?_arms Variant.canvasLiteral (fun v => "Some(" ++ (tableOf d).path v.asEntry ++ ")")
    literal fun v _ => v.canvasLiteral_ne_wildcard

theorem kindArms_tableOf (h : d.Sound) :
    (tableOf d).kindArms = d.variants.map fun v => ((tableOf d).path v.asEntry, v.kindPath) := by
  rw [Table.kindArms, List.map_map]
  refine List.map_congr_left fun v hv => ?_
  obtain ⟨kind, code, hlawful⟩ := h.lawful v hv
  simp only [Function.comp, hlawful.asEntry_kind, Variant.kindPath, hlawful.kinds_eq]
  cases kind <;> rfl

theorem getters_tableOf (h : d.Sound) :
    (tableOf d).getters = (d.variants.filter fun v => v.kinds = [.property]).map fun v =>
      (v.asEntry, accessorName v.name) := by
  change ((d.variants.map Variant.asEntry).filter fun e => e.kind = .property).map _ = _
  rw [filter_map_asEntry h.lawful, List.map_map]
  rfl

theorem listed_map_asEntry (variants : List Variant) :
    (tableOf d).listed (variants.map Variant.asEntry) =
      "&[" ++ ",".intercalate (variants.map fun v => d.name ++ "::" ++ v.name) ++ "]" := by
  rw [Table.listed, List.map_map]
  rfl

theorem describes_tableOf (h : d.Sound) : (tableOf d).Describes d where
  declaration_eq := rfl
  entries_eq := rfl
  all_eq := listed_map_asEntry d.variants
  ofKind_eq kind := by rw [Table.ofKind, filter_map_asEntry h.lawful, listed_map_asEntry]
  kindArms_eq := kindArms_tableOf h
  nameArms_eq := by
    rw [Table.nameArms, List.map_map]
    rfl
  chosen_code := chosen?_codeArms h
  chosen_name := chosen?_ofNameArms
  functions_eq := by
    rw [Table.functions, getters_tableOf h, List.flatMap_map]
    rfl

theorem expand_of_sound (h : d.Sound)
    (hplain : ∀ v ∈ d.variants, v.kinds = [.property] → PlainName v.name) :
    expand d = .ok (tableOf d) := by
  have hgetters : ((d.variants.map Variant.asEntry).filter fun e => e.kind = .property).mapM
      getterName = .ok (tableOf d).getters := by
    refine mapM_getterName fun e he => ?_
    rw [filter_map_asEntry h.lawful] at he
    obtain ⟨v, hv, rfl⟩ := List.mem_map.1 he
    obtain ⟨hmem, hkinds⟩ := List.mem_filter.1 hv
    exact hplain v hmem (of_decide_eq_true hkinds)
  rw [expand, entriesOf_of_sound h]
  simp only [bind, Except.bind, hgetters]
  rfl

theorem expand_of_objection {rejection : Rejection} (h : d.Objection rejection) :
    expand d = .error rejection := by
  rw [expand, entriesOf_of_objection h]
  rfl

theorem sound_of_expand {t : Table} (h : expand d = .ok t) : d.Sound := by
  rcases sound_or_exists_objection d with hsound | ⟨rejection, hobjection⟩
  · exact hsound
  · exact absurd (h.symm.trans (expand_of_objection hobjection)) nofun

end Parts

theorem withoutAttributes_number (text : String) :
    withoutAttributes [.number text] = [.number text] := by
  simp [withoutAttributes]

/-- A variant with one kind, and with an integer literal as its code. -/
theorem lawful_of_number {attributes : List Attribute} {kind : Kind} {code : UInt8}
    (hkinds : attributes.filterMap Attribute.kind? = [kind]) (name text : String)
    (htext : integerLiteral? text.toList = some code.toNat)
    (hside : code &&& propertyTag ≠ 0 ↔ kind = .property) :
    Variant.Lawful ⟨name, attributes, .none, some [.number text]⟩ kind code where
  unit := rfl
  kinds_eq := hkinds
  code_eq := by
    rw [Variant.code?, Variant.value?, Option.bind_some, withoutAttributes_number]
    simp only [htext, Option.bind_some, code.toNat_lt, if_pos, UInt8.ofNat_toNat]
  side := hside

theorem sound_of_pair {d : Declaration} {v w : Variant} {kind kind' : Kind} {code code' : UInt8}
    (hparameters : d.parameters = []) (hshape : d.shape = .enumeration)
    (hvariants : d.variants = [v, w]) (hv : v.Lawful kind code) (hw : w.Lawful kind' code')
    (hne : code ≠ code') : d.Sound where
  parameters := hparameters
  shape := hshape
  lawful := by
    rw [hvariants, List.forall_mem_cons, List.forall_mem_singleton]
    exact ⟨⟨_, _, hv⟩, ⟨_, _, hw⟩⟩
  distinct := by
    rw [hvariants, List.pairwise_pair, hv.code_eq, hw.code_eq]
    exact mt Option.some.inj hne

/-- A declaration whose properties have plain names makes a table exactly if it is sound. The
first objection against any other is its rejection. What a table says about the variants agrees
with the declaration in all parts. -/
theorem expand_decided (d : Declaration)
    (hplain : ∀ v ∈ d.variants, v.kinds = [.property] → PlainName v.name) :
    ((∃ t, expand d = .ok t) ↔ d.Sound) ∧
      (∀ rejection, expand d = .error rejection ↔ d.Objection rejection) ∧
      ∀ t, expand d = .ok t → t.Describes d := by
  refine ⟨⟨fun ⟨t, ht⟩ => sound_of_expand ht, fun h => ⟨_, expand_of_sound h hplain⟩⟩,
    fun rejection => ⟨fun h => ?_, expand_of_objection⟩, fun t ht => ?_⟩
  · rcases sound_or_exists_objection d with hsound | ⟨rejection', hobjection⟩
    · exact absurd (h.symm.trans (expand_of_sound hsound hplain)) nofun
    · rwa [Except.error.inj (h.symm.trans (expand_of_objection hobjection))]
  · have hsound := sound_of_expand ht
    obtain rfl := Except.ok.inj (ht.symm.trans (expand_of_sound hsound hplain))
    exact describes_tableOf hsound

/-- A table of a method and a property, which keeps an attribute, and a declaration whose second
variant takes the code of the first. -/
theorem expand_decided_lineWidth :
    let stroke : Variant := ⟨"Stroke", [⟨[.word "method"]⟩], .none, some [.number "0x70"]⟩
    let fill : Variant := ⟨"Fill", [⟨[.word "method"]⟩], .none, some [.number "0x70"]⟩
    let lineWidth : Variant := ⟨"LineWidth", [⟨[.word "deprecated"]⟩, ⟨[.word "property"]⟩], .none,
      some [.number "0x80"]⟩
    let d : Declaration :=
      { accessors := "Access", name := "Code", variants := [stroke, lineWidth] }
    let refused : Declaration :=
      { accessors := "Access", name := "Code", variants := [stroke, fill, lineWidth] }
    (∀ v ∈ d.variants, v.kinds = [.property] → PlainName v.name) ∧
      (∃ t, expand d = .ok t ∧
        t.entries.map (fun e => (e.name, e.attributes)) =
          [("Stroke", []), ("LineWidth", [⟨[.word "deprecated"]⟩])] ∧
        t.all = "&[Code::Stroke,Code::LineWidth]" ∧
        t.ofKind .method = "&[Code::Stroke]" ∧ t.ofKind .property = "&[Code::LineWidth]" ∧
        t.kindArms =
          [("Code::Stroke", "OpKind::Method"), ("Code::LineWidth", "OpKind::Property")] ∧
        t.nameArms = [("Code::Stroke", "\"stroke\""), ("Code::LineWidth", "\"lineWidth\"")] ∧
        chosen? t.codeArms "128u8" = some "Some(Code::LineWidth)" ∧
        chosen? t.codeArms "129u8" = some "None" ∧
        chosen? t.ofNameArms "\"lineWidth\"" = some "Some(Code::LineWidth)" ∧
        chosen? t.ofNameArms "\"LineWidth\"" = some "None" ∧
        t.functions = [("set_property", none), ("property", none),
          ("set_line_width", some "\x7bself.set_property(Code::LineWidth,value.into())\x7d"),
          ("line_width", some "\x7bself.property(Code::LineWidth)\x7d")]) ∧
      (∀ v ∈ refused.variants, v.kinds = [.property] → PlainName v.name) ∧
      expand refused = .error (.duplicate 0x70 "Stroke") := by
  intro stroke fill lineWidth d refused
  have hplain : ∀ v ∈ d.variants, v.kinds = [.property] → PlainName v.name := by decide
  have hplain' : ∀ v ∈ refused.variants, v.kinds = [.property] → PlainName v.name := by decide
  have hstroke : stroke.Lawful .method 0x70 :=
    lawful_of_number (by decide) _ _ (by decide) (by decide)
  have hfill : fill.Lawful .method 0x70 :=
    lawful_of_number (by decide) _ _ (by decide) (by decide)
  have hlineWidth : lineWidth.Lawful .property 0x80 :=
    lawful_of_number (by decide) _ _ (by decide) (by decide)
  have hsound : d.Sound := sound_of_pair rfl rfl rfl hstroke hlineWidth (by decide)
  have hobjection : refused.Objection (.duplicate 0x70 "Stroke") := by
    rw [Declaration.Objection, if_neg (not_not.2 rfl), if_neg (not_not.2 rfl)]
    refine ⟨[stroke], fill, [lineWidth], rfl, unbroken_iff.2 ⟨?_, List.pairwise_singleton _ _⟩, ?_⟩
    · rw [List.forall_mem_singleton]
      exact ⟨_, _, hstroke⟩
    · rw [hfill.firstBroken?_eq, duplicateRule_eq hfill.code_eq, List.find?_singleton,
        if_pos (decide_eq_true hstroke.code_eq)]
      rfl
  have hdecided := expand_decided d hplain
  obtain ⟨t, ht⟩ := hdecided.1.2 hsound
  have hparts := hdecided.2.2 t ht
  refine ⟨hplain, ⟨t, ht, ?_, ?_, ?_, ?_, ?_, ?_, ?_, ?_, ?_, ?_, ?_⟩, hplain',
    ((expand_decided refused hplain').2.1 _).2 hobjection⟩
  · rw [hparts.entries_eq]
    decide
  · rw [hparts.all_eq]
    decide
  · rw [hparts.ofKind_eq]
    decide
  · rw [hparts.ofKind_eq]
    decide
  · rw [hparts.kindArms_eq]
    decide
  · rw [hparts.nameArms_eq]
    decide +kernel
  · have hchosen := hparts.chosen_code 0x80
    simp only [d, List.find?_cons, hstroke.code_eq, hlineWidth.code_eq] at hchosen
    exact hchosen
  · have hchosen := hparts.chosen_code 0x81
    simp only [d, List.find?_cons, hstroke.code_eq, hlineWidth.code_eq] at hchosen
    exact hchosen
  · rw [hparts.chosen_name]
    decide +kernel
  · rw [hparts.chosen_name]
    decide +kernel
  · rw [hparts.functions_eq]
    decide +kernel

end DisplayList.OpTable
