import DisplayList.OpTable.Entry
import Mathlib.Data.List.Find
import Mathlib.Data.List.Induction

/-!
# The rules for a table

Each rule looks at one variant and at those declared before it. The first of the `rules` that a
variant breaks is `firstBroken?`, and a list of variants is `Unbroken` if none of them breaks any:
each has one kind and a code that goes with it, and no two have the same code (`unbroken_iff`).
Checking the variants one by one comes to the same: `entriesAfter_of_unbroken` and
`entriesAfter_of_broken`.
-/

namespace DisplayList.OpTable

namespace Variant

/-- The kinds that the attributes of a variant mark. -/
def kinds (v : Variant) : List Kind := v.attributes.filterMap Attribute.kind?

/-- The code of a variant, if its discriminant is an integer literal that fits a byte. -/
def code? (v : Variant) : Option UInt8 :=
  v.value?.bind fun value => if value < 256 then some (UInt8.ofNat value) else none

/-- What a variant has to be on its own, with its kind and its code. -/
structure Lawful (v : Variant) (kind : Kind) (code : UInt8) : Prop where
  unit : v.fields = .none
  kinds_eq : v.kinds = [kind]
  code_eq : v.code? = some code
  side : code &&& propertyTag ≠ 0 ↔ kind = .property

/-- The entry that a variant makes. It keeps all attributes that mark no kind. -/
def asEntry (v : Variant) : Entry where
  name := v.name
  code := v.code?.getD 0
  kind := v.kinds.head?.getD .method
  attributes := v.attributes.filter fun a => a.kind?.isNone
  discriminant := v.discriminant.getD []

theorem code?_of_value? (v : Variant) {value : Nat} (h : v.value? = some value) :
    v.code? = if value < 256 then some (UInt8.ofNat value) else none := by
  rw [code?, h]
  rfl

end Variant

/-- What can be held against a variant that comes after some others. -/
abbrev Rule := List Variant → Variant → Option Rejection

def fieldsRule : Rule := fun _ v => if v.fields = .none then none else some .carriesFields

def missingKindRule : Rule := fun _ v => if v.kinds = [] then some .noKind else none

def secondKindRule : Rule := fun _ v => if 1 < v.kinds.length then some .secondKind else none

def codeRule : Rule := fun _ v =>
  match v.value? with
  | none => some .noCode
  | some value => if 255 < value then some .codeTooLarge else none

def sideRule : Rule := fun _ v =>
  match v.kinds.head?, v.code? with
  | some .method, some code =>
    if code &&& propertyTag = 0 then none else some (.taggedMethod code)
  | some .property, some code =>
    if code &&& propertyTag = 0 then some (.untaggedProperty code) else none
  | _, _ => none

def duplicateRule : Rule := fun earlier v =>
  v.code?.bind fun code =>
    (earlier.find? fun w => w.code? = some code).map fun w => .duplicate code w.name

/-- The rules in the order in which they are tried. -/
def rules : List Rule :=
  [fieldsRule, missingKindRule, secondKindRule, codeRule, sideRule, duplicateRule]

/-- What the first rule that a variant breaks holds against it. -/
def firstBroken? (earlier : List Variant) (v : Variant) : Option Rejection :=
  rules.findSome? fun rule => rule earlier v

/-- No variant breaks a rule against those before it. -/
def Unbroken (variants : List Variant) : Prop :=
  ∀ before v, before ++ [v] <+: variants → firstBroken? before v = none

section TakeKind

variable {attributes : List Attribute}

theorem takeKind?_of_nil (h : attributes.filterMap Attribute.kind? = []) :
    takeKind? attributes = none := by
  induction attributes with
  | nil => rfl
  | cons a rest ih =>
      rw [List.filterMap_cons] at h
      cases hkind : a.kind? with
      | some kind => rw [hkind] at h; exact absurd h nofun
      | none =>
          rw [hkind] at h
          rw [takeKind?, hkind, ih h]
          rfl

/-- Taking a kind leaves the other kinds and all attributes that mark none. -/
theorem exists_takeKind?_of_cons {kind : Kind} {kinds : List Kind}
    (h : attributes.filterMap Attribute.kind? = kind :: kinds) :
    ∃ others, takeKind? attributes = some (kind, others) ∧
      others.filterMap Attribute.kind? = kinds ∧
      (others.filter fun a => a.kind?.isNone) = attributes.filter fun a => a.kind?.isNone := by
  induction attributes with
  | nil => exact absurd h nofun
  | cons a rest ih =>
      rw [List.filterMap_cons] at h
      cases hkind : a.kind? with
      | some kind' =>
          rw [hkind] at h
          obtain ⟨rfl, rfl⟩ := List.cons.inj h
          refine ⟨rest, by rw [takeKind?, hkind], rfl, ?_⟩
          rw [List.filter_cons_of_neg (by simp [hkind])]
      | none =>
          rw [hkind] at h
          obtain ⟨others, htake, hkinds, hothers⟩ := ih h
          refine ⟨a :: others, ?_, ?_, ?_⟩
          · rw [takeKind?, hkind, htake]
            rfl
          · rw [List.filterMap_cons, hkind, hkinds]
          · rw [List.filter_cons_of_pos (by simp [hkind]),
              List.filter_cons_of_pos (by simp [hkind]), hothers]

end TakeKind

/-- What is left to check of a variant with one kind. -/
theorem entry_of_kinds {v : Variant} {kind : Kind} (hfields : v.fields = .none)
    (hkinds : v.kinds = [kind]) (entries : List Entry) :
    v.entry entries =
      match v.value? with
      | none => .error .noCode
      | some value =>
        if 255 < value then .error .codeTooLarge
        else checkSide kind (UInt8.ofNat value) >>= fun _ =>
          match entries.find? fun e => e.code == UInt8.ofNat value with
          | some other => .error (.duplicate (UInt8.ofNat value) other.name)
          | none => .ok v.asEntry := by
  obtain ⟨others, htake, hothers, hfilter⟩ := exists_takeKind?_of_cons hkinds
  rw [List.filterMap_eq_nil_iff] at hothers
  have hany : (others.any fun a => a.kind?.isSome) = false := by simpa using hothers
  have hself : (others.filter fun a => a.kind?.isNone) = others := by simpa using hothers
  unfold Variant.entry
  simp only [hfields, htake, hany, ne_eq, not_true_eq_false, if_false, Bool.false_eq_true]
  cases hvalue : v.value? with
  | none => rfl
  | some value =>
      by_cases hlarge : 255 < value
      · simp only [if_pos hlarge]
        rfl
      · have hentry : v.asEntry =
            ⟨v.name, UInt8.ofNat value, kind, others, v.discriminant.getD []⟩ := by
          rw [Variant.asEntry, v.code?_of_value? hvalue, if_pos (by omega), hkinds, ← hfilter,
            hself]
          rfl
        simp only [if_neg hlarge, hentry]
        cases entries.find? fun e => e.code == UInt8.ofNat value <;> rfl

/-- An entry has a code exactly when the variant that it was made of has it. -/
theorem find?_map_asEntry {earlier : List Variant} (h : ∀ w ∈ earlier, w.code? ≠ none)
    (code : UInt8) :
    ((earlier.map Variant.asEntry).find? fun e => e.code == code) =
      (earlier.find? fun w => w.code? = some code).map Variant.asEntry := by
  rw [List.find?_map]
  congr 1
  refine List.find?_congr fun w hw => ?_
  obtain ⟨code', hcode⟩ := Option.ne_none_iff_exists'.1 (h w hw)
  rw [Function.comp, Variant.asEntry, hcode]
  simpa using beq_eq_decide code' code

theorem checkSide_eq {v : Variant} {kind : Kind} {code : UInt8} (hkinds : v.kinds = [kind])
    (hcode : v.code? = some code) (earlier : List Variant) :
    checkSide kind code =
      match sideRule earlier v with
      | some rejection => .error rejection
      | none => .ok () := by
  rw [sideRule, hkinds, hcode]
  cases kind <;> by_cases htag : code &&& propertyTag = 0 <;> simp [checkSide, htag]

theorem duplicateRule_eq {v : Variant} {code : UInt8} (hcode : v.code? = some code)
    (earlier : List Variant) :
    duplicateRule earlier v =
      (earlier.find? fun w => w.code? = some code).map fun w => .duplicate code w.name := by
  rw [duplicateRule, hcode]
  rfl

/-- A variant makes an entry unless it breaks a rule. -/
theorem entry_eq {earlier : List Variant} (h : ∀ w ∈ earlier, w.code? ≠ none) (v : Variant) :
    v.entry (earlier.map Variant.asEntry) =
      match firstBroken? earlier v with
      | some rejection => .error rejection
      | none => .ok v.asEntry := by
  simp only [firstBroken?, rules, List.findSome?_cons, List.findSome?_nil]
  -- one split for each rule, in the order in which the checks run
  by_cases hfields : v.fields = .none
  case neg =>
    rw [show fieldsRule earlier v = some .carriesFields from if_neg hfields]
    unfold Variant.entry
    simp only [ne_eq, hfields, not_false_eq_true, if_true]
    rfl
  rw [show fieldsRule earlier v = none from if_pos hfields]
  cases hkinds : v.kinds with
  | nil =>
      rw [show missingKindRule earlier v = some .noKind from if_pos hkinds]
      unfold Variant.entry
      simp only [ne_eq, hfields, not_true_eq_false, if_false, takeKind?_of_nil hkinds]
      rfl
  | cons kind others =>
      rw [show missingKindRule earlier v = none from if_neg (by simp [hkinds])]
      cases others with
      | cons kind' others =>
          obtain ⟨left, htake, hleft, -⟩ := exists_takeKind?_of_cons hkinds
          obtain ⟨a, ha, hkind⟩ := List.mem_filterMap.1 (hleft ▸ List.mem_cons_self)
          have hany : (left.any fun a => a.kind?.isSome) = true :=
            List.any_eq_true.2 ⟨a, ha, by rw [hkind]; rfl⟩
          rw [show secondKindRule earlier v = some .secondKind from if_pos (by simp [hkinds])]
          unfold Variant.entry
          simp only [ne_eq, hfields, not_true_eq_false, if_false, htake, hany, if_true]
          rfl
      | nil =>
          rw [show secondKindRule earlier v = none from if_neg (by simp [hkinds]),
            entry_of_kinds hfields hkinds]
          cases hvalue : v.value? with
          | none => rw [show codeRule earlier v = some .noCode by rw [codeRule, hvalue]]
          | some value =>
              by_cases hlarge : 255 < value
              · rw [show codeRule earlier v = some .codeTooLarge by
                  rw [codeRule, hvalue]; exact if_pos hlarge]
                exact if_pos hlarge
              · have hcode : v.code? = some (UInt8.ofNat value) := by
                  rw [v.code?_of_value? hvalue, if_pos (by omega)]
                rw [show codeRule earlier v = none by
                  rw [codeRule, hvalue]; exact if_neg hlarge]
                rw [duplicateRule_eq hcode earlier]
                simp only [if_neg hlarge, checkSide_eq hkinds hcode earlier, find?_map_asEntry h]
                cases sideRule earlier v with
                | some rejection => rfl
                | none => cases earlier.find? fun w => w.code? = some (UInt8.ofNat value) <;> rfl

/-! ### What breaks no rule -/

section Lawful

variable {earlier : List Variant} {v : Variant} {kind : Kind} {code : UInt8}

theorem codeRule_eq_none_iff : codeRule earlier v = none ↔ ∃ code, v.code? = some code := by
  rw [codeRule]
  cases hvalue : v.value? with
  | none => simp [Variant.code?, hvalue]
  | some value =>
      rw [v.code?_of_value? hvalue]
      by_cases hlarge : 255 < value
      · rw [if_neg (by omega : ¬ value < 256)]
        simp [hlarge]
      · rw [if_pos (by omega : value < 256)]
        simp [hlarge]

theorem sideRule_eq_none_iff (hkinds : v.kinds = [kind]) (hcode : v.code? = some code) :
    sideRule earlier v = none ↔ (code &&& propertyTag ≠ 0 ↔ kind = .property) := by
  rw [sideRule, hkinds, hcode]
  cases kind <;> by_cases htag : code &&& propertyTag = 0 <;> simp [htag]

theorem duplicateRule_eq_none_iff (hcode : v.code? = some code) :
    duplicateRule earlier v = none ↔ ∀ w ∈ earlier, w.code? ≠ v.code? := by
  rw [duplicateRule_eq hcode, Option.map_eq_none_iff, List.find?_eq_none, hcode]
  simp

/-- All that a lawful variant can do wrong is to take the code of another. -/
theorem Variant.Lawful.firstBroken?_eq (h : v.Lawful kind code) :
    firstBroken? earlier v = duplicateRule earlier v := by
  have hfields : fieldsRule earlier v = none := if_pos h.unit
  have hmissing : missingKindRule earlier v = none := if_neg (by simp [h.kinds_eq])
  have hsecond : secondKindRule earlier v = none := if_neg (by simp [h.kinds_eq])
  have hcode : codeRule earlier v = none := codeRule_eq_none_iff.2 ⟨code, h.code_eq⟩
  have hside : sideRule earlier v = none := (sideRule_eq_none_iff h.kinds_eq h.code_eq).2 h.side
  simp only [firstBroken?, rules, List.findSome?_cons, List.findSome?_nil, hfields, hmissing,
    hsecond, hcode, hside]
  cases duplicateRule earlier v <;> rfl

/-- A variant breaks no rule if it is lawful and has a code of its own. -/
theorem firstBroken?_eq_none_iff :
    firstBroken? earlier v = none ↔
      (∃ kind code, v.Lawful kind code) ∧ ∀ w ∈ earlier, w.code? ≠ v.code? := by
  constructor
  · intro h
    have hrules : ∀ rule ∈ rules, rule earlier v = none := List.findSome?_eq_none_iff.1 h
    simp only [rules, List.forall_mem_cons, List.not_mem_nil, false_imp_iff, implies_true,
      and_true] at hrules
    obtain ⟨hfields, hmissing, hsecond, hcode, hside, hduplicate⟩ := hrules
    obtain ⟨code, hcode⟩ := codeRule_eq_none_iff.1 hcode
    obtain ⟨kind, hkinds⟩ : ∃ kind, v.kinds = [kind] := by
      rw [← List.length_eq_one_iff]
      have : v.kinds.length ≠ 0 := by
        intro hnil
        simp [missingKindRule, List.length_eq_zero_iff.1 hnil] at hmissing
      have : ¬ 1 < v.kinds.length := by
        intro hmany
        simp [secondKindRule, hmany] at hsecond
      omega
    exact ⟨⟨kind, code, by simpa [fieldsRule] using hfields, hkinds, hcode,
      (sideRule_eq_none_iff hkinds hcode).1 hside⟩,
      (duplicateRule_eq_none_iff hcode).1 hduplicate⟩
  · rintro ⟨⟨kind, code, hlawful⟩, hdistinct⟩
    rw [hlawful.firstBroken?_eq]
    exact (duplicateRule_eq_none_iff hlawful.code_eq).2 hdistinct

end Lawful

/-! ### A list of variants -/

section Unbroken

variable {before variants : List Variant} {v : Variant}

theorem unbroken_nil : Unbroken [] := by
  intro before v h
  exact absurd (List.prefix_nil.1 h) (by simp)

theorem unbroken_concat_iff :
    Unbroken (variants ++ [v]) ↔ Unbroken variants ∧ firstBroken? variants v = none := by
  constructor
  · intro h
    exact ⟨fun before w hw => h before w (hw.trans (List.prefix_append ..)),
      h variants v List.prefix_rfl⟩
  · rintro ⟨hvariants, hv⟩ before w hw
    rcases List.prefix_concat_iff.1 hw with heq | hprefix
    · obtain ⟨rfl, hsingle⟩ := List.append_inj' heq rfl
      exact (List.singleton_inj.1 hsingle) ▸ hv
    · exact hvariants before w hprefix

/-- No rule is broken if all variants are lawful and no two have the same code. -/
theorem unbroken_iff :
    Unbroken variants ↔ (∀ v ∈ variants, ∃ kind code, v.Lawful kind code) ∧
      variants.Pairwise fun v w => v.code? ≠ w.code? := by
  induction variants using List.reverseRecOn with
  | nil => exact ⟨fun _ => ⟨nofun, .nil⟩, fun _ => unbroken_nil⟩
  | append_singleton before v ih =>
      rw [unbroken_concat_iff, ih, firstBroken?_eq_none_iff, List.pairwise_append]
      simp only [List.mem_append, List.mem_singleton, or_imp, forall_and, forall_eq,
        List.pairwise_singleton, true_and]
      tauto

/-- If not all variants keep to the rules, there is a first that does not. -/
theorem unbroken_or_exists_broken (variants : List Variant) :
    Unbroken variants ∨ ∃ before v after rejection, variants = before ++ v :: after ∧
      Unbroken before ∧ firstBroken? before v = some rejection := by
  induction variants using List.reverseRecOn with
  | nil => exact Or.inl unbroken_nil
  | append_singleton variants v ih =>
      rcases ih with hvariants | ⟨before, w, after, rejection, rfl, hbefore, hw⟩
      · cases hv : firstBroken? variants v with
        | none => exact Or.inl (unbroken_concat_iff.2 ⟨hvariants, hv⟩)
        | some rejection => exact Or.inr ⟨variants, v, [], rejection, rfl, hvariants, hv⟩
      · exact Or.inr ⟨before, w, after ++ [v], rejection, by simp, hbefore, hw⟩

theorem code?_ne_none_of_unbroken (h : Unbroken variants) :
    ∀ w ∈ variants, w.code? ≠ none := by
  intro w hw
  obtain ⟨kind, code, hlawful⟩ := (unbroken_iff.1 h).1 w hw
  rw [hlawful.code_eq]
  exact Option.some_ne_none code

theorem entriesAfter_append (earlier : List Entry) (variants later : List Variant) :
    entriesAfter earlier (variants ++ later) =
      entriesAfter earlier variants >>= fun entries => entriesAfter entries later := by
  induction variants generalizing earlier with
  | nil => rfl
  | cons v rest ih =>
      rw [List.cons_append, entriesAfter, entriesAfter]
      cases v.entry earlier with
      | ok e => exact ih (earlier ++ [e])
      | error rejection => rfl

theorem entriesAfter_of_unbroken (h : Unbroken variants) :
    entriesAfter [] variants = .ok (variants.map Variant.asEntry) := by
  induction variants using List.reverseRecOn with
  | nil => rfl
  | append_singleton variants v ih =>
      obtain ⟨hvariants, hv⟩ := unbroken_concat_iff.1 h
      have hentry := entry_eq (code?_ne_none_of_unbroken hvariants) v
      rw [hv] at hentry
      rw [entriesAfter_append, ih hvariants]
      simp only [bind, Except.bind, entriesAfter, hentry, List.map_append, List.map_cons,
        List.map_nil]

theorem entriesAfter_of_broken {after : List Variant} {rejection : Rejection}
    (h : Unbroken before) (hv : firstBroken? before v = some rejection) :
    entriesAfter [] (before ++ v :: after) = .error rejection := by
  have hentry := entry_eq (code?_ne_none_of_unbroken h) v
  rw [hv] at hentry
  rw [entriesAfter_append, entriesAfter_of_unbroken h]
  simp only [bind, Except.bind, entriesAfter, hentry]

end Unbroken

end DisplayList.OpTable
