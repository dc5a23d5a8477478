import DisplayList.Proofs.Text.Blank
import DisplayList.Surface.Color
import Mathlib.Data.List.Basic
import Mathlib.Tactic.SplitIfs

/-!
# The texts of colors

`ColorText` lists the texts that denote a color. The longer forms are tried first, and a shorter one
is not tried again once a longer one has been read. But each form wants all of its digits and
nothing may be left behind, so just these texts are read, `colorOf?_eq_some_iff`. The case of a text
does not matter, nor do blanks at its ends, and digits that are doubled, or followed by those of a
full opacity, change nothing: `Rgba.parse?_decided`.
-/

universe u

namespace DisplayList

/-- A character is the hexadecimal digit of a value, in either case. -/
def HexDigit (n : Nat) (c : Char) : Prop := n < 16 ∧ c.toLower = Nat.digitChar n

/-- Two digits that give a channel. -/
inductive PairText : Nat → List Char → Prop
  | mk {m n : Nat} {c d : Char} (hc : HexDigit m c) (hd : HexDigit n d) :
      PairText (16 * m + n) [c, d]

/-- A digit that gives a channel as if it were doubled. -/
inductive SingleText : Nat → List Char → Prop
  | mk {n : Nat} {c : Char} (hc : HexDigit n c) : SingleText (16 * n + n) [c]

/-- The texts of three channels, which give an opaque color. Channels are parts of 255. -/
inductive ThreeText (Channel : Nat → List Char → Prop) : Rgba → List Char → Prop
  | mk {r g b : Nat} {s t u : List Char} (hr : Channel r s) (hg : Channel g t) (hb : Channel b u) :
      ThreeText Channel
        ⟨Float.ofNat r / 255, Float.ofNat g / 255, Float.ofNat b / 255, Float.ofNat 255 / 255⟩
        (s ++ t ++ u)

/-- The texts of four channels, the last of which is the opacity. -/
inductive FourText : Rgba → List Char → Prop
  | mk {r g b a : Nat} {s t u v : List Char} (hr : PairText r s) (hg : PairText g t)
      (hb : PairText b u) (ha : PairText a v) :
      FourText
        ⟨Float.ofNat r / 255, Float.ofNat g / 255, Float.ofNat b / 255, Float.ofNat a / 255⟩
        (s ++ t ++ u ++ v)

/-- The texts that denote a color. Two words, in any case, stand for nothing at all. -/
inductive ColorText : Rgba → List Char → Prop
  | transparent {s : List Char} (h : lowered s = "transparent".toList) : ColorText ⟨0, 0, 0, 0⟩ s
  | none {s : List Char} (h : lowered s = "none".toList) : ColorText ⟨0, 0, 0, 0⟩ s
  | three {c : Rgba} {s : List Char} (h : ThreeText SingleText c s) : ColorText c ('#' :: s)
  | six {c : Rgba} {s : List Char} (h : ThreeText PairText c s) : ColorText c ('#' :: s)
  | eight {c : Rgba} {s : List Char} (h : FourText c s) : ColorText c ('#' :: s)

/-! ### Digits -/

theorem le_iff_toNat_le {c d : Char} : c ≤ d ↔ c.toNat ≤ d.toNat := by
  rw [Char.le_def, UInt32.le_iff_toNat_le, Char.toNat_val, Char.toNat_val]

theorem toNat_le_toNat_toLower (c : Char) : c.toNat ≤ c.toLower.toNat := by
  by_cases hupper : c.isUpper
  · rw [toNat_toLower_of_isUpper hupper]
    exact Nat.le_add_right _ _
  · exact Nat.le_of_eq (congrArg Char.toNat (toLower_of_not_isUpper hupper)).symm

theorem hexDigit?_ofNat : ∀ k < 128, ∀ n < 16,
    hexDigit? (Char.ofNat k) = some n ↔ (Char.ofNat k).toLower = Nat.digitChar n := by
  decide +kernel

theorem toNat_digitChar_lt : ∀ n < 16, (Nat.digitChar n).toNat < 128 := by decide

theorem bounds_of_hexDigit? {c : Char} {n : Nat} (h : hexDigit? c = some n) :
    c.toNat < 128 ∧ n < 16 := by
  unfold hexDigit? at h
  simp only [le_iff_toNat_le, Char.reduceToNat] at h
  split_ifs at h
  all_goals
    have := Option.some.inj h
    omega

theorem hexDigit?_eq_some_iff {c : Char} {n : Nat} : hexDigit? c = some n ↔ HexDigit n c := by
  have hiff (hc : c.toNat < 128) (hn : n < 16) :
      hexDigit? c = some n ↔ c.toLower = Nat.digitChar n := by
    have hsmall := hexDigit?_ofNat c.toNat hc n hn
    rwa [Char.ofNat_toNat] at hsmall
  constructor
  · intro h
    obtain ⟨hc, hn⟩ := bounds_of_hexDigit? h
    exact ⟨hn, (hiff hc hn).1 h⟩
  · rintro ⟨hn, hlower⟩
    have hc : c.toNat < 128 :=
      Nat.lt_of_le_of_lt (toNat_le_toNat_toLower c) (hlower ▸ toNat_digitChar_lt n hn)
    exact (hiff hc hn).2 hlower

/-! ### Readers of channels -/

/-- A reader takes just the texts of a value off the front of a text. -/
def Reads {α : Type u} (read : List Char → Option (α × List Char))
    (Text : α → List Char → Prop) : Prop :=
  ∀ s v rest, read s = some (v, rest) ↔ ∃ t, Text v t ∧ s = t ++ rest

theorem reads_readPair : Reads readPair PairText := by
  intro s v rest
  constructor
  · intro h
    match s, h with
    | c :: d :: s, h =>
      simp only [readPair, Option.bind_eq_bind, Option.bind_eq_some_iff, Option.pure_def,
        Option.some_inj, Prod.mk.injEq] at h
      obtain ⟨m, hm, n, hn, rfl, rfl⟩ := h
      exact ⟨[c, d], .mk (hexDigit?_eq_some_iff.1 hm) (hexDigit?_eq_some_iff.1 hn), rfl⟩
  · rintro ⟨t, ⟨hc, hd⟩, rfl⟩
    rw [List.cons_append, List.singleton_append, readPair, hexDigit?_eq_some_iff.2 hc,
      hexDigit?_eq_some_iff.2 hd]
    rfl

theorem reads_readSingle : Reads readSingle SingleText := by
  intro s v rest
  constructor
  · intro h
    match s, h with
    | c :: s, h =>
      simp only [readSingle, Option.bind_eq_bind, Option.bind_eq_some_iff, Option.pure_def,
        Option.some_inj, Prod.mk.injEq] at h
      obtain ⟨n, hn, rfl, rfl⟩ := h
      have htwice : 17 * n = 16 * n + n := Nat.succ_mul 16 n
      exact ⟨[c], htwice ▸ .mk (hexDigit?_eq_some_iff.1 hn), rfl⟩
  · rintro ⟨t, ⟨hc⟩, rfl⟩
    rw [List.singleton_append, readSingle, hexDigit?_eq_some_iff.2 hc, ← Nat.succ_mul]
    rfl

theorem Reads.readThree {channel : List Char → Option (Nat × List Char)}
    {Channel : Nat → List Char → Prop} (hchannel : Reads channel Channel) :
    Reads (readThree channel) (ThreeText Channel) := by
  intro s c rest
  constructor
  · intro h
    simp only [DisplayList.readThree, Option.bind_eq_bind, Option.bind_eq_some_iff, Prod.exists,
      Option.pure_def, Option.some_inj, Prod.mk.injEq] at h
    obtain ⟨r, s₁, hr, g, s₂, hg, b, s₃, hb, rfl, rfl⟩ := h
    obtain ⟨t, ht, rfl⟩ := (hchannel _ _ _).1 hr
    obtain ⟨u, hu, rfl⟩ := (hchannel _ _ _).1 hg
    obtain ⟨v, hv, rfl⟩ := (hchannel _ _ _).1 hb
    exact ⟨t ++ u ++ v, .mk ht hu hv, by simp only [List.append_assoc]⟩
  · rintro ⟨_, ⟨hr, hg, hb⟩, rfl⟩
    simp only [DisplayList.readThree, List.append_assoc, Option.bind_eq_bind, Option.bind_some,
      (hchannel _ _ _).2 ⟨_, hr, rfl⟩, (hchannel _ _ _).2 ⟨_, hg, rfl⟩,
      (hchannel _ _ _).2 ⟨_, hb, rfl⟩]
    rfl

theorem reads_readFour : Reads readFour FourText := by
  intro s c rest
  constructor
  · intro h
    simp only [readFour, Option.bind_eq_bind, Option.bind_eq_some_iff, Prod.exists,
      Option.pure_def, Option.some_inj, Prod.mk.injEq] at h
    obtain ⟨r, s₁, hr, g, s₂, hg, b, s₃, hb, a, s₄, ha, rfl, rfl⟩ := h
    obtain ⟨t, ht, rfl⟩ := (reads_readPair _ _ _).1 hr
    obtain ⟨u, hu, rfl⟩ := (reads_readPair _ _ _).1 hg
    obtain ⟨v, hv, rfl⟩ := (reads_readPair _ _ _).1 hb
    obtain ⟨w, hw, rfl⟩ := (reads_readPair _ _ _).1 ha
    exact ⟨t ++ u ++ v ++ w, .mk ht hu hv hw, by simp only [List.append_assoc]⟩
  · rintro ⟨_, ⟨hr, hg, hb, ha⟩, rfl⟩
    simp only [readFour, List.append_assoc, Option.bind_eq_bind, Option.bind_some,
      (reads_readPair _ _ _).2 ⟨_, hr, rfl⟩, (reads_readPair _ _ _).2 ⟨_, hg, rfl⟩,
      (reads_readPair _ _ _).2 ⟨_, hb, rfl⟩, (reads_readPair _ _ _).2 ⟨_, ha, rfl⟩]
    rfl

/-- A reader that leaves nothing has read a text of the value. -/
theorem Reads.nil_iff {α : Type u} {read : List Char → Option (α × List Char)}
    {Text : α → List Char → Prop} (h : Reads read Text) {s : List Char} {v : α} :
    read s = some (v, []) ↔ Text v s := by
  simp [h s v []]

/-- What is shorter than every text of a value cannot be read. -/
theorem Reads.eq_none {α : Type u} {read : List Char → Option (α × List Char)}
    {Text : α → List Char → Prop} (h : Reads read Text) {s : List Char} {n : Nat}
    (hlength : ∀ v t, Text v t → t.length = n) (hs : s.length < n) : read s = none := by
  refine Option.eq_none_iff_forall_ne_some.2 fun ⟨v, rest⟩ hread => ?_
  obtain ⟨t, ht, rfl⟩ := (h _ _ _).1 hread
  rw [List.length_append, hlength v t ht] at hs
  omega

/-! ### How long texts are -/

theorem PairText.length_eq {v : Nat} {s : List Char} (h : PairText v s) : s.length = 2 := by
  cases h
  rfl

theorem SingleText.length_eq {v : Nat} {s : List Char} (h : SingleText v s) : s.length = 1 := by
  cases h
  rfl

theorem ThreeText.length_eq {Channel : Nat → List Char → Prop} {n : Nat}
    (hchannel : ∀ v s, Channel v s → s.length = n) {c : Rgba} {s : List Char}
    (h : ThreeText Channel c s) : s.length = 3 * n := by
  cases h with
  | mk hr hg hb =>
      rw [List.length_append, List.length_append, hchannel _ _ hr, hchannel _ _ hg,
        hchannel _ _ hb]
      omega

theorem FourText.length_eq {c : Rgba} {s : List Char} (h : FourText c s) : s.length = 8 := by
  cases h with
  | mk hr hg hb ha =>
      rw [List.length_append, List.length_append, List.length_append, hr.length_eq, hg.length_eq,
        hb.length_eq, ha.length_eq]

/-! ### The order of the forms -/

theorem readDigitColor_eq_some_iff {s : List Char} {c : Rgba} :
    readDigitColor s = some (c, []) ↔
      FourText c s ∨ ThreeText PairText c s ∨ ThreeText SingleText c s := by
  have hpairs := reads_readPair.readThree
  have hsingles := reads_readSingle.readThree
  have hfour (hs : s.length < 8) : readFour s = none :=
    reads_readFour.eq_none (fun _ _ => FourText.length_eq) hs
  have hsix (hs : s.length < 6) : readThree readPair s = none :=
    hpairs.eq_none (fun _ _ => ThreeText.length_eq fun _ _ => PairText.length_eq) hs
  rw [readDigitColor, Option.orElse_eq_orElse, Option.orElse_eq_or, Option.orElse_eq_or,
    Option.or_eq_some_iff, Option.or_eq_some_iff, reads_readFour.nil_iff, hpairs.nil_iff,
    hsingles.nil_iff]
  -- a longer form cannot be read where a shorter one is all that there is
  constructor
  · rintro (h | ⟨-, h | ⟨-, h⟩⟩)
    · exact .inl h
    · exact .inr (.inl h)
    · exact .inr (.inr h)
  · rintro (h | h | h)
    · exact .inl h
    · have hlength := h.length_eq fun _ _ => PairText.length_eq
      exact .inr ⟨hfour (by omega), .inl h⟩
    · have hlength := h.length_eq fun _ _ => SingleText.length_eq
      exact .inr ⟨hfour (by omega), .inr ⟨hsix (by omega), h⟩⟩

theorem afterWord?_append (t rest : List Char) : afterWord? (lowered t) (t ++ rest) = some rest := by
  induction t with
  | nil => rfl
  | cons c t ih => rw [lowered_cons, List.cons_append, afterWord?, if_pos rfl, ih]

theorem exists_of_afterWord? {word s rest : List Char} (h : afterWord? word s = some rest) :
    ∃ t, lowered t = word ∧ s = t ++ rest := by
  induction word generalizing s with
  | nil => exact ⟨[], rfl, Option.some.inj h⟩
  | cons w word ih =>
      cases s with
      | nil => cases h
      | cons c s =>
          rw [afterWord?] at h
          split at h
          · next hc =>
            obtain ⟨t, ht, rfl⟩ := ih h
            exact ⟨c :: t, by rw [lowered_cons, hc, ht], rfl⟩
          · cases h

/-- A word that leaves nothing is all of the text. -/
theorem afterWord?_eq_some_nil_iff {word s : List Char} :
    afterWord? word s = some [] ↔ lowered s = word := by
  constructor
  · intro h
    obtain ⟨t, ht, rfl⟩ := exists_of_afterWord? h
    rwa [List.append_nil]
  · rintro rfl
    simpa using afterWord?_append s []

theorem colorOf?_eq_some_iff_readColor {s : List Char} {c : Rgba} :
    colorOf? s = some c ↔ readColor s = some (c, []) := by
  rw [colorOf?]
  split
  · next hread => rw [hread]; simp
  · next hread =>
    refine iff_of_false nofun fun h => hread _ h

/-- Just the texts of a color are read as that color. -/
theorem colorOf?_eq_some_iff {s : List Char} {c : Rgba} : colorOf? s = some c ↔ ColorText c s := by
  rw [colorOf?_eq_some_iff_readColor]
  constructor
  · intro h
    unfold readColor at h
    split at h
    · next hword =>
      obtain ⟨rfl, rfl⟩ := Prod.mk.inj (Option.some.inj h)
      exact .transparent (afterWord?_eq_some_nil_iff.1 hword)
    · split at h
      · next hword =>
        obtain ⟨rfl, rfl⟩ := Prod.mk.inj (Option.some.inj h)
        exact .none (afterWord?_eq_some_nil_iff.1 hword)
      · split at h
        · rcases readDigitColor_eq_some_iff.1 h with h | h | h
          · exact .eight h
          · exact .six h
          · exact .three h
        · cases h
  · intro h
    cases h with
    | transparent h => simp only [readColor, afterWord?_eq_some_nil_iff.2 h, Rgba.transparent]
    | none h =>
        have hshort : afterWord? "transparent".toList s = none := by
          refine Option.eq_none_iff_forall_ne_some.2 fun rest hread => ?_
          obtain ⟨t, ht, rfl⟩ := exists_of_afterWord? hread
          have hword := congrArg List.length h
          have hlonger := congrArg List.length ht
          simp at hword hlonger
          omega
        simp only [readColor, hshort, afterWord?_eq_some_nil_iff.2 h, Rgba.transparent]
    | three h => exact readDigitColor_eq_some_iff.2 (.inr (.inr h))
    | six h => exact readDigitColor_eq_some_iff.2 (.inr (.inl h))
    | eight h => exact readDigitColor_eq_some_iff.2 (.inl h)

/-! ### Letter case -/

/-- Texts that differ in nothing but their case denote the same. -/
def CaseBlind {α : Type u} (Text : α → List Char → Prop) : Prop :=
  ∀ v s t, lowered s = lowered t → Text v s → Text v t

theorem HexDigit.of_toLower {n : Nat} {c d : Char} (h : HexDigit n c)
    (hcase : c.toLower = d.toLower) : HexDigit n d :=
  ⟨h.1, hcase ▸ h.2⟩

theorem exists_of_lowered_eq_append {s t u : List Char} (h : lowered (s ++ t) = lowered u) :
    ∃ s' t', u = s' ++ t' ∧ lowered s = lowered s' ∧ lowered t = lowered t' := by
  rw [lowered, List.map_append] at h
  obtain ⟨s', t', rfl, hs, ht⟩ := List.map_eq_append_iff.1 h.symm
  exact ⟨s', t', rfl, hs.symm, ht.symm⟩

theorem caseBlind_singleText : CaseBlind SingleText := by
  rintro _ _ t hcase ⟨hc⟩
  obtain ⟨c', t, rfl, hc', ht⟩ := List.map_eq_cons_iff.1 hcase.symm
  obtain rfl := List.map_eq_nil_iff.1 ht
  exact .mk (hc.of_toLower hc'.symm)

theorem caseBlind_pairText : CaseBlind PairText := by
  rintro _ _ t hcase ⟨hc, hd⟩
  obtain ⟨c', t, rfl, hc', ht⟩ := List.map_eq_cons_iff.1 hcase.symm
  obtain ⟨d', t, rfl, hd', ht⟩ := List.map_eq_cons_iff.1 ht
  obtain rfl := List.map_eq_nil_iff.1 ht
  exact .mk (hc.of_toLower hc'.symm) (hd.of_toLower hd'.symm)

theorem CaseBlind.threeText {Channel : Nat → List Char → Prop} (h : CaseBlind Channel) :
    CaseBlind (ThreeText Channel) := by
  rintro _ _ t hcase ⟨hr, hg, hb⟩
  obtain ⟨t, u, rfl, hcase, hu⟩ := exists_of_lowered_eq_append hcase
  obtain ⟨s, t, rfl, hs, ht⟩ := exists_of_lowered_eq_append hcase
  exact .mk (h _ _ _ hs hr) (h _ _ _ ht hg) (h _ _ _ hu hb)

theorem caseBlind_fourText : CaseBlind FourText := by
  have h := caseBlind_pairText
  rintro _ _ t hcase ⟨hr, hg, hb, ha⟩
  obtain ⟨t, v, rfl, hcase, hv⟩ := exists_of_lowered_eq_append hcase
  obtain ⟨t, u, rfl, hcase, hu⟩ := exists_of_lowered_eq_append hcase
  obtain ⟨s, t, rfl, hs, ht⟩ := exists_of_lowered_eq_append hcase
  exact .mk (h _ _ _ hs hr) (h _ _ _ ht hg) (h _ _ _ hu hb) (h _ _ _ hv ha)

theorem exists_of_lowered_eq_mark {s t : List Char} (h : lowered ('#' :: s) = lowered t) :
    ∃ t', t = '#' :: t' ∧ lowered s = lowered t' := by
  obtain ⟨c, t, rfl, hc, ht⟩ := List.map_eq_cons_iff.1 h.symm
  obtain rfl : c = '#' := eq_of_toLower_eq hc (by decide)
  exact ⟨t, rfl, ht.symm⟩

theorem caseBlind_colorText : CaseBlind ColorText := by
  intro c s t hcase h
  cases h with
  | transparent h => exact .transparent (hcase ▸ h)
  | none h => exact .none (hcase ▸ h)
  | three h =>
      obtain ⟨t, rfl, hdigits⟩ := exists_of_lowered_eq_mark hcase
      exact .three (caseBlind_singleText.threeText _ _ _ hdigits h)
  | six h =>
      obtain ⟨t, rfl, hdigits⟩ := exists_of_lowered_eq_mark hcase
      exact .six (caseBlind_pairText.threeText _ _ _ hdigits h)
  | eight h =>
      obtain ⟨t, rfl, hdigits⟩ := exists_of_lowered_eq_mark hcase
      exact .eight (caseBlind_fourText _ _ _ hdigits h)

/-! ### Colors with blanks around them -/

/-- None of the texts holds a blank. -/
def WithoutBlanks {α : Type u} (Text : α → List Char → Prop) : Prop :=
  ∀ v s, Text v s → ∀ c ∈ s, isBlank c = false

theorem HexDigit.isBlank {n : Nat} {c : Char} (h : HexDigit n c) : isBlank c = false := by
  have hdigits : ∀ n < 16, DisplayList.isBlank (Nat.digitChar n) = false := by decide
  rw [← isBlank_toLower, h.2, hdigits n h.1]

theorem withoutBlanks_singleText : WithoutBlanks SingleText := by
  rintro _ _ ⟨hc⟩
  exact List.forall_mem_singleton.2 hc.isBlank

theorem withoutBlanks_pairText : WithoutBlanks PairText := by
  rintro _ _ ⟨hc, hd⟩
  exact List.forall_mem_cons.2 ⟨hc.isBlank, List.forall_mem_singleton.2 hd.isBlank⟩

theorem WithoutBlanks.threeText {Channel : Nat → List Char → Prop} (h : WithoutBlanks Channel) :
    WithoutBlanks (ThreeText Channel) := by
  rintro _ _ ⟨hr, hg, hb⟩
  exact List.forall_mem_append.2 ⟨List.forall_mem_append.2 ⟨h _ _ hr, h _ _ hg⟩, h _ _ hb⟩

theorem withoutBlanks_fourText : WithoutBlanks FourText := by
  have h := withoutBlanks_pairText
  rintro _ _ ⟨hr, hg, hb, ha⟩
  exact List.forall_mem_append.2 ⟨List.forall_mem_append.2
    ⟨List.forall_mem_append.2 ⟨h _ _ hr, h _ _ hg⟩, h _ _ hb⟩, h _ _ ha⟩

theorem notBlank_of_lowered {s : List Char} (h : ∀ c ∈ lowered s, isBlank c = false) :
    ∀ c ∈ s, isBlank c = false := by
  intro c hc
  rw [← isBlank_toLower]
  exact h _ (List.mem_map_of_mem hc)

theorem withoutBlanks_colorText : WithoutBlanks ColorText := by
  have hmark {s : List Char} (h : ∀ c ∈ s, isBlank c = false) :
      ∀ c ∈ '#' :: s, isBlank c = false :=
    List.forall_mem_cons.2 ⟨by decide, h⟩
  intro c s h
  cases h with
  | transparent h | none h =>
      have hword : (lowered s).any isBlank = false := by rw [h]; decide
      exact notBlank_of_lowered fun c hc => Bool.eq_false_iff.2 (List.any_eq_false.1 hword c hc)
  | three h => exact hmark (withoutBlanks_singleText.threeText _ _ h)
  | six h => exact hmark (withoutBlanks_pairText.threeText _ _ h)
  | eight h => exact hmark (withoutBlanks_fourText _ _ h)

namespace Rgba

theorem parse?_eq_some {s : String} {c : Rgba} :
    parse? s = some c ↔ ColorText c (trim s.toList) :=
  colorOf?_eq_some_iff

theorem parse?_eq_some_iff_exists {s : String} {c : Rgba} :
    parse? s = some c ↔ ∃ before text after, s.toList = before ++ text ++ after ∧
      (∀ ch ∈ before, ch.toNat ∈ whiteSpace) ∧ (∀ ch ∈ after, ch.toNat ∈ whiteSpace) ∧
      ColorText c text := by
  simp only [← isBlank_iff]
  rw [parse?_eq_some]
  constructor
  · intro h
    obtain ⟨before, after, hs, hbefore, hafter⟩ := exists_eq_append_trim s.toList
    exact ⟨before, _, after, hs, hbefore, hafter, h⟩
  · rintro ⟨before, text, after, hs, hbefore, hafter, h⟩
    rwa [hs, trim_blank_append_blank hbefore hafter,
      trim_of_notBlank (withoutBlanks_colorText _ _ h)]

theorem parse?_of_colorText {s : List Char} {c : Rgba} (h : ColorText c s) :
    parse? (String.ofList s) = some c := by
  rwa [parse?_eq_some, String.toList_ofList, trim_of_notBlank (withoutBlanks_colorText _ _ h)]

theorem parse?_of_lowered_eq {s t : String} (h : lowered s.toList = lowered t.toList) :
    parse? s = parse? t := by
  have htrim : lowered (trim s.toList) = lowered (trim t.toList) := by
    rw [← trim_lowered, h, trim_lowered]
  refine Option.ext fun c => ?_
  rw [parse?_eq_some, parse?_eq_some]
  exact ⟨caseBlind_colorText _ _ _ htrim, caseBlind_colorText _ _ _ htrim.symm⟩

/-- Just the texts of a color, with or without white space at their ends, are read as it. Digits
that are doubled give the same color, and so do digits with those of a full opacity behind them, and
texts that differ in nothing but their case. -/
theorem parse?_decided :
    (∀ (s : String) (c : Rgba), parse? s = some c ↔
        ∃ before text after, s.toList = before ++ text ++ after ∧
          (∀ ch ∈ before, ch.toNat ∈ whiteSpace) ∧ (∀ ch ∈ after, ch.toNat ∈ whiteSpace) ∧
          ColorText c text) ∧
      (∀ (r g b : Nat) (x y z : Char), HexDigit r x → HexDigit g y → HexDigit b z →
        ∃ c : Rgba,
          c = ⟨Float.ofNat (16 * r + r) / 255, Float.ofNat (16 * g + g) / 255,
            Float.ofNat (16 * b + b) / 255, Float.ofNat 255 / 255⟩ ∧
          parse? (String.ofList ['#', x, y, z]) = some c ∧
          parse? (String.ofList ['#', x, x, y, y, z, z]) = some c ∧
          parse? (String.ofList ['#', x, x, y, y, z, z, 'f', 'f']) = some c) ∧
      ∀ s t : String, lowered s.toList = lowered t.toList → parse? s = parse? t := by
  refine ⟨fun s c => parse?_eq_some_iff_exists, fun r g b x y z hx hy hz => ⟨_, rfl, ?_, ?_, ?_⟩,
    fun s t => parse?_of_lowered_eq⟩
  · have h : ThreeText SingleText _ ([x] ++ [y] ++ [z]) := .mk (.mk hx) (.mk hy) (.mk hz)
    exact parse?_of_colorText (.three h)
  · have h : ThreeText PairText _ ([x, x] ++ [y, y] ++ [z, z]) :=
      .mk (.mk hx hx) (.mk hy hy) (.mk hz hz)
    exact parse?_of_colorText (.six h)
  · have hf : HexDigit 15 'f' := ⟨by decide, rfl⟩
    have h : FourText _ ([x, x] ++ [y, y] ++ [z, z] ++ ['f', 'f']) :=
      .mk (.mk hx hx) (.mk hy hy) (.mk hz hz) (.mk hf hf)
    exact parse?_of_colorText (.eight h)

/-- Three, six and eight digits that give one color, blanks before and behind a text, a text in
another case, and one with a digit too many. -/
theorem parse?_decided_orange :
    let orange : Rgba :=
      ⟨Float.ofNat 255 / 255, Float.ofNat 170 / 255, Float.ofNat 0 / 255, Float.ofNat 255 / 255⟩
    HexDigit 15 'F' ∧ HexDigit 10 'a' ∧ HexDigit 0 '0' ∧ parse? "#Fa0" = some orange ∧
      parse? "#FFaa00" = some orange ∧ parse? "#FFaa00ff" = some orange ∧
      parse? "\t#Fa0 \n" = some orange ∧
      lowered "\t#fA0 \n".toList = lowered "\t#Fa0 \n".toList ∧
      parse? "\t#fA0 \n" = some orange ∧ parse? "#Fa0f" = none := by
  intro orange
  have hF : HexDigit 15 'F' := ⟨by decide, rfl⟩
  have ha : HexDigit 10 'a' := ⟨by decide, rfl⟩
  have h0 : HexDigit 0 '0' := ⟨by decide, rfl⟩
  have hcase : lowered "\t#fA0 \n".toList = lowered "\t#Fa0 \n".toList := by decide
  have hdigits : ThreeText SingleText orange (['F'] ++ ['a'] ++ ['0']) :=
    .mk (.mk hF) (.mk ha) (.mk h0)
  have hbefore : ∀ ch ∈ ['\t'], ch.toNat ∈ whiteSpace := List.forall_mem_singleton.2 (by decide)
  have hafter : ∀ ch ∈ [' ', '\n'], ch.toNat ∈ whiteSpace :=
    List.forall_mem_cons.2 ⟨by decide, List.forall_mem_singleton.2 (by decide)⟩
  have hblanks : parse? "\t#Fa0 \n" = some orange :=
    (parse?_decided.1 _ _).2 ⟨['\t'], _, [' ', '\n'], rfl, hbefore, hafter, .three hdigits⟩
  obtain ⟨c, rfl, hthree, hsix, height⟩ := parse?_decided.2.1 15 10 0 'F' 'a' '0' hF ha h0
  exact ⟨hF, ha, h0, hthree, hsix, height, hblanks, hcase,
    (parse?_decided.2.2 _ _ hcase).trans hblanks, by decide⟩

end Rgba

end DisplayList
