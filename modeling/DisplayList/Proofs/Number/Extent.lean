import DisplayList.Number.Reader
import Mathlib.Data.Bool.AllAny
import Mathlib.Data.List.Infix

/-!
# How far a number reaches

Reading a number never goes past a space or a tab and stops at the same place whether or not one
follows: `readNumber_append_gap`. What it leaves is an end of what it was given,
`readNumber_suffix`, so a number that is read to a gap is all of what stands in front of the gap,
`readNumber_eq_iff`.
-/

namespace DisplayList

/-- What ends an argument: nothing, or a space or a tab and more. -/
def AtGap (rest : List Char) : Prop :=
  rest = [] ∨ ∃ more, rest = ' ' :: more ∨ rest = '\t' :: more

section Gap

variable {rest : List Char}

theorem takeWhile_append_gap {p : Char → Bool} (hp : rest.takeWhile p = []) (s : List Char) :
    (s ++ rest).takeWhile p = s.takeWhile p := by
  induction s with
  | nil => exact hp
  | cons c s ih =>
      rw [List.cons_append, List.takeWhile_cons, List.takeWhile_cons, ih]

theorem dropWhile_append_gap {p : Char → Bool} (hp : rest.takeWhile p = []) (s : List Char) :
    (s ++ rest).dropWhile p = s.dropWhile p ++ rest := by
  have hwhole := List.takeWhile_append_dropWhile (p := p) (l := s ++ rest)
  rw [takeWhile_append_gap hp] at hwhole
  apply (List.append_right_inj (s.takeWhile p)).1
  rw [hwhole, ← List.append_assoc, List.takeWhile_append_dropWhile]

theorem readDigits_append_gap (h : AtGap rest) (s : List Char) :
    readDigits (s ++ rest) = ((readDigits s).1, (readDigits s).2 ++ rest) := by
  have hdigits : rest.takeWhile Char.isDigit = [] := by
    rcases h with rfl | ⟨more, rfl | rfl⟩ <;> rfl
  rw [readDigits, takeWhile_append_gap hdigits, dropWhile_append_gap hdigits]
  rfl

theorem readSign_cons_of_ne {c : Char} (hminus : c ≠ '-') (hplus : c ≠ '+') (s : List Char) :
    readSign (c :: s) = (false, c :: s) := by
  rw [readSign]
  · exact fun _ h => hminus (List.cons.inj h).1
  · exact fun _ h => hplus (List.cons.inj h).1

theorem readSign_append_gap (h : AtGap rest) (s : List Char) :
    readSign (s ++ rest) = ((readSign s).1, (readSign s).2 ++ rest) := by
  cases s with
  | nil => rcases h with rfl | ⟨more, rfl | rfl⟩ <;> rfl
  | cons c s =>
      by_cases hminus : c = '-'
      · subst hminus
        rfl
      · by_cases hplus : c = '+'
        · subst hplus
          rfl
        · rw [List.cons_append, readSign_cons_of_ne hminus hplus,
            readSign_cons_of_ne hminus hplus]
          rfl

theorem readFraction_cons_of_ne {c : Char} (hpoint : c ≠ '.') (s : List Char) :
    readFraction (c :: s) = ([], c :: s) := by
  rw [readFraction]
  exact fun _ h => hpoint (List.cons.inj h).1

theorem readFraction_append_gap (h : AtGap rest) (s : List Char) :
    readFraction (s ++ rest) = ((readFraction s).1, (readFraction s).2 ++ rest) := by
  cases s with
  | nil => rcases h with rfl | ⟨more, rfl | rfl⟩ <;> rfl
  | cons c s =>
      by_cases hpoint : c = '.'
      · subst hpoint
        exact readDigits_append_gap h s
      · rw [List.cons_append, readFraction_cons_of_ne hpoint, readFraction_cons_of_ne hpoint]
        rfl

theorem readExponent_append_gap (h : AtGap rest) (s : List Char) :
    readExponent (s ++ rest) =
      (readExponent s).map fun (power, left) => (power, left ++ rest) := by
  cases s with
  | nil => rcases h with rfl | ⟨more, rfl | rfl⟩ <;> rfl
  | cons c s =>
      rw [List.cons_append, readExponent, readExponent]
      by_cases hmark : c = 'e' ∨ c = 'E'
      · simp only [if_pos hmark, readSign_append_gap h, readDigits_append_gap h]
        by_cases hnone : (readDigits (readSign s).2).1 = []
        · rw [if_pos hnone, if_pos hnone, Option.map_none]
        · rw [if_neg hnone, if_neg hnone, Option.map_some]
      · rw [if_neg hmark, if_neg hmark]
        rfl

theorem readDecimal_append_gap (h : AtGap rest) (s : List Char) :
    readDecimal (s ++ rest) = (readDecimal s).map fun (d, left) => (d, left ++ rest) := by
  simp only [readDecimal, readDigits_append_gap h, readFraction_append_gap h,
    readExponent_append_gap h]
  by_cases hnone : (readDigits s).1 = [] ∧ (readFraction (readDigits s).2).1 = []
  · rw [if_pos hnone, if_pos hnone, Option.map_none]
  · rw [if_neg hnone, if_neg hnone, Option.map_map, Option.map_map]
    rfl

theorem afterWord?_append_gap (h : AtGap rest) {word : List Char}
    (hword : ∀ w ∈ word, w ≠ ' ' ∧ w ≠ '\t') (s : List Char) :
    afterWord? word (s ++ rest) = (afterWord? word s).map (· ++ rest) := by
  induction word generalizing s with
  | nil => rfl
  | cons w word ih =>
      obtain ⟨⟨hspace, htab⟩, hword⟩ := List.forall_mem_cons.1 hword
      cases s with
      | nil =>
          rcases h with rfl | ⟨more, rfl | rfl⟩
          · rfl
          · exact if_neg (Ne.symm hspace)
          · exact if_neg (Ne.symm htab)
      | cons c s =>
          rw [List.cons_append, afterWord?, afterWord?]
          by_cases hc : c.toLower = w
          · rw [if_pos hc, if_pos hc, ih hword]
          · rw [if_neg hc, if_neg hc, Option.map_none]

theorem readMagnitude_append_gap (h : AtGap rest) (s : List Char) :
    readMagnitude (s ++ rest) = (readMagnitude s).map fun (bits, left) => (bits, left ++ rest) := by
  have hinfinity : ∀ w ∈ "infinity".toList, w ≠ ' ' ∧ w ≠ '\t' :=
    List.all_iff_forall_prop.1 (by decide)
  have hinf : ∀ w ∈ "inf".toList, w ≠ ' ' ∧ w ≠ '\t' := List.all_iff_forall_prop.1 (by decide)
  have hnan : ∀ w ∈ "nan".toList, w ≠ ' ' ∧ w ≠ '\t' := List.all_iff_forall_prop.1 (by decide)
  rw [readMagnitude, readMagnitude, afterWord?_append_gap h hinfinity,
    afterWord?_append_gap h hinf, afterWord?_append_gap h hnan, readDecimal_append_gap h]
  cases afterWord? "infinity".toList s with
  | some left => rfl
  | none =>
      cases afterWord? "inf".toList s with
      | some left => rfl
      | none =>
          cases afterWord? "nan".toList s with
          | some left => rfl
          | none => cases readDecimal s <;> rfl

/-- A number never goes past a space or a tab, and stops at the same place whether or not one
follows. -/
theorem readNumber_append_gap (h : AtGap rest) (s : List Char) :
    readNumber (s ++ rest) = (readNumber s).map fun (x, left) => (x, left ++ rest) := by
  simp only [readNumber, readSign_append_gap h, readMagnitude_append_gap h]
  cases readMagnitude (readSign s).2 <;> rfl

end Gap

section Suffix

theorem readSign_suffix (s : List Char) : (readSign s).2 <:+ s := by
  fun_cases readSign s
  · exact List.suffix_cons '-' _
  · exact List.suffix_cons '+' _
  · exact List.suffix_rfl

theorem readDigits_suffix (s : List Char) : (readDigits s).2 <:+ s :=
  List.dropWhile_suffix Char.isDigit

theorem readFraction_suffix (s : List Char) : (readFraction s).2 <:+ s := by
  fun_cases readFraction s
  · next rest => exact (readDigits_suffix rest).trans (List.suffix_cons '.' rest)
  · exact List.suffix_rfl

variable {s rest : List Char}

theorem readExponent_suffix {power : Int} (h : readExponent s = some (power, rest)) :
    rest <:+ s := by
  cases s with
  | nil =>
      rw [readExponent, Option.some.injEq, Prod.mk.injEq] at h
      exact h.2 ▸ List.suffix_rfl
  | cons c s =>
      rw [readExponent] at h
      by_cases hmark : c = 'e' ∨ c = 'E'
      · rw [if_pos hmark] at h
        simp only [Option.ite_none_left_eq_some, Option.some.injEq, Prod.mk.injEq] at h
        obtain ⟨-, -, rfl⟩ := h
        exact ((readDigits_suffix _).trans (readSign_suffix s)).trans (List.suffix_cons c s)
      · rw [if_neg hmark, Option.some.injEq, Prod.mk.injEq] at h
        exact h.2 ▸ List.suffix_rfl

theorem readDecimal_suffix {d : Decimal} (h : readDecimal s = some (d, rest)) : rest <:+ s := by
  simp only [readDecimal, Option.ite_none_left_eq_some, Option.map_eq_some_iff,
    Prod.mk.injEq, Prod.exists] at h
  obtain ⟨-, power, left, hread, -, rfl⟩ := h
  exact ((readExponent_suffix hread).trans (readFraction_suffix _)).trans (readDigits_suffix s)

theorem afterWord?_suffix {word : List Char} (h : afterWord? word s = some rest) :
    rest <:+ s := by
  induction word generalizing s with
  | nil => exact Option.some.inj h ▸ List.suffix_rfl
  | cons w word ih =>
      cases s with
      | nil => exact absurd h.symm (Option.some_ne_none rest)
      | cons c s =>
          rw [afterWord?, Option.ite_none_right_eq_some] at h
          exact (ih h.2).trans (List.suffix_cons c s)

theorem readMagnitude_suffix {bits : Nat} (h : readMagnitude s = some (bits, rest)) :
    rest <:+ s := by
  unfold readMagnitude at h
  split at h
  · next hword => exact (Prod.mk.inj (Option.some.inj h)).2 ▸ afterWord?_suffix hword
  · split at h
    · next hword => exact (Prod.mk.inj (Option.some.inj h)).2 ▸ afterWord?_suffix hword
    · split at h
      · next hword => exact (Prod.mk.inj (Option.some.inj h)).2 ▸ afterWord?_suffix hword
      · obtain ⟨⟨d, left⟩, hread, heq⟩ := Option.map_eq_some_iff.1 h
        exact (Prod.mk.inj heq).2 ▸ readDecimal_suffix hread

theorem readNumber_suffix {x : Float} (h : readNumber s = some (x, rest)) : rest <:+ s := by
  obtain ⟨⟨bits, left⟩, hread, heq⟩ := Option.map_eq_some_iff.1 h
  exact (Prod.mk.inj heq).2 ▸ (readMagnitude_suffix hread).trans (readSign_suffix s)

end Suffix

/-- A number reaches up to a gap just where all that stands in front of the gap is the number. -/
theorem readNumber_eq_iff {t rest : List Char} (h : AtGap rest) (x : Float) :
    readNumber t = some (x, rest) ↔ ∃ run, readNumber run = some (x, []) ∧ t = run ++ rest := by
  constructor
  · intro hread
    obtain ⟨run, rfl⟩ := readNumber_suffix hread
    rw [readNumber_append_gap h, Option.map_eq_some_iff] at hread
    obtain ⟨⟨y, left⟩, hread, heq⟩ := hread
    obtain ⟨rfl, hleft⟩ := Prod.mk.inj heq
    rw [List.append_left_eq_self.1 hleft] at hread
    exact ⟨run, hread, rfl⟩
  · rintro ⟨run, hread, rfl⟩
    rw [readNumber_append_gap h, hread]
    rfl

/-- No space and no tab stands in a text that is a number as a whole. -/
theorem ne_of_mem_of_readNumber {run : List Char} {x : Float}
    (h : readNumber run = some (x, [])) : ∀ c ∈ run, c ≠ ' ' ∧ c ≠ '\t' := by
  have hgap : ∀ front more, AtGap more → run = front ++ more → more = [] := by
    rintro front more hmore rfl
    rw [readNumber_append_gap hmore, Option.map_eq_some_iff] at h
    obtain ⟨⟨y, left⟩, -, heq⟩ := h
    exact (List.append_eq_nil_iff.1 (Prod.mk.inj heq).2).2
  intro c hc
  obtain ⟨front, more, hrun⟩ := List.append_of_mem hc
  constructor
  · rintro rfl
    exact absurd (hgap front _ (.inr ⟨more, .inl rfl⟩) hrun) (List.cons_ne_nil _ more)
  · rintro rfl
    exact absurd (hgap front _ (.inr ⟨more, .inr rfl⟩) hrun) (List.cons_ne_nil _ more)

end DisplayList
