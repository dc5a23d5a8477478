import DisplayList.Number.Decimal

/-!
# Reading a number at the front of a text

A number is an optional sign and then one of the words `infinity`, `inf` and `nan` in any case, or
digits with an optional point among them and an optional exponent. An exponent mark without digits
after it spoils the whole number. `readNumber` takes the longest number at the front and leaves the
rest; `parseNumber` wants nothing to be left.
-/

namespace DisplayList

/-- What is left of a text after a word, which matches in any case. -/
def afterWord? : (word : List Char) → List Char → Option (List Char)
  | [], rest => some rest
  | _ :: _, [] => none
  | w :: word, c :: rest => if c.toLower = w then afterWord? word rest else none

/-- Whether a sign is negative, and what follows it. Without a sign a number is positive. -/
def readSign : List Char → Bool × List Char
  | '-' :: rest => (true, rest)
  | '+' :: rest => (false, rest)
  | rest => (false, rest)

/-- The digits at the front of a text, and what follows them. -/
def readDigits (s : List Char) : List Char × List Char :=
  (s.takeWhile Char.isDigit, s.dropWhile Char.isDigit)

/-- The power of ten after the mark `e`, if at least one digit follows. -/
def readExponent : List Char → Option (Int × List Char)
  | c :: rest =>
    if c = 'e' ∨ c = 'E' then
      let (negative, rest) := readSign rest
      let (digits, rest) := readDigits rest
      let power : Int := Nat.ofDigitChars 10 digits 0
      if digits = [] then none else some (if negative then -power else power, rest)
    else some (0, c :: rest)
  | [] => some (0, [])

/-- The digits behind a point, if there is one. -/
def readFraction : List Char → List Char × List Char
  | '.' :: rest => readDigits rest
  | rest => ([], rest)

/-- A decimal without a sign, and what follows it. -/
def readDecimal (s : List Char) : Option (Decimal × List Char) :=
  let (whole, rest) := readDigits s
  let (fraction, rest) := readFraction rest
  if whole = [] ∧ fraction = [] then none
  else (readExponent rest).map fun (power, rest) =>
    (⟨Nat.ofDigitChars 10 (whole ++ fraction) 0, power - fraction.length⟩, rest)

/-- The pattern of an unsigned number, and what follows it. -/
def readMagnitude (s : List Char) : Option (Nat × List Char) :=
  if let some rest := afterWord? "infinity".toList s then some (Binary64.infinity, rest)
  else if let some rest := afterWord? "inf".toList s then some (Binary64.infinity, rest)
  else if let some rest := afterWord? "nan".toList s then some (Binary64.notANumber, rest)
  else (readDecimal s).map fun (d, rest) => (d.magnitude, rest)

/-- The number at the front of a text, and what follows it. -/
def readNumber (s : List Char) : Option (Float × List Char) :=
  let (negative, rest) := readSign s
  (readMagnitude rest).map fun (bits, rest) => (Binary64.ofMagnitude negative bits, rest)

section Length

theorem afterWord?_length : ∀ {word s rest : List Char}, afterWord? word s = some rest →
    rest.length + word.length = s.length
  | [], _, _, h => by simp_all [afterWord?]
  | _ :: _, [], _, h => by simp [afterWord?] at h
  | w :: word, c :: s, rest, h => by
    simp only [afterWord?] at h
    split at h
    · have := afterWord?_length h
      simp only [List.length_cons]; omega
    · simp at h

theorem afterWord?_length_lt {word s rest : List Char} (hne : word ≠ [])
    (h : afterWord? word s = some rest) : rest.length < s.length := by
  have := afterWord?_length h
  have := List.length_pos_iff.2 hne
  omega

theorem readSign_length (s : List Char) : (readSign s).2.length ≤ s.length := by
  unfold readSign
  split <;> simp

theorem readDigits_length (s : List Char) :
    (readDigits s).1.length + (readDigits s).2.length = s.length := by
  rw [← List.length_append, readDigits, List.takeWhile_append_dropWhile]

theorem readFraction_length (s : List Char) :
    (readFraction s).1.length + (readFraction s).2.length ≤ s.length := by
  unfold readFraction
  split
  · next rest => have := readDigits_length rest; simp only [List.length_cons]; omega
  · simp

theorem readExponent_length {s rest : List Char} {power : Int}
    (h : readExponent s = some (power, rest)) : rest.length ≤ s.length := by
  unfold readExponent at h
  split at h
  · next c tail =>
    split at h
    · have h₁ := readSign_length tail
      have h₂ := readDigits_length (readSign tail).2
      simp only [Option.ite_none_left_eq_some, Option.some.injEq, Prod.mk.injEq] at h
      obtain ⟨_, _, rfl⟩ := h
      simp only [List.length_cons]; omega
    · simp_all
  · simp_all

theorem readDecimal_length {s rest : List Char} {d : Decimal}
    (h : readDecimal s = some (d, rest)) : rest.length < s.length := by
  simp only [readDecimal, Option.ite_none_left_eq_some, Option.map_eq_some_iff,
    Prod.mk.injEq, Prod.exists] at h
  obtain ⟨hd, _, _, he, _, rfl⟩ := h
  have h₁ := readDigits_length s
  have h₂ := readFraction_length (readDigits s).2
  have h₃ := readExponent_length he
  have h₄ : 0 < (readDigits s).1.length ∨ 0 < (readFraction (readDigits s).2).1.length := by
    rw [List.length_pos_iff, List.length_pos_iff]
    exact Classical.not_and_iff_not_or_not.1 hd
  omega

theorem readMagnitude_length {s rest : List Char} {bits : Nat}
    (h : readMagnitude s = some (bits, rest)) : rest.length < s.length := by
  unfold readMagnitude at h
  split at h
  · next hw =>
    obtain ⟨_, rfl⟩ : _ ∧ _ = rest := by simpa using h
    exact afterWord?_length_lt (by simp) hw
  · split at h
    · next hw =>
      obtain ⟨_, rfl⟩ : _ ∧ _ = rest := by simpa using h
      exact afterWord?_length_lt (by simp) hw
    · split at h
      · next hw =>
        obtain ⟨_, rfl⟩ : _ ∧ _ = rest := by simpa using h
        exact afterWord?_length_lt (by simp) hw
      · simp only [Option.map_eq_some_iff, Prod.mk.injEq, Prod.exists] at h
        obtain ⟨_, _, hd, _, rfl⟩ := h
        exact readDecimal_length hd

/-- A number takes up at least one character. -/
theorem readNumber_length {s rest : List Char} {x : Float}
    (h : readNumber s = some (x, rest)) : rest.length < s.length := by
  simp only [readNumber, Option.map_eq_some_iff, Prod.mk.injEq, Prod.exists] at h
  obtain ⟨_, _, hm, _, rfl⟩ := h
  have h₁ := readMagnitude_length hm
  have h₂ := readSign_length s
  omega

end Length

/-- The number that a text is as a whole. -/
def parseNumber (s : String) : Option Float :=
  match readNumber s.toList with
  | some (x, []) => some x
  | _ => none

end DisplayList
