import DisplayList.Number.Reader
import DisplayList.Proofs.Number.Pattern
import DisplayList.Proofs.Number.Shortest
import DisplayList.Number.Text

/-!
# Reading back a written number

A number that is written and then read is the same number, and reading stops exactly behind its
text if nothing or a space follows: `readNumber_numberText`. The digits of a decimal, with the point
wherever it stands, read back as a decimal of the same magnitude, so the shortest decimal of a
magnitude leads back to it.
-/

namespace DisplayList

/-- What may stand behind an argument: nothing, or a space and more. -/
def AtBreak (rest : List Char) : Prop := rest = [] ∨ ∃ more, rest = ' ' :: more

section Digits

variable {digits whole fraction rest : List Char}

theorem readDigits_append (hdigits : ∀ c ∈ digits, c.isDigit = true)
    (hrest : rest.takeWhile Char.isDigit = []) : readDigits (digits ++ rest) = (digits, rest) := by
  have hdrop : rest.dropWhile Char.isDigit = rest := by
    rw [← List.nil_append (rest.dropWhile Char.isDigit), ← hrest,
      List.takeWhile_append_dropWhile]
  rw [readDigits, List.takeWhile_append_of_pos hdigits, List.dropWhile_append_of_pos hdigits,
    hrest, hdrop, List.append_nil]

theorem takeWhile_isDigit_of_atBreak (h : AtBreak rest) : rest.takeWhile Char.isDigit = [] := by
  rcases h with rfl | ⟨more, rfl⟩ <;> rfl

theorem readFraction_of_atBreak (h : AtBreak rest) : readFraction rest = ([], rest) := by
  rcases h with rfl | ⟨more, rfl⟩ <;> rfl

theorem readExponent_of_atBreak (h : AtBreak rest) : readExponent rest = some (0, rest) := by
  rcases h with rfl | ⟨more, rfl⟩ <;> rfl

theorem readDecimal_whole (hne : digits ≠ []) (hdigits : ∀ c ∈ digits, c.isDigit = true)
    (h : AtBreak rest) :
    readDecimal (digits ++ rest) = some (⟨Nat.ofDigitChars 10 digits 0, 0⟩, rest) := by
  rw [readDecimal, readDigits_append hdigits (takeWhile_isDigit_of_atBreak h)]
  simp [readFraction_of_atBreak h, readExponent_of_atBreak h, hne]

theorem readDecimal_point (hne : whole ≠ []) (hwhole : ∀ c ∈ whole, c.isDigit = true)
    (hfraction : ∀ c ∈ fraction, c.isDigit = true) (h : AtBreak rest) :
    readDecimal (whole ++ '.' :: (fraction ++ rest)) =
      some (⟨Nat.ofDigitChars 10 (whole ++ fraction) 0, -fraction.length⟩, rest) := by
  have hpoint : readDigits (whole ++ '.' :: (fraction ++ rest)) =
      (whole, '.' :: (fraction ++ rest)) := readDigits_append hwhole rfl
  have hbehind := readDigits_append hfraction (takeWhile_isDigit_of_atBreak h)
  rw [readDecimal, hpoint]
  simp [readFraction, hbehind, readExponent_of_atBreak h, hne]

end Digits

namespace Decimal

theorem isDigit_of_mem_toDigits {n : Nat} : ∀ c ∈ Nat.toDigits 10 n, c.isDigit = true :=
  fun _ hc => Nat.isDigit_of_mem_toDigits (by decide) (by decide) hc

theorem isDigit_of_mem_replicate {n : Nat} : ∀ c ∈ List.replicate n '0', c.isDigit = true := by
  intro c hc
  rw [List.eq_of_mem_replicate hc]
  rfl

theorem toDigits_shift {n : Nat} (hn : 0 < n) (e : Nat) :
    Nat.toDigits 10 (10 ^ e * n) = Nat.toDigits 10 n ++ List.replicate e '0' := by
  induction e with
  | zero => rw [Nat.pow_zero, Nat.one_mul, List.replicate_zero, List.append_nil]
  | succ e ih =>
      have hpos : 0 < 10 ^ e * n := Nat.mul_pos (Nat.pow_pos (by decide)) hn
      have hstep : 10 ^ (e + 1) * n = 10 * (10 ^ e * n) + 0 := by
        rw [Nat.pow_succ, Nat.mul_comm (10 ^ e) 10, Nat.mul_assoc, Nat.add_zero]
      rw [hstep, ← Nat.toDigits_append_toDigits (by decide) hpos (by decide), ih,
        Nat.toDigits_zero, List.append_assoc, ← List.replicate_succ']

theorem magnitude_whole (c e : Nat) :
    (⟨c, e⟩ : Decimal).magnitude =
      if c = 0 then 0
      else if 310 < (⟨c, e⟩ : Decimal).order then Binary64.infinity
      else if (⟨c, e⟩ : Decimal).order < -330 then 0
      else Binary64.nearest (c * Nat.pow 10 e) 1 := rfl

/-- Zeros at the end of the digits are as good as a power of ten. -/
theorem magnitude_shift (c e : Nat) :
    (⟨10 ^ e * c, (0 : Nat)⟩ : Decimal).magnitude = (⟨c, e⟩ : Decimal).magnitude := by
  rw [magnitude_whole, magnitude_whole]
  rcases Nat.eq_zero_or_pos c with rfl | hpos
  · rw [Nat.mul_zero, if_pos rfl, if_pos rfl]
  · have hne : 10 ^ e * c ≠ 0 := Nat.ne_of_gt (Nat.mul_pos (Nat.pow_pos (by decide)) hpos)
    have horder : (⟨10 ^ e * c, (0 : Nat)⟩ : Decimal).order = (⟨c, e⟩ : Decimal).order := by
      simp only [order, toDigits_shift hpos, List.length_append, List.length_replicate]
      omega
    have hvalue : 10 ^ e * c * Nat.pow 10 0 = c * Nat.pow 10 e := by
      rw [Nat.mul_comm (10 ^ e)]
      exact Nat.mul_one (c * 10 ^ e)
    rw [horder, hvalue, if_neg hne, if_neg (Nat.ne_of_gt hpos)]

/-- Digits, perhaps with a point among them, whose magnitude is that of a decimal. -/
inductive Spelled (d : Decimal) : List Char → Prop
  | whole {digits : List Char} (hne : digits ≠ []) (hdigits : ∀ c ∈ digits, c.isDigit = true)
      (hvalue : (⟨Nat.ofDigitChars 10 digits 0, (0 : Nat)⟩ : Decimal).magnitude = d.magnitude) :
      Spelled d digits
  | point {whole fraction : List Char} (hne : whole ≠ []) (hwhole : ∀ c ∈ whole, c.isDigit = true)
      (hfraction : ∀ c ∈ fraction, c.isDigit = true)
      (hvalue : (⟨Nat.ofDigitChars 10 (whole ++ fraction) 0, -fraction.length⟩ : Decimal) = d) :
      Spelled d (whole ++ '.' :: fraction)

theorem spelled_zeros (c e : Nat) :
    Spelled ⟨c, e⟩ (Nat.toDigits 10 c ++ List.replicate e '0') := by
  apply Spelled.whole
  · exact List.append_ne_nil_of_left_ne_nil (List.ne_nil_of_length_pos Nat.length_toDigits_pos) _
  · intro d hd
    rcases List.mem_append.1 hd with hd | hd
    · exact isDigit_of_mem_toDigits d hd
    · exact isDigit_of_mem_replicate d hd
  · rw [Nat.ofDigitChars_append, Nat.ofDigitChars_ten_toDigits, Nat.ofDigitChars_replicate_zero]
    exact magnitude_shift c e

theorem spelled_cut (c : Nat) {places : Nat} (h : places < (Nat.toDigits 10 c).length) :
    Spelled ⟨c, -places⟩ ((Nat.toDigits 10 c).take ((Nat.toDigits 10 c).length - places) ++
      '.' :: (Nat.toDigits 10 c).drop ((Nat.toDigits 10 c).length - places)) := by
  apply Spelled.point
  · apply List.ne_nil_of_length_pos
    rw [List.length_take]
    omega
  · exact fun d hd => isDigit_of_mem_toDigits d (List.mem_of_mem_take hd)
  · exact fun d hd => isDigit_of_mem_toDigits d (List.mem_of_mem_drop hd)
  · rw [List.take_append_drop, Nat.ofDigitChars_ten_toDigits, List.length_drop,
      Nat.sub_sub_self (Nat.le_of_lt h)]

theorem spelled_small (c : Nat) {places : Nat} (h : (Nat.toDigits 10 c).length ≤ places) :
    Spelled ⟨c, -places⟩ (['0'] ++ '.' ::
      (List.replicate (places - (Nat.toDigits 10 c).length) '0' ++ Nat.toDigits 10 c)) := by
  apply Spelled.point
  · exact List.cons_ne_nil '0' []
  · exact List.forall_mem_singleton.2 rfl
  · intro d hd
    rcases List.mem_append.1 hd with hd | hd
    · exact isDigit_of_mem_replicate d hd
    · exact isDigit_of_mem_toDigits d hd
  · have hvalue : Nat.ofDigitChars 10 (['0'] ++ (List.replicate
        (places - (Nat.toDigits 10 c).length) '0' ++ Nat.toDigits 10 c)) 0 = c := by
      rw [Nat.ofDigitChars_append, Nat.ofDigitChars_append, Nat.ofDigitChars_replicate_zero]
      exact Nat.ofDigitChars_ten_toDigits
    rw [hvalue, List.length_append, List.length_replicate, Nat.sub_add_cancel h]

theorem spelled_positional (d : Decimal) : Spelled d d.positional := by
  obtain ⟨c, exponent⟩ := d
  cases exponent with
  | ofNat e => exact spelled_zeros c e
  | negSucc e =>
      simp only [positional]
      -- Where all digits stand behind the point, zeros fill the places in front of them.
      by_cases hplaces : e + 1 < (Nat.toDigits 10 c).length
      · rw [if_pos hplaces]
        exact spelled_cut c hplaces
      · rw [if_neg hplaces]
        exact spelled_small c (Nat.le_of_not_lt hplaces)

namespace Spelled

variable {d : Decimal} {s rest : List Char}

theorem readDecimal (hs : Spelled d s) (h : AtBreak rest) :
    ∃ read, DisplayList.readDecimal (s ++ rest) = some (read, rest) ∧
      read.magnitude = d.magnitude := by
  cases hs with
  | whole hne hdigits hvalue => exact ⟨_, readDecimal_whole hne hdigits h, hvalue⟩
  | point hne hwhole hfraction hvalue =>
      refine ⟨d, ?_, rfl⟩
      rw [List.append_assoc, List.cons_append, readDecimal_point hne hwhole hfraction h, hvalue]

theorem exists_cons (hs : Spelled d s) : ∃ c cs, s = c :: cs ∧ c.isDigit = true := by
  cases hs with
  | whole hne hdigits _ =>
      obtain ⟨c, cs, rfl⟩ := List.ne_nil_iff_exists_cons.1 hne
      exact ⟨c, cs, rfl, hdigits c List.mem_cons_self⟩
  | point hne hwhole _ _ =>
      obtain ⟨c, cs, rfl⟩ := List.ne_nil_iff_exists_cons.1 hne
      exact ⟨c, _, rfl, hwhole c List.mem_cons_self⟩

theorem isDigit_or_point (hs : Spelled d s) {c : Char} (hc : c ∈ s) :
    c.isDigit = true ∨ c = '.' := by
  cases hs with
  | whole _ hdigits _ => exact .inl (hdigits c hc)
  | point _ hwhole hfraction _ =>
      rcases List.mem_append.1 hc with hc | hc
      · exact .inl (hwhole c hc)
      · rcases List.mem_cons.1 hc with rfl | hc
        · exact .inr rfl
        · exact .inl (hfraction c hc)

end Spelled

end Decimal

def digitChars : List Char := "0123456789".toList

def bodyHeads : List Char := 'i' :: digitChars

def bodyChars : List Char := "inf.".toList ++ digitChars

/-- The characters that a written number begins with. -/
def numeralHeads : List Char := '-' :: 'N' :: bodyHeads

/-- The characters that a written number consists of. -/
def numeralChars : List Char := "-Na".toList ++ bodyChars

theorem mem_of_isDigit {c : Char} (h : c.isDigit = true) : c ∈ digitChars := by
  have hall : ∀ n < 58, 48 ≤ n → Char.ofNat n ∈ digitChars := by decide
  obtain ⟨hlow, hhigh⟩ := Char.isDigit_iff_toNat.1 h
  rw [← Char.ofNat_toNat c]
  exact hall c.toNat (Nat.lt_succ_of_le hhigh) hlow

theorem Binary64.spelled_text {bits : Nat} (h : bits < infinity) :
    ∃ d : Decimal, d.Spelled (text bits) ∧ d.magnitude = bits := by
  rw [text]
  rcases Nat.eq_zero_or_pos bits with rfl | hpos
  · have hdigit : ∀ c ∈ ['0'], c.isDigit = true := List.forall_mem_singleton.2 rfl
    exact ⟨⟨0, (0 : Nat)⟩, .whole (List.cons_ne_nil '0' []) hdigit rfl, rfl⟩
  · rw [if_neg (Nat.ne_of_gt hpos)]
    exact ⟨_, Decimal.spelled_positional _, Decimal.magnitude_shortest hpos h⟩

section Read

variable {rest : List Char}

theorem afterWord?_cons_of_ne {w c : Char} (word s : List Char) (h : c.toLower ≠ w) :
    afterWord? (w :: word) (c :: s) = none := by
  rw [afterWord?, if_neg h]

theorem readMagnitude_digit {c : Char} (hc : c.isDigit = true) {s : List Char} {d : Decimal}
    (h : readDecimal (c :: s) = some (d, rest)) :
    readMagnitude (c :: s) = some (d.magnitude, rest) := by
  have hwords : ∀ c ∈ digitChars, c.toLower ≠ 'i' ∧ c.toLower ≠ 'n' :=
    List.all_iff_forall_prop.1 (by decide)
  obtain ⟨hi, hn⟩ := hwords c (mem_of_isDigit hc)
  -- No word begins with a digit, so all three are tried in vain.
  rw [readMagnitude]
  simp only [String.reduceToList, afterWord?_cons_of_ne _ _ hi, afterWord?_cons_of_ne _ _ hn, h,
    Option.map_some]

theorem readMagnitude_text {bits : Nat} (hbits : bits < Binary64.infinity) (h : AtBreak rest) :
    readMagnitude (Binary64.text bits ++ rest) = some (bits, rest) := by
  obtain ⟨d, hspelled, rfl⟩ := Binary64.spelled_text hbits
  obtain ⟨read, hread, hmagnitude⟩ := hspelled.readDecimal h
  obtain ⟨c, cs, hcons, hc⟩ := hspelled.exists_cons
  rw [hcons, List.cons_append] at hread ⊢
  rw [readMagnitude_digit hc hread, hmagnitude]

theorem readMagnitude_inf (h : AtBreak rest) :
    readMagnitude ("inf".toList ++ rest) = some (Binary64.infinity, rest) := by
  rcases h with rfl | ⟨more, rfl⟩ <;> rfl

theorem readMagnitude_nan (rest : List Char) :
    readMagnitude ("NaN".toList ++ rest) = some (Binary64.notANumber, rest) := by
  rfl

end Read

/-- What is written of a number behind its sign. -/
def numberBody (x : Float) : List Char :=
  if x.isInf then "inf".toList else Binary64.text (Binary64.magnitude x)

section Body

variable {x : Float} {rest : List Char}

theorem numberText_of_isNaN (h : x.isNaN = true) : numberText x = "NaN".toList := by
  rw [numberText, if_pos h]

theorem numberText_of_not_isNaN (h : x.isNaN = false) :
    numberText x = if Binary64.isNegative x then '-' :: numberBody x else numberBody x := by
  rw [numberText, if_neg (Bool.not_eq_true _ ▸ h)]
  rfl

theorem spelled_numberBody (hnan : x.isNaN = false) (hinf : x.isInf = false) :
    ∃ d : Decimal, d.Spelled (numberBody x) ∧ d.magnitude = Binary64.magnitude x := by
  rw [numberBody, if_neg (Bool.not_eq_true _ ▸ hinf)]
  exact Binary64.spelled_text (Binary64.magnitude_lt hnan hinf)

theorem readMagnitude_numberBody (hnan : x.isNaN = false) (h : AtBreak rest) :
    readMagnitude (numberBody x ++ rest) = some (Binary64.magnitude x, rest) := by
  cases hinf : x.isInf with
  | true =>
      rw [numberBody, if_pos hinf, readMagnitude_inf h, Binary64.magnitude_eq_infinity hinf]
  | false =>
      rw [numberBody, if_neg (Bool.not_eq_true _ ▸ hinf)]
      exact readMagnitude_text (Binary64.magnitude_lt hnan hinf) h

theorem numberBody_head (hnan : x.isNaN = false) :
    ∃ c cs, numberBody x = c :: cs ∧ c ∈ bodyHeads := by
  cases hinf : x.isInf with
  | true => exact ⟨'i', ['n', 'f'], by rw [numberBody, if_pos hinf]; rfl, List.mem_cons_self⟩
  | false =>
      obtain ⟨d, hspelled, -⟩ := spelled_numberBody hnan hinf
      obtain ⟨c, cs, hcons, hc⟩ := hspelled.exists_cons
      exact ⟨c, cs, hcons, List.mem_cons_of_mem _ (mem_of_isDigit hc)⟩

theorem readSign_numberBody (hnan : x.isNaN = false) (rest : List Char) :
    readSign (numberBody x ++ rest) = (false, numberBody x ++ rest) := by
  have hsigns : ∀ c ∈ bodyHeads, c ≠ '-' ∧ c ≠ '+' :=
    List.all_iff_forall_prop.1 (by decide)
  obtain ⟨c, cs, hcons, hc⟩ := numberBody_head hnan
  obtain ⟨hminus, hplus⟩ := hsigns c hc
  rw [hcons, List.cons_append, readSign]
  · intro _ h
    exact hminus (List.cons.inj h).1
  · intro _ h
    exact hplus (List.cons.inj h).1

theorem mem_numberBody (hnan : x.isNaN = false) {c : Char} (hc : c ∈ numberBody x) :
    c ∈ bodyChars := by
  cases hinf : x.isInf with
  | true =>
      have hsub : ∀ c ∈ "inf".toList, c ∈ bodyChars := List.all_iff_forall_prop.1 (by decide)
      rw [numberBody, if_pos hinf] at hc
      exact hsub c hc
  | false =>
      obtain ⟨d, hspelled, -⟩ := spelled_numberBody hnan hinf
      rcases hspelled.isDigit_or_point hc with hdigit | rfl
      · exact List.mem_append_right _ (mem_of_isDigit hdigit)
      · decide

theorem numberText_head (x : Float) : ∃ c cs, numberText x = c :: cs ∧ c ∈ numeralHeads := by
  cases hnan : x.isNaN with
  | true => exact ⟨'N', ['a', 'N'], numberText_of_isNaN hnan, by decide⟩
  | false =>
      rw [numberText_of_not_isNaN hnan]
      split
      · exact ⟨'-', _, rfl, List.mem_cons_self⟩
      · obtain ⟨c, cs, hcons, hc⟩ := numberBody_head hnan
        exact ⟨c, cs, hcons, List.mem_cons_of_mem _ (List.mem_cons_of_mem _ hc)⟩

theorem mem_numberText {c : Char} (hc : c ∈ numberText x) : c ∈ numeralChars := by
  cases hnan : x.isNaN with
  | true =>
      have hsub : ∀ c ∈ "NaN".toList, c ∈ numeralChars := List.all_iff_forall_prop.1 (by decide)
      rw [numberText_of_isNaN hnan] at hc
      exact hsub c hc
  | false =>
      have hbody : ∀ c ∈ numberBody x, c ∈ numeralChars := fun c hc =>
        List.mem_append_right _ (mem_numberBody hnan hc)
      rw [numberText_of_not_isNaN hnan] at hc
      split at hc
      · rcases List.mem_cons.1 hc with rfl | hc
        · exact List.mem_cons_self
        · exact hbody c hc
      · exact hbody c hc

end Body

theorem readNumber_of_sign {s unsigned rest : List Char} {negative : Bool} {bits : Nat}
    (hsign : readSign s = (negative, unsigned))
    (hmagnitude : readMagnitude unsigned = some (bits, rest)) :
    readNumber s = some (Binary64.ofMagnitude negative bits, rest) := by
  simp only [readNumber, hsign, hmagnitude, Option.map_some]

/-- A number that is written is read back, and nothing behind it is touched. -/
theorem readNumber_numberText (x : Float) {rest : List Char} (h : AtBreak rest) :
    readNumber (numberText x ++ rest) = some (x, rest) := by
  cases hnan : x.isNaN with
  | true =>
      have hsign : readSign ("NaN".toList ++ rest) = (false, "NaN".toList ++ rest) := rfl
      rw [numberText_of_isNaN hnan, readNumber_of_sign hsign (readMagnitude_nan rest),
        Binary64.ofMagnitude_notANumber hnan]
  | false =>
      have hmagnitude := readMagnitude_numberBody hnan h
      have hvalue := Binary64.ofMagnitude_magnitude x
      rw [numberText_of_not_isNaN hnan]
      cases hnegative : Binary64.isNegative x with
      | true =>
          have hsign : readSign ('-' :: (numberBody x ++ rest)) = (true, numberBody x ++ rest) :=
            rfl
          rw [hnegative] at hvalue
          rw [if_pos rfl, List.cons_append, readNumber_of_sign hsign hmagnitude, hvalue]
      | false =>
          have hsign := readSign_numberBody hnan rest
          rw [hnegative] at hvalue
          rw [if_neg Bool.false_ne_true, readNumber_of_sign hsign hmagnitude, hvalue]

end DisplayList
