import DisplayList.Proofs.Text.Case
import DisplayList.Text.Blank

/-!
# Taking blanks off the ends of a text

A text without blanks at its ends stays as it is, `trim_of_ends`. Blanks are all that is taken off,
`exists_eq_append_trim`, and it makes no difference how many there are, `trim_blank_append_blank`.
Blanks have no case, so that lowering a text and taking off its blanks can change places,
`trim_lowered`.
-/

namespace DisplayList

/-- The code points of white space. -/
def whiteSpace : List Nat :=
  [0x9, 0xa, 0xb, 0xc, 0xd, 0x20, 0x85, 0xa0, 0x1680, 0x2000, 0x2001, 0x2002, 0x2003, 0x2004,
    0x2005, 0x2006, 0x2007, 0x2008, 0x2009, 0x200a, 0x2028, 0x2029, 0x202f, 0x205f, 0x3000]

variable {s : List Char} {c : Char}

theorem isBlank_iff : isBlank c = true ↔ c.toNat ∈ whiteSpace := by
  simp only [isBlank, whiteSpace, Bool.or_eq_true, Bool.and_eq_true, decide_eq_true_eq,
    List.mem_cons, List.not_mem_nil, or_false]
  omega

theorem trimFront_cons (hc : isBlank c = false) (s : List Char) :
    trimFront (c :: s) = c :: s := by
  rw [trimFront, List.dropWhile_cons_of_neg (Bool.not_eq_true _ ▸ hc)]

/-- Nothing is taken off a text that has no blanks at its ends. -/
theorem trim_of_ends {first last : Char} {others before : List Char}
    (hfront : s = first :: others) (hback : s = before ++ [last])
    (hfirst : isBlank first = false) (hlast : isBlank last = false) : trim s = s := by
  have hreverse : s.reverse = last :: before.reverse := by
    rw [hback, List.reverse_append, List.reverse_singleton, List.singleton_append]
  have hkeep : trimFront s = s := hfront ▸ trimFront_cons hfirst others
  rw [trim, hkeep, hreverse, trimFront_cons hlast, ← hreverse, List.reverse_reverse]

theorem trim_of_notBlank (h : ∀ c ∈ s, isBlank c = false) : trim s = s := by
  have hfront (t : List Char) (ht : ∀ c ∈ t, isBlank c = false) : trimFront t = t := by
    cases t with
    | nil => rfl
    | cons c t => exact trimFront_cons (ht c List.mem_cons_self) t
  rw [trim, hfront s h, hfront s.reverse fun c hc => h c (List.mem_reverse.1 hc),
    List.reverse_reverse]

theorem trim_concat_of_blank (hc : isBlank c = true) (s : List Char) :
    trim (s ++ [c]) = trim s := by
  have hnone : trimFront [c] = [] := List.dropWhile_cons_of_pos hc
  have hfront : trimFront (s ++ [c]) =
      if (trimFront s).isEmpty then trimFront [c] else trimFront s ++ [c] :=
    List.dropWhile_append
  rw [trim, trim, hfront]
  split
  · next hs => rw [List.isEmpty_iff.1 hs, hnone]
  · have hback : trimFront (c :: (trimFront s).reverse) = trimFront (trimFront s).reverse :=
      List.dropWhile_cons_of_pos hc
    rw [List.reverse_append, List.reverse_singleton, List.singleton_append, hback]

theorem trim_blank_append_blank {before after : List Char}
    (hbefore : ∀ c ∈ before, isBlank c = true) (hafter : ∀ c ∈ after, isBlank c = true)
    (s : List Char) :
    trim (before ++ s ++ after) = trim s := by
  induction after generalizing s with
  | nil =>
      have hfront : trimFront (before ++ s) = trimFront s :=
        List.dropWhile_append_of_pos hbefore
      rw [List.append_nil, trim, hfront, trim]
  | cons c after ih =>
      obtain ⟨hc, hafter⟩ := List.forall_mem_cons.1 hafter
      rw [List.append_cons, List.append_assoc before, ih hafter, trim_concat_of_blank hc]

/-- A text is what is left of it with blanks at its ends. -/
theorem exists_eq_append_trim (s : List Char) : ∃ before after,
    s = before ++ trim s ++ after ∧ (∀ c ∈ before, isBlank c = true) ∧
      ∀ c ∈ after, isBlank c = true := by
  have hblank (t : List Char) : ∀ c ∈ t.takeWhile isBlank, isBlank c = true :=
    List.all_eq_true.1 List.all_takeWhile
  have hcut (t : List Char) : t.takeWhile isBlank ++ trimFront t = t :=
    List.takeWhile_append_dropWhile
  have hback : trim s ++ ((trimFront s).reverse.takeWhile isBlank).reverse = trimFront s := by
    rw [trim, ← List.reverse_append, hcut, List.reverse_reverse]
  refine ⟨s.takeWhile isBlank, ((trimFront s).reverse.takeWhile isBlank).reverse, ?_, hblank s,
    fun c hc => hblank _ c (List.mem_reverse.1 hc)⟩
  rw [List.append_assoc, hback, hcut]

theorem isBlank_toLower (c : Char) : isBlank c.toLower = isBlank c := by
  by_cases hupper : c.isUpper
  · have hbounds := isUpper_iff.1 hupper
    have hlower := toNat_toLower_of_isUpper hupper
    simp only [isBlank, hlower]
    grind
  · rw [toLower_of_not_isUpper hupper]

theorem trimFront_lowered (s : List Char) : trimFront (lowered s) = lowered (trimFront s) := by
  have hblank : isBlank ∘ Char.toLower = isBlank := funext isBlank_toLower
  rw [trimFront, lowered, List.dropWhile_map, hblank]
  rfl

theorem trim_lowered (s : List Char) : trim (lowered s) = lowered (trim s) := by
  have hreverse (t : List Char) : (lowered t).reverse = lowered t.reverse := List.map_reverse.symm
  rw [trim, trimFront_lowered, hreverse, trimFront_lowered, hreverse]
  rfl

end DisplayList
