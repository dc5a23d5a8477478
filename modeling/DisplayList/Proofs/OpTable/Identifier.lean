import DisplayList.OpTable.Identifier
import DisplayList.Proofs.Text.Case
import Mathlib.Data.List.TakeWhile

/-!
# Names of accessors

`underscored` puts an underscore right before every capital but the first character, in one pass.
The name of the accessors is that text, up to case, as long as a position counted in characters is
a position in bytes. If wider characters stand ahead of a capital, its underscore lands further to
the left, by as many bytes as they have too many. That goes unnoticed just where it passes nothing
but underscores, which `Aligned` says of every capital: `snakeCase?_eq_iff`. Otherwise some
underscore has passed another character, and since none ever lands too far to the right,
`lead` cannot come out right again.
-/

namespace DisplayList.OpTable

/-- A capital with an underscore before it, or any other character alone. -/
def parted (c : Char) : List Char := if c.isUpper then ['_', c] else [c]

/-- A text with an underscore before each capital but the first character. -/
def underscored : List Char → List Char
  | [] => []
  | c :: rest => c :: rest.flatMap parted

/-- The number of bytes that a text takes up. -/
def byteSize : List Char → Nat
  | [] => 0
  | c :: rest => c.utf8Size + byteSize rest

/-- The number of bytes that a text takes up beyond one for each character. -/
def surplus (s : List Char) : Nat := byteSize s - s.length

/-- The number of underscores at the end of a text. -/
def trailing (s : List Char) : Nat := (s.reverse.takeWhile (· = '_')).length

/-- Ahead of every capital of a text that stands behind a front, the underscores make up for the
wider characters. -/
def Aligned (front rest : List Char) : Prop :=
  ∀ before c after, rest = before ++ c :: after → c.isUpper →
    surplus (front ++ before) ≤ trailing (front ++ before)

/-- The number of characters other than underscores. -/
def others (s : List Char) : Nat := s.countP (· ≠ '_')

/-- How far the underscores of a text stand to the left: the number of pairs of an underscore and
another character behind it. -/
def lead : List Char → Nat
  | [] => 0
  | c :: s => (if c = '_' then others s else 0) + lead s

/-! ### Bytes and underscores -/

section Bytes

variable {s t u v : List Char} {c : Char}

@[simp] theorem byteSize_nil : byteSize [] = 0 := rfl

@[simp] theorem byteSize_cons (c : Char) (s : List Char) :
    byteSize (c :: s) = c.utf8Size + byteSize s := rfl

@[simp] theorem byteSize_append (s t : List Char) :
    byteSize (s ++ t) = byteSize s + byteSize t := by
  induction s with
  | nil => rw [List.nil_append, byteSize_nil, Nat.zero_add]
  | cons c s ih => rw [List.cons_append, byteSize_cons, byteSize_cons, ih, Nat.add_assoc]

@[simp] theorem byteSize_replicate (n : Nat) : byteSize (List.replicate n '_') = n := by
  have hone : '_'.utf8Size = 1 := rfl
  induction n with
  | zero => rfl
  | succ n ih => rw [List.replicate_succ, byteSize_cons, ih, hone, Nat.add_comm]

theorem length_le_byteSize (s : List Char) : s.length ≤ byteSize s := by
  induction s with
  | nil => exact Nat.le_refl 0
  | cons c s ih =>
      have := c.utf8Size_pos
      rw [List.length_cons, byteSize_cons]
      omega

theorem surplus_append (s t : List Char) : surplus (s ++ t) = surplus s + surplus t := by
  have hs := length_le_byteSize s
  have ht := length_le_byteSize t
  rw [surplus, surplus, surplus, byteSize_append, List.length_append]
  omega

theorem surplus_of_narrow (h : ∀ c ∈ s, c.utf8Size = 1) : surplus s = 0 := by
  induction s with
  | nil => rfl
  | cons c s ih =>
      have hc : surplus [c] = 0 := by simp [surplus, h c List.mem_cons_self]
      rw [← List.singleton_append, surplus_append, hc,
        ih fun d hd => h d (List.mem_cons_of_mem c hd)]

theorem trailing_concat (s : List Char) (c : Char) :
    trailing (s ++ [c]) = if c = '_' then trailing s + 1 else 0 := by
  rw [trailing, List.reverse_append, List.reverse_singleton, List.singleton_append,
    List.takeWhile_cons]
  split <;> simp_all [trailing]

theorem le_trailing_iff {n : Nat} :
    n ≤ trailing s ↔ ∃ t, s = t ++ List.replicate n '_' := by
  constructor
  · intro h
    have hrun : s.reverse.takeWhile (· = '_') = List.replicate (trailing s) '_' :=
      List.eq_replicate_iff.2 ⟨rfl, fun d hd => by simpa using List.mem_takeWhile_imp hd⟩
    have hsplit : trailing s = n + (trailing s - n) := (Nat.add_sub_cancel' h).symm
    refine ⟨(s.reverse.dropWhile (· = '_')).reverse ++ List.replicate (trailing s - n) '_', ?_⟩
    rw [List.append_assoc, List.replicate_append_replicate, Nat.sub_add_cancel h,
      ← List.reverse_replicate, ← hrun, ← List.reverse_append, List.takeWhile_append_dropWhile,
      List.reverse_reverse]
  · rintro ⟨t, rfl⟩
    rw [trailing, List.reverse_append, List.reverse_replicate, List.takeWhile_append_of_pos,
      List.length_append, List.length_replicate]
    · exact Nat.le_add_right _ _
    · intro d hd
      rw [List.eq_of_mem_replicate hd]
      rfl

end Bytes

/-! ### How far underscores stand to the left -/

theorem others_append (s t : List Char) : others (s ++ t) = others s + others t :=
  List.countP_append

theorem others_eq_zero_iff {s : List Char} : others s = 0 ↔ s = List.replicate s.length '_' := by
  rw [others, List.countP_eq_zero, List.eq_replicate_iff]
  simp

theorem lead_insert (u v : List Char) : lead (u ++ '_' :: v) = lead (u ++ v) + others v := by
  induction u with
  | nil =>
      rw [List.nil_append, List.nil_append, lead, if_pos rfl]
      exact Nat.add_comm _ _
  | cons c u ih =>
      have hothers : others (u ++ '_' :: v) = others (u ++ v) := by
        rw [others_append, others_append]
        rfl
      rw [List.cons_append, List.cons_append, lead, lead, ih, hothers, Nat.add_assoc]

/-- An underscore that lands too far to the left passes some characters. -/
theorem lead_early (u w v : List Char) :
    lead (u ++ '_' :: (w ++ v)) = lead (u ++ w ++ '_' :: v) + others w := by
  rw [lead_insert, lead_insert, others_append, List.append_assoc]
  omega

theorem toLower_eq_underscore_iff {c : Char} : c.toLower = '_' ↔ c = '_' :=
  ⟨fun h => eq_of_toLower_eq h (by decide), fun h => by rw [h]; rfl⟩

theorem others_lowered (s : List Char) : others (lowered s) = others s := by
  rw [others, lowered, List.countP_map]
  congr 1
  funext c
  simp [toLower_eq_underscore_iff]

theorem lead_lowered (s : List Char) : lead (lowered s) = lead s := by
  induction s with
  | nil => rfl
  | cons c s ih =>
      rw [lowered_cons, lead, lead, ih, others_lowered]
      simp only [toLower_eq_underscore_iff]

/-! ### Putting in underscores -/

theorem insertAtByte?_byteSize (c : Char) (u v : List Char) :
    insertAtByte? c (byteSize u) (u ++ v) = some (u ++ c :: v) := by
  induction u with
  | nil => rw [byteSize_nil, insertAtByte?]; rfl
  | cons d u ih =>
      obtain ⟨n, hn⟩ : ∃ n, byteSize (d :: u) = n + 1 :=
        Nat.exists_eq_add_one.2 (Nat.lt_of_lt_of_le d.utf8Size_pos (Nat.le_add_right _ _))
      have hrest : n + 1 - d.utf8Size = byteSize u := by
        rw [← hn, byteSize_cons, Nat.add_sub_cancel_left]
      have hfits : d.utf8Size ≤ n + 1 := hn ▸ Nat.le_add_right _ _
      rw [hn, List.cons_append, insertAtByte?, if_pos hfits, hrest, ih]
      rfl

theorem exists_of_insertAtByte? {c : Char} {n : Nat} {s t : List Char}
    (h : insertAtByte? c n s = some t) : ∃ u v, s = u ++ v ∧ t = u ++ c :: v ∧ byteSize u = n := by
  fun_induction insertAtByte? c n s generalizing t with
  | case1 s => exact ⟨[], s, rfl, (Option.some.inj h).symm, rfl⟩
  | case2 n => cases h
  | case3 n d s hfits ih =>
      obtain ⟨t, ht, rfl⟩ := Option.map_eq_some_iff.1 h
      obtain ⟨u, v, rfl, rfl, hu⟩ := ih ht
      exact ⟨d :: u, v, rfl, rfl, by rw [byteSize_cons, hu]; omega⟩
  | case4 n d s hfits => cases h

section Capitals

variable {front x rest t : List Char} {position offset : Nat} {c : Char}

/-- An underscore that is put in at the number of characters ahead lands there or further to the
left. -/
theorem exists_of_insertAtByte?_length
    (h : insertAtByte? '_' x.length (x ++ c :: rest) = some t) :
    ∃ u w, x = u ++ w ∧ byteSize u = x.length ∧ t = u ++ '_' :: (w ++ c :: rest) := by
  obtain ⟨u, v, hsplit, rfl, hu⟩ := exists_of_insertAtByte? h
  have hle : u.length ≤ x.length := hu ▸ length_le_byteSize u
  obtain ⟨w, rfl⟩ : u <+: x :=
    List.prefix_of_prefix_length_le (hsplit ▸ List.prefix_append u v) (List.prefix_append x _) hle
  rw [List.append_assoc] at hsplit
  exact ⟨u, w, rfl, hu, by rw [List.append_cancel_left hsplit]⟩

theorem cons_replicate_append (n : Nat) (v : List Char) :
    '_' :: (List.replicate n '_' ++ v) = List.replicate n '_' ++ '_' :: v := by
  rw [← List.cons_append, ← List.replicate_succ, List.replicate_succ', List.append_assoc,
    List.singleton_append]

/-- Underscores at the end that make up for the wider characters leave the new one in its place. -/
theorem insertAtByte?_of_trailing (h : surplus x ≤ trailing x) (v : List Char) :
    insertAtByte? '_' x.length (x ++ v) = some (x ++ '_' :: v) := by
  obtain ⟨u, hu⟩ := le_trailing_iff.1 h
  have hbytes : byteSize u = x.length := by
    have hsize := congrArg byteSize hu
    have hle := length_le_byteSize x
    rw [byteSize_append, byteSize_replicate, surplus] at hsize
    omega
  have hinsert := insertAtByte?_byteSize '_' u (List.replicate (surplus x) '_' ++ v)
  rwa [cons_replicate_append, ← List.append_assoc, ← List.append_assoc, ← hu, hbytes] at hinsert

/-- An underscore that passes nothing but underscores has found enough of them. -/
theorem of_others_eq_zero {u w : List Char} (hbytes : byteSize u = (u ++ w).length)
    (h : others w = 0) :
    surplus (u ++ w) ≤ trailing (u ++ w) ∧ u ++ '_' :: w = u ++ w ++ ['_'] := by
  rw [others_eq_zero_iff] at h
  have hsurplus : surplus (u ++ w) = w.length := by
    have hsize := congrArg byteSize h
    rw [byteSize_replicate] at hsize
    rw [surplus, byteSize_append, hbytes, hsize, Nat.add_sub_cancel_left]
  refine ⟨?_, ?_⟩
  · rw [hsurplus, le_trailing_iff]
    exact ⟨u, congrArg (u ++ ·) h⟩
  · have hmove := cons_replicate_append w.length []
    rw [List.append_nil, ← h] at hmove
    rw [hmove, List.append_assoc]

theorem insertUnderscores?_capitalsFrom_cons (hc : c.isUpper) (hx : x.length = position + offset) :
    insertUnderscores? offset (capitalsFrom position (c :: rest)) (x ++ c :: rest) =
      (insertAtByte? '_' x.length (x ++ c :: rest)).bind
        (insertUnderscores? (offset + 1) (capitalsFrom (position + 1) rest)) := by
  rw [capitalsFrom, if_pos hc, insertUnderscores?, hx]

theorem insertUnderscores?_capitalsFrom_cons_of_not (hc : ¬ c.isUpper) :
    insertUnderscores? offset (capitalsFrom position (c :: rest)) (x ++ c :: rest) =
      insertUnderscores? offset (capitalsFrom (position + 1) rest) ((x ++ [c]) ++ rest) := by
  rw [capitalsFrom, if_neg hc, List.append_cons]

theorem flatMap_parted_cons (hc : c.isUpper) (rest : List Char) :
    (c :: rest).flatMap parted = '_' :: c :: rest.flatMap parted := by
  rw [List.flatMap_cons, parted, if_pos hc]
  rfl

theorem flatMap_parted_cons_of_not (hc : ¬ c.isUpper) (rest : List Char) :
    (c :: rest).flatMap parted = c :: rest.flatMap parted := by
  rw [List.flatMap_cons, parted, if_neg hc]
  rfl

theorem aligned_cons :
    Aligned front (c :: rest) ↔
      (c.isUpper → surplus front ≤ trailing front) ∧ Aligned (front ++ [c]) rest := by
  constructor
  · intro h
    refine ⟨fun hc => by simpa using h [] c rest rfl hc, fun before d after hrest hd => ?_⟩
    simpa using h (c :: before) d after (by rw [hrest, List.cons_append]) hd
  · rintro ⟨hfirst, hrest⟩ before d after heq hd
    cases before with
    | nil =>
        obtain ⟨rfl, rfl⟩ := List.cons.inj heq
        simpa using hfirst hd
    | cons e before =>
        obtain ⟨rfl, rfl⟩ := List.cons.inj heq
        simpa using hrest before d after rfl hd

theorem length_other (hx : x.length = position + offset) (c : Char) :
    (x ++ [c]).length = position + 1 + offset := by
  rw [List.length_append, List.length_singleton, hx]
  omega

/-! What becomes of the text so far when a capital is done, wherever its underscore has landed. -/

theorem append_capital (u w : List Char) (c : Char) (rest : List Char) :
    u ++ '_' :: (w ++ c :: rest) = (u ++ '_' :: (w ++ [c])) ++ rest := by
  simp only [List.append_assoc, List.cons_append, List.nil_append]

theorem length_capital {u w : List Char} (hx : (u ++ w).length = position + offset) (c : Char) :
    (u ++ '_' :: (w ++ [c])).length = position + 1 + (offset + 1) := by
  simp only [List.length_append, List.length_cons, List.length_nil] at hx ⊢
  omega

theorem lead_capital (u w : List Char) (c : Char) (v : List Char) :
    lead ((u ++ '_' :: (w ++ [c])) ++ v) = lead (u ++ w ++ '_' :: c :: v) + others w := by
  rw [← append_capital, lead_early]

/-- No underscore lands too far to the right. -/
theorem lead_le_of_insertUnderscores? (hx : x.length = position + offset)
    (h : insertUnderscores? offset (capitalsFrom position rest) (x ++ rest) = some t) :
    lead (x ++ rest.flatMap parted) ≤ lead t := by
  induction rest generalizing x position offset with
  | nil =>
      obtain rfl := Option.some.inj h
      exact Nat.le_refl _
  | cons c rest ih =>
      by_cases hc : c.isUpper
      · rw [insertUnderscores?_capitalsFrom_cons hc hx, Option.bind_eq_some_iff] at h
        obtain ⟨t', ht', h⟩ := h
        obtain ⟨u, w, rfl, -, rfl⟩ := exists_of_insertAtByte?_length ht'
        rw [append_capital] at h
        have hle := ih (length_capital hx c) h
        rw [lead_capital] at hle
        rw [flatMap_parted_cons hc]
        exact Nat.le_of_add_right_le hle
      · rw [insertUnderscores?_capitalsFrom_cons_of_not hc] at h
        rw [flatMap_parted_cons_of_not hc, List.append_cons]
        exact ih (length_other hx c) h

/-- A text so far has as many wider characters and ends in as many underscores as what it has been
made of. -/
structure Alike (front x : List Char) : Prop where
  surplus_eq : surplus x = surplus front
  trailing_eq : trailing x = trailing front

theorem Alike.concat (h : Alike front x) (c : Char) : Alike (front ++ [c]) (x ++ [c]) where
  surplus_eq := by rw [surplus_append, surplus_append, h.surplus_eq]
  trailing_eq := by rw [trailing_concat, trailing_concat, h.trailing_eq]

theorem Alike.capital (h : Alike front x) (hc : c.isUpper) :
    Alike (front ++ [c]) (x ++ ['_'] ++ [c]) where
  surplus_eq := by
    have hunderscore : surplus ['_'] = 0 := rfl
    rw [surplus_append, surplus_append, surplus_append, hunderscore, Nat.add_zero, h.surplus_eq]
  trailing_eq := by
    have hne : c ≠ '_' := fun heq => absurd (heq ▸ hc) (by decide)
    rw [trailing_concat, if_neg hne, trailing_concat, if_neg hne]

/-- If every capital finds enough underscores ahead, it gets its own. -/
theorem insertUnderscores?_of_aligned (hx : x.length = position + offset) (halike : Alike front x)
    (h : Aligned front rest) :
    insertUnderscores? offset (capitalsFrom position rest) (x ++ rest) =
      some (x ++ rest.flatMap parted) := by
  induction rest generalizing front x position offset with
  | nil => rfl
  | cons c rest ih =>
      obtain ⟨hfirst, hrest⟩ := aligned_cons.1 h
      by_cases hc : c.isUpper
      · have hends : surplus x ≤ trailing x := by
          rw [halike.surplus_eq, halike.trailing_eq]
          exact hfirst hc
        have hlength : (x ++ ['_'] ++ [c]).length = position + 1 + (offset + 1) := by
          simp only [List.length_append, List.length_singleton]
          omega
        rw [insertUnderscores?_capitalsFrom_cons hc hx, insertAtByte?_of_trailing hends,
          Option.bind_some, flatMap_parted_cons hc, List.append_cons x '_',
          List.append_cons (x ++ ['_']) c, ih hlength (halike.capital hc) hrest]
        simp
      · rw [insertUnderscores?_capitalsFrom_cons_of_not hc, flatMap_parted_cons_of_not hc,
          ih (length_other hx c) (halike.concat c) hrest, ← List.append_cons]

/-- If no underscore has passed another character, every capital has found enough underscores
ahead. -/
theorem aligned_of_lead_eq (hx : x.length = position + offset) (halike : Alike front x)
    (h : insertUnderscores? offset (capitalsFrom position rest) (x ++ rest) = some t)
    (hlead : lead t = lead (x ++ rest.flatMap parted)) : Aligned front rest := by
  induction rest generalizing front x position offset with
  | nil => rintro before c after hnil -; cases before <;> cases hnil
  | cons c rest ih =>
      rw [aligned_cons]
      by_cases hc : c.isUpper
      · rw [insertUnderscores?_capitalsFrom_cons hc hx, Option.bind_eq_some_iff] at h
        obtain ⟨t', ht', h⟩ := h
        obtain ⟨u, w, rfl, hu, rfl⟩ := exists_of_insertAtByte?_length ht'
        rw [append_capital] at h
        have hothers : others w = 0 := by
          have hle := lead_le_of_insertUnderscores? (length_capital hx c) h
          rw [lead_capital, hlead, flatMap_parted_cons hc] at hle
          omega
        obtain ⟨hends, htext⟩ := of_others_eq_zero hu hothers
        have hnext : u ++ '_' :: (w ++ [c]) = u ++ w ++ ['_'] ++ [c] := by
          rw [← htext, List.append_assoc, List.cons_append]
        rw [hnext] at h
        rw [halike.surplus_eq, halike.trailing_eq] at hends
        refine ⟨fun _ => hends, ih (hnext ▸ length_capital hx c) (halike.capital hc) h ?_⟩
        rw [hlead, flatMap_parted_cons hc, List.append_cons, List.append_cons]
      · rw [insertUnderscores?_capitalsFrom_cons_of_not hc] at h
        rw [flatMap_parted_cons_of_not hc, List.append_cons] at hlead
        exact ⟨fun hupper => absurd hupper hc, ih (length_other hx c) (halike.concat c) h hlead⟩

end Capitals

/-! ### The name of the accessors -/

theorem alike_singleton (c : Char) : Alike [c] [c] := ⟨rfl, rfl⟩

theorem snakeCase?_of_aligned {c : Char} {rest : List Char} (h : Aligned [c] rest) :
    snakeCase? (c :: rest) = some (lowered (underscored (c :: rest))) := by
  have hinsert : insertUnderscores? 0 (capitalsFrom 1 rest) ([c] ++ rest) = _ :=
    insertUnderscores?_of_aligned rfl (alike_singleton c) h
  rw [snakeCase?, List.tail_cons, ← List.singleton_append, hinsert]
  rfl

theorem aligned_of_snakeCase? {c : Char} {rest : List Char}
    (h : snakeCase? (c :: rest) = some (lowered (underscored (c :: rest)))) :
    Aligned [c] rest := by
  rw [snakeCase?, List.tail_cons, ← List.singleton_append, Option.map_eq_some_iff] at h
  obtain ⟨t, ht, hlowered⟩ := h
  have hlead := congrArg lead hlowered
  rw [lead_lowered, lead_lowered] at hlead
  exact aligned_of_lead_eq rfl (alike_singleton c) ht hlead

theorem aligned_of_narrow {front rest : List Char} (h : ∀ c ∈ front ++ rest, c.utf8Size = 1) :
    Aligned front rest := by
  rintro before c after rfl -
  rw [surplus_of_narrow]
  · exact Nat.zero_le _
  · intro d hd
    exact h d (by rw [← List.append_assoc]; exact List.mem_append_left _ hd)

theorem snakeCase?_of_narrow {s : List Char} (h : ∀ c ∈ s, c.utf8Size = 1) :
    snakeCase? s = some (lowered (underscored s)) := by
  cases s with
  | nil => rfl
  | cons c rest => exact snakeCase?_of_aligned (aligned_of_narrow h)

theorem snakeCase?_of_ascii {s : List Char} (h : ∀ c ∈ s, c.toNat < 0x80) :
    snakeCase? s = some (lowered (underscored s)) := by
  refine snakeCase?_of_narrow fun c hc => ?_
  rw [Char.utf8Size_eq_one_iff, UInt32.le_iff_toNat_le, Char.toNat_val]
  exact Nat.le_of_lt_succ (h c hc)

theorem mem_of_mem_underscored {s : List Char} {d : Char} (h : d ∈ underscored s) :
    d = '_' ∨ d ∈ s := by
  cases s with
  | nil => exact absurd h List.not_mem_nil
  | cons c rest =>
      rw [underscored, List.mem_cons, List.mem_flatMap] at h
      rcases h with rfl | ⟨e, he, hd⟩
      · exact Or.inr List.mem_cons_self
      · rw [parted] at hd
        split_ifs at hd <;> grind

/-- Only the mark of a raw identifier makes a mark in the name of its accessors. -/
theorem not_mark_mem_snakeCase {s : List Char} (h : '#' ∉ s) :
    '#' ∉ lowered (underscored s) := by
  intro hmem
  obtain ⟨c, hc, hlower⟩ := List.mem_map.1 hmem
  obtain rfl := eq_of_toLower_eq hlower (by decide)
  rcases mem_of_mem_underscored hc with hmark | hs
  · exact absurd hmark (by decide)
  · exact h hs

/-- The name of the accessors is the text with an underscore before each capital but the first
character, up to case, exactly if ahead of each such capital there are as many underscores as the
text there takes up bytes beyond one for each character. -/
theorem snakeCase?_eq_iff (s : List Char) :
    snakeCase? s = some (lowered (underscored s)) ↔
      ∀ front c rest, s = front ++ c :: rest → front ≠ [] → c.isUpper →
        surplus front ≤ trailing front := by
  cases s with
  | nil =>
      refine iff_of_true rfl fun front c rest hnil => ?_
      cases front <;> cases hnil
  | cons d s =>
      constructor
      · rintro h front c rest heq hfront hc
        obtain ⟨e, front, rfl⟩ := List.exists_cons_of_ne_nil hfront
        obtain ⟨rfl, rfl⟩ := List.cons.inj heq
        exact aligned_of_snakeCase? h front c rest rfl hc
      · intro h
        refine snakeCase?_of_aligned fun before c after hsplit hc => ?_
        exact h (d :: before) c after (by rw [hsplit, List.cons_append]) (List.cons_ne_nil _ _) hc

/-- An underscore lands within a word, or splits a character. -/
theorem snakeCase?_overOffset :
    snakeCase? "ÜberOffset".toList = some "Übe_roffset".toList ∧
      lowered (underscored "ÜberOffset".toList) = "Über_offset".toList ∧
      snakeCase? "ÜX".toList = none := by
  decide

end DisplayList.OpTable
