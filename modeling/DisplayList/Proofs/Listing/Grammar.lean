import DisplayList.Proofs.Listing.Argument
import DisplayList.Proofs.Number.Extent

/-!
# The grammar of arguments

What an argument of a line may look like, told without the reader: `Denotes` for one argument and
`DenoteAll` for those of a call, each behind a gap. The reader accepts these and no others:
`readArgument_eq_iff` and `readArguments_eq_iff`. It may stop anywhere behind a flag or a quoted
text, so what it reads is an argument only where a gap or the end of the line follows.
-/

namespace DisplayList

/-- What stands between quotes for a text. A backslash stands only in front of a backslash, a quote
or the letter n, and a quote only behind a backslash. -/
inductive QuotedAs : (body s : List Char) → Prop
  | nil : QuotedAs [] []
  | plain {c : Char} {body s : List Char} (hquote : c ≠ '"') (hslash : c ≠ '\\')
      (h : QuotedAs body s) : QuotedAs (c :: body) (c :: s)
  | slash {body s : List Char} (h : QuotedAs body s) : QuotedAs ('\\' :: '\\' :: body) ('\\' :: s)
  | quote {body s : List Char} (h : QuotedAs body s) : QuotedAs ('\\' :: '"' :: body) ('"' :: s)
  | feed {body s : List Char} (h : QuotedAs body s) : QuotedAs ('\\' :: 'n' :: body) ('\n' :: s)

/-- The characters of one argument: a flag, a quoted text, or a run without spaces and tabs that is
a number as a whole. -/
inductive Denotes : List Char → Value → Prop
  | yes : Denotes "true".toList (.flag true)
  | no : Denotes "false".toList (.flag false)
  | text {body s : List Char} (h : QuotedAs body s) :
      Denotes ('"' :: (body ++ ['"'])) (.text (String.ofList s))
  | number {run : List Char} {x : Float} (hrun : ∀ c ∈ run, isSpace c = false)
      (h : readNumber run = some (x, [])) : Denotes run (.number x)

/-- The characters of the arguments of a call, each of them behind at least one space or tab. -/
inductive DenoteAll : List Char → List Value → Prop
  | nil : DenoteAll [] []
  | cons {gap cs rest : List Char} {v : Value} {vs : List Value} (hne : gap ≠ [])
      (hgap : ∀ c ∈ gap, isSpace c = true) (h : Denotes cs v) (hrest : DenoteAll rest vs) :
      DenoteAll (gap ++ (cs ++ rest)) (v :: vs)

section Quoted

variable {t s rest : List Char}

theorem exists_of_map_readQuotedBody {c : Char}
    (h : ((readQuotedBody t).map fun (s, left) => (c :: s, left)) = some (s, rest)) :
    ∃ tail, readQuotedBody t = some (tail, rest) ∧ s = c :: tail := by
  obtain ⟨⟨tail, left⟩, hread, heq⟩ := Option.map_eq_some_iff.1 h
  obtain ⟨rfl, rfl⟩ := Prod.mk.inj heq
  exact ⟨tail, hread, rfl⟩

theorem exists_quotedAs (h : readQuotedBody t = some (s, rest)) :
    ∃ body, QuotedAs body s ∧ t = body ++ '"' :: rest := by
  fun_induction readQuotedBody t generalizing s with
  | case1 => exact absurd h.symm (Option.some_ne_none _)
  | case2 left =>
      obtain ⟨rfl, rfl⟩ := Prod.mk.inj (Option.some.inj h)
      exact ⟨[], .nil, rfl⟩
  | case3 left ih =>
      obtain ⟨tail, hread, rfl⟩ := exists_of_map_readQuotedBody h
      obtain ⟨body, hbody, rfl⟩ := ih hread
      exact ⟨_, hbody.slash, rfl⟩
  | case4 left ih =>
      obtain ⟨tail, hread, rfl⟩ := exists_of_map_readQuotedBody h
      obtain ⟨body, hbody, rfl⟩ := ih hread
      exact ⟨_, hbody.quote, rfl⟩
  | case5 left ih =>
      obtain ⟨tail, hread, rfl⟩ := exists_of_map_readQuotedBody h
      obtain ⟨body, hbody, rfl⟩ := ih hread
      exact ⟨_, hbody.feed, rfl⟩
  | case6 => exact absurd h.symm (Option.some_ne_none _)
  | case7 c left hquote _ _ _ hslash ih =>
      obtain ⟨tail, hread, rfl⟩ := exists_of_map_readQuotedBody h
      obtain ⟨body, hbody, rfl⟩ := ih hread
      exact ⟨_, hbody.plain hquote hslash, rfl⟩

theorem QuotedAs.readQuotedBody {body : List Char} (h : QuotedAs body s) (rest : List Char) :
    DisplayList.readQuotedBody (body ++ '"' :: rest) = some (s, rest) := by
  induction h with
  | nil => rfl
  | plain hquote hslash _ ih =>
      rw [List.cons_append, readQuotedBody_of_plain hquote hslash, ih, Option.map_some]
  | slash _ ih =>
      rw [List.cons_append, List.cons_append, DisplayList.readQuotedBody, ih, Option.map_some]
  | quote _ ih =>
      rw [List.cons_append, List.cons_append, DisplayList.readQuotedBody, ih, Option.map_some]
  | feed _ ih =>
      rw [List.cons_append, List.cons_append, DisplayList.readQuotedBody, ih, Option.map_some]

theorem exists_of_readQuoted (h : readQuoted t = some (s, rest)) :
    ∃ body, QuotedAs body s ∧ t = ('"' :: (body ++ ['"'])) ++ rest := by
  unfold readQuoted at h
  split at h
  · obtain ⟨body, hbody, rfl⟩ := exists_quotedAs h
    exact ⟨body, hbody, by simp⟩
  · exact absurd h.symm (Option.some_ne_none _)

end Quoted

section Argument

variable {t cs rest : List Char} {v : Value}

theorem afterText?_eq_some_iff {beginning : List Char} :
    afterText? beginning t = some rest ↔ t = beginning ++ rest := by
  induction beginning generalizing t with
  | nil => exact Option.some_inj
  | cons b beginning ih =>
      cases t with
      | nil => exact iff_of_false (Option.some_ne_none rest).symm (List.cons_ne_nil _ _).symm
      | cons c t =>
          rw [afterText?, Option.ite_none_right_eq_some, ih, List.cons_append, List.cons.injEq,
            eq_comm]

/-- A number begins with no character that another argument or an equals sign begins with. -/
theorem ne_head_of_readNumber {c : Char} {s : List Char} {r : Float × List Char}
    (h : readNumber (c :: s) = some r) : c ≠ 't' ∧ c ≠ 'f' ∧ c ≠ '"' ∧ c ≠ '=' := by
  refine ⟨?_, ?_, ?_, ?_⟩ <;> rintro rfl <;> exact absurd h.symm (Option.some_ne_none r)

theorem readArgument_of_number {c : Char} {s : List Char} {r : Float × List Char}
    (h : readNumber (c :: s) = some r) : readArgument (c :: s) = some (.number r.1, r.2) := by
  obtain ⟨htrue, hfalse, hquote, -⟩ := ne_head_of_readNumber h
  rw [readArgument]
  simp only [String.reduceToList, afterText?_cons_of_ne _ _ (Ne.symm htrue),
    afterText?_cons_of_ne _ _ (Ne.symm hfalse), readQuoted_cons_of_ne _ hquote, h,
    Option.map_some]

/-- Up to a gap, the reader accepts just the arguments of the grammar. -/
theorem readArgument_eq_iff (hrest : AtGap rest) :
    readArgument t = some (v, rest) ↔ ∃ cs, Denotes cs v ∧ t = cs ++ rest := by
  constructor
  · intro h
    unfold readArgument at h
    split at h
    · next left htrue =>
      obtain ⟨rfl, rfl⟩ := Prod.mk.inj (Option.some.inj h)
      exact ⟨_, .yes, afterText?_eq_some_iff.1 htrue⟩
    · split at h
      · next left hfalse =>
        obtain ⟨rfl, rfl⟩ := Prod.mk.inj (Option.some.inj h)
        exact ⟨_, .no, afterText?_eq_some_iff.1 hfalse⟩
      · split at h
        · next s left hquoted =>
          obtain ⟨rfl, rfl⟩ := Prod.mk.inj (Option.some.inj h)
          obtain ⟨body, hbody, ht⟩ := exists_of_readQuoted hquoted
          exact ⟨_, .text hbody, ht⟩
        · obtain ⟨⟨x, left⟩, hread, heq⟩ := Option.map_eq_some_iff.1 h
          obtain ⟨rfl, rfl⟩ := Prod.mk.inj heq
          obtain ⟨run, hrun, rfl⟩ := (readNumber_eq_iff hrest x).1 hread
          refine ⟨run, .number (fun c hc => ?_) hrun, rfl⟩
          simp [isSpace, ne_of_mem_of_readNumber hrun c hc]
  · rintro ⟨cs, hcs, rfl⟩
    cases hcs with
    | yes => rfl
    | no => rfl
    | @text body s hbody =>
        have hread : readQuoted ('"' :: (body ++ ['"']) ++ rest) = some (s, rest) := by
          rw [List.cons_append, List.append_assoc, readQuoted]
          exact hbody.readQuotedBody rest
        have htrue : afterText? "true".toList ('"' :: (body ++ ['"']) ++ rest) = none := rfl
        have hfalse : afterText? "false".toList ('"' :: (body ++ ['"']) ++ rest) = none := rfl
        rw [readArgument]
        simp only [htrue, hfalse, hread]
    | @number _ x _ hread =>
        have hwhole := (readNumber_eq_iff hrest x).2 ⟨cs, hread, rfl⟩
        cases cs with
        | nil => exact absurd hread.symm (Option.some_ne_none _)
        | cons c cs => exact readArgument_of_number hwhole

theorem Denotes.head (h : Denotes cs v) :
    ∃ c tail, cs = c :: tail ∧ isSpace c = false ∧ c ≠ '=' := by
  cases h with
  | yes => exact ⟨'t', _, rfl, by decide, by decide⟩
  | no => exact ⟨'f', _, rfl, by decide, by decide⟩
  | text h => exact ⟨'"', _, rfl, by decide, by decide⟩
  | number hrun h =>
      cases cs with
      | nil => exact absurd h.symm (Option.some_ne_none _)
      | cons c cs =>
          exact ⟨c, cs, rfl, hrun c List.mem_cons_self, (ne_head_of_readNumber h).2.2.2⟩

end Argument

section Split

variable {p : Char → Bool} {front rest : List Char}

theorem takeWhile_append_of_stop (hfront : ∀ c ∈ front, p c = true)
    (hrest : rest.takeWhile p = []) : (front ++ rest).takeWhile p = front := by
  rw [takeWhile_append_gap hrest, List.takeWhile_eq_self_iff.2 hfront]

theorem dropWhile_append_of_stop (hfront : ∀ c ∈ front, p c = true)
    (hrest : rest.takeWhile p = []) : (front ++ rest).dropWhile p = rest := by
  rw [dropWhile_append_gap hrest, List.dropWhile_eq_nil_iff.2 hfront, List.nil_append]

end Split

section Arguments

variable {t cs rest : List Char} {v : Value} {vs : List Value}

theorem Denotes.takeWhile_isSpace (h : Denotes cs v) (rest : List Char) :
    (cs ++ rest).takeWhile isSpace = [] := by
  obtain ⟨c, tail, rfl, hc, -⟩ := h.head
  rw [List.cons_append, List.takeWhile_cons_of_neg (Bool.not_eq_true _ ▸ hc)]

theorem eq_space_or_tab {c : Char} (h : isSpace c = true) : c = ' ' ∨ c = '\t' := by
  simpa [isSpace] using h

theorem atGap_of_gap {gap : List Char} (hne : gap ≠ []) (hgap : ∀ c ∈ gap, isSpace c = true)
    (rest : List Char) : AtGap (gap ++ rest) := by
  obtain ⟨c, more, rfl⟩ := List.ne_nil_iff_exists_cons.1 hne
  rcases eq_space_or_tab (hgap c List.mem_cons_self) with rfl | rfl
  · exact .inr ⟨more ++ rest, .inl rfl⟩
  · exact .inr ⟨more ++ rest, .inr rfl⟩

theorem DenoteAll.atGap (h : DenoteAll t vs) : AtGap t := by
  cases h with
  | nil => exact .inl rfl
  | cons hne hgap _ _ => exact atGap_of_gap hne hgap _

theorem readSpacedArgument_eq_iff (hrest : AtGap rest) :
    readSpacedArgument t = some (v, rest) ↔
      ∃ gap cs, gap ≠ [] ∧ (∀ c ∈ gap, isSpace c = true) ∧ Denotes cs v ∧
        t = gap ++ (cs ++ rest) := by
  rw [readSpacedArgument, Option.ite_none_left_eq_some, readArgument_eq_iff hrest]
  constructor
  · rintro ⟨hne, cs, hcs, hdrop⟩
    refine ⟨t.takeWhile isSpace, cs, hne, fun c hc => List.mem_takeWhile_imp hc, hcs, ?_⟩
    rw [← hdrop, List.takeWhile_append_dropWhile]
  · rintro ⟨gap, cs, hne, hgap, hcs, rfl⟩
    have hstop := hcs.takeWhile_isSpace rest
    refine ⟨?_, cs, hcs, dropWhile_append_of_stop hgap hstop⟩
    rwa [takeWhile_append_of_stop hgap hstop]

theorem readArguments_of_none (h : readSpacedArgument t = none) : readArguments t = ([], t) := by
  rw [readArguments]
  split
  · rfl
  · next hsome => exact absurd (hsome.symm.trans h) (Option.some_ne_none _)

/-- The reader comes to the end of the line just for the arguments of the grammar. -/
theorem readArguments_eq_iff : readArguments t = (vs, []) ↔ DenoteAll t vs := by
  constructor
  · intro h
    induction t using readArguments.induct generalizing vs with
    | case1 t hnone =>
        rw [readArguments_of_none hnone] at h
        obtain ⟨rfl, rfl⟩ := Prod.mk.inj h
        exact .nil
    | case2 t v rest hsome _ values left hread ih =>
        rw [readArguments_of_some hsome, hread] at h
        obtain ⟨rfl, rfl⟩ := Prod.mk.inj h
        have hall := ih hread
        -- The rest is read to its end, so a gap follows the first argument.
        obtain ⟨gap, cs, hne, hgap, hcs, rfl⟩ := (readSpacedArgument_eq_iff hall.atGap).1 hsome
        exact .cons hne hgap hcs hall
  · intro h
    induction h with
    | nil => exact readArguments_of_none rfl
    | cons hne hgap hcs hrest ih =>
        have hread := (readSpacedArgument_eq_iff hrest.atGap).2 ⟨_, _, hne, hgap, hcs, rfl⟩
        rw [readArguments_of_some hread, ih]

end Arguments

end DisplayList
