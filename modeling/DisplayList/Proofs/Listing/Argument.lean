import DisplayList.Listing.Statement
import DisplayList.Listing.Writer
import DisplayList.Proofs.Listing.Quoted
import DisplayList.Proofs.Number.RoundTrip
import DisplayList.Text.Blank

/-!
# Reading back the arguments of a line

A written value reads back as itself with nothing or a space behind it, `readArgument_written`, and
the values of a call, each behind a space, read back in order until nothing is left,
`readArguments_written`. The kinds of values are told apart by the first character alone.
-/

namespace DisplayList

/-- The values of a call as they stand in its line. -/
def writtenArguments (args : List Value) : List Char := args.flatMap fun v => ' ' :: v.written

theorem atBreak_writtenArguments (args : List Value) : AtBreak (writtenArguments args) := by
  cases args with
  | nil => exact .inl rfl
  | cons v args => exact .inr ⟨v.written ++ writtenArguments args, rfl⟩

section Ends

theorem written_number (x : Float) : (Value.number x).written = numberText x :=
  String.toList_ofList

/-- The characters that a written value begins with. -/
def valueHeads : List Char := "\"tf".toList ++ numeralHeads

theorem written_head (v : Value) :
    ∃ c cs, v.written = c :: cs ∧ c ∈ valueHeads := by
  cases v with
  | number x =>
      obtain ⟨c, cs, hcons, hc⟩ := numberText_head x
      exact ⟨c, cs, (written_number x).trans hcons, List.mem_append_right _ hc⟩
  | flag b => cases b <;> exact ⟨_, _, rfl, by decide⟩
  | text s => exact ⟨'"', _, rfl, by decide⟩

theorem written_last (v : Value) : ∃ cs c, v.written = cs ++ [c] ∧ isBlank c = false := by
  cases v with
  | number x =>
      have hblank : ∀ c ∈ numeralChars, isBlank c = false :=
        List.all_iff_forall_prop.1 (by decide)
      obtain ⟨c, cs, hcons, -⟩ := numberText_head x
      have hne : numberText x ≠ [] := hcons ▸ List.cons_ne_nil c cs
      refine ⟨(numberText x).dropLast, (numberText x).getLast hne, ?_, ?_⟩
      · rw [List.dropLast_concat_getLast, written_number]
      · exact hblank _ (mem_numberText (List.getLast_mem hne))
  | flag b =>
      cases b with
      | true => exact ⟨['t', 'r', 'u'], 'e', rfl, by decide⟩
      | false => exact ⟨['f', 'a', 'l', 's'], 'e', rfl, by decide⟩
  | text s => exact ⟨'"' :: s.toList.flatMap escape, '"', rfl, by decide⟩

theorem newline_not_mem_written (v : Value) : '\n' ∉ v.written := by
  cases v with
  | number x =>
      rw [written_number]
      intro hmem
      exact absurd (mem_numberText hmem) (by decide)
  | flag b => cases b <;> decide
  | text s => exact newline_not_mem_quote s.toList

end Ends

section Read

variable {rest : List Char}

theorem dropWhile_isSpace_written (v : Value) (rest : List Char) :
    (v.written ++ rest).dropWhile isSpace = v.written ++ rest := by
  have hspace : ∀ c ∈ valueHeads, isSpace c = false :=
    List.all_iff_forall_prop.1 (by decide)
  obtain ⟨c, cs, hcons, hc⟩ := written_head v
  rw [hcons, List.cons_append, List.dropWhile_cons_of_neg (Bool.not_eq_true _ ▸ hspace c hc)]

theorem afterText?_cons_of_ne {b c : Char} (beginning s : List Char) (h : b ≠ c) :
    afterText? (b :: beginning) (c :: s) = none := by
  rw [afterText?, if_neg h]

theorem readQuoted_cons_of_ne {c : Char} (s : List Char) (h : c ≠ '"') :
    readQuoted (c :: s) = none := by
  rw [readQuoted]
  intro _ hcons
  exact h (List.cons.inj hcons).1

/-- A value that is written is read back, and nothing behind it is touched. -/
theorem readArgument_written (v : Value) (h : AtBreak rest) :
    readArgument (v.written ++ rest) = some (v, rest) := by
  cases v with
  | number x =>
      have hheads : ∀ c ∈ numeralHeads, 't' ≠ c ∧ 'f' ≠ c ∧ c ≠ '"' :=
        List.all_iff_forall_prop.1 (by decide)
      have hread := readNumber_numberText x h
      obtain ⟨c, cs, hcons, hc⟩ := numberText_head x
      obtain ⟨htrue, hfalse, hquote⟩ := hheads c hc
      rw [written_number]
      rw [hcons, List.cons_append] at hread ⊢
      rw [readArgument]
      simp only [String.reduceToList, afterText?_cons_of_ne _ _ htrue,
        afterText?_cons_of_ne _ _ hfalse, readQuoted_cons_of_ne _ hquote, hread, Option.map_some]
  | flag b => cases b <;> rfl
  | text s =>
      have hread := readQuoted_quote s.toList rest
      have htrue : afterText? "true".toList (quote s.toList ++ rest) = none := rfl
      have hfalse : afterText? "false".toList (quote s.toList ++ rest) = none := rfl
      rw [Value.written, readArgument]
      simp only [htrue, hfalse, hread, String.ofList_toList]

theorem readSpacedArgument_written (v : Value) (h : AtBreak rest) :
    readSpacedArgument (' ' :: (v.written ++ rest)) = some (v, rest) := by
  have hspace : (' ' :: (v.written ++ rest)).takeWhile isSpace ≠ [] := by
    rw [List.takeWhile_cons_of_pos (by decide)]
    exact List.cons_ne_nil ' ' _
  rw [readSpacedArgument, if_neg hspace, List.dropWhile_cons_of_pos (by decide),
    dropWhile_isSpace_written, readArgument_written v h]

theorem readArguments_of_some {s : List Char} {v : Value}
    (h : readSpacedArgument s = some (v, rest)) :
    readArguments s = (v :: (readArguments rest).1, (readArguments rest).2) := by
  rw [readArguments]
  split
  · next hnone => exact absurd (h.symm.trans hnone) (Option.some_ne_none _)
  · next hsome =>
    obtain ⟨rfl, rfl⟩ := Prod.mk.inj (Option.some.inj (h.symm.trans hsome))
    rfl

/-- The values of a call are read back to the end of the line. -/
theorem readArguments_written (args : List Value) :
    readArguments (writtenArguments args) = (args, []) := by
  induction args with
  | nil =>
      rw [writtenArguments, List.flatMap_nil, readArguments]
      split
      · rfl
      · next hsome => exact absurd hsome.symm (Option.some_ne_none _)
  | cons v args ih =>
      have hread := readSpacedArgument_written v (atBreak_writtenArguments args)
      exact (readArguments_of_some hread).trans (by rw [ih])

end Read

end DisplayList
