import DisplayList.Listing.Quoted

/-!
# Reading back a quoted text

A text between quotes reads back as itself whatever follows it: no escape of a character can be
taken for the closing quote or for another escape. An escaped text holds no line feed, so it never
spans lines.
-/

namespace DisplayList

theorem escape_of_plain {c : Char} (hquote : c ≠ '"') (hslash : c ≠ '\\') (hfeed : c ≠ '\n') :
    escape c = [c] := by
  rw [escape]
  · exact hquote
  · exact hslash
  · exact hfeed

theorem readQuotedBody_of_plain {c : Char} (hquote : c ≠ '"') (hslash : c ≠ '\\')
    (rest : List Char) :
    readQuotedBody (c :: rest) = (readQuotedBody rest).map fun (s, left) => (c :: s, left) := by
  rw [readQuotedBody]
  · exact hquote
  · exact fun _ h => absurd h hslash
  · exact fun _ h => absurd h hslash
  · exact fun _ h => absurd h hslash
  · exact hslash

theorem readQuotedBody_escape (c : Char) (rest : List Char) :
    readQuotedBody (escape c ++ rest) =
      (readQuotedBody rest).map fun (s, left) => (c :: s, left) := by
  by_cases hquote : c = '"'
  · subst hquote
    rw [escape, List.cons_append, List.singleton_append, readQuotedBody]
  · by_cases hslash : c = '\\'
    · subst hslash
      rw [escape, List.cons_append, List.singleton_append, readQuotedBody]
    · by_cases hfeed : c = '\n'
      · subst hfeed
        rw [escape, List.cons_append, List.singleton_append, readQuotedBody]
      · rw [escape_of_plain hquote hslash hfeed, List.singleton_append,
          readQuotedBody_of_plain hquote hslash]

theorem readQuotedBody_flatMap (s rest : List Char) :
    readQuotedBody (s.flatMap escape ++ '"' :: rest) = some (s, rest) := by
  induction s with
  | nil => rw [List.flatMap_nil, List.nil_append, readQuotedBody]
  | cons c s ih =>
      -- One escaped character is taken off at a time, whatever stands behind it.
      rw [List.flatMap_cons, List.append_assoc, readQuotedBody_escape, ih, Option.map_some]

/-- A text between quotes is read back, and nothing behind it is touched. -/
theorem readQuoted_quote (s rest : List Char) : readQuoted (quote s ++ rest) = some (s, rest) := by
  rw [quote, List.cons_append, List.append_assoc, List.singleton_append, readQuoted]
  exact readQuotedBody_flatMap s rest

theorem newline_not_mem_escape (c : Char) : '\n' ∉ escape c := by
  by_cases hfeed : c = '\n'
  · subst hfeed
    decide
  · intro hmem
    rw [escape.eq_def] at hmem
    split at hmem
    · exact absurd hmem (by decide)
    · exact absurd hmem (by decide)
    · exact absurd hmem (by decide)
    · exact hfeed (List.mem_singleton.1 hmem).symm

theorem newline_not_mem_quote (s : List Char) : '\n' ∉ quote s := by
  rw [quote, List.mem_cons, List.mem_append, List.mem_flatMap]
  rintro (hmem | ⟨c, -, hmem⟩ | hmem)
  · exact absurd hmem (by decide)
  · exact newline_not_mem_escape c hmem
  · exact absurd hmem (by decide)

end DisplayList
