import DisplayList.Listing.Writer
import DisplayList.Proofs.Listing.Grammar

/-!
# Quoting as a codec

Writing a text between quotes and reading it back undo each other. What is written reads back as the
text itself, whatever stands behind it, and what is read has been written in just this way unless it
holds a line feed, which is never written as itself: `quoted_codec`.

A quoted text may as well be read by whole runs of plain characters with escapes between them. There
are no runs in front of the quote that closes the empty text, and an escape that is none spoils all
the runs ahead of it. Either way reading goes on behind the opening quote, where the closing quote
now has to stand, so that only the empty text comes through: `readByRuns_eq`.
-/

namespace DisplayList

section Written

variable {body s : List Char}

/-- A character stands there as it is written, except that a line feed may also stand for itself. -/
theorem QuotedAs.eq_flatMap_escape (h : QuotedAs body s) (hfeed : '\n' ∉ body) :
    body = s.flatMap escape := by
  induction h with
  | nil => rfl
  | plain hquote hslash _ ih =>
      obtain ⟨hc, hbody⟩ := not_or.1 (mt List.mem_cons.2 hfeed)
      rw [List.flatMap_cons, escape_of_plain hquote hslash (Ne.symm hc), ← ih hbody]
      rfl
  | slash _ ih | quote _ ih | feed _ ih =>
      have hbody := mt (List.mem_cons_of_mem _ ∘ List.mem_cons_of_mem _) hfeed
      rw [List.flatMap_cons, ← ih hbody]
      rfl

theorem quotedAs_eq_quote_iff (h : QuotedAs body s) :
    '"' :: (body ++ ['"']) = quote s ↔ '\n' ∉ '"' :: (body ++ ['"']) := by
  constructor
  · intro heq
    rw [heq]
    exact newline_not_mem_quote s
  · intro hfeed
    have hbody : '\n' ∉ body := fun hmem =>
      hfeed (List.mem_cons_of_mem _ (List.mem_append_left _ hmem))
    rw [quote, ← h.eq_flatMap_escape hbody]

end Written

/-! ### Reading by runs -/

/-- Between quotes, the character stands for itself. -/
def isPlain (c : Char) : Bool := c ≠ '"' && c ≠ '\\'

/-- The character that a mark behind a backslash stands for, and what follows the mark. -/
def readEscape : List Char → Option (Char × List Char)
  | '\\' :: rest => some ('\\', rest)
  | '"' :: rest => some ('"', rest)
  | 'n' :: rest => some ('\n', rest)
  | _ => none

theorem readEscape_length {t left : List Char} {d : Char} (h : readEscape t = some (d, left)) :
    left.length < t.length := by
  unfold readEscape at h
  split at h <;> grind

/-- The text of the runs of plain characters and the escapes at the front, and what follows them. A
quote ends them if they have begun; otherwise there are none. -/
def readRuns (begun : Bool) : List Char → Option (List Char × List Char)
  | [] => some ([], [])
  | c :: rest =>
    if isPlain c then
      (readRuns true (rest.dropWhile isPlain)).map fun (s, left) =>
        (c :: (rest.takeWhile isPlain ++ s), left)
    else if c = '\\' then
      match _ : readEscape rest with
      | some (d, left) => (readRuns true left).map fun (s, left) => (d :: s, left)
      | none => none
    else if begun then some ([], c :: rest) else none
termination_by t => t.length
decreasing_by
  · exact Nat.lt_succ_of_le (List.length_dropWhile_le _ rest)
  · exact Nat.lt_succ_of_lt (readEscape_length ‹_›)

/-- A text, once the closing quote is taken off what follows it. -/
def closed? (read : List Char × List Char) : Option (List Char × List Char) :=
  match read.2 with
  | '"' :: rest => some (read.1, rest)
  | _ => none

/-- The quoted text at the front, read by runs that may be missing. -/
def readByRuns : List Char → Option (List Char × List Char)
  | '"' :: rest => closed? ((readRuns false rest).getD ([], rest))
  | _ => none

theorem readRuns_of_plain {c : Char} (hc : isPlain c) (begun : Bool) (rest : List Char) :
    readRuns begun (c :: rest) =
      (readRuns true (rest.dropWhile isPlain)).map fun (s, left) =>
        (c :: (rest.takeWhile isPlain ++ s), left) := by
  rw [readRuns, if_pos hc]

theorem readQuotedBody_of_run {run : List Char} (hrun : ∀ c ∈ run, isPlain c) (t : List Char) :
    readQuotedBody (run ++ t) = (readQuotedBody t).map fun (s, left) => (run ++ s, left) := by
  induction run with
  | nil => exact Option.map_id'.symm
  | cons c run ih =>
      have hc : c ≠ '"' ∧ c ≠ '\\' := by simpa [isPlain] using hrun c List.mem_cons_self
      rw [List.cons_append, readQuotedBody_of_plain hc.1 hc.2,
        ih fun d hd => hrun d (List.mem_cons_of_mem c hd), Option.map_map]
      rfl

theorem readQuotedBody_of_slash (rest : List Char) :
    readQuotedBody ('\\' :: rest) =
      (readEscape rest).bind fun (d, left) =>
        (readQuotedBody left).map fun (s, left) => (d :: s, left) := by
  unfold readEscape
  split
  · rw [readQuotedBody]; rfl
  · rw [readQuotedBody]; rfl
  · rw [readQuotedBody]; rfl
  · rw [readQuotedBody]
    · rfl
    all_goals grind

theorem readRuns_of_slash (begun : Bool) (rest : List Char) :
    readRuns begun ('\\' :: rest) =
      (readEscape rest).bind fun (d, left) =>
        (readRuns true left).map fun (s, left) => (d :: s, left) := by
  rw [readRuns, if_neg (by decide), if_pos rfl]
  split
  · next hescape => rw [hescape]; rfl
  · next hescape => rw [hescape]; rfl

theorem readRuns_of_quote (begun : Bool) (rest : List Char) :
    readRuns begun ('"' :: rest) = if begun then some ([], '"' :: rest) else none := by
  rw [readRuns, if_neg (by decide), if_neg (by decide)]

theorem eq_quote_or_slash {c : Char} (hc : ¬ isPlain c) : c = '"' ∨ c = '\\' := by
  simp only [isPlain, Bool.and_eq_true, decide_eq_true_eq, not_and_or, not_not] at hc
  exact hc

theorem bind_closed?_map (f : List Char → List Char) (o : Option (List Char × List Char)) :
    (o.map fun (s, left) => (f s, left)).bind closed? =
      (o.bind closed?).map fun (s, left) => (f s, left) := by
  cases o with
  | none => rfl
  | some p =>
      obtain ⟨s, left⟩ := p
      simp only [Option.map_some, Option.bind_some, closed?]
      split <;> rfl

theorem bind_closed?_readRuns (t : List Char) :
    (readRuns true t).bind closed? = readQuotedBody t := by
  -- wherever the reader calls itself, the runs have begun
  generalize hbegun : true = begun
  induction begun, t using readRuns.induct with
  | case1 begun =>
      rw [readRuns, readQuotedBody]
      rfl
  | case2 begun c rest hc ih =>
      have hrun : ∀ d ∈ c :: rest.takeWhile isPlain, isPlain d :=
        List.forall_mem_cons.2 ⟨hc, fun d hd => List.mem_takeWhile_imp hd⟩
      have hsplit : c :: rest = (c :: rest.takeWhile isPlain) ++ rest.dropWhile isPlain := by
        rw [List.cons_append, List.takeWhile_append_dropWhile]
      rw [readRuns_of_plain hc, bind_closed?_map (fun s => c :: (rest.takeWhile isPlain ++ s)),
        ih rfl, hsplit, readQuotedBody_of_run hrun]
      rfl
  | case3 begun rest d left hescape _ ih =>
      rw [readRuns_of_slash, readQuotedBody_of_slash, hescape, Option.bind_some, Option.bind_some,
        bind_closed?_map (d :: ·), ih rfl]
  | case4 begun rest hescape _ =>
      rw [readRuns_of_slash, readQuotedBody_of_slash, hescape]
      rfl
  | case5 c rest hc hslash =>
      obtain rfl := (eq_quote_or_slash hc).resolve_right hslash
      rw [readRuns_of_quote, readQuotedBody]
      rfl
  | case6 begun c rest hc hslash hnot => exact absurd hbegun.symm hnot

theorem closed?_of_ne {c : Char} (hc : c ≠ '"') (s rest : List Char) :
    closed? (s, c :: rest) = none := by
  rw [closed?]
  split
  · next heq => exact absurd (List.cons.inj heq).1 hc
  · rfl

/-- In front of anything but a quote, it makes no difference whether the runs have begun. -/
theorem readRuns_of_ne {c : Char} (hc : c ≠ '"') (rest : List Char) :
    readRuns false (c :: rest) = readRuns true (c :: rest) := by
  by_cases hplain : isPlain c
  · rw [readRuns_of_plain hplain, readRuns_of_plain hplain]
  · obtain rfl := (eq_quote_or_slash hplain).resolve_left hc
    rw [readRuns_of_slash, readRuns_of_slash]

theorem closed?_getD_readRuns (t : List Char) :
    closed? ((readRuns false t).getD ([], t)) = readQuotedBody t := by
  cases t with
  | nil =>
      rw [readRuns, readQuotedBody]
      rfl
  | cons c rest =>
      by_cases hc : c = '"'
      · subst hc
        rw [readRuns_of_quote, readQuotedBody]
        rfl
      · rw [readRuns_of_ne hc, ← bind_closed?_readRuns]
        -- a failure leaves the reader in front of a character that closes nothing
        cases readRuns true (c :: rest) with
        | none => exact closed?_of_ne hc [] rest
        | some read => rfl

/-- Reading by runs that may be missing and reading character by character come to the same. -/
theorem readByRuns_eq (t : List Char) : readByRuns t = readQuoted t := by
  cases t with
  | nil => rfl
  | cons c rest =>
      by_cases hc : c = '"'
      · subst hc
        exact closed?_getD_readRuns rest
      · rw [readQuoted_cons_of_ne _ hc, readByRuns]
        exact fun _ heq => hc (List.cons.inj heq).1

/-- Quoted texts are read as if by runs. A text between quotes is read back and nothing behind it is
touched, and what is read has been written like this, unless it holds a line feed. -/
theorem quoted_codec :
    (∀ t, readQuoted t = readByRuns t) ∧
      (∀ (s : String) (rest : List Char),
        readQuoted ((Value.text s).written ++ rest) = some (s.toList, rest)) ∧
      ∀ t s left : List Char, readQuoted t = some (s, left) →
        ∃ taken, t = taken ++ left ∧
          (taken = (Value.text (String.ofList s)).written ↔ '\n' ∉ taken) := by
  refine ⟨fun t => (readByRuns_eq t).symm, fun s rest => readQuoted_quote s.toList rest,
    fun t s left h => ?_⟩
  obtain ⟨body, hbody, ht⟩ := exists_of_readQuoted h
  refine ⟨_, ht, ?_⟩
  rw [Value.written, String.toList_ofList]
  exact quotedAs_eq_quote_iff hbody

/-- A text that ends in a backslash, with a quote behind the literal. -/
theorem quoted_codec_backslash :
    let literal := "\"a\\\\\"".toList
    let rest := "\" b".toList
    readQuoted (literal ++ rest) = some ("a\\".toList, rest) ∧ '\n' ∉ literal ∧
      literal = (Value.text "a\\").written := by
  intro literal rest
  have hread : readQuoted (literal ++ rest) = some ("a\\".toList, rest) := rfl
  have hfeed : '\n' ∉ literal := by decide
  obtain ⟨taken, ht, hwritten⟩ := quoted_codec.2.2 _ _ _ hread
  obtain rfl := List.append_cancel_right ht
  exact ⟨hread, hfeed, hwritten.2 hfeed⟩

end DisplayList
