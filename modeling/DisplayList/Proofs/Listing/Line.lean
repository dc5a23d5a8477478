import DisplayList.Listing.Assembly
import DisplayList.Proofs.Listing.Argument
import DisplayList.Proofs.Text.Blank

/-!
# Reading back a line

The line of a record denotes that record: `recordOfLine_line`. The name runs up to the first space,
an equals sign stands behind it only in an assignment, neither end of the line is blank, and no line
holds a line feed, so that the lines of a listing are those of its records.
-/

namespace DisplayList

section Lines

theorem lines_cons_of_ne {c : Char} (hc : c ≠ '\n') {s line : List Char}
    {more : List (List Char)} (h : lines s = line :: more) :
    lines (c :: s) = (c :: line) :: more := by
  rw [lines, h]
  exact hc

theorem lines_append_newline {line : List Char} (h : '\n' ∉ line) (rest : List Char) :
    lines (line ++ '\n' :: rest) = line :: lines rest := by
  induction line with
  | nil => rw [List.nil_append, lines]
  | cons c line ih =>
      rw [List.mem_cons, not_or] at h
      exact lines_cons_of_ne (Ne.symm h.1) (ih h.2)

end Lines

namespace Operation

theorem name_ne_nil (op : Operation) : op.name.toList ≠ [] := by
  cases op with
  | method m => cases m <;> decide
  | property p => cases p <;> decide

theorem isAlphanum_of_mem_name (op : Operation) :
    ∀ c ∈ op.name.toList, c.isAlphanum = true ∧ isBlank c = false := by
  cases op with
  | method m => cases m <;> exact List.all_iff_forall_prop.1 (by decide)
  | property p => cases p <;> exact List.all_iff_forall_prop.1 (by decide)

theorem name_last (op : Operation) :
    ∃ cs c, op.name.toList = cs ++ [c] ∧ isBlank c = false :=
  ⟨_, _, (List.dropLast_concat_getLast op.name_ne_nil).symm,
    (op.isAlphanum_of_mem_name _ (List.getLast_mem op.name_ne_nil)).2⟩

section Rest

variable {rest : List Char}

theorem takeWhile_name (op : Operation) (h : rest.takeWhile Char.isAlphanum = []) :
    (op.name.toList ++ rest).takeWhile Char.isAlphanum = op.name.toList := by
  rw [List.takeWhile_append_of_pos fun c hc => (op.isAlphanum_of_mem_name c hc).1, h,
    List.append_nil]

theorem dropWhile_name (op : Operation) (h : rest.takeWhile Char.isAlphanum = []) :
    (op.name.toList ++ rest).dropWhile Char.isAlphanum = rest := by
  have happend := List.takeWhile_append_dropWhile (p := Char.isAlphanum) (l := rest)
  rw [List.dropWhile_append_of_pos fun c hc => (op.isAlphanum_of_mem_name c hc).1]
  rwa [h, List.nil_append] at happend

end Rest

end Operation

namespace Record

/-- What stands behind the name in a line. -/
def behindName : Record → List Char
  | call _ args => writtenArguments args
  | set _ value => " = ".toList ++ value.written

theorem line_eq (r : Record) : r.line = r.op.name.toList ++ r.behindName := by
  cases r with
  | call m args => rfl
  | set p value => exact List.append_assoc _ _ _

theorem takeWhile_behindName (r : Record) : r.behindName.takeWhile Char.isAlphanum = [] := by
  cases r with
  | call m args => cases args <;> rfl
  | set p value => rfl

/-- The statement that the line of a record is read as. -/
def statement : Record → Statement
  | call m args => .call m.name.toList args
  | set p value => .set p.name.toList value

theorem record_statement (r : Record) : r.statement.record = .ok r := by
  cases r with
  | call m args =>
      have hname : Operation.ofName? m.name = some (.method m) := Operation.ofName?_name (.method m)
      rw [statement, Statement.record, String.ofList_toList, hname]
  | set p value =>
      have hname : Operation.ofName? p.name = some (.property p) :=
        Operation.ofName?_name (.property p)
      rw [statement, Statement.record, String.ofList_toList, hname]

end Record

section Statement

-- An assignment is tried first, so a call must not look like one.
theorem readAssigned_writtenArguments (args : List Value) :
    readAssigned (writtenArguments args) = none := by
  cases args with
  | nil => rfl
  | cons v args =>
      have hequals : ∀ c ∈ valueHeads, c ≠ '=' :=
        List.all_iff_forall_prop.1 (by decide)
      have hdrop : (writtenArguments (v :: args)).dropWhile isSpace =
          v.written ++ writtenArguments args := dropWhile_isSpace_written v (writtenArguments args)
      obtain ⟨c, cs, hcons, hc⟩ := written_head v
      rw [readAssigned, hdrop, hcons, List.cons_append]
      split
      · next heq => exact absurd (List.cons.inj heq).1 (hequals c hc)
      · rfl

theorem readAssigned_written (v : Value) :
    readAssigned (" = ".toList ++ v.written) = some (v, []) := by
  have hdrop : (" = ".toList ++ v.written).dropWhile isSpace = '=' :: ' ' :: v.written := rfl
  have hvalue : (' ' :: v.written).dropWhile isSpace = v.written := by
    rw [List.dropWhile_cons_of_pos (by decide)]
    exact List.append_nil v.written ▸ dropWhile_isSpace_written v []
  have hread : readArgument (v.written ++ []) = some (v, []) := readArgument_written v (.inl rfl)
  rw [List.append_nil] at hread
  simp only [readAssigned, hdrop, hvalue, hread]

theorem readStatement_line (r : Record) : readStatement r.line = .ok r.statement := by
  have htake := r.op.takeWhile_name r.takeWhile_behindName
  have hdrop := r.op.dropWhile_name r.takeWhile_behindName
  simp only [readStatement, r.line_eq, htake, hdrop, if_neg r.op.name_ne_nil]
  cases r with
  | call m args =>
      simp only [Record.behindName, readAssigned_writtenArguments, readArguments_written,
        if_true]
      rfl
  | set p value =>
      simp only [Record.behindName, readAssigned_written, if_true]
      rfl

end Statement

namespace Record

theorem line_head (r : Record) :
    ∃ c cs, r.line = c :: cs ∧ c.isAlphanum = true ∧ isBlank c = false := by
  obtain ⟨c, cs, hname⟩ := List.ne_nil_iff_exists_cons.1 r.op.name_ne_nil
  refine ⟨c, cs ++ r.behindName, ?_, ?_⟩
  · rw [r.line_eq, hname, List.cons_append]
  · exact r.op.isAlphanum_of_mem_name c (hname ▸ List.mem_cons_self)

theorem line_last (r : Record) : ∃ cs c, r.line = cs ++ [c] ∧ isBlank c = false := by
  have hvalue : ∀ (front : List Char) (v : Value), r.line = front ++ v.written →
      ∃ cs c, r.line = cs ++ [c] ∧ isBlank c = false := by
    intro front v hline
    obtain ⟨cs, c, hwritten, hc⟩ := written_last v
    exact ⟨front ++ cs, c, by rw [hline, hwritten, List.append_assoc], hc⟩
  cases r with
  | call m args =>
      rcases List.eq_nil_or_concat args with rfl | ⟨before, v, rfl⟩
      · obtain ⟨cs, c, hname, hc⟩ := (Operation.method m).name_last
        exact ⟨cs, c, (List.append_nil _).trans hname, hc⟩
      · apply hvalue (m.name.toList ++ writtenArguments before ++ [' ']) v
        simp [line, writtenArguments]
  | set p value => exact hvalue (p.name.toList ++ " = ".toList) value rfl

theorem newline_not_mem_line (r : Record) : '\n' ∉ r.line := by
  rw [r.line_eq, List.mem_append]
  rintro (hmem | hmem)
  · exact absurd (r.op.isAlphanum_of_mem_name _ hmem).1 (by decide)
  · cases r with
    | call m args =>
        obtain ⟨v, -, hv⟩ := List.mem_flatMap.1 hmem
        rcases List.mem_cons.1 hv with hspace | hv
        · exact absurd hspace (by decide)
        · exact newline_not_mem_written v hv
    | set p value =>
        rcases List.mem_append.1 hmem with hequals | hv
        · exact absurd hequals (by decide)
        · exact newline_not_mem_written value hv

end Record

/-- The line of a record denotes that record. -/
theorem recordOfLine_line (r : Record) : recordOfLine r.line = .ok (some r) := by
  obtain ⟨first, others, hfront, halpha, hfirst⟩ := r.line_head
  obtain ⟨before, last, hback, hlast⟩ := r.line_last
  have hstatement : ¬(r.line = [] ∨ r.line.head? = some '#') := by
    rw [hfront]
    rintro (hnil | hcomment)
    · exact absurd hnil (List.cons_ne_nil first others)
    · rw [Option.some.inj hcomment] at halpha
      exact absurd halpha (by decide)
  simp only [recordOfLine, trim_of_ends hfront hback hfirst hlast, if_neg hstatement,
    readStatement_line, r.record_statement]
  rfl

/-- The lines of a listing are those of its records. -/
theorem lines_listing (records : List Record) :
    lines (listing records) = records.map Record.line := by
  induction records with
  | nil => rfl
  | cons r records ih =>
      rw [listing_cons, lines_append_newline r.newline_not_mem_line, ih, List.map_cons]

section RecordsOfLines

variable {line : List Char}

theorem recordsOfLines_cons_of_error {cause : LineFault} (h : recordOfLine line = .error cause)
    (n : Nat) (ls : List (List Char)) : recordsOfLines n (line :: ls) = .error ⟨n, cause⟩ := by
  rw [recordsOfLines, h]

theorem recordsOfLines_cons_of_ok {o : Option Record} (h : recordOfLine line = .ok o) (n : Nat)
    (ls : List (List Char)) :
    recordsOfLines n (line :: ls) = (recordsOfLines (n + 1) ls).map (o.toList ++ ·) := by
  rw [recordsOfLines, h]
  cases o with
  | none => cases recordsOfLines (n + 1) ls <;> rfl
  | some record => rfl

end RecordsOfLines

theorem recordsOfLines_map_line (n : Nat) (records : List Record) :
    recordsOfLines n (records.map Record.line) = .ok records := by
  induction records generalizing n with
  | nil => rfl
  | cons r records ih =>
      rw [List.map_cons, recordsOfLines_cons_of_ok (recordOfLine_line r), ih]
      rfl

/-- A listing denotes the records that it was written for. -/
theorem recordsOfListing_listing (records : List Record) :
    recordsOfListing (listing records) = .ok records := by
  rw [recordsOfListing, lines_listing]
  exact recordsOfLines_map_line 1 records

end DisplayList
