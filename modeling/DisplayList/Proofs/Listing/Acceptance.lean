import DisplayList.Proofs.Listing.Grammar
import DisplayList.Proofs.Listing.Line
import DisplayList.Proofs.Recorder.Recording

/-!
# The lines that are accepted

`LineDenotes` tells without the reader which lines denote a record, or none, and which record it is.
A line that is assembled on its own is accepted just if it is one of them once its blanks are off,
and what it denotes is recorded: `assemble_line_iff`. The reader tries an assignment before a call,
but no call of the grammar can be taken for an assignment, and a line that is neither is turned
down however far it was read.
-/

namespace DisplayList

/-- The lines without blanks at their ends that denote a record or none: an empty line and a
comment, the name of a method with arguments each behind a gap, and the name of a property with one
argument behind an equals sign. -/
inductive LineDenotes : List Char → Option Record → Prop
  | blank : LineDenotes [] none
  | comment (rest : List Char) : LineDenotes ('#' :: rest) none
  | call (m : Method) {cs : List Char} {args : List Value} (h : DenoteAll cs args) :
      LineDenotes (m.name.toList ++ cs) (some (.call m args))
  | set (p : Property) {before after cs : List Char} {v : Value}
      (hbefore : ∀ c ∈ before, isSpace c = true) (hafter : ∀ c ∈ after, isSpace c = true)
      (h : Denotes cs v) :
      LineDenotes (p.name.toList ++ (before ++ '=' :: (after ++ cs))) (some (.set p v))

section Statement

variable {t line name cs : List Char} {v : Value} {args : List Value}

/-- An assignment is read to the end of the line just if it is one of the grammar. -/
theorem readAssigned_eq_iff :
    readAssigned t = some (v, []) ↔
      ∃ before after cs, (∀ c ∈ before, isSpace c = true) ∧ (∀ c ∈ after, isSpace c = true) ∧
        Denotes cs v ∧ t = before ++ '=' :: (after ++ cs) := by
  have hwhole := fun s : List Char => List.takeWhile_append_dropWhile (p := isSpace) (l := s)
  constructor
  · intro h
    rw [readAssigned] at h
    split at h
    · next behind hdrop =>
      obtain ⟨cs, hcs, hbehind⟩ := (readArgument_eq_iff (.inl rfl)).1 h
      refine ⟨t.takeWhile isSpace, behind.takeWhile isSpace, cs, fun c => List.mem_takeWhile_imp,
        fun c => List.mem_takeWhile_imp, hcs, ?_⟩
      rw [List.append_nil] at hbehind
      rw [← hbehind, hwhole, ← hdrop, hwhole]
    · exact absurd h.symm (Option.some_ne_none _)
  · rintro ⟨before, after, cs, hbefore, hafter, hcs, rfl⟩
    have hdrop : (before ++ '=' :: (after ++ cs)).dropWhile isSpace = '=' :: (after ++ cs) :=
      dropWhile_append_of_stop hbefore rfl
    have hvalue := dropWhile_append_of_stop hafter (hcs.takeWhile_isSpace [])
    have hread : readArgument (cs ++ []) = some (v, []) :=
      (readArgument_eq_iff (.inl rfl)).2 ⟨cs, hcs, rfl⟩
    rw [List.append_nil] at hvalue hread
    simp only [readAssigned, hdrop, hvalue, hread]

theorem DenoteAll.readAssigned_eq_none (h : DenoteAll cs args) : readAssigned cs = none := by
  cases h with
  | nil => rfl
  | @cons gap cs rest v vs hne hgap hcs hrest =>
      have hdrop := dropWhile_append_of_stop hgap (hcs.takeWhile_isSpace rest)
      obtain ⟨c, tail, rfl, -, hequals⟩ := hcs.head
      rw [readAssigned, hdrop, List.cons_append]
      split
      · next heq => exact absurd (List.cons.inj heq).1 hequals
      · rfl

theorem DenoteAll.takeWhile_isAlphanum (h : DenoteAll cs args) :
    cs.takeWhile Char.isAlphanum = [] := by
  rcases h.atGap with rfl | ⟨more, rfl | rfl⟩ <;> rfl

theorem takeWhile_isAlphanum_assigned {before : List Char}
    (hbefore : ∀ c ∈ before, isSpace c = true) (rest : List Char) :
    (before ++ '=' :: rest).takeWhile Char.isAlphanum = [] := by
  cases before with
  | nil => rfl
  | cons c before =>
      rcases eq_space_or_tab (hbefore c List.mem_cons_self) with rfl | rfl <;> rfl

theorem readStatement_of_assigned (hne : name ≠ []) (hname : ∀ c ∈ name, c.isAlphanum = true)
    (hstop : t.takeWhile Char.isAlphanum = []) (hread : readAssigned t = some (v, [])) :
    readStatement (name ++ t) = .ok (.set name v) := by
  simp only [readStatement, takeWhile_append_of_stop hname hstop,
    dropWhile_append_of_stop hname hstop, if_neg hne, hread, if_true]

theorem readStatement_of_arguments (hne : name ≠ []) (hname : ∀ c ∈ name, c.isAlphanum = true)
    (h : DenoteAll cs args) : readStatement (name ++ cs) = .ok (.call name args) := by
  have hstop := h.takeWhile_isAlphanum
  simp only [readStatement, takeWhile_append_of_stop hname hstop,
    dropWhile_append_of_stop hname hstop, if_neg hne, h.readAssigned_eq_none,
    readArguments_eq_iff.2 h, if_true]

theorem exists_of_readStatement {s : Statement} (h : readStatement line = .ok s) :
    ∃ name rest, line = name ++ rest ∧
      ((∃ v, readAssigned rest = some (v, []) ∧ s = .set name v) ∨
        ∃ args, DenoteAll rest args ∧ s = .call name args) := by
  refine ⟨line.takeWhile Char.isAlphanum, line.dropWhile Char.isAlphanum,
    List.takeWhile_append_dropWhile.symm, ?_⟩
  simp only [readStatement] at h
  split at h
  · cases h
  · cases hread : readAssigned (line.dropWhile Char.isAlphanum) with
    | some r =>
        obtain ⟨v, left⟩ := r
        simp only [hread] at h
        split at h
        · next hleft =>
          subst hleft
          exact .inl ⟨v, rfl, (Except.ok.inj h).symm⟩
        · cases h
    | none =>
        simp only [hread] at h
        split at h
        · next hleft =>
          exact .inr ⟨_, readArguments_eq_iff.1 (Prod.ext rfl hleft), (Except.ok.inj h).symm⟩
        · cases h

/-- The lines of the grammar are those whose statement is that of a record. -/
theorem lineDenotes_some_iff {r : Record} :
    LineDenotes line (some r) ↔ readStatement line = .ok r.statement := by
  have hname := fun (op : Operation) c hc => (op.isAlphanum_of_mem_name c hc).1
  constructor
  · intro h
    cases h with
    | call m h =>
        exact readStatement_of_arguments (Operation.method m).name_ne_nil (hname (.method m)) h
    | set p hbefore hafter h =>
        exact readStatement_of_assigned (Operation.property p).name_ne_nil (hname (.property p))
          (takeWhile_isAlphanum_assigned hbefore _)
          (readAssigned_eq_iff.2 ⟨_, _, _, hbefore, hafter, h, rfl⟩)
  · intro h
    obtain ⟨name, rest, rfl, ⟨v, hread, heq⟩ | ⟨args, hall, heq⟩⟩ := exists_of_readStatement h
    · cases r with
      | call m args => cases heq
      | set p value =>
          obtain ⟨rfl, rfl⟩ := Statement.set.inj heq
          obtain ⟨before, after, cs, hbefore, hafter, hcs, rfl⟩ := readAssigned_eq_iff.1 hread
          exact .set p hbefore hafter hcs
    · cases r with
      | call m args =>
          obtain ⟨rfl, rfl⟩ := Statement.call.inj heq
          exact .call m hall
      | set p value => cases heq

theorem eq_toList_name_of_ofName? {op : Operation}
    (h : Operation.ofName? (String.ofList name) = some op) : name = op.name.toList := by
  rw [Operation.name_of_ofName? h, String.toList_ofList]

/-- No statement but that of a record is looked up as the record. -/
theorem eq_statement_of_record {s : Statement} {r : Record} (h : s.record = .ok r) :
    s = r.statement := by
  cases s with
  | call name args =>
      rw [Statement.record] at h
      split at h
      · next m hname =>
        obtain rfl := Except.ok.inj h
        exact congrArg (Statement.call · args) (eq_toList_name_of_ofName? hname)
      · cases h
      · cases h
  | set name value =>
      rw [Statement.record] at h
      split at h
      · next p hname =>
        obtain rfl := Except.ok.inj h
        exact congrArg (Statement.set · value) (eq_toList_name_of_ofName? hname)
      · cases h
      · cases h

end Statement

section Line

variable {line : List Char}

theorem lineDenotes_none_iff :
    LineDenotes line none ↔ line = [] ∨ line.head? = some '#' := by
  constructor
  · intro h
    cases h with
    | blank => exact .inl rfl
    | comment rest => exact .inr rfl
  · rintro (rfl | hhead)
    · exact .blank
    · obtain ⟨rest, rfl⟩ := List.head?_eq_some_iff.1 hhead
      exact .comment rest

-- Neither the number sign nor the end of a line is part of a name.
theorem LineDenotes.not_skipped {r : Record} (h : LineDenotes line (some r)) :
    ¬(line = [] ∨ line.head? = some '#') := by
  have hread := lineDenotes_some_iff.1 h
  rintro (rfl | hhead)
  · cases hread
  · obtain ⟨rest, rfl⟩ := List.head?_eq_some_iff.1 hhead
    cases hread

/-- A line denotes what the grammar says of it without its blanks. -/
theorem recordOfLine_eq_ok_iff {o : Option Record} :
    recordOfLine line = .ok o ↔ LineDenotes (trim line) o := by
  simp only [recordOfLine]
  by_cases hskip : trim line = [] ∨ (trim line).head? = some '#'
  · rw [if_pos hskip]
    constructor
    · intro h
      obtain rfl := Except.ok.inj h
      exact lineDenotes_none_iff.2 hskip
    · intro h
      cases o with
      | none => rfl
      | some r => exact absurd hskip h.not_skipped
  · rw [if_neg hskip]
    constructor
    · intro h
      split at h
      · cases h
      · next s hread =>
        cases hrecord : s.record with
        | error cause =>
            rw [hrecord] at h
            cases h
        | ok r =>
            rw [hrecord] at h
            obtain rfl := Except.ok.inj h
            exact lineDenotes_some_iff.2 (eq_statement_of_record hrecord ▸ hread)
    · intro h
      cases o with
      | none => exact absurd (lineDenotes_none_iff.1 h) hskip
      | some r =>
          rw [lineDenotes_some_iff.1 h]
          simp only [r.record_statement]
          rfl

theorem lines_of_newline_not_mem (h : '\n' ∉ line) (hne : line ≠ []) : lines line = [line] := by
  induction line with
  | nil => exact absurd rfl hne
  | cons c line ih =>
      rw [List.mem_cons, not_or] at h
      by_cases hline : line = []
      · subst hline
        rw [lines]
        · rfl
        · exact (Ne.symm h.1)
      · exact lines_cons_of_ne (Ne.symm h.1) (ih h.2 hline)

/-- A listing of one line, whether or not a line feed ends it, records what that line denotes or
reports it as the first. -/
theorem assemble_line {text : String} (hfeed : '\n' ∉ line)
    (htext : text.toList = line ∨ text.toList = line ++ ['\n']) :
    assemble text = match recordOfLine line with
      | .error cause => .error ⟨1, cause⟩
      | .ok o => .ok (o.toList.foldl Recorder.record .new) := by
  have hrecords : recordsOfListing text.toList = recordsOfLines 1 [line] := by
    rcases htext with htext | htext
    · by_cases hline : line = []
      · subst hline
        rw [htext]
        rfl
      · rw [htext, recordsOfListing, lines_of_newline_not_mem hfeed hline]
    · rw [htext, recordsOfListing, lines_append_newline hfeed]
      rfl
  rw [assemble, hrecords, recordsOfLines]
  cases recordOfLine line with
  | error cause => rfl
  | ok o => cases o <;> rfl

theorem eq_of_foldl_record_eq {o o' : Option Record}
    (h : o.toList.foldl Recorder.record .new = o'.toList.foldl Recorder.record .new) : o = o' := by
  have hslots := congrArg Recorder.slots h
  rw [Recorder.slots_foldl_record, Recorder.slots_foldl_record] at hslots
  have hdecode := congrArg decode (List.append_cancel_left hslots)
  rw [decode_encodeAll, decode_encodeAll] at hdecode
  have hlist : o.toList = o'.toList := congrArg Decoding.records hdecode
  rw [← Option.head?_toList (o := o), hlist, Option.head?_toList]

/-- A line on its own is assembled to the record that it denotes just if the grammar says that it
denotes that record or none, and every other line is reported as unreadable. -/
theorem assemble_line_iff {text : String} (hfeed : '\n' ∉ line)
    (htext : text.toList = line ∨ text.toList = line ++ ['\n']) :
    (∀ o, assemble text = .ok (o.toList.foldl Recorder.record .new) ↔
      LineDenotes (trim line) o) ∧
      ((¬∃ o, LineDenotes (trim line) o) → ∃ cause, assemble text = .error ⟨1, cause⟩) := by
  have hassemble := assemble_line hfeed htext
  constructor
  · intro o
    rw [← recordOfLine_eq_ok_iff, hassemble]
    cases recordOfLine line with
    | error cause => exact iff_of_false nofun nofun
    | ok o' =>
        constructor
        · intro h
          rw [eq_of_foldl_record_eq (Except.ok.inj h)]
        · intro h
          rw [Except.ok.inj h]
  · intro hnone
    cases hrecord : recordOfLine line with
    | error cause => exact ⟨cause, by rw [hassemble, hrecord]⟩
    | ok o => exact absurd ⟨o, recordOfLine_eq_ok_iff.1 hrecord⟩ hnone

theorem assemble_line_iff_quoted_font :
    assemble " font\t=\t\"A\\\"\" " =
        .ok ([Record.set .font (.text "A\"")].foldl Recorder.record .new) ∧
      ∃ cause, assemble "stroke = true" = .error ⟨1, cause⟩ := by
  constructor
  · have hbody : QuotedAs ['A', '\\', '"'] ['A', '"'] :=
      .plain (by decide) (by decide) (.quote .nil)
    have hspace : ∀ c ∈ ['\t'], isSpace c = true := List.forall_mem_singleton.2 rfl
    have hline := LineDenotes.set .font hspace hspace (.text hbody)
    refine ((assemble_line_iff (by decide) (.inl rfl)).1 (some _)).2 ?_
    exact hline
  · refine (assemble_line_iff (by decide) (.inl rfl)).2 ?_
    rintro ⟨o, ho⟩
    have hfault : recordOfLine "stroke = true".toList = .error (.methodAssigned .stroke) := rfl
    rw [recordOfLine_eq_ok_iff.2 ho] at hfault
    cases hfault

end Line

end DisplayList
