import DisplayList.Proofs.Listing.Acceptance
import DisplayList.Proofs.Listing.RoundTrip

/-!
# A listing is read line by line

What a line denotes does not depend on the lines around it, and where a line feed ends it, a
carriage return before that is only one more blank. So a listing is assembled just if each of its
lines is on its own, the slots are then those of the lines one behind the other, and otherwise the
first line that is turned down is reported: `assemble_line_by_line`. The same holds of two listings
put together at the end of a line.
-/

namespace DisplayList

/-- The lines of a text without what ends them, which is a line feed or a carriage return and a
line feed. -/
def textLines : List Char → List (List Char)
  | [] => []
  | '\r' :: '\n' :: rest => [] :: textLines rest
  | '\n' :: rest => [] :: textLines rest
  | c :: rest =>
    match textLines rest with
    | [] => [[c]]
    | line :: more => (c :: line) :: more

/-- The lines of a text as texts of their own. -/
def lineTexts (text : String) : List String := (textLines text.toList).map String.ofList

/-- The fault as it is reported when `n` more lines stand in front. -/
def ListingFault.behind (n : Nat) (f : ListingFault) : ListingFault := { f with line := n + f.line }

theorem recordOfLine_concat_of_blank {c : Char} (hc : isBlank c = true) (line : List Char) :
    recordOfLine (line ++ [c]) = recordOfLine line := by
  rw [recordOfLine, recordOfLine, trim_concat_of_blank hc]

section Lines

theorem lines_ne_nil {s : List Char} (h : s ≠ []) : lines s ≠ [] := by
  obtain ⟨c, rest, rfl⟩ := List.exists_cons_of_ne_nil h
  by_cases hc : c = '\n'
  · subst hc
    exact List.cons_ne_nil _ _
  · cases hrest : lines rest with
    | nil =>
        rw [lines, hrest]
        · exact List.cons_ne_nil _ _
        · exact hc
    | cons line more =>
        rw [lines_cons_of_ne hc hrest]
        exact List.cons_ne_nil _ _

/-- A line feed in a text parts its lines. -/
theorem lines_append_feed (s rest : List Char) :
    lines (s ++ '\n' :: rest) = lines (s ++ ['\n']) ++ lines rest := by
  induction s with
  | nil => rfl
  | cons c s ih =>
      by_cases hc : c = '\n'
      · subst hc
        rw [List.cons_append, List.cons_append, lines, lines, ih, List.cons_append]
      · obtain ⟨line, more, hs⟩ :=
          List.exists_cons_of_ne_nil (lines_ne_nil (s := s ++ ['\n']) (by simp))
        rw [hs, List.cons_append] at ih
        rw [List.cons_append, List.cons_append, lines_cons_of_ne hc ih, lines_cons_of_ne hc hs,
          List.cons_append]

/-- A line is read with the carriage return that may be in front of its line feed. -/
theorem forall₂_lines (s : List Char) :
    List.Forall₂ (fun line bare => line = bare ∨ line = bare ++ ['\r']) (lines s)
      (textLines s) := by
  fun_induction textLines s with
  | case1 => exact .nil
  | case2 rest ih => exact .cons (.inr rfl) ih
  | case3 rest ih => exact .cons (.inl rfl) ih
  | case4 c rest _ hc hrest ih =>
      rw [hrest, List.forall₂_nil_right_iff] at ih
      rw [lines, ih]
      · exact .cons (.inl rfl) .nil
      · exact hc
  | case5 c rest _ hc bare more hrest ih =>
      rw [hrest] at ih
      obtain ⟨line, later, hline, hlater, hlines⟩ := List.forall₂_cons_right_iff.1 ih
      rw [lines_cons_of_ne hc hlines]
      exact .cons (hline.imp (congrArg (c :: ·)) (congrArg (c :: ·))) hlater

theorem newline_notMem_textLines {s line : List Char} (h : line ∈ textLines s) : '\n' ∉ line := by
  fun_induction textLines s generalizing line with
  | case1 => cases h
  | case2 rest ih | case3 rest ih =>
      rcases List.mem_cons.1 h with rfl | h
      · exact List.not_mem_nil
      · exact ih h
  | case4 c rest _ hc _ _ =>
      rw [List.mem_singleton.1 h, List.mem_singleton]
      exact Ne.symm hc
  | case5 c rest _ hc bare more hrest ih =>
      rw [hrest] at ih
      rcases List.mem_cons.1 h with rfl | h
      · rw [List.mem_cons, not_or]
        exact ⟨Ne.symm hc, ih List.mem_cons_self⟩
      · exact ih (List.mem_cons_of_mem bare h)

end Lines

section Records

theorem recordsOfLines_congr {ls ks : List (List Char)}
    (h : List.Forall₂ (fun l k => recordOfLine l = recordOfLine k) ls ks) (n : Nat) :
    recordsOfLines n ls = recordsOfLines n ks := by
  induction h generalizing n with
  | nil => rfl
  | cons hline _ ih => rw [recordsOfLines, recordsOfLines, hline, ih]

theorem recordsOfLines_append (n : Nat) (front back : List (List Char)) :
    recordsOfLines n (front ++ back) =
      (recordsOfLines n front).bind fun records =>
        (recordsOfLines (n + front.length) back).map (records ++ ·) := by
  induction front generalizing n with
  | nil =>
      rw [List.nil_append, recordsOfLines, Except.bind, List.length_nil, Nat.add_zero]
      cases recordsOfLines n back <;> rfl
  | cons line front ih =>
      have hlength : n + (line :: front).length = n + 1 + front.length := by
        rw [List.length_cons, Nat.add_right_comm, Nat.add_assoc]
      rw [List.cons_append, hlength]
      cases hline : recordOfLine line with
      | error cause =>
          rw [recordsOfLines_cons_of_error hline, recordsOfLines_cons_of_error hline]
          rfl
      | ok o =>
          rw [recordsOfLines_cons_of_ok hline, recordsOfLines_cons_of_ok hline, ih]
          cases recordsOfLines (n + 1) front with
          | error fault => rfl
          | ok records =>
              cases recordsOfLines (n + 1 + front.length) back with
              | error fault => rfl
              | ok later => exact congrArg Except.ok (List.append_assoc _ _ _).symm

theorem recordsOfLines_add (n k : Nat) (ls : List (List Char)) :
    recordsOfLines (k + n) ls = (recordsOfLines n ls).mapError (.behind k) := by
  induction ls generalizing n with
  | nil => rfl
  | cons line ls ih =>
      cases hline : recordOfLine line with
      | error cause =>
          rw [recordsOfLines_cons_of_error hline, recordsOfLines_cons_of_error hline]
          rfl
      | ok o =>
          rw [recordsOfLines_cons_of_ok hline, recordsOfLines_cons_of_ok hline, Nat.add_assoc, ih]
          cases recordsOfLines (n + 1) ls <;> rfl

theorem exists_recordsOfLines_error_iff {n : Nat} {ls : List (List Char)} :
    (∃ fault, recordsOfLines n ls = .error fault) ↔
      ∃ line ∈ ls, ∃ cause, recordOfLine line = .error cause := by
  induction ls generalizing n with
  | nil => exact iff_of_false nofun nofun
  | cons line ls ih =>
      rw [List.exists_mem_cons_iff]
      cases hline : recordOfLine line with
      | error cause =>
          exact iff_of_true ⟨_, recordsOfLines_cons_of_error hline n ls⟩ (.inl ⟨cause, rfl⟩)
      | ok o =>
          rw [recordsOfLines_cons_of_ok hline, ← ih (n := n + 1)]
          cases recordsOfLines (n + 1) ls <;> simp [Except.map]

end Records

section Alone

variable {line : String}

theorem assemble_alone (h : '\n' ∉ line.toList) :
    assemble line = match recordOfLine line.toList with
      | .error cause => .error ⟨1, cause⟩
      | .ok o => .ok (o.toList.foldl Recorder.record .new) :=
  assemble_line h (.inl rfl)

theorem assemble_alone_eq_error_iff (h : '\n' ∉ line.toList) {fault : ListingFault} :
    assemble line = .error fault ↔
      fault.line = 1 ∧ recordOfLine line.toList = .error fault.cause := by
  rw [assemble_alone h]
  cases recordOfLine line.toList with
  | error cause =>
      simp only [Except.error.injEq]
      constructor
      · rintro rfl
        exact ⟨rfl, rfl⟩
      · rintro ⟨hline, hcause⟩
        rw [hcause, ← hline]
  | ok o => exact iff_of_false nofun fun hcause => nomatch hcause.2

theorem assemble_alone_eq_ok {r : Recorder} (h : '\n' ∉ line.toList) (hr : assemble line = .ok r) :
    ∃ o, recordOfLine line.toList = .ok o ∧ r.slots = encodeAll o.toList := by
  rw [assemble_alone h] at hr
  cases hrecord : recordOfLine line.toList with
  | error cause =>
      rw [hrecord] at hr
      cases hr
  | ok o =>
      rw [hrecord] at hr
      obtain rfl := Except.ok.inj hr
      exact ⟨o, rfl, Recorder.slots_foldl_record o.toList .new⟩

/-- Lines each of which can be assembled hold what each of them records, in order. -/
theorem recordsOfLines_of_assembled {texts : List String} (hfeed : ∀ t ∈ texts, '\n' ∉ t.toList)
    (hok : ∀ t ∈ texts, ∃ r, assemble t = .ok r) (n : Nat) :
    ∃ records rs, recordsOfLines n (texts.map String.toList) = .ok records ∧
      List.Forall₂ (fun t r => assemble t = .ok r) texts rs ∧
      encodeAll records = rs.flatMap Recorder.slots := by
  induction texts generalizing n with
  | nil => exact ⟨[], [], rfl, .nil, rfl⟩
  | cons t texts ih =>
      obtain ⟨r, hr⟩ := hok t List.mem_cons_self
      obtain ⟨o, ho, hslots⟩ := assemble_alone_eq_ok (hfeed t List.mem_cons_self) hr
      obtain ⟨records, rs, hrecords, hrs, hall⟩ :=
        ih (fun t' ht => hfeed t' (List.mem_cons_of_mem t ht))
          (fun t' ht => hok t' (List.mem_cons_of_mem t ht)) (n + 1)
      refine ⟨o.toList ++ records, r :: rs, ?_, .cons hr hrs, ?_⟩
      · rw [List.map_cons, recordsOfLines_cons_of_ok ho, hrecords]
        rfl
      · rw [encodeAll_append, List.flatMap_cons, hslots, hall]

end Alone

section Text

variable (text : String)

theorem newline_notMem_lineTexts : ∀ t ∈ lineTexts text, '\n' ∉ t.toList := by
  intro t ht
  obtain ⟨line, hline, rfl⟩ := List.mem_map.1 ht
  rw [String.toList_ofList]
  exact newline_notMem_textLines hline

theorem map_toList_lineTexts : (lineTexts text).map String.toList = textLines text.toList := by
  rw [lineTexts, List.map_map]
  exact List.map_id'' (fun _ => String.toList_ofList) _

theorem length_lineTexts : (lineTexts text).length = (lines text.toList).length := by
  rw [lineTexts, List.length_map, (forall₂_lines text.toList).length_eq]

theorem recordsOfLines_lineTexts (n : Nat) :
    recordsOfLines n ((lineTexts text).map String.toList) =
      recordsOfLines n (lines text.toList) := by
  rw [map_toList_lineTexts]
  refine (recordsOfLines_congr ((forall₂_lines text.toList).imp ?_) n).symm
  rintro line bare (rfl | rfl)
  · rfl
  · exact recordOfLine_concat_of_blank rfl bare

theorem exists_assemble_error_iff :
    (∃ fault, assemble text = .error fault) ↔
      ∃ line ∈ lineTexts text, ∃ fault, assemble line = .error fault := by
  have hrecords : (∃ fault, assemble text = .error fault) ↔
      ∃ fault, recordsOfLines 1 ((lineTexts text).map String.toList) = .error fault := by
    simp only [assemble_eq_error_iff, recordsOfLines_lineTexts, recordsOfListing]
  rw [hrecords, exists_recordsOfLines_error_iff]
  constructor
  · rintro ⟨l, hl, cause, hcause⟩
    obtain ⟨t, ht, rfl⟩ := List.mem_map.1 hl
    exact ⟨t, ht, ⟨1, cause⟩,
      (assemble_alone_eq_error_iff (newline_notMem_lineTexts text t ht)).2 ⟨rfl, hcause⟩⟩
  · rintro ⟨t, ht, fault, hfault⟩
    exact ⟨t.toList, List.mem_map_of_mem ht, fault.cause,
      ((assemble_alone_eq_error_iff (newline_notMem_lineTexts text t ht)).1 hfault).2⟩

/-- The first line that is turned down is reported, whatever comes behind it. -/
theorem assemble_of_first_error {before after : List String} {line : String}
    {fault : ListingFault} (htext : lineTexts text = before ++ line :: after)
    (hbefore : ∀ t ∈ before, ∃ r, assemble t = .ok r) (hline : assemble line = .error fault) :
    assemble text = .error ⟨before.length + 1, fault.cause⟩ := by
  have hfeed := newline_notMem_lineTexts text
  rw [htext] at hfeed
  obtain ⟨records, -, hrecords, -, -⟩ := recordsOfLines_of_assembled
    (fun t ht => hfeed t (List.mem_append_left _ ht)) hbefore 1
  have hcause := ((assemble_alone_eq_error_iff
    (hfeed line (List.mem_append_right _ List.mem_cons_self))).1 hline).2
  rw [assemble_eq_error_iff, recordsOfListing, ← recordsOfLines_lineTexts, htext,
    List.map_append, recordsOfLines_append, hrecords, List.map_cons, Except.bind,
    recordsOfLines_cons_of_error hcause, List.length_map, Nat.add_comm 1]
  rfl

/-- Without a line that is turned down the slots of the lines are put end to end. -/
theorem assemble_of_all_ok (h : ∀ line ∈ lineTexts text, ∃ r, assemble line = .ok r) :
    ∃ u rs, assemble text = .ok u ∧
      List.Forall₂ (fun line r => assemble line = .ok r) (lineTexts text) rs ∧
      u.slots = rs.flatMap Recorder.slots := by
  obtain ⟨records, rs, hrecords, hrs, hslots⟩ :=
    recordsOfLines_of_assembled (newline_notMem_lineTexts text) h 1
  rw [recordsOfLines_lineTexts] at hrecords
  refine ⟨records.foldl Recorder.record .new, rs, ?_, hrs, ?_⟩
  · exact assemble_eq_ok_iff.2 ⟨records, hrecords, rfl⟩
  · rw [Recorder.slots_foldl_record, hslots]
    rfl

end Text

section Append

variable {front back : String}

/-- A listing that ends with its last line is read to its end before the one behind it, whose lines
are counted on. -/
theorem recordsOfListing_append (front back : String) :
    recordsOfListing (front ++ "\n" ++ back).toList =
      (recordsOfListing (front ++ "\n").toList).bind fun records =>
        ((recordsOfListing back.toList).mapError
          (.behind (lineTexts (front ++ "\n")).length)).map (records ++ ·) := by
  have hfront : (front ++ "\n").toList = front.toList ++ ['\n'] := String.toList_append
  have hlines : lines (front ++ "\n" ++ back).toList =
      lines (front ++ "\n").toList ++ lines back.toList := by
    rw [String.toList_append, hfront, List.append_assoc, List.singleton_append,
      lines_append_feed]
  rw [recordsOfListing, hlines, recordsOfLines_append, length_lineTexts]
  simp only [Nat.add_comm 1, recordsOfLines_add, recordsOfListing]

theorem assemble_append_of_ok {r t : Recorder} (hfront : assemble (front ++ "\n") = .ok r)
    (hback : assemble back = .ok t) :
    ∃ u, assemble (front ++ "\n" ++ back) = .ok u ∧ u.slots = r.slots ++ t.slots := by
  obtain ⟨records, hrecords, rfl⟩ := assemble_eq_ok_iff.1 hfront
  obtain ⟨later, hlater, rfl⟩ := assemble_eq_ok_iff.1 hback
  refine ⟨_, assemble_eq_ok_iff.2 ⟨records ++ later, ?_, rfl⟩, ?_⟩
  · rw [recordsOfListing_append, hrecords, hlater]
    rfl
  · rw [Recorder.slots_foldl_record, Recorder.slots_foldl_record, Recorder.slots_foldl_record,
      encodeAll_append, List.append_assoc]
    rfl

theorem assemble_append_of_error_back {r : Recorder} {fault : ListingFault}
    (hfront : assemble (front ++ "\n") = .ok r) (hback : assemble back = .error fault) :
    assemble (front ++ "\n" ++ back) =
      .error (fault.behind (lineTexts (front ++ "\n")).length) := by
  obtain ⟨records, hrecords, -⟩ := assemble_eq_ok_iff.1 hfront
  rw [assemble_eq_error_iff] at hback ⊢
  rw [recordsOfListing_append, hrecords, hback]
  rfl

theorem assemble_append_of_error_front {fault : ListingFault}
    (hfront : assemble (front ++ "\n") = .error fault) :
    assemble (front ++ "\n" ++ back) = .error fault := by
  rw [assemble_eq_error_iff] at hfront ⊢
  rw [recordsOfListing_append, hfront]
  rfl

end Append

/-- A listing cannot be assembled just if one of its lines cannot be on its own. Then the first such
line is reported with what is wrong with it on its own, whatever the later lines hold, and otherwise
the slots are those of the lines, each assembled on its own, one behind the other. So a listing
that ends with its last line can be assembled apart from the one behind it. -/
theorem assemble_line_by_line :
    (∀ text,
      ((∃ fault, assemble text = .error fault) ↔
        ∃ line ∈ lineTexts text, ∃ fault, assemble line = .error fault) ∧
      (∀ before line after fault, lineTexts text = before ++ line :: after →
        (∀ t ∈ before, ∃ r, assemble t = .ok r) → assemble line = .error fault →
        assemble text = .error ⟨before.length + 1, fault.cause⟩) ∧
      ((∀ line ∈ lineTexts text, ∃ r, assemble line = .ok r) →
        ∃ u rs, assemble text = .ok u ∧
          List.Forall₂ (fun line r => assemble line = .ok r) (lineTexts text) rs ∧
          u.slots = rs.flatMap Recorder.slots)) ∧
      ∀ front back : String,
        (∀ r t, assemble (front ++ "\n") = .ok r → assemble back = .ok t →
          ∃ u, assemble (front ++ "\n" ++ back) = .ok u ∧ u.slots = r.slots ++ t.slots) ∧
        (∀ r fault, assemble (front ++ "\n") = .ok r → assemble back = .error fault →
          assemble (front ++ "\n" ++ back) =
            .error ⟨(lineTexts (front ++ "\n")).length + fault.line, fault.cause⟩) ∧
        ∀ fault, assemble (front ++ "\n") = .error fault →
          assemble (front ++ "\n" ++ back) = .error fault := by
  refine ⟨fun text => ⟨exists_assemble_error_iff text, ?_, assemble_of_all_ok text⟩, ?_⟩
  · intro before line after fault
    exact assemble_of_first_error text
  · intro front back
    refine ⟨fun r t => assemble_append_of_ok, ?_, ?_⟩
    · exact fun r fault => assemble_append_of_error_back
    · exact fun fault => assemble_append_of_error_front

/-- A blank line and a comment are counted, a carriage return is part of the end of a line, and behind
a listing the line of a fault is counted on. -/
theorem assemble_line_by_line_unknown :
    lineTexts "font = true\r\n\n# x\nrotate = true\n(" =
        ["font = true", "", "# x", "rotate = true", "("] ∧
      assemble "font = true\r\n\n# x\nrotate = true\n(" =
        .error ⟨4, .unknownProperty "rotate"⟩ ∧
      (∃ u, assemble ("font = true" ++ "\n" ++ "font = \"\"") = .ok u ∧
        u.slots = [.code 0xc0, .count 1, .arg (.flag true), .code 0xc0, .count 1,
          .arg (.text "")]) ∧
      assemble ("font = true" ++ "\n" ++ "\nrotate = true") =
        .error ⟨3, .unknownProperty "rotate"⟩ := by
  have hlines : lineTexts "font = true\r\n\n# x\nrotate = true\n(" =
      ["font = true", "", "# x"] ++ "rotate = true" :: ["("] := by
    decide
  have hbefore : ∀ t ∈ ["font = true", "", "# x"], ∃ r, assemble t = .ok r := by
    simp only [List.forall_mem_cons]
    exact ⟨⟨_, rfl⟩, ⟨_, rfl⟩, ⟨_, rfl⟩, nofun⟩
  have hline : assemble "rotate = true" = .error ⟨1, .unknownProperty "rotate"⟩ := rfl
  have hfront : assemble ("font = true" ++ "\n") =
    .ok (Recorder.new.record (.set .font (.flag true))) := rfl
  have hback : assemble "font = \"\"" = .ok (Recorder.new.record (.set .font (.text ""))) := rfl
  have hrotate : assemble "\nrotate = true" = .error ⟨2, .unknownProperty "rotate"⟩ := rfl
  refine ⟨hlines, ?_, ?_, ?_⟩
  · exact (assemble_line_by_line.1 _).2.1 _ _ _ _ hlines hbefore hline
  · exact (assemble_line_by_line.2 _ _).1 _ _ hfront hback
  · exact (assemble_line_by_line.2 _ _).2.1 _ _ hfront hrotate

end DisplayList
