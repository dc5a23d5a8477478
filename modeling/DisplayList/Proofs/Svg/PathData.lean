import DisplayList.Proofs.Number.RoundTrip
import DisplayList.Proofs.Record.RoundTrip
import DisplayList.Proofs.Svg.Export

/-!
# Path data can be read back

A command is written as a letter, its numbers are parted by spaces or commas, and commands are
parted by spaces. A number is written without any of these characters and is never empty, so it is
enough to cut path data at spaces and commas and to leave out what is empty: `pieces`. What is left
are the letters and the numbers, and each letter starts a call that has the numbers up to the next
letter. `readPathData_of_linework` says that this gives back the moves, lines and curves of a
drawing, however many numbers they have, and `pathData_lossless` that two drawings with the same
path data have the same ones.
-/

namespace DisplayList

/-! ### The pieces between spaces and commas -/

/-- Whether a character parts the pieces of path data. -/
def isGap (c : Char) : Bool := c == ' ' || c == ','

/-- The pieces of a text between spaces and commas, without the empty ones. -/
def pieces (s : List Char) : List (List Char) :=
  (s.splitOnP isGap).filter fun piece => !piece.isEmpty

theorem pieces_append_cons {c : Char} (hc : isGap c = true) (s rest : List Char) :
    pieces (s ++ c :: rest) = pieces s ++ pieces rest := by
  rw [pieces, List.splitOnP_append_cons s rest hc, List.filter_append]
  rfl

theorem pieces_intercalate {c : Char} (hc : isGap c = true) (parts : List (List Char)) :
    pieces ([c].intercalate parts) = parts.flatMap pieces := by
  induction parts with
  | nil => rfl
  | cons part rest ih =>
      cases rest with
      | nil => rw [List.intercalate_singleton, List.flatMap_singleton]
      | cons next rest =>
          rw [List.intercalate_cons_cons, List.append_assoc, List.singleton_append,
            pieces_append_cons hc, ih]
          rfl

theorem pieces_of_solid {s : List Char} (hne : s ≠ []) (h : ∀ c ∈ s, isGap c = false) :
    pieces s = [s] := by
  rw [pieces, List.splitOnP_eq_singleton h, List.filter_singleton, List.isEmpty_eq_false_iff.2 hne]
  rfl

theorem pieces_numberText (x : Float) : pieces (numberText x) = [numberText x] := by
  obtain ⟨c, cs, hcons, -⟩ := numberText_head x
  refine pieces_of_solid (by rw [hcons]; exact List.cons_ne_nil c cs) fun c hc => ?_
  have hsolid : ∀ c ∈ numeralChars, isGap c = false := List.all_iff_forall_prop.1 (by decide)
  exact hsolid c (mem_numberText hc)

theorem flatMap_pieces_numberText (numbers : List Float) :
    (numbers.map numberText).flatMap pieces = numbers.map numberText := by
  rw [List.flatMap_map, List.map_eq_flatMap]
  exact congrArg (numbers.flatMap ·) (funext pieces_numberText)

/-- Numbers are told apart again, whichever of the two separators they are written with. -/
theorem pieces_displayAll {separator : String} {c : Char} (hseparator : separator.toList = [c])
    (hc : isGap c = true) (numbers : List Float) :
    pieces (displayAll separator (numbers.map .number)).toList = numbers.map numberText := by
  have htexts : ((numbers.map Value.number).map Value.display).map String.toList =
      numbers.map numberText := by
    simp only [List.map_map]
    exact List.map_congr_left fun x _ => String.toList_ofList
  rw [displayAll, String.toList_intercalate, hseparator, htexts, pieces_intercalate hc,
    flatMap_pieces_numberText]

/-! ### Lines and curves -/

/-- The methods that become one command of path data, with their arguments for its numbers. -/
def Method.isLine : Method → Bool
  | .moveTo | .lineTo | .bezierCurveTo => true
  | _ => false

/-- Whether a record moves, or draws a line or a curve. -/
def Record.isLine : Record → Bool
  | .call m _ => m.isLine
  | .set _ _ => false

/-- A record of a drawing of lines and curves: one of them, with any number of numbers, or one that
says how the path is painted. -/
inductive Record.Linework : Record → Prop
  | line {m : Method} (hm : m.isLine = true) (numbers : List Float) :
      Linework (.call m (numbers.map .number))
  | stroke (args : List Value) : Linework (.call .stroke args)
  | fill (args : List Value) : Linework (.call .fill args)
  | lineWidth (value : Value) : Linework (.set .lineWidth value)

theorem Record.Linework.refusal?_eq_none {r : Record} (h : r.Linework) : r.refusal? = none := by
  cases h with
  | @line m hm numbers =>
      cases m with
      | moveTo | lineTo | bezierCurveTo => rfl
      | _ => cases hm
  | stroke | fill | lineWidth => rfl

/-- The method that a letter of path data stands for. -/
def methodOfLetter? : List Char → Option Method
  | ['M'] => some .moveTo
  | ['L'] => some .lineTo
  | ['C'] => some .bezierCurveTo
  | _ => none

theorem methodOfLetter?_numberText (x : Float) : methodOfLetter? (numberText x) = none := by
  obtain ⟨c, cs, hcons, hc⟩ := numberText_head x
  have hletters : ∀ c ∈ numeralHeads, c ≠ 'M' ∧ c ≠ 'L' ∧ c ≠ 'C' :=
    List.all_iff_forall_prop.1 (by decide)
  obtain ⟨hM, hL, hC⟩ := hletters c hc
  rw [hcons]
  unfold methodOfLetter?
  grind

/-- Reads one more piece, ahead of some numbers that no letter has been seen for and of calls. A
letter takes the numbers. -/
def takePiece (piece : List Char) (read : List Value × List Record) :
    List Value × List Record :=
  match methodOfLetter? piece with
  | some m => ([], .call m read.1 :: read.2)
  | none => ((readNumber piece).toList.map (fun number => .number number.1) ++ read.1, read.2)

/-- The calls that path data stand for. -/
def readPathData (data : String) : List Record :=
  ((pieces data.toList).foldr takePiece ([], [])).2

theorem takePiece_numberText (x : Float) (read : List Value × List Record) :
    takePiece (numberText x) read = (.number x :: read.1, read.2) := by
  have hread := readNumber_numberText x (.inl rfl)
  rw [List.append_nil] at hread
  rw [takePiece, methodOfLetter?_numberText, hread]
  rfl

theorem foldr_takePiece_numbers (numbers : List Float) (read : List Value × List Record) :
    (numbers.map numberText).foldr takePiece read =
      (numbers.map .number ++ read.1, read.2) := by
  induction numbers with
  | nil => rfl
  | cons x numbers ih =>
      rw [List.map_cons, List.foldr_cons, ih, takePiece_numberText]
      rfl

/-- A line or a curve has a letter, and its pieces are that and its numbers. -/
theorem pieces_tokens {m : Method} (hm : m.isLine = true) (numbers : List Float) :
    ∃ letter, methodOfLetter? letter = some m ∧ ∀ first,
      ((Record.call m (numbers.map .number)).tokens first).flatMap (fun t => pieces t.toList) =
        letter :: numbers.map numberText := by
  have htokens (command : String) {separator : String} {c : Char}
      (hseparator : separator.toList = [c]) (hc : isGap c = true) :
      [command, displayAll separator (numbers.map .number)].flatMap (fun t => pieces t.toList) =
        pieces command.toList ++ numbers.map numberText := by
    rw [List.flatMap_cons, List.flatMap_singleton, pieces_displayAll hseparator hc]
  cases m with
  | moveTo => exact ⟨['M'], rfl, fun _ => htokens "M" rfl rfl⟩
  | lineTo => exact ⟨['L'], rfl, fun _ => htokens "L" rfl rfl⟩
  | bezierCurveTo => exact ⟨['C'], rfl, fun _ => htokens "C" rfl rfl⟩
  | _ => cases hm

/-- Reading on in front of what has been read gives the lines and curves of the records. -/
theorem foldr_takePiece_pathTokens {records : List Record} (h : ∀ r ∈ records, r.Linework)
    (first : Bool) :
    ((pathTokens first records).flatMap fun t => pieces t.toList).foldr takePiece ([], []) =
      ([], records.filter Record.isLine) := by
  induction records generalizing first with
  | nil => rfl
  | cons r rest ih =>
      have hrest := ih fun r hr => h r (List.mem_cons_of_mem _ hr)
      -- The rest leaves no numbers over, so a letter finds just those of its own call.
      rw [pathTokens, List.flatMap_append, List.foldr_append, hrest]
      cases h r List.mem_cons_self with
      | @line m hm numbers =>
          obtain ⟨letter, hletter, hpieces⟩ := pieces_tokens hm numbers
          have hline : (Record.call m (numbers.map .number)).isLine = true := hm
          rw [hpieces, List.foldr_cons, foldr_takePiece_numbers, takePiece, hletter,
            List.append_nil, List.filter_cons_of_pos hline]
      | stroke | fill | lineWidth => rfl

/-- The path data of a drawing of lines and curves read back as these. -/
theorem readPathData_of_linework {records : List Record} (h : ∀ r ∈ records, r.Linework) :
    readPathData (" ".intercalate (pathTokens true records)) = records.filter Record.isLine := by
  have hspace : " ".toList = [' '] := rfl
  rw [readPathData, String.toList_intercalate, hspace, pieces_intercalate rfl, List.flatMap_map,
    foldr_takePiece_pathTokens h]

/-- Path data depend on the lines and curves only. -/
theorem pathTokens_filter_isLine {records : List Record} (h : ∀ r ∈ records, r.Linework)
    (first : Bool) : pathTokens first (records.filter Record.isLine) = pathTokens first records := by
  induction records generalizing first with
  | nil => rfl
  | cons r rest ih =>
      have hrest := ih fun r hr => h r (List.mem_cons_of_mem _ hr)
      cases h r List.mem_cons_self with
      | @line m hm numbers =>
          have hline : (Record.call m (numbers.map .number)).isLine = true := hm
          rw [List.filter_cons_of_pos hline, pathTokens, pathTokens, hrest]
      | stroke | fill | lineWidth =>
          rw [List.filter_cons_of_neg Bool.false_ne_true, hrest, pathTokens]
          simp [Record.tokens, Record.draws]

/-- A drawing of lines and curves is exported, and its path data are the tokens of its records. -/
theorem Exporter.exportPath_of_linework (e : Exporter) {slots : List Slot}
    (hread : (decode slots).fault = none) (h : ∀ r ∈ (decode slots).records, r.Linework) :
    ∃ path, e.exportPath slots = .ok path ∧
      path.attribute? "d" =
        some (" ".intercalate (pathTokens true (decode slots).records)) := by
  have haccepted : firstObjection? slots = none := by
    rw [firstObjection?_eq, hread, Option.or_none, List.findSome?_eq_none_iff]
    exact fun r hr => (h r hr).refusal?_eq_none
  refine ⟨_, e.exportPath_of_none haccepted, ?_⟩
  rw [attribute?_element, if_pos rfl]

/-- Two drawings of lines and curves are both exported, and they have the same path data just if
they have the same moves, lines and curves, in the same order and with the same numbers. -/
theorem pathData_lossless (e e' : Exporter) {slots slots' : List Slot}
    (hread : (decode slots).fault = none) (hread' : (decode slots').fault = none)
    (h : ∀ r ∈ (decode slots).records, r.Linework)
    (h' : ∀ r ∈ (decode slots').records, r.Linework) :
    ∃ path path', e.exportPath slots = .ok path ∧ e'.exportPath slots' = .ok path' ∧
      (path.attribute? "d" = path'.attribute? "d" ↔
        (decode slots).records.filter Record.isLine =
          (decode slots').records.filter Record.isLine) := by
  obtain ⟨path, hpath, hdata⟩ := e.exportPath_of_linework hread h
  obtain ⟨path', hpath', hdata'⟩ := e'.exportPath_of_linework hread' h'
  refine ⟨path, path', hpath, hpath', ?_⟩
  rw [hdata, hdata', Option.some_inj]
  constructor
  · intro hsame
    rw [← readPathData_of_linework h, ← readPathData_of_linework h', hsame]
  · intro hsame
    rw [← pathTokens_filter_isLine h, ← pathTokens_filter_isLine h', hsame]

/-- A curve may have no numbers and a line too many. Leaving the last of them out shows in the path
data, and how the path is painted does not. -/
theorem pathData_lossless_lines :
    let records : List Record := [.call .moveTo ([1, 2].map .number), .call .stroke [],
      .call .bezierCurveTo ([].map .number), .call .lineTo ([0, -1, 3].map .number)]
    let records' : List Record := [.set .lineWidth (.text "L 1"),
      .call .moveTo ([1, 2].map .number), .call .bezierCurveTo ([].map .number),
      .call .lineTo ([0, -1].map .number), .call .fill [.flag true]]
    ∃ path path', Exporter.exportPath {} (encodeAll records) = .ok path ∧
      Exporter.exportPath {} (encodeAll records') = .ok path' ∧
      path.attribute? "d" ≠ path'.attribute? "d" := by
  intro records records'
  have hdecode := decode_encodeAll records
  have hdecode' := decode_encodeAll records'
  have hlines : ∀ r ∈ records, r.Linework := by
    simp only [records, List.forall_mem_cons]
    exact ⟨.line rfl _, .stroke _, .line rfl _, .line rfl _, List.forall_mem_nil _⟩
  have hlines' : ∀ r ∈ records', r.Linework := by
    simp only [records', List.forall_mem_cons]
    exact ⟨.lineWidth _, .line rfl _, .line rfl _, .line rfl _, .fill _, List.forall_mem_nil _⟩
  obtain ⟨path, path', hpath, hpath', hsame⟩ := pathData_lossless {} {}
    (congrArg Decoding.fault hdecode) (congrArg Decoding.fault hdecode')
    (hdecode ▸ hlines) (hdecode' ▸ hlines')
  refine ⟨path, path', hpath, hpath', fun heq => ?_⟩
  have hfilter := hsame.1 heq
  rw [hdecode, hdecode'] at hfilter
  exact absurd hfilter (by decide +kernel)

end DisplayList
