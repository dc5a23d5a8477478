import DisplayList.OpTable.Literal
import DisplayList.OpTable.Token

/-!
# Reading tokens

`readTokens` cuts the text of a declaration into tokens, between which there are blanks and
comments. A comment that documents something stands for the tokens of an attribute. What is never
closed reaches to the end of the text. Every step reads at least one character, so the reading
ends: there is a `length` lemma for each reader, and `length_readFront_le` is the one that
`readTokens` needs.
-/

namespace DisplayList.OpTable

/-- Whether a character only keeps tokens apart: the blanks and the two direction marks. -/
def isGap (c : Char) : Bool := isBlank c || c = '\u200e' || c = '\u200f'

/-- Whether a character can stand in a word. -/
def isWordChar (c : Char) : Bool := c.isAlphanum || c = '_' || (0x80 ≤ c.toNat && !isGap c)

/-! ### Comments -/

/-- The tokens of an attribute that documents, by the marks in front of it and its text. -/
def documentation (marks : List Char) (text : List Char) : List Token :=
  marks.map .mark ++
    [.mark '[', .word "doc", .mark '=', .quoted (textLiteral text), .mark ']']

/-- The inside of a comment between marks, and what follows its closing mark. Comments nest. -/
def splitComment : (inner : Nat) → List Char → List Char × List Char
  | _, [] => ([], [])
  | n, '/' :: '*' :: s =>
    let (text, rest) := splitComment (n + 1) s
    ('/' :: '*' :: text, rest)
  | 0, '*' :: '/' :: s => ([], s)
  | n + 1, '*' :: '/' :: s =>
    let (text, rest) := splitComment n s
    ('*' :: '/' :: text, rest)
  | n, c :: s =>
    let (text, rest) := splitComment n s
    (c :: text, rest)

/-- A line without the carriage return at its end. -/
def withoutReturn (line : List Char) : List Char :=
  if line.getLast? = some '\r' then line.dropLast else line

/-- The tokens that the comment at the front stands for, and what follows it. Three marks open a
comment that documents what follows, more than three open a plain one, and an exclamation mark
behind two opens one that documents what it stands in. -/
def readComment? : List Char → Option (List Token × List Char)
  | '/' :: '/' :: s =>
    let line := s.takeWhile (· ≠ '\n')
    let tokens := match withoutReturn line with
      | '!' :: text => documentation ['#', '!'] text
      | '/' :: '/' :: _ => []
      | '/' :: text => documentation ['#'] text
      | _ => []
    some (tokens, s.dropWhile (· ≠ '\n'))
  | '/' :: '*' :: s =>
    let (text, rest) := splitComment 0 s
    let tokens := match s with
      | '!' :: _ => documentation ['#', '!'] text.tail
      | '*' :: '*' :: _ => []
      | '*' :: '/' :: _ => []
      | '*' :: _ => documentation ['#'] text.tail
      | _ => []
    some (tokens, rest)
  | _ => none

/-! ### Literals between quotes -/

/-- A literal up to its closing quote, and what follows. A backslash takes along the character
behind it. -/
def splitQuoted (quote : Char) : List Char → List Char × List Char
  | [] => ([], [])
  | '\\' :: c :: s =>
    let (text, rest) := splitQuoted quote s
    ('\\' :: c :: text, rest)
  | c :: s =>
    if c = quote then ([c], s)
    else
      let (text, rest) := splitQuoted quote s
      (c :: text, rest)

/-- A raw literal up to the quote behind which its hashes come again, and what follows them. -/
def splitRaw (hashes : List Char) : List Char → List Char × List Char
  | [] => ([], [])
  | c :: s =>
    if c = '"' ∧ hashes.isPrefixOf s then (c :: hashes, s.drop hashes.length)
    else
      let (text, rest) := splitRaw hashes s
      (c :: text, rest)

/-- The rest of a character literal behind its opening quote, and what follows it. Without a
closing quote in its place, the opening one is a mark. -/
def readCharacter? : List Char → Option (List Char × List Char)
  | '\\' :: c :: s =>
    let (text, rest) := splitQuoted '\'' s
    some ('\\' :: c :: text, rest)
  | c :: '\'' :: s => some ([c, '\''], s)
  | _ => none

/-- The rest of a raw literal behind its letters, and what follows it. -/
def readRaw? (s : List Char) : Option (List Char × List Char) :=
  let hashes := s.takeWhile (· = '#')
  match s.dropWhile (· = '#') with
  | '"' :: t =>
    let (text, rest) := splitRaw hashes t
    some (hashes ++ '"' :: text, rest)
  | _ => none

/-- What was read and what follows it, with more characters in front of what was read. -/
def led (front : List Char) : List Char × List Char → List Char × List Char
  | (text, rest) => (front ++ text, rest)

/-- The literal between quotes at the front, and what follows it. -/
def readQuotes? : List Char → Option (List Char × List Char)
  | '"' :: s => some (led ['"'] (splitQuoted '"' s))
  | 'b' :: '"' :: s => some (led ['b', '"'] (splitQuoted '"' s))
  | 'c' :: '"' :: s => some (led ['c', '"'] (splitQuoted '"' s))
  | '\'' :: s => (readCharacter? s).map (led ['\''])
  | 'b' :: '\'' :: s => (readCharacter? s).map (led ['b', '\''])
  | 'r' :: s => (readRaw? s).map (led ['r'])
  | 'b' :: 'r' :: s => (readRaw? s).map (led ['b', 'r'])
  | 'c' :: 'r' :: s => (readRaw? s).map (led ['c', 'r'])
  | _ => none

/-! ### Tokens -/

/-- The suffix of a literal between quotes, taken from what follows it. A digit opens no suffix. -/
def suffix (s : List Char) : List Char :=
  if s.head?.any Char.isDigit then [] else s.takeWhile isWordChar

/-- The token at a character that opens neither a comment nor quotes, and what follows it. A word
behind `r#` is a raw name, and the mark belongs to it. -/
def readRun (c : Char) (s : List Char) : Token × List Char :=
  if c.isDigit then (.number (String.ofList (c :: s.takeWhile isWordChar)), s.dropWhile isWordChar)
  else if c = 'r' ∧ s.head? = some '#' ∧ s.tail.head?.any isWordChar then
    (.word (String.ofList ('r' :: '#' :: s.tail.takeWhile isWordChar)),
      s.tail.dropWhile isWordChar)
  else if isWordChar c then
    (.word (String.ofList (c :: s.takeWhile isWordChar)), s.dropWhile isWordChar)
  else if c = ':' ∧ s.head? = some ':' then (.separator, s.tail)
  else (.mark c, s)

/-- The tokens at a character, and what follows them. -/
def readFront (c : Char) (s : List Char) : List Token × List Char :=
  if isGap c then ([], s)
  else
    match readComment? (c :: s), readQuotes? (c :: s) with
    | some found, _ => found
    | none, some (text, rest) =>
      ([.quoted (String.ofList (text ++ suffix rest))], rest.drop (suffix rest).length)
    | none, none =>
      let (token, rest) := readRun c s
      ([token], rest)

/-! ### Every step reads -/

theorem length_dropWhile_le {α : Type} (p : α → Bool) (s : List α) :
    (s.dropWhile p).length ≤ s.length :=
  (List.dropWhile_suffix p).length_le

theorem length_splitComment_le (n : Nat) (s : List Char) :
    (splitComment n s).2.length ≤ s.length := by
  fun_induction splitComment n s <;> simp_all <;> omega

theorem length_splitQuoted_le (quote : Char) (s : List Char) :
    (splitQuoted quote s).2.length ≤ s.length := by
  fun_induction splitQuoted quote s <;> simp_all <;> omega

theorem length_splitRaw_le (hashes s : List Char) :
    (splitRaw hashes s).2.length ≤ s.length := by
  fun_induction splitRaw hashes s <;> simp_all <;> omega

theorem led_snd (front : List Char) (found : List Char × List Char) :
    (led front found).2 = found.2 := rfl

theorem readComment?_length {s rest : List Char} {tokens : List Token}
    (h : readComment? s = some (tokens, rest)) : rest.length < s.length := by
  unfold readComment? at h
  split at h
  · rename_i s
    have := length_dropWhile_le (· ≠ '\n') s
    simp only [Option.some.injEq, Prod.mk.injEq] at h
    simp only [← h.2, List.length_cons]
    omega
  · rename_i s
    have := length_splitComment_le 0 s
    simp only [Option.some.injEq, Prod.mk.injEq] at h
    simp only [← h.2, List.length_cons]
    omega
  · simp at h

theorem readCharacter?_length {s : List Char} {found : List Char × List Char}
    (h : found ∈ readCharacter? s) : found.2.length ≤ s.length := by
  unfold readCharacter? at h
  split at h
  · rename_i s
    have := length_splitQuoted_le '\'' s
    cases h
    simp only [List.length_cons]
    omega
  · cases h
    simp only [List.length_cons]
    omega
  · simp at h

theorem readRaw?_length {s : List Char} {found : List Char × List Char}
    (h : found ∈ readRaw? s) : found.2.length ≤ s.length := by
  unfold readRaw? at h
  have := length_dropWhile_le (· = '#') s
  split at h
  · rename_i t ht
    have := length_splitRaw_le (s.takeWhile (· = '#')) t
    cases h
    simp_all only [List.length_cons]
    omega
  · simp at h

theorem readQuotes?_length {s : List Char} {found : List Char × List Char}
    (h : found ∈ readQuotes? s) : found.2.length < s.length := by
  unfold readQuotes? at h
  split at h
  case h_1 s | h_2 s | h_3 s =>
    have := length_splitQuoted_le '"' s
    cases h
    simp only [led_snd, List.length_cons]
    omega
  case h_4 s | h_5 s =>
    obtain ⟨inner, hi, rfl⟩ := Option.map_eq_some_iff.1 h
    have := readCharacter?_length hi
    simp only [led_snd, List.length_cons]
    omega
  case h_6 s | h_7 s | h_8 s =>
    obtain ⟨inner, hi, rfl⟩ := Option.map_eq_some_iff.1 h
    have := readRaw?_length hi
    simp only [led_snd, List.length_cons]
    omega
  case h_9 => simp at h

theorem length_readRun_le (c : Char) (s : List Char) : (readRun c s).2.length ≤ s.length := by
  have := length_dropWhile_le isWordChar s
  have := length_dropWhile_le isWordChar s.tail
  grind [readRun]

theorem length_readFront_le (c : Char) (s : List Char) :
    (readFront c s).2.length ≤ s.length := by
  unfold readFront
  split
  · simp
  · split
    · rename_i found h
      have := readComment?_length h
      grind
    · rename_i h
      have := readQuotes?_length h
      grind
    · exact length_readRun_le c s

/-- The tokens of a text. -/
def readTokens : List Char → List Token
  | [] => []
  | c :: s => (readFront c s).1 ++ readTokens (readFront c s).2
termination_by s => s.length
decreasing_by
  have := length_readFront_le c s
  simp only [List.length_cons]; omega

end DisplayList.OpTable
