import DisplayList.Listing.Quoted
import DisplayList.Number.Reader
import DisplayList.Value

/-!
# Statements

A line of a listing is a statement: a name with arguments behind it, or a name, an equals sign and
one argument. An argument is a flag, a quoted text or a number, tried in that order. Spaces and
tabs separate arguments and may surround the equals sign.
-/

namespace DisplayList

/-- A line of a listing before its name is looked up. -/
inductive Statement
  | call (name : List Char) (args : List Value)
  | set (name : List Char) (value : Value)
deriving DecidableEq

/-- Whether a character separates arguments. -/
def isSpace (c : Char) : Bool := c = ' ' || c = '\t'

/-- What is left of a text after a fixed beginning. -/
def afterText? : (beginning : List Char) → List Char → Option (List Char)
  | [], rest => some rest
  | _ :: _, [] => none
  | b :: beginning, c :: rest => if b = c then afterText? beginning rest else none

/-- The argument at the front of a text, and what follows it. A word counts as a flag even if more
letters follow. -/
def readArgument (s : List Char) : Option (Value × List Char) :=
  if let some rest := afterText? "true".toList s then some (.flag true, rest)
  else if let some rest := afterText? "false".toList s then some (.flag false, rest)
  else if let some (text, rest) := readQuoted s then some (.text (String.ofList text), rest)
  else (readNumber s).map fun (x, rest) => (.number x, rest)

/-- The argument behind at least one space, and what follows it. -/
def readSpacedArgument (s : List Char) : Option (Value × List Char) :=
  if s.takeWhile isSpace = [] then none else readArgument (s.dropWhile isSpace)

theorem afterText?_length : ∀ {beginning s rest : List Char}, afterText? beginning s = some rest →
    rest.length + beginning.length = s.length
  | [], _, _, h => by simp_all [afterText?]
  | _ :: _, [], _, h => by simp [afterText?] at h
  | b :: beginning, c :: s, rest, h => by
    simp only [afterText?] at h
    split at h
    · have := afterText?_length h
      simp only [List.length_cons]; omega
    · simp at h

theorem afterText?_length_lt {beginning s rest : List Char} (hne : beginning ≠ [])
    (h : afterText? beginning s = some rest) : rest.length < s.length := by
  have := afterText?_length h
  have := List.length_pos_iff.2 hne
  omega

/-- An argument takes up at least one character. -/
theorem readArgument_length {s rest : List Char} {v : Value}
    (h : readArgument s = some (v, rest)) : rest.length < s.length := by
  unfold readArgument at h
  split at h
  · next hw =>
    obtain ⟨_, rfl⟩ : _ ∧ _ = rest := by simpa using h
    exact afterText?_length_lt (by simp) hw
  · split at h
    · next hw =>
      obtain ⟨_, rfl⟩ : _ ∧ _ = rest := by simpa using h
      exact afterText?_length_lt (by simp) hw
    · split at h
      · next hq =>
        obtain ⟨_, rfl⟩ : _ ∧ _ = rest := by simpa using h
        exact readQuoted_length hq
      · simp only [Option.map_eq_some_iff, Prod.mk.injEq, Prod.exists] at h
        obtain ⟨_, _, hn, _, rfl⟩ := h
        exact readNumber_length hn

theorem readSpacedArgument_length {s rest : List Char} {v : Value}
    (h : readSpacedArgument s = some (v, rest)) : rest.length < s.length := by
  simp only [readSpacedArgument, Option.ite_none_left_eq_some] at h
  exact Nat.lt_of_lt_of_le (readArgument_length h.2) (List.dropWhile_sublist _).length_le

/-- All arguments at the front of a text, up to the first that cannot be read, and what follows
them. -/
def readArguments (s : List Char) : List Value × List Char :=
  match h : readSpacedArgument s with
  | none => ([], s)
  | some (v, rest) =>
    have := readSpacedArgument_length h
    let (values, left) := readArguments rest
    (v :: values, left)
termination_by s.length

/-- The argument behind an equals sign, and what follows it. -/
def readAssigned (s : List Char) : Option (Value × List Char) :=
  match s.dropWhile isSpace with
  | '=' :: rest => readArgument (rest.dropWhile isSpace)
  | _ => none

/-- Why a line is no statement. -/
inductive Unreadable
  | /-- There is no name at the front of the line. -/
    noName (line : List Char)
  | /-- Something is left behind the statement. -/
    leftover (rest : List Char)
deriving DecidableEq

/-- Reads a line that has no blanks at its ends. Where an assignment cannot be read, the line is
taken for a call. -/
def readStatement (line : List Char) : Except Unreadable Statement :=
  let name := line.takeWhile Char.isAlphanum
  let rest := line.dropWhile Char.isAlphanum
  if name = [] then .error (.noName line)
  else
    let (statement, left) :=
      match readAssigned rest with
      | some (value, left) => (Statement.set name value, left)
      | none => (Statement.call name (readArguments rest).1, (readArguments rest).2)
    if left = [] then .ok statement else .error (.leftover left)

end DisplayList
