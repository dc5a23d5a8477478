/-!
# Quoted texts

A text stands in a listing between quotes, with quotes, backslashes and line feeds in it escaped,
so that a quoted text never spans lines. `readQuoted` takes such a text off the front of what is
to be read. Any other escape, and a quote that is never closed, is no quoted text.
-/

namespace DisplayList

/-- How a character is written between quotes. -/
def escape : Char → List Char
  | '"' => ['\\', '"']
  | '\\' => ['\\', '\\']
  | '\n' => ['\\', 'n']
  | c => [c]

/-- A text between quotes. -/
def quote (s : List Char) : List Char := '"' :: (s.flatMap escape ++ ['"'])

/-- The text up to the closing quote, and what follows the quote. -/
def readQuotedBody : List Char → Option (List Char × List Char)
  | [] => none
  | '"' :: rest => some ([], rest)
  | '\\' :: '\\' :: rest => (readQuotedBody rest).map fun (s, left) => ('\\' :: s, left)
  | '\\' :: '"' :: rest => (readQuotedBody rest).map fun (s, left) => ('"' :: s, left)
  | '\\' :: 'n' :: rest => (readQuotedBody rest).map fun (s, left) => ('\n' :: s, left)
  | '\\' :: _ => none
  | c :: rest => (readQuotedBody rest).map fun (s, left) => (c :: s, left)

/-- The quoted text at the front, and what follows it. -/
def readQuoted : List Char → Option (List Char × List Char)
  | '"' :: rest => readQuotedBody rest
  | _ => none

theorem readQuotedBody_length {t s left : List Char} (h : readQuotedBody t = some (s, left)) :
    left.length < t.length := by
  fun_induction readQuotedBody t generalizing s <;> simp_all <;> grind

/-- A quoted text takes up at least its two quotes. -/
theorem readQuoted_length {t s left : List Char} (h : readQuoted t = some (s, left)) :
    left.length < t.length := by
  unfold readQuoted at h
  split at h
  · have := readQuotedBody_length h
    simp only [List.length_cons]; omega
  · simp at h

end DisplayList
