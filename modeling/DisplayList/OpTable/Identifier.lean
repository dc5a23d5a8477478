import DisplayList.Text.Case

/-!
# Names derived from identifiers

A table derives two names from the identifier of an operation. `camelCase` is the name under which
a canvas offers it. `snakeCase?` is the name of its accessors, in which an underscore stands
before every capital but the first character. The underscore goes to a byte position, which is
taken from the number of characters ahead. Behind wider characters it therefore lands too far
left, and there is no name at all where it would split a character.
-/

namespace DisplayList.OpTable

/-- A text with its first letter lowered. -/
def camelCase : List Char → List Char
  | [] => []
  | c :: rest => c.toLower :: rest

/-- A text with a character put in at a byte position, unless that splits a character. -/
def insertAtByte? (c : Char) : (position : Nat) → List Char → Option (List Char)
  | 0, s => some (c :: s)
  | _ + 1, [] => none
  | n + 1, d :: s =>
    if d.utf8Size ≤ n + 1 then (insertAtByte? c (n + 1 - d.utf8Size) s).map (d :: ·) else none

/-- The positions of the capitals in a text, counted in characters from `position` on. -/
def capitalsFrom (position : Nat) : List Char → List Nat
  | [] => []
  | c :: rest =>
    if c.isUpper then position :: capitalsFrom (position + 1) rest
    else capitalsFrom (position + 1) rest

/-- A text with an underscore put in for each position. Every underscore moves the later positions
on by one. -/
def insertUnderscores? (offset : Nat) : (positions : List Nat) → List Char → Option (List Char)
  | [], s => some s
  | i :: rest, s => (insertAtByte? '_' (i + offset) s).bind (insertUnderscores? (offset + 1) rest)

/-- A text in lower case, with underscores where words begin. -/
def snakeCase? (s : List Char) : Option (List Char) :=
  (insertUnderscores? 0 (capitalsFrom 1 s.tail) s).map lowered

end DisplayList.OpTable
