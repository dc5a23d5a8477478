/-!
# Blanks and lines

The characters that Unicode counts as white space, taking them off the ends of a text, and cutting
a text into lines at its line feeds.
-/

namespace DisplayList

/-- Whether Unicode counts a character as white space. -/
def isBlank (c : Char) : Bool :=
  let n := c.toNat
  (0x9 ≤ n && n ≤ 0xd) || n = 0x20 || n = 0x85 || n = 0xa0 || n = 0x1680
    || (0x2000 ≤ n && n ≤ 0x200a) || n = 0x2028 || n = 0x2029 || n = 0x202f || n = 0x205f
    || n = 0x3000

/-- A text without the blanks at its front. -/
def trimFront (s : List Char) : List Char := s.dropWhile isBlank

/-- A text without the blanks at its ends. -/
def trim (s : List Char) : List Char := (trimFront (trimFront s).reverse).reverse

/-- A text without any blanks. -/
def tighten (s : List Char) : List Char := s.filter fun c => !isBlank c

/-- The lines of a text. A line feed ends a line, and what follows the last one is a line unless it
is empty. -/
def lines : List Char → List (List Char)
  | [] => []
  | '\n' :: rest => [] :: lines rest
  | c :: rest =>
    match lines rest with
    | [] => [[c]]
    | line :: more => (c :: line) :: more

end DisplayList
