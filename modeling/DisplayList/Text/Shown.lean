import DisplayList.Text.Visible

/-!
# Shown texts

A text is shown between double quotes. A quote or a backslash in it has a backslash in front, the
common controls are shown by a letter, and whatever else is not visible is shown by its number.
-/

namespace DisplayList

/-- How a character is shown between quotes. -/
def shownChar (c : Char) : List Char :=
  match c with
  | '"' | '\\' => ['\\', c]
  | '\n' => ['\\', 'n']
  | '\r' => ['\\', 'r']
  | '\t' => ['\\', 't']
  | '\x00' => ['\\', '0']
  | _ => if isVisible c then [c] else '\\' :: 'u' :: '\x7b' :: Nat.toDigits 16 c.toNat ++ ['\x7d']

/-- A text between quotes. -/
def shownText (s : String) : String := String.ofList ('"' :: s.toList.flatMap shownChar ++ ['"'])

end DisplayList
