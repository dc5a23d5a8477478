import DisplayList.Text.Blank

/-!
# Tokens

What a declaration is made of once blanks and comments are gone: words, numbers, literals between
quotes, the separator of paths, and single marks. Code is shown tight, which means token behind
token and without any blanks, even those between quotes.
-/

namespace DisplayList.OpTable

/-- A token of code. -/
inductive Token
  | /-- A name or a keyword. -/
    word (text : String)
  | /-- A run that opens with a digit. -/
    number (text : String)
  | /-- A literal together with its quotes. -/
    quoted (text : String)
  | /-- The two colons between the words of a path. -/
    separator
  | /-- Any other character. -/
    mark (c : Char)
deriving DecidableEq, Repr

/-- A token as it is written. -/
def Token.text : Token → String
  | word text | number text | quoted text => text
  | separator => "::"
  | mark c => String.singleton c

/-- Some tokens behind one another, without blanks. -/
def tight (tokens : List Token) : String :=
  String.ofList (tighten (tokens.flatMap fun t => t.text.toList))

/-- What follows the bracket that closes an open one, inside of which there are more open. -/
def afterBracket : (inner : Nat) → List Token → List Token
  | _, [] => []
  | n, .mark '[' :: rest => afterBracket (n + 1) rest
  | 0, .mark ']' :: rest => rest
  | n + 1, .mark ']' :: rest => afterBracket n rest
  | n, _ :: rest => afterBracket n rest

theorem length_afterBracket_le (n : Nat) (tokens : List Token) :
    (afterBracket n tokens).length ≤ tokens.length := by
  fun_induction afterBracket n tokens <;> grind

/-- An expression without the attributes in front of it. -/
def withoutAttributes : List Token → List Token
  | .mark '#' :: .mark '[' :: rest => withoutAttributes (afterBracket 0 rest)
  | tokens => tokens
termination_by tokens => tokens.length
decreasing_by
  have := length_afterBracket_le 0 rest
  simp only [List.length_cons]; omega

end DisplayList.OpTable
