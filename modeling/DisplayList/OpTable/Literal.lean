import DisplayList.Text.Continuing
import DisplayList.Text.Shown

/-!
# Literals

The name of an operation is given by a text literal and its code by an integer literal. The latter
is decimal, or hexadecimal, octal or binary behind a mark, with underscores anywhere among the
digits and an optional type suffix, which does not affect the value. A decimal with an exponent is
no integer literal.
-/

namespace DisplayList.OpTable

/-- The inside of a text literal. A null in front of an octal digit is given by two digits, so that
the digit behind it does not seem to belong to it. -/
def literalBody : List Char → List Char
  | [] => []
  | c :: rest =>
    if c = '\x00' ∧ (rest.head?.any fun d => '0' ≤ d && d ≤ '7') then
      '\\' :: 'x' :: '0' :: '0' :: literalBody rest
    else shownChar c ++ literalBody rest

/-- A text as a literal. -/
def textLiteral (s : List Char) : String := String.ofList ('"' :: literalBody s ++ ['"'])

/-- The value of a character as a digit. Letters are digits only in a base beyond ten. -/
def digit? (base : Nat) (c : Char) : Option Nat :=
  if c.isDigit then some (c.toNat - '0'.toNat)
  else if 10 < base ∧ 'a' ≤ c ∧ c ≤ 'f' then some (c.toNat - 'a'.toNat + 10)
  else if 10 < base ∧ 'A' ≤ c ∧ c ≤ 'F' then some (c.toNat - 'A'.toNat + 10)
  else none

/-- Whether the text behind the digits of a decimal gives it an exponent. That takes digits, among
which underscores may stand, and behind them nothing that can only continue a name. -/
def hasExponent : List Char → Bool
  | [] => false
  | c :: rest =>
    let isDigit (d : Char) : Bool := d.isDigit || d = '_'
    (c = 'e' || c = 'E') && (rest.takeWhile isDigit).any Char.isDigit &&
      !(rest.dropWhile isDigit).head?.any isContinuing

/-- The value of the digits at the front of a number, unless there is one beyond the base. What
follows them is the suffix. -/
def digitsValue? (base value : Nat) : List Char → Option Nat
  | [] => some value
  | c :: rest =>
    if c = '_' then digitsValue? base value rest
    else
      match digit? base c with
      | some d => if d < base then digitsValue? base (value * base + d) rest else none
      | none => if base = 10 ∧ hasExponent (c :: rest) then none else some value

/-- The value of a number that is an integer literal. -/
def integerLiteral? : List Char → Option Nat
  | '0' :: 'x' :: digits => digitsValue? 16 0 digits
  | '0' :: 'o' :: digits => digitsValue? 8 0 digits
  | '0' :: 'b' :: digits => digitsValue? 2 0 digits
  | digits => digitsValue? 10 0 digits

end DisplayList.OpTable
