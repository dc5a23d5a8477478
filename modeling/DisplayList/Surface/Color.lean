import DisplayList.Number.Reader
import DisplayList.Text.Blank

/-!
# Colors

A color is written as `#` with three, six or eight hexadecimal digits, or as one of two words for
nothing at all. Each channel is a number between zero and one. The forms are tried in a fixed order
at the front of a text: `readColor` leaves what follows the first that can be read, and
`Rgba.parse?` wants nothing to be left.
-/

namespace DisplayList

/-- A color by its channels and its opacity. -/
structure Rgba where
  r : Float
  g : Float
  b : Float
  a : Float
deriving DecidableEq

namespace Rgba

def black : Rgba := ⟨0, 0, 0, 1⟩

def transparent : Rgba := ⟨0, 0, 0, 0⟩

/-- The color whose channels are given as parts of 255. -/
def ofBytes (r g b a : Nat) : Rgba :=
  ⟨Float.ofNat r / 255, Float.ofNat g / 255, Float.ofNat b / 255, Float.ofNat a / 255⟩

end Rgba

/-- The value of a hexadecimal digit in either case. -/
def hexDigit? (c : Char) : Option Nat :=
  if '0' ≤ c ∧ c ≤ '9' then some (c.toNat - '0'.toNat)
  else if 'a' ≤ c ∧ c ≤ 'f' then some (c.toNat - 'a'.toNat + 10)
  else if 'A' ≤ c ∧ c ≤ 'F' then some (c.toNat - 'A'.toNat + 10)
  else none

/-- The channel that the two digits at the front of a text give, and what follows them. -/
def readPair : List Char → Option (Nat × List Char)
  | c :: d :: rest => do
    let m ← hexDigit? c
    let n ← hexDigit? d
    return (16 * m + n, rest)
  | _ => none

/-- The channel that the digit at the front of a text gives, and what follows it. The digit stands
for two. -/
def readSingle : List Char → Option (Nat × List Char)
  | c :: rest => do
    let n ← hexDigit? c
    return (17 * n, rest)
  | [] => none

/-- The color of four channels at the front of a text, and what follows them. -/
def readFour (s : List Char) : Option (Rgba × List Char) := do
  let (r, s) ← readPair s
  let (g, s) ← readPair s
  let (b, s) ← readPair s
  let (a, s) ← readPair s
  return (.ofBytes r g b a, s)

/-- The opaque color of three channels at the front of a text, and what follows them. -/
def readThree (channel : List Char → Option (Nat × List Char)) (s : List Char) :
    Option (Rgba × List Char) := do
  let (r, s) ← channel s
  let (g, s) ← channel s
  let (b, s) ← channel s
  return (.ofBytes r g b 255, s)

/-- The color of the digits at the front of a text, and what follows them. -/
def readDigitColor (s : List Char) : Option (Rgba × List Char) :=
  readFour s <|> readThree readPair s <|> readThree readSingle s

/-- The color at the front of a text, and what follows it. -/
def readColor (s : List Char) : Option (Rgba × List Char) :=
  if let some rest := afterWord? "transparent".toList s then some (.transparent, rest)
  else if let some rest := afterWord? "none".toList s then some (.transparent, rest)
  else
    match s with
    | '#' :: digits => readDigitColor digits
    | _ => none

/-- The color that a text without blanks at its ends denotes. -/
def colorOf? (s : List Char) : Option Rgba :=
  match readColor s with
  | some (c, []) => some c
  | _ => none

/-- The color that a text denotes. -/
def Rgba.parse? (s : String) : Option Rgba := colorOf? (trim s.toList)

end DisplayList
