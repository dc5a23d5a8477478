import DisplayList.Number.Text

/-!
# Argument values

The arguments of a call and the value of an assignment are numbers, flags or texts. `Value.display`
is how a value reads in output, where a text has no quotes.
-/

namespace DisplayList

/-- A value that an operation carries. -/
inductive Value
  | number (x : Float)
  | flag (b : Bool)
  | text (s : String)
deriving DecidableEq

namespace Value

/-- A number kept in single precision, at the same value. -/
def ofSingle (x : Float32) : Value := number x.toFloat

/-- The number, for a value that is one. -/
def number? : Value → Option Float
  | number x => some x
  | _ => none

/-- The text, for a value that is one. -/
def text? : Value → Option String
  | text s => some s
  | _ => none

/-- How a drawing surface reads a value as a flag: zero, the number that is not a number and the
empty text are false. -/
def truthy : Value → Bool
  | number x => x != 0 && !x.isNaN
  | flag b => b
  | text s => s != ""

/-- Whether two values are the same kind and equal, numbers being compared as numbers: the two
zeros are equal and what is not a number equals nothing. -/
def equal : Value → Value → Bool
  | number x, number y => x == y
  | flag a, flag b => a == b
  | text s, text t => s == t
  | _, _ => false

/-- How a value reads in output. -/
def display : Value → String
  | number x => String.ofList (numberText x)
  | flag true => "true"
  | flag false => "false"
  | text s => s

end Value

/-- The values of a list displayed with a separator between them. -/
def displayAll (separator : String) (values : List Value) : String :=
  separator.intercalate (values.map Value.display)

end DisplayList
