import DisplayList.Operation
import DisplayList.OpTable.Literal
import DisplayList.OpTable.Token

/-!
# Declarations of opcode tables

An opcode table is declared as an enumeration. Each variant is an operation: an attribute says of
which kind it is, and its discriminant is the code. Code other than names is kept as its tokens, so
that the table can repeat it.
-/

namespace DisplayList.OpTable

/-- An attribute, by the tokens between its brackets. -/
structure Attribute where
  tokens : List Token
deriving DecidableEq

/-- What an item declares. -/
inductive Shape
  | enumeration | record | unitRecord | union
deriving DecidableEq, Repr

/-- What a variant carries. -/
inductive Fields
  | none | positional | named
deriving DecidableEq, Repr

/-- A variant of an enumeration. -/
structure Variant where
  name : String
  attributes : List Attribute := []
  fields : Fields := .none
  discriminant : Option (List Token) := Option.none
deriving DecidableEq

/-- An item that is to become an opcode table. Its parameters are what stands between angle
brackets behind its name. -/
structure Declaration where
  accessors : String
  name : String
  shape : Shape := .enumeration
  visibility : List Token := []
  attributes : List Attribute := []
  parameters : List Token := []
  variants : List Variant := []
deriving DecidableEq

/-- The word that an attribute consists of, apart from its arguments. A path of several words is no
word. -/
def Attribute.word? (a : Attribute) : Option String :=
  match a.tokens with
  | .word _ :: .separator :: _ => none
  | .word text :: _ => some text
  | _ => none

/-- The kind of operation that an attribute marks, if it marks one. -/
def Attribute.kind? (a : Attribute) : Option Kind :=
  match a.word? with
  | some "method" => some .method
  | some "property" => some .property
  | _ => none

/-- An attribute as it is shown. -/
def Attribute.shown (a : Attribute) : String := "#[" ++ tight a.tokens ++ "]"

/-- The value of a discriminant that is an integer literal, with or without attributes. -/
def Variant.value? (v : Variant) : Option Nat :=
  v.discriminant.bind fun tokens =>
    match withoutAttributes tokens with
    | [.number text] => integerLiteral? text.toList
    | _ => none

end DisplayList.OpTable
