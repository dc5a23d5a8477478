/-!
# Path elements

A `PathElement` lists its attributes in the order in which they were first set, and setting one
again keeps its place. `Attributes` keeps them sorted by name, which is the order in which an
element is written. Both take attributes one by one, so an export can write into either.
-/

universe u

namespace DisplayList

/-- Anything that takes attributes by name. -/
class AttributeTarget (τ : Type u) where
  setAttribute : (name value : String) → τ → τ

export AttributeTarget (setAttribute)

/-- The namespace of vector graphics. -/
def svgNamespace : String := "http://www.w3.org/2000/svg"

/-- Attributes in the order in which they were first set. -/
structure PathElement where
  xmlNamespace : String := svgNamespace
  attributes : List (String × String) := []
deriving DecidableEq

/-- Gives a name a value, in its place if it has one and else behind all others. -/
def setInPlace (name value : String) : List (String × String) → List (String × String)
  | [] => [(name, value)]
  | (n, v) :: rest =>
    if n = name then (n, value) :: rest else (n, v) :: setInPlace name value rest

namespace PathElement

instance : AttributeTarget PathElement where
  setAttribute name value e := { e with attributes := setInPlace name value e.attributes }

/-- The value of an attribute, if it has been set. -/
def attribute? (e : PathElement) (name : String) : Option String :=
  (e.attributes.find? fun a => a.1 == name).map Prod.snd

/-- The path data, which is empty until it has been set. -/
def data (e : PathElement) : String := (e.attribute? "d").getD ""

end PathElement

/-- Attributes sorted by name. -/
structure Attributes where
  entries : List (String × String) := []
deriving DecidableEq

/-- Gives a name a value in a list that is sorted by name. -/
def setSorted (name value : String) : List (String × String) → List (String × String)
  | [] => [(name, value)]
  | (n, v) :: rest =>
    if n = name then (name, value) :: rest
    else if name < n then (name, value) :: (n, v) :: rest
    else (n, v) :: setSorted name value rest

instance : AttributeTarget Attributes where
  setAttribute name value a := { a with entries := setSorted name value a.entries }

/-- The attributes of a path element, sorted by name. -/
def PathElement.sorted (e : PathElement) : Attributes :=
  e.attributes.foldl (fun a entry => setAttribute entry.1 entry.2 a) {}

/-- An attribute as it is written, with a space in front. Nothing is escaped: a value with double
quotes stands between single ones, and a value with both kinds cannot be written at all. -/
def attributeText (name value : String) : String :=
  if value.contains '"' then
    if value.contains '\'' then "" else " " ++ name ++ "='" ++ value ++ "'"
  else " " ++ name ++ "=\"" ++ value ++ "\""

/-- The element with these attributes as it is written. -/
def Attributes.element (a : Attributes) : String :=
  "<path" ++ String.join (a.entries.map fun entry => attributeText entry.1 entry.2) ++ "/>"

end DisplayList
