import DisplayList.OpTable.Entry
import DisplayList.OpTable.Identifier

/-!
# Opcode tables

What a declaration is expanded to: the enumeration without the attributes that mark kinds,
constants that list the operations, functions given by the arms of a match, and a trait with a
setter and a getter for each property. All code is given as text without blanks.
-/

namespace DisplayList.OpTable

/-- A checked declaration with the names of its getters, one for each property. -/
structure Table where
  declaration : Declaration
  entries : List Entry
  getters : List (Entry × String)
deriving DecidableEq

/-- An arm of a match: its pattern and its body. -/
abbrev Arm := String × String

/-- The name of the getter of a property. A raw identifier has none, since its mark cannot stand in
the middle of a name. -/
def getterName (e : Entry) : Except Rejection (Entry × String) :=
  match snakeCase? e.name.toList with
  | some name =>
    if '#' ∈ name then .error (.unnameable e.name) else .ok (e, String.ofList name)
  | none => .error (.unnameable e.name)

/-- The table of a declaration. -/
def expand (d : Declaration) : Except Rejection Table := do
  let entries ← entriesOf d
  let getters ← (entries.filter (·.kind = .property)).mapM getterName
  return ⟨d, entries, getters⟩

namespace Table

variable (t : Table)

/-- An operation by its full path. -/
def path (e : Entry) : String := t.declaration.name ++ "::" ++ e.name

/-- A list of operations as a constant. -/
def listed (entries : List Entry) : String := "&[" ++ ",".intercalate (entries.map t.path) ++ "]"

/-- All operations, in the order of their declaration. -/
def all : String := t.listed t.entries

/-- The operations of one kind, in the order of their declaration. -/
def ofKind (kind : Kind) : String := t.listed (t.entries.filter (·.kind = kind))

/-- The name under which a canvas offers an operation, as a literal. -/
def canvasName (e : Entry) : String := textLiteral (camelCase e.name.toList)

/-- The arms that tell the kind of an operation. -/
def kindArms : List Arm :=
  t.entries.map fun e =>
    (t.path e, match e.kind with | .method => "OpKind::Method" | .property => "OpKind::Property")

/-- The arms that tell the name of an operation. -/
def nameArms : List Arm := t.entries.map fun e => (t.path e, canvasName e)

/-- The arm for everything that no operation has. -/
def noneArm : Arm := ("_", "None")

/-- The arms that find an operation by its code. -/
def codeArms : List Arm :=
  (t.entries.map fun e => (toString e.code.toNat ++ "u8", "Some(" ++ t.path e ++ ")")) ++ [noneArm]

/-- The arms that find an operation by its name. -/
def ofNameArms : List Arm :=
  (t.entries.map fun e => (canvasName e, "Some(" ++ t.path e ++ ")")) ++ [noneArm]

/-- The functions of the trait, with the body of those that have one: first the two that an
implementation provides, then a setter and a getter for each property. -/
def functions : List (String × Option String) :=
  ("set_property", none) :: ("property", none) ::
    t.getters.flatMap fun (e, getter) =>
      [("set_" ++ getter, some ("\x7bself.set_property(" ++ t.path e ++ ",value.into())\x7d")),
        (getter, some ("\x7bself.property(" ++ t.path e ++ ")\x7d"))]

end Table

end DisplayList.OpTable
