import DisplayList.OpTable.Declaration
import DisplayList.Text.Hex

/-!
# Entries of opcode tables

`entriesOf` checks a declaration and turns its variants into the entries of a table. The checks run
variant by variant and, within a variant, in a fixed order, so the first rule broken decides how a
declaration is rejected.
-/

namespace DisplayList.OpTable

/-- Why a declaration does not make a table. -/
inductive Rejection
  | /-- The item has parameters. -/
    generic
  | /-- The item is no enumeration. -/
    notAnEnumeration
  | /-- A variant carries fields. -/
    carriesFields
  | /-- A variant has no kind. -/
    noKind
  | /-- A variant has more than one kind. -/
    secondKind
  | /-- The discriminant of a variant is no integer literal. -/
    noCode
  | /-- The discriminant of a variant does not fit a byte. -/
    codeTooLarge
  | /-- The code of a method carries the tag of properties. -/
    taggedMethod (code : UInt8)
  | /-- The code of a property does not carry the tag of properties. -/
    untaggedProperty (code : UInt8)
  | /-- The code of a variant is that of an earlier one. -/
    duplicate (code : UInt8) (earlier : String)
  | /-- No accessors can be named after a property. -/
    unnameable (property : String)
deriving DecidableEq

/-- The wording of a rejection. -/
def Rejection.message : Rejection → String
  | generic => "an opcode table takes no generics"
  | notAnEnumeration => "op_table must be used on an enum"
  | carriesFields => "opcodes carry no fields"
  | noKind => "expected #[method] or #[property]"
  | secondKind => "an opcode is either a method or a property"
  | noCode => "opcodes need an integer discriminant"
  | codeTooLarge => "number too large to fit in target type"
  | taggedMethod code => "method code " ++ hexCode code ++ " must be below " ++ hexCode propertyTag
  | untaggedProperty code =>
    "property code " ++ hexCode code ++ " must carry the " ++ hexCode propertyTag ++ " tag bit"
  | duplicate code earlier => "code " ++ hexCode code ++ " is already taken by `" ++ earlier ++ "`"
  | unnameable _ => ""

/-- An operation of a table. -/
structure Entry where
  name : String
  code : UInt8
  kind : Kind
  attributes : List Attribute
  discriminant : List Token
deriving DecidableEq

/-- The kind of the first attribute that marks one, and all other attributes. -/
def takeKind? : List Attribute → Option (Kind × List Attribute)
  | [] => none
  | a :: rest =>
    match a.kind? with
    | some kind => some (kind, rest)
    | none => (takeKind? rest).map fun (kind, others) => (kind, a :: others)

/-- Whether a code lies on the side of the tag bit where its kind belongs. -/
def checkSide (kind : Kind) (code : UInt8) : Except Rejection Unit :=
  match kind with
  | .method => if code &&& propertyTag = 0 then .ok () else .error (.taggedMethod code)
  | .property => if code &&& propertyTag = 0 then .error (.untaggedProperty code) else .ok ()

/-- The entry of a variant that comes after some others. -/
def Variant.entry (earlier : List Entry) (v : Variant) : Except Rejection Entry := do
  if v.fields ≠ .none then throw .carriesFields
  let some (kind, attributes) := takeKind? v.attributes | throw .noKind
  if attributes.any fun a => a.kind?.isSome then throw .secondKind
  let some value := v.value? | throw .noCode
  if 255 < value then throw .codeTooLarge
  let code := UInt8.ofNat value
  checkSide kind code
  if let some other := earlier.find? fun e => e.code == code then
    throw (.duplicate code other.name)
  return { name := v.name, code, kind, attributes, discriminant := v.discriminant.getD [] }

/-- The entries of some variants that come after others. -/
def entriesAfter (earlier : List Entry) : List Variant → Except Rejection (List Entry)
  | [] => .ok earlier
  | v :: rest =>
    match v.entry earlier with
    | .ok e => entriesAfter (earlier ++ [e]) rest
    | .error rejection => .error rejection

/-- The entries of a declaration. -/
def entriesOf (d : Declaration) : Except Rejection (List Entry) :=
  if d.parameters ≠ [] then .error .generic
  else if d.shape ≠ .enumeration then .error .notAnEnumeration
  else entriesAfter [] d.variants

end DisplayList.OpTable
