import DisplayList.Record.Decoding
import DisplayList.Listing.Quoted

/-!
# Writing a listing

A listing has one line for each record: the name of a method with its arguments behind spaces, or
the name of a property, an equals sign and the value. Texts are quoted and everything else is
displayed, so no value spans lines.
-/

namespace DisplayList

/-- How a value is written in a listing. -/
def Value.written : Value → List Char
  | .text s => quote s.toList
  | v => v.display.toList

/-- The line of a record, without the line feed. -/
def Record.line : Record → List Char
  | .call m args => m.name.toList ++ args.flatMap fun v => ' ' :: v.written
  | .set p value => p.name.toList ++ " = ".toList ++ value.written

/-- The listing of some records, each line ended by a line feed. -/
def listing (records : List Record) : List Char := records.flatMap fun r => r.line ++ ['\n']

@[simp] theorem listing_nil : listing [] = [] := rfl

@[simp] theorem listing_cons (r : Record) (rs : List Record) :
    listing (r :: rs) = r.line ++ '\n' :: listing rs := by
  simp [listing]

@[simp] theorem listing_append (rs ss : List Record) :
    listing (rs ++ ss) = listing rs ++ listing ss := List.flatMap_append

/-- The listing of a buffer. -/
def disassemble (slots : List Slot) : Except Fault String :=
  (decodeAll slots).map fun records => String.ofList (listing records)

end DisplayList
