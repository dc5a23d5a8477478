import DisplayList.Listing.Statement
import DisplayList.Recorder
import DisplayList.Text.Blank

/-!
# Reading a listing

Each line of a listing is read on its own. `recordOfLine` is the record that a line denotes; blank
lines and comments denote none. A name has to be that of a method where the line is a call and that
of a property where it is an assignment. `assemble` writes the records of all lines down in a new
recorder, or reports the first line that cannot be read.
-/

namespace DisplayList

/-- Why a line of a listing cannot be read. -/
inductive LineFault
  | /-- The line is no statement. -/
    unreadable (cause : Unreadable)
  | /-- A property is called. -/
    propertyCalled (p : Property)
  | /-- No method has the name. -/
    unknownMethod (name : String)
  | /-- A method is assigned to. -/
    methodAssigned (m : Method)
  | /-- No property has the name. -/
    unknownProperty (name : String)
deriving DecidableEq

/-- The first line of a listing that cannot be read, counted from one. -/
structure ListingFault where
  line : Nat
  cause : LineFault
deriving DecidableEq

/-- The wording of what is wrong with a line. -/
def LineFault.message : LineFault → String
  | unreadable (.noName line) => "cannot parse `" ++ String.ofList line ++ "` (TakeWhile1)"
  | unreadable (.leftover rest) => "cannot parse `" ++ String.ofList rest ++ "` (Eof)"
  | propertyCalled p => "`" ++ p.name ++ "` is a property, assign it with `=`"
  | unknownMethod name => "unknown method `" ++ name ++ "`"
  | methodAssigned m => "`" ++ m.name ++ "` is a method, not a property"
  | unknownProperty name => "unknown property `" ++ name ++ "`"

/-- What is wrong with a listing, as a fault. -/
def ListingFault.fault (f : ListingFault) : Fault := .listing f.line f.cause.message

/-- The wording of what is wrong with a listing. -/
def ListingFault.message (f : ListingFault) : String := f.fault.message

/-- The record that a statement denotes. -/
def Statement.record : Statement → Except LineFault Record
  | .call name args =>
    match Operation.ofName? (String.ofList name) with
    | some (.method m) => .ok (.call m args)
    | some (.property p) => .error (.propertyCalled p)
    | none => .error (.unknownMethod (String.ofList name))
  | .set name value =>
    match Operation.ofName? (String.ofList name) with
    | some (.property p) => .ok (.set p value)
    | some (.method m) => .error (.methodAssigned m)
    | none => .error (.unknownProperty (String.ofList name))

/-- The record that a line denotes, if it denotes one. -/
def recordOfLine (line : List Char) : Except LineFault (Option Record) :=
  let line := trim line
  if line = [] ∨ line.head? = some '#' then .ok none
  else
    match readStatement line with
    | .error cause => .error (.unreadable cause)
    | .ok statement => statement.record.map some

/-- The records that some lines denote, the first of them having a number. -/
def recordsOfLines (n : Nat) : List (List Char) → Except ListingFault (List Record)
  | [] => .ok []
  | line :: rest =>
    match recordOfLine line with
    | .error cause => .error ⟨n, cause⟩
    | .ok none => recordsOfLines (n + 1) rest
    | .ok (some record) => (recordsOfLines (n + 1) rest).map (record :: ·)

/-- The records that a listing denotes. -/
def recordsOfListing (text : List Char) : Except ListingFault (List Record) :=
  recordsOfLines 1 (lines text)

/-- A new recorder that has been told what a listing says. -/
def assemble (text : String) : Except ListingFault Recorder :=
  (recordsOfListing text.toList).map fun records => records.foldl Recorder.record .new

end DisplayList
