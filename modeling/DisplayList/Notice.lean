import DisplayList.Operation
import DisplayList.Text.Shown

/-!
# Notices

What an activity says about itself while it runs. A notice is a value that the activity hands back
beside its result, in the order in which things were noticed.
-/

namespace DisplayList

/-- How much a notice matters. -/
inductive Level
  | trace
  | debug
  | warn
deriving DecidableEq, Repr

/-- What there is to notice. -/
inductive Notice
  | /-- A record was read from the slot at the position on. -/
    decoded (op : Operation) (position : Nat)
  | /-- A buffer became a program. -/
    compiled (records slots : Nat)
  | /-- A recorder is about to forget its slots. -/
    reset (slots : Nat)
  | /-- A property was called. -/
    propertyCalled (op : Operation)
  | /-- A method was assigned to. -/
    methodAssigned (op : Operation)
  | /-- The value of a line cap or line join is not known. -/
    unknownStyle (op : Operation) (value : String)
  | /-- A line join is known but cannot be drawn. -/
    joinNotDrawn (join : String)
  | /-- The name of a composite operation is not known. -/
    unknownOperator (value : String)
  | /-- A property has no effect on the drawing. -/
    propertyIgnored (op : Operation)
  | /-- A text is no color. -/
    notAColor (op : Operation) (value : String)
deriving DecidableEq, Repr

namespace Level

/-- The word that opens a notice. -/
def word : Level → String
  | trace => "TRACE"
  | debug => "DEBUG"
  | warn => "WARN"

end Level

namespace Notice

def level : Notice → Level
  | decoded .. => .trace
  | compiled .. => .debug
  | reset .. => .debug
  | _ => .warn

/-- The wording of a notice. -/
def message : Notice → String
  | decoded op position => "decoded `" ++ op.name ++ "` at slot " ++ toString position
  | compiled records slots =>
    "compiled " ++ toString records ++ " records from " ++ toString slots ++ " slots"
  | reset slots => "reset recorder holding " ++ toString slots ++ " slots"
  | propertyCalled op =>
    "`" ++ op.name ++ "` is a property, recording its first argument as an assignment"
  | methodAssigned op => "`" ++ op.name ++ "` is a method, recording the assignment as a call"
  | unknownStyle op value => "ignoring " ++ op.name ++ " " ++ shownText value
  | joinNotDrawn join => "line join not supported by cairo: " ++ join
  | unknownOperator value => "ignoring globalCompositeOperation " ++ value
  | propertyIgnored op => "cairo sink ignores `" ++ op.name ++ "`"
  | notAColor op value =>
    "ignoring " ++ op.name ++ " " ++ shownText value ++ ": only hex colors are understood"

/-- A notice with its level in front. -/
def line (n : Notice) : String := n.level.word ++ " " ++ n.message

end Notice

end DisplayList
