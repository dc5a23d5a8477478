import DisplayList.Geometry.BoundingBox
import DisplayList.Replay.Program

/-!
# Recorders

A recorder has the interface of a canvas and writes down what it is told. Its buffer is always
readable: `record` is the only way to lengthen it, and it appends the slots of one record. Beside
the buffer a recorder keeps the last value of every property, the bounding box of the calls, and
the program compiled from the buffer until the buffer changes.
-/

namespace DisplayList

/-- A drawing in the making. -/
structure Recorder where
  slots : List Slot := []
  shadow : Property → Option Value := fun _ => none
  bounds : BoundingBox := .new
  program : Option Program := none

namespace Recorder

/-- A recorder that has been told nothing. -/
def new : Recorder := {}

/-- Writes one record down. -/
def record (r : Recorder) (rec : Record) : Recorder where
  slots := r.slots ++ rec.encode
  shadow := match rec with
    | .call _ _ => r.shadow
    | .set p value => fun q => if q = p then some value else r.shadow q
  bounds := match rec with
    | .call m args => r.bounds.record m args
    | .set _ _ => r.bounds
  program := none

/-- Calls an operation. A property is assigned its first argument instead, if it has one. -/
def call (r : Recorder) (op : Operation) (args : List Value) : Recorder :=
  match Record.ofCall? op args with
  | some rec => r.record rec
  | none => r

/-- Assigns to an operation. A method is called with the value instead. -/
def assign (r : Recorder) (op : Operation) (value : Value) : Recorder :=
  r.record (.ofAssignment op value)

/-- What is noticed on a call. -/
def callNotices (op : Operation) : List Notice :=
  if op.isProperty then [.propertyCalled op] else []

/-- What is noticed on an assignment. -/
def assignNotices (op : Operation) : List Notice :=
  if op.isMethod then [.methodAssigned op] else []

/-- Forgets everything. -/
def reset (_ : Recorder) : Recorder := new

/-- What is noticed on forgetting everything. -/
def resetNotices (r : Recorder) : List Notice := [.reset r.slots.length]

/-- The value last assigned to an operation. Methods never have one. -/
def value? (r : Recorder) : Operation → Option Value
  | .method _ => none
  | .property p => r.shadow p

/-- The properties that have been assigned, with their values. -/
def assigned (r : Recorder) : List (Property × Value) :=
  Property.all.filterMap fun p => (r.shadow p).map fun value => (p, value)

/-- The number of slots. -/
def cursor (r : Recorder) : Nat := r.slots.length

def isCompiled (r : Recorder) : Bool := r.program.isSome

/-- The rectangle around the drawing. -/
def boundingRect (r : Recorder) : Except Fault Rect := r.bounds.rect

/-- The program of the buffer, which is compiled only if the recorder does not hold one, and the
recorder that holds it from now on. -/
def compile (r : Recorder) : Except Fault Program × Recorder :=
  match r.program with
  | some p => (.ok p, r)
  | none =>
    match Program.compile r.slots with
    | .ok p => (.ok p, { r with program := some p })
    | .error fault => (.error fault, r)

/-- What is noticed on asking for the program. -/
def compileNotices (r : Recorder) : List Notice :=
  match r.program with
  | some _ => []
  | none => Program.compileNotices r.slots

/-- A recorder takes whatever is replayed into it. -/
def receiver : Receiver Recorder where
  call op args r := { state := r.call op args, notices := callNotices op }
  set op value r := { state := r.assign op value, notices := assignNotices op }

section Canvas

def save (r : Recorder) : Recorder := r.call Method.save []

def restore (r : Recorder) : Recorder := r.call Method.restore []

def beginPath (r : Recorder) : Recorder := r.call Method.beginPath []

def closePath (r : Recorder) : Recorder := r.call Method.closePath []

def lineTo (r : Recorder) (x y : Float) : Recorder := r.call Method.lineTo [.number x, .number y]

def moveTo (r : Recorder) (x y : Float) : Recorder := r.call Method.moveTo [.number x, .number y]

/-- A curve by two control points and its end. -/
def bezierCurveTo (r : Recorder) (cp1x cp1y cp2x cp2y x y : Float) : Recorder :=
  r.call Method.bezierCurveTo
    [.number cp1x, .number cp1y, .number cp2x, .number cp2y, .number x, .number y]

/-- An arc around a centre from one angle to another. -/
def arc (r : Recorder) (x y radius start finish : Float) (clockwise : Bool) : Recorder :=
  r.call Method.arc
    [.number x, .number y, .number radius, .number start, .number finish, .flag clockwise]

/-- Recorded like any other call, although the bounding box cannot follow it. -/
def arcTo (r : Recorder) (x1 y1 x2 y2 radius : Float) : Recorder :=
  r.call Method.arcTo [.number x1, .number y1, .number x2, .number y2, .number radius]

def stroke (r : Recorder) : Recorder := r.call Method.stroke []

def fill (r : Recorder) : Recorder := r.call Method.fill []

def strokeRect (r : Recorder) (x y width height : Float) : Recorder :=
  r.call Method.strokeRect [.number x, .number y, .number width, .number height]

def fillRect (r : Recorder) (x y width height : Float) : Recorder :=
  r.call Method.fillRect [.number x, .number y, .number width, .number height]

def clearRect (r : Recorder) (x y width height : Float) : Recorder :=
  r.call Method.clearRect [.number x, .number y, .number width, .number height]

end Canvas

end Recorder

end DisplayList
