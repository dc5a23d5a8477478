import DisplayList.Fault

/-!
# The bounding box of a drawing

A bounding box is fed with the calls of a drawing. Each geometric call offers some points,
`points`, and the box grows to include them. The far side starts at the origin and not at
infinity, so the box always reaches the origin there. An `arcTo` offers nothing and spoils the
rectangle until the box is reset.
-/

namespace DisplayList

/-- The smaller of two numbers. What is not a number is passed over. -/
def lesser (a b : Float) : Float :=
  if a.isNaN then b else if b.isNaN then a else if b < a then b else a

/-- The larger of two numbers. What is not a number is passed over. -/
def greater (a b : Float) : Float :=
  if a.isNaN then b else if b.isNaN then a else if a < b then b else a

/-- A rectangle by its corner and its extent. -/
structure Rect where
  left : Float
  top : Float
  width : Float
  height : Float
deriving DecidableEq

/-- The rectangle of a drawing without geometry. -/
def Rect.zero : Rect := ⟨0, 0, 0, 0⟩

/-- The extremes of the points seen so far, and the operation that makes them useless if there was
one. -/
structure BoundingBox where
  minX : Float := Binary64.ofMagnitude false Binary64.infinity
  minY : Float := Binary64.ofMagnitude false Binary64.infinity
  maxX : Float := 0
  maxY : Float := 0
  unsupported : Option Operation := none
deriving DecidableEq

/-- The point whose coordinates are the arguments from an index on, if both are numbers. -/
def pointAt (args : List Value) (i : Nat) : List (Float × Float) :=
  match args[i]?, args[i + 1]? with
  | some (.number x), some (.number y) => [(x, y)]
  | _, _ => []

/-- The points that a call offers. A rectangle offers two opposite corners, a curve its control
points and its end, and an arc the corners of the square around its circle. -/
def points : Method → List Value → List (Float × Float)
  | .moveTo, args | .lineTo, args => pointAt args 0
  | .bezierCurveTo, args => pointAt args 0 ++ pointAt args 2 ++ pointAt args 4
  | .strokeRect, args | .fillRect, args | .clearRect, args =>
    match args with
    | .number x :: .number y :: .number w :: .number h :: _ => [(x, y), (x + w, y + h)]
    | _ => []
  | .arc, args =>
    match args with
    | .number x :: .number y :: .number r :: _ => [(x - r, y - r), (x + r, y + r)]
    | _ => []
  | _, _ => []

namespace BoundingBox

/-- The box of no geometry at all. -/
def new : BoundingBox := {}

/-- Grows the box to a point. -/
def includePoint (b : BoundingBox) (p : Float × Float) : BoundingBox :=
  { b with
    minX := lesser b.minX p.1
    minY := lesser b.minY p.2
    maxX := greater b.maxX p.1
    maxY := greater b.maxY p.2 }

/-- Takes a call into account. An assignment leaves the box alone. -/
def record (b : BoundingBox) : Operation → List Value → BoundingBox
  | .method .arcTo, _ => { b with unsupported := some (.method .arcTo) }
  | .method m, args => (points m args).foldl includePoint b
  | .property _, _ => b

/-- Whether the left edge is still at infinity. -/
def isEmpty (b : BoundingBox) : Bool := b.minX.isInf

/-- The rectangle of the box. -/
def rect (b : BoundingBox) : Except Fault Rect :=
  match b.unsupported with
  | some op => .error (.notImplemented op)
  | none =>
    if b.isEmpty then .ok Rect.zero
    else .ok ⟨b.minX, b.minY, b.maxX - b.minX, b.maxY - b.minY⟩

end BoundingBox

end DisplayList
