import DisplayList.Fault

/-!
# Arcs as path tokens

A canvas gives an arc by its centre, its radius and two angles; path data give it by its end
points and two flags. `Arc.tokens` are the tokens of an arc. Path data cannot express a full turn
in one piece, since its end points coincide, so a full turn is drawn as two halves and a move to
the end point proper.
-/

namespace DisplayList

/-- A circular arc as a canvas takes it. -/
structure Arc where
  x : Float
  y : Float
  radius : Float
  start : Float
  finish : Float
  clockwise : Bool
deriving DecidableEq

/-- Half a turn. -/
def halfTurn : Float := 3.141592653589793

/-- A full turn. -/
def fullTurn : Float := 2 * halfTurn

/-- The text of a number in path data. -/
def numberToken (x : Float) : String := String.ofList (numberText x)

/-- A command of path data with its parameters. -/
def tokensOf (command : String) (parameters : List Float) : List String :=
  command :: parameters.map numberToken

namespace Arc

/-- The arc that the arguments of a call describe. Without a sixth argument it runs
counterclockwise. -/
def ofArgs (args : List Value) : Except Fault Arc := do
  let n := number (.method .arc) args
  let x ← n 0
  let y ← n 1
  let radius ← n 2
  let start ← n 3
  let finish ← n 4
  return ⟨x, y, radius, start, finish, (args[5]?.map Value.truthy).getD false⟩

/-- The horizontal place of the point at an angle. -/
def pointX (a : Arc) (angle : Float) : Float := a.x + angle.cos * a.radius

/-- The vertical place of the point at an angle. -/
def pointY (a : Arc) (angle : Float) : Float := a.y + angle.sin * a.radius

/-- A command that leads to the point at an angle. -/
def leadTo (a : Arc) (command : String) (angle : Float) : List String :=
  tokensOf command [a.pointX angle, a.pointY angle]

/-- How far the end lies from the start. -/
def extent (a : Arc) : Float := (a.finish - a.start).abs

/-- The extent in degrees. -/
def degrees (a : Arc) : Float := a.extent * 180 / halfTurn

/-- The flag for the way that covers more than half a turn. -/
def largeFlag (a : Arc) : Float := if (180 ≤ a.degrees : Bool) = a.clockwise then 0 else 1

/-- The flag for the way of increasing angles. -/
def sweepFlag (a : Arc) : Float := if a.clockwise then 0 else 1

/-- The arc in one piece: a command that leads to its start, a move if nothing has been drawn yet
and a line otherwise, and the arc itself. -/
def segment (a : Arc) (first : Bool) : List String :=
  a.leadTo (if first then "M" else "L") a.start
    ++ tokensOf "A"
      [a.radius, a.radius, a.degrees, a.largeFlag, a.sweepFlag, a.pointX a.finish,
        a.pointY a.finish]

/-- The arc in one piece, or nothing if it ends where it starts. -/
def piece (a : Arc) (first : Bool) : List String :=
  if a.start == a.finish then [] else a.segment first

/-- The half turn from the start on. -/
def firstHalf (a : Arc) : Arc := { a with finish := a.start + halfTurn }

/-- The half turn behind the first. -/
def secondHalf (a : Arc) : Arc :=
  { a with start := a.start + halfTurn, finish := a.start + fullTurn }

/-- The tokens of an arc. `first` says that nothing has been drawn yet. -/
def tokens (a : Arc) (first : Bool) : List String :=
  if a.start == a.finish then []
  else if fullTurn ≤ a.extent then
    a.firstHalf.piece first ++ a.secondHalf.piece false ++ a.leadTo "M" a.finish
  else a.segment first

end Arc

end DisplayList
