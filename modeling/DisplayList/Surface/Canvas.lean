import DisplayList.Replay.Receiver
import DisplayList.Surface.Color
import DisplayList.Surface.Command
import DisplayList.Svg.Arc
import DisplayList.Text.Case

/-!
# A canvas on top of a drawing context

A canvas keeps the colors for strokes and fills apart and multiplies an opacity into both, while a
drawing context has a single source color. A `Surface` keeps the paint and sets the source right
before it draws. Strokes and fills preserve the current path, and rectangles put it aside. A step
that fails issues no command and changes nothing.
-/

namespace DisplayList

/-- The colors and the opacity in effect. -/
structure Paint where
  stroke : Rgba := .black
  fill : Rgba := .black
  alpha : Float := 1
deriving DecidableEq

/-- A canvas with the commands that it has issued so far. -/
structure Surface where
  paint : Paint := {}
  saved : List Paint := []
  issued : List Command := []
deriving DecidableEq

/-- The line cap of a name, in any case. -/
def lineCapOf? (name : String) : Option LineCap :=
  match String.ofList (lowered name.toList) with
  | "butt" => some .butt
  | "round" => some .round
  | "square" => some .square
  | _ => none

/-- The line joins that a canvas knows. -/
inductive CanvasJoin
  | arcs | bevel | miter | miterClip | round
deriving DecidableEq, Repr

namespace CanvasJoin

/-- The line join of a name, in any case. -/
def ofName? (name : String) : Option CanvasJoin :=
  match String.ofList (lowered name.toList) with
  | "arcs" => some arcs
  | "bevel" => some bevel
  | "miter" => some miter
  | "miter-clip" => some miterClip
  | "round" => some round
  | _ => none

/-- The line join that is drawn. Where a context has none of the kind it is mitered. -/
def drawn : CanvasJoin → LineJoin
  | arcs | miter | miterClip => .miter
  | bevel => .bevel
  | round => .round

/-- What is noticed where a line join cannot be drawn. -/
def notices : CanvasJoin → List Notice
  | arcs => [.joinNotDrawn "Arcs"]
  | miterClip => [.joinNotDrawn "Miterclip"]
  | bevel | miter | round => []

end CanvasJoin

/-- The compositing of a name, which has to match exactly. -/
def compositingOf? : String → Option Compositing
  | "source-over" => some .sourceOver
  | "source-in" => some .sourceIn
  | "source-out" => some .sourceOut
  | "source-atop" => some .sourceAtop
  | "destination-over" => some .destinationOver
  | "destination-in" => some .destinationIn
  | "destination-out" => some .destinationOut
  | "destination-atop" => some .destinationAtop
  | "copy" => some .copy
  | "lighter" => some .lighter
  | "xor" => some .xor
  | "multiply" => some .multiply
  | "screen" => some .screen
  | _ => none

namespace Surface

/-- A canvas that has issued nothing. -/
def new : Surface := {}

/-- Issues commands. -/
def issue (s : Surface) (commands : List Command) : Surface :=
  { s with issued := s.issued ++ commands }

/-- The command that makes a color the source, with the opacity in effect. -/
def source (p : Paint) (c : Rgba) : Command := .setSource c.r c.g c.b (c.a * p.alpha)

/-- Commands that leave the current path as it was. -/
def pathKept (commands : List Command) : List Command :=
  .copyPath :: .newPath :: commands ++ [.newPath, .appendPath]

/-- The rectangle that the first four arguments of a call describe. -/
def rectangle (m : Method) (args : List Value) : Except Fault Command := do
  let n := number (.method m) args
  return .extend (.rectangle (← n 0) (← n 1) (← n 2) (← n 3))

/-- The commands of a call, with the paint in effect. `save` and `restore` are not among them,
since they move the paint. -/
def commands (p : Paint) (m : Method) (args : List Value) : Except Fault (List Command) := do
  let n := number (.method m) args
  match m with
  | .beginPath => return [.newPath]
  | .closePath => return [.extend .closePath]
  | .moveTo => return [.extend (.moveTo (← n 0) (← n 1))]
  | .lineTo => return [.extend (.lineTo (← n 0) (← n 1))]
  | .bezierCurveTo =>
    return [.extend (.curveTo (← n 0) (← n 1) (← n 2) (← n 3) (← n 4) (← n 5))]
  | .arc =>
    let a ← Arc.ofArgs args
    return [.extend <|
      if a.clockwise then .arcNegative a.x a.y a.radius a.start a.finish
      else .arc a.x a.y a.radius a.start a.finish]
  | .stroke => return [source p p.stroke, .strokePreserve]
  | .fill => return [source p p.fill, .fillPreserve]
  | .strokeRect => return source p p.stroke :: pathKept [← rectangle m args, .stroke]
  | .fillRect => return source p p.fill :: pathKept [← rectangle m args, .fill]
  | .clearRect =>
    return pathKept [← rectangle m args, .save, .setOperator .clear, .fill, .restore]
  | .arcTo => throw (.notImplemented (.method m))
  | .save | .restore => return []

/-- Calls an operation. Saving and restoring move the paint, and restoring does nothing where
nothing is saved. -/
def call : Operation → List Value → Surface → Reply Surface
  | .property p, _, s => { state := s, fault := some (.unsupported (.property p)) }
  | .method .save, _, s => { state := { s with saved := s.paint :: s.saved }.issue [.save] }
  | .method .restore, _, s =>
    match s.saved with
    | [] => { state := s }
    | paint :: saved => { state := { s with paint := paint, saved := saved }.issue [.restore] }
  | .method m, args, s =>
    match commands s.paint m args with
    | .ok issued => { state := s.issue issued }
    | .error fault => { state := s, fault := some fault }

/-- Assigns a color, which has to be given as a text. A text that is no color is passed over. -/
def assignColor (p : Property) (value : Value) (paint : Rgba → Paint) (s : Surface) :
    Reply Surface :=
  match value with
  | .text t =>
    match Rgba.parse? t with
    | some c => { state := { s with paint := paint c } }
    | none => { state := s, notices := [.notAColor (.property p) t] }
  | _ => { state := s, fault := some (.notANumber (.property p) 0) }

/-- Assigns a property that has to be a number. -/
def assignNumber (p : Property) (value : Value) (assigned : Float → Surface) (s : Surface) :
    Reply Surface :=
  match value with
  | .number x => { state := assigned x }
  | _ => { state := s, fault := some (.notANumber (.property p) 0) }

/-- Assigns to an operation. Values that are not understood are noticed and passed over, and so is
an opacity that does not lie between zero and one, without notice. -/
def set : Operation → Value → Surface → Reply Surface
  | .method m, _, s => { state := s, fault := some (.unsupported (.method m)) }
  | .property p, value, s =>
    match p with
    | .lineWidth => assignNumber p value (fun x => s.issue [.setLineWidth x]) s
    | .miterLimit => assignNumber p value (fun x => s.issue [.setMiterLimit x]) s
    | .lineCap =>
      match lineCapOf? value.display with
      | some cap => { state := s.issue [.setLineCap cap] }
      | none => { state := s, notices := [.unknownStyle (.property p) value.display] }
    | .lineJoin =>
      match CanvasJoin.ofName? value.display with
      | some join => { state := s.issue [.setLineJoin join.drawn], notices := join.notices }
      | none => { state := s, notices := [.unknownStyle (.property p) value.display] }
    | .strokeStyle => assignColor p value (fun c => { s.paint with stroke := c }) s
    | .fillStyle => assignColor p value (fun c => { s.paint with fill := c }) s
    | .globalAlpha =>
      assignNumber p value
        (fun x => if 0 ≤ x ∧ x ≤ 1 then { s with paint := { s.paint with alpha := x } } else s) s
    | .globalCompositeOperation =>
      match compositingOf? value.display with
      | some operator => { state := s.issue [.setOperator operator] }
      | none => { state := s, notices := [.unknownOperator value.display] }
    | .shadowColor | .shadowOffsetX | .shadowOffsetY | .shadowBlur | .font | .textAlign
    | .textBaseline => { state := s, notices := [.propertyIgnored (.property p)] }

/-- A canvas as a receiver of what is replayed. -/
def receiver : Receiver Surface := ⟨call, set⟩

end Surface

end DisplayList
