import DisplayList.Number.Text

/-!
# Commands to a drawing context

A drawing context keeps one source color, a current path and a stack of states. A `Command` is one
call on it, with its arguments. `Command.text` writes a command down, and `PathState.apply` says
what it does to the current path, with `applyAll_nil`, `applyAll_cons` and `applyAll_append` for
runs.
-/

namespace DisplayList

/-- The ends of lines that a context can draw. -/
inductive LineCap
  | butt | round | square
deriving DecidableEq, Repr

/-- The corners of lines that a context can draw. -/
inductive LineJoin
  | miter | round | bevel
deriving DecidableEq, Repr

/-- How a context combines what it draws with what is there. -/
inductive Compositing
  | clear | copy
  | sourceOver | sourceIn | sourceOut | sourceAtop
  | destinationOver | destinationIn | destinationOut | destinationAtop
  | xor | lighter | multiply | screen
deriving DecidableEq, Repr

/-- A piece of a path. -/
inductive PathPiece
  | moveTo (x y : Float)
  | lineTo (x y : Float)
  | curveTo (x1 y1 x2 y2 x3 y3 : Float)
  | arc (x y radius start finish : Float)
  | arcNegative (x y radius start finish : Float)
  | rectangle (x y width height : Float)
  | closePath
deriving DecidableEq

/-- A call on a drawing context. -/
inductive Command
  | save
  | restore
  | newPath
  | extend (piece : PathPiece)
  | stroke
  | fill
  | strokePreserve
  | fillPreserve
  | copyPath
  | appendPath
  | setLineWidth (width : Float)
  | setMiterLimit (limit : Float)
  | setSource (r g b a : Float)
  | setOperator (operator : Compositing)
  | setLineCap (cap : LineCap)
  | setLineJoin (join : LineJoin)
deriving DecidableEq

def LineCap.word : LineCap → String
  | butt => "Butt"
  | round => "Round"
  | square => "Square"

def LineJoin.word : LineJoin → String
  | miter => "Miter"
  | round => "Round"
  | bevel => "Bevel"

def Compositing.word : Compositing → String
  | clear => "Clear"
  | copy => "Source"
  | sourceOver => "Over"
  | sourceIn => "In"
  | sourceOut => "Out"
  | sourceAtop => "Atop"
  | destinationOver => "DestOver"
  | destinationIn => "DestIn"
  | destinationOut => "DestOut"
  | destinationAtop => "DestAtop"
  | xor => "Xor"
  | lighter => "Add"
  | multiply => "Multiply"
  | screen => "Screen"

/-- A name with numbers behind it. -/
def withNumbers (name : String) (numbers : List Float) : String :=
  " ".intercalate (name :: numbers.map fun x => String.ofList (numberText x))

/-- A piece of a path as it is written down. -/
def PathPiece.text : PathPiece → String
  | moveTo x y => withNumbers "move_to" [x, y]
  | lineTo x y => withNumbers "line_to" [x, y]
  | curveTo x1 y1 x2 y2 x3 y3 => withNumbers "curve_to" [x1, y1, x2, y2, x3, y3]
  | arc x y radius start finish => withNumbers "arc" [x, y, radius, start, finish]
  | arcNegative x y radius start finish =>
    withNumbers "arc_negative" [x, y, radius, start, finish]
  | rectangle x y width height => withNumbers "rectangle" [x, y, width, height]
  | closePath => "close_path"

namespace Command

/-- A command as it is written down. -/
def text : Command → String
  | save => "save"
  | restore => "restore"
  | newPath => "new_path"
  | extend piece => piece.text
  | stroke => "stroke"
  | fill => "fill"
  | strokePreserve => "stroke_preserve"
  | fillPreserve => "fill_preserve"
  | copyPath => "copy_path"
  | appendPath => "append_path"
  | setLineWidth width => withNumbers "set_line_width" [width]
  | setMiterLimit limit => withNumbers "set_miter_limit" [limit]
  | setSource r g b a => withNumbers "set_source_rgba" [r, g, b, a]
  | setOperator operator => "set_operator " ++ operator.word
  | setLineCap cap => "set_line_cap " ++ cap.word
  | setLineJoin join => "set_line_join " ++ join.word

end Command

/-- The current path of a context, and the path that was last copied from it. -/
structure PathState where
  current : List PathPiece := []
  copied : List PathPiece := []
deriving DecidableEq

namespace PathState

/-- What a command does to the current path. Drawing uses the path up unless it is preserved, and
the saved states do not include it. -/
def apply (s : PathState) : Command → PathState
  | .newPath | .stroke | .fill => { s with current := [] }
  | .extend piece => { s with current := s.current ++ [piece] }
  | .copyPath => { s with copied := s.current }
  | .appendPath => { s with current := s.current ++ s.copied }
  | _ => s

/-- What some commands do to the current path, one after the other. -/
def applyAll (s : PathState) (commands : List Command) : PathState := commands.foldl apply s

@[simp] theorem applyAll_nil (s : PathState) : s.applyAll [] = s := rfl

@[simp] theorem applyAll_cons (s : PathState) (c : Command) (cs : List Command) :
    s.applyAll (c :: cs) = (s.apply c).applyAll cs := rfl

@[simp] theorem applyAll_append (s : PathState) (cs ds : List Command) :
    s.applyAll (cs ++ ds) = (s.applyAll cs).applyAll ds := List.foldl_append

end PathState

end DisplayList
