/-!
# Canvas operations

A canvas is driven by calling methods and by assigning properties. An `Operation` is either, and
the two kinds never mix in a record. Each has a code of one byte, methods below `0x80` and
properties with that bit set, and the name under which a canvas offers it. `ofCode?_code` and
`ofName?_name` say that both tables can be read backwards.
-/

namespace DisplayList

/-- What a canvas does when it is called. -/
inductive Method
  | save | restore
  | beginPath | closePath
  | lineTo | bezierCurveTo | arc | arcTo
  | moveTo
  | stroke | fill | strokeRect | fillRect | clearRect
deriving DecidableEq, Repr

/-- What can be assigned on a canvas. -/
inductive Property
  | lineWidth | lineCap | lineJoin | miterLimit
  | strokeStyle | fillStyle
  | globalAlpha | globalCompositeOperation
  | shadowColor | shadowOffsetX | shadowOffsetY | shadowBlur
  | font | textAlign | textBaseline
deriving DecidableEq, Repr

/-- The two ways of driving a canvas. -/
inductive Kind
  | method
  | property
deriving DecidableEq, Repr

/-- An operation of a canvas, called or assigned. -/
inductive Operation
  | method (m : Method)
  | property (p : Property)
deriving DecidableEq, Repr

/-- The bit that sets the codes of properties apart. -/
def propertyTag : UInt8 := 0x80

namespace Method

/-- Every method, in the order of the codes. -/
def all : List Method :=
  [.save, .restore, .beginPath, .closePath, .lineTo, .bezierCurveTo, .arc, .arcTo, .moveTo,
    .stroke, .fill, .strokeRect, .fillRect, .clearRect]

/-- The code of a method: state, path, line, move and draw each have a block of sixteen. -/
def code : Method → UInt8
  | save => 0x00
  | restore => 0x01
  | beginPath => 0x10
  | closePath => 0x11
  | lineTo => 0x20
  | bezierCurveTo => 0x21
  | arc => 0x22
  | arcTo => 0x23
  | moveTo => 0x30
  | stroke => 0x70
  | fill => 0x71
  | strokeRect => 0x72
  | fillRect => 0x73
  | clearRect => 0x7f

/-- The name under which a canvas offers the method. -/
def name : Method → String
  | save => "save"
  | restore => "restore"
  | beginPath => "beginPath"
  | closePath => "closePath"
  | lineTo => "lineTo"
  | bezierCurveTo => "bezierCurveTo"
  | arc => "arc"
  | arcTo => "arcTo"
  | moveTo => "moveTo"
  | stroke => "stroke"
  | fill => "fill"
  | strokeRect => "strokeRect"
  | fillRect => "fillRect"
  | clearRect => "clearRect"

theorem mem_all (m : Method) : m ∈ all := by cases m <;> decide

end Method

namespace Property

/-- Every property, in the order of the codes. -/
def all : List Property :=
  [.lineWidth, .lineCap, .lineJoin, .miterLimit, .strokeStyle, .fillStyle, .globalAlpha,
    .globalCompositeOperation, .shadowColor, .shadowOffsetX, .shadowOffsetY, .shadowBlur, .font,
    .textAlign, .textBaseline]

/-- The code of a property: line style, paint, global, shadow and text each have a block of
sixteen. -/
def code : Property → UInt8
  | lineWidth => 0x80
  | lineCap => 0x81
  | lineJoin => 0x82
  | miterLimit => 0x83
  | strokeStyle => 0x90
  | fillStyle => 0x91
  | globalAlpha => 0xa0
  | globalCompositeOperation => 0xa1
  | shadowColor => 0xb0
  | shadowOffsetX => 0xb1
  | shadowOffsetY => 0xb2
  | shadowBlur => 0xb3
  | font => 0xc0
  | textAlign => 0xc1
  | textBaseline => 0xc2

/-- The name under which a canvas offers the property. -/
def name : Property → String
  | lineWidth => "lineWidth"
  | lineCap => "lineCap"
  | lineJoin => "lineJoin"
  | miterLimit => "miterLimit"
  | strokeStyle => "strokeStyle"
  | fillStyle => "fillStyle"
  | globalAlpha => "globalAlpha"
  | globalCompositeOperation => "globalCompositeOperation"
  | shadowColor => "shadowColor"
  | shadowOffsetX => "shadowOffsetX"
  | shadowOffsetY => "shadowOffsetY"
  | shadowBlur => "shadowBlur"
  | font => "font"
  | textAlign => "textAlign"
  | textBaseline => "textBaseline"

theorem mem_all (p : Property) : p ∈ all := by cases p <;> decide

end Property

namespace Operation

instance : Coe Method Operation := ⟨method⟩

instance : Coe Property Operation := ⟨property⟩

/-- Every operation, in the order of the codes. -/
def all : List Operation := Method.all.map method ++ Property.all.map property

/-- Which of the two kinds an operation is. -/
def kind : Operation → Kind
  | method _ => .method
  | property _ => .property

def isMethod (op : Operation) : Bool := op.kind = .method

def isProperty (op : Operation) : Bool := op.kind = .property

/-- The code that opens a record of the operation. -/
def code : Operation → UInt8
  | method m => m.code
  | property p => p.code

/-- The name under which a canvas offers the operation. -/
def name : Operation → String
  | method m => m.name
  | property p => p.name

/-- The identifier that stands for the operation in an opcode table: its name with a capital first
letter. -/
def identifier (op : Operation) : String := op.name.capitalize

/-- The operation with a code, if the code is in use. -/
def ofCode? (code : UInt8) : Option Operation := all.find? fun op => op.code == code

/-- The operation that a canvas offers under a name, which has to match exactly. -/
def ofName? (name : String) : Option Operation := all.find? fun op => op.name == name

theorem mem_all (op : Operation) : op ∈ all := by
  cases op with
  | method m => exact List.mem_append_left _ (List.mem_map_of_mem (Method.mem_all m))
  | property p => exact List.mem_append_right _ (List.mem_map_of_mem (Property.mem_all p))

@[simp] theorem ofCode?_code (op : Operation) : ofCode? op.code = some op := by
  cases op with
  | method m => cases m <;> decide
  | property p => cases p <;> decide

/-- A code finds an operation only if it is the code of that operation. -/
theorem code_of_ofCode? {code : UInt8} {op : Operation} (h : ofCode? code = some op) :
    op.code = code := by
  simpa using List.find?_some h

@[simp] theorem ofName?_name (op : Operation) : ofName? op.name = some op := by
  cases op with
  | method m => cases m <;> decide
  | property p => cases p <;> decide

/-- A name finds an operation only if it is the name of that operation. -/
theorem name_of_ofName? {name : String} {op : Operation} (h : ofName? name = some op) :
    op.name = name := by
  simpa using List.find?_some h

end Operation

end DisplayList
