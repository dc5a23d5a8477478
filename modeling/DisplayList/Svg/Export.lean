import DisplayList.Replay.Receiver
import DisplayList.Svg.Arc
import DisplayList.Svg.Element

/-!
# Export as a path element

Some calls have a counterpart in path data, `stroke`, `fill` and the line width become attributes,
and everything else cannot be exported. Attributes are set as records come up and the path data
last, so an export that fails leaves the path data of its target alone.
-/

universe u

namespace DisplayList

/-- What an export writes beside the geometry. -/
structure Exporter where
  color : String := "black"
  xmlNamespace : String := svgNamespace
deriving DecidableEq

/-- An export under way: its target and the tokens of the path so far. -/
structure Draft (τ : Type u) where
  target : τ
  tokens : List String := []

section

variable {τ : Type u}

/-- The draft with more tokens. -/
def Draft.push (d : Draft τ) (tokens : List String) : Draft τ :=
  { d with tokens := d.tokens ++ tokens }

/-- The draft with an attribute set on its target. -/
def Draft.setAttribute [AttributeTarget τ] (d : Draft τ) (name value : String) : Draft τ :=
  { d with target := DisplayList.setAttribute name value d.target }

end

namespace Exporter

variable {τ : Type u} [AttributeTarget τ]

/-- Takes one record into a draft. -/
def visit (e : Exporter) : Record → Draft τ → Reply (Draft τ)
  | .call .moveTo args, d => { state := d.push ["M", displayAll "," args] }
  | .call .lineTo args, d => { state := d.push ["L", displayAll " " args] }
  | .call .bezierCurveTo args, d => { state := d.push ["C", displayAll " " args] }
  | .call .arc args, d =>
    match Arc.ofArgs args with
    | .ok a => { state := d.push (a.tokens d.tokens.isEmpty) }
    | .error fault => { state := d, fault := some fault }
  | .call .stroke _, d => { state := d.setAttribute "stroke" e.color }
  | .call .fill _, d => { state := d.setAttribute "fill" e.color }
  | .call .arcTo _, d => { state := d, fault := some (.notImplemented (.method .arcTo)) }
  | .call .save _, d => { state := d, fault := some (.notImplemented (.method .save)) }
  | .call .restore _, d => { state := d, fault := some (.notImplemented (.method .restore)) }
  | .call m _, d => { state := d, fault := some (.unsupported (.method m)) }
  | .set .lineWidth value, d => { state := d.setAttribute "stroke-width" value.display }
  | .set p _, d => { state := d, fault := some (.unsupported (.property p)) }

/-- Exports a buffer into a target. -/
def exportInto (e : Exporter) (slots : List Slot) (target : τ) : Reply τ :=
  let reply := walk e.visit slots { target := target }
  match reply.fault with
  | some fault => { state := reply.state.target, fault := some fault, notices := reply.notices }
  | none =>
    { state := setAttribute "d" (" ".intercalate reply.state.tokens) reply.state.target,
      notices := reply.notices }

/-- Exports a buffer into a new element. -/
def exportReply (e : Exporter) (slots : List Slot) : Reply PathElement :=
  e.exportInto slots { xmlNamespace := e.xmlNamespace }

/-- The element that a buffer is exported as. -/
def exportPath (e : Exporter) (slots : List Slot) : Except Fault PathElement :=
  match (e.exportReply slots).fault with
  | some fault => .error fault
  | none => .ok (e.exportReply slots).state

end Exporter

end DisplayList
