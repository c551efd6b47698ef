import InfoFlow.Json.Basic
import InfoFlow.Json.Read
import InfoFlow.Program.CallEdge
import InfoFlow.Program.Field
import InfoFlow.Program.Site
import InfoFlow.Program.Variable

/-!
# Program elements as JSON

`toJson` writes every part of an element.  `Field.reader` reads a field back: only class, type and name count,
and the signature is made anew from them.
-/

namespace InfoFlow

/-! ## writing -/

/-- nothing is written as null -/
def Json.option {α : Type} (f : α → Json) : Option α → Json
  | none => .null
  | some a => f a

def Method.toJson (m : Method) : Json :=
  .obj [("signature", .str m.signature), ("class", .str m.className), ("name", .str m.name),
    ("parameters", .arr (m.params.map .str)), ("return_type", .str m.returnType)]

def Field.toJson (f : Field) : Json :=
  .obj [("signature", .str f.signature), ("class", .str f.className), ("name", .str f.name),
    ("type_", .str f.type)]

def Local.toJson (v : Local) : Json := .obj [("name", .str v.name), ("type_", .str v.type)]

def Parameter.toJson (p : Parameter) : Json := .obj [("index", .num p.index), ("type_", .str p.type)]

def Site.toJson (s : Site) : Json :=
  .obj [("canonical", .str s.text), ("id", .num s.id), ("type_", .str s.type),
    ("method", Json.option .str s.method)]

def CallEdge.toJson (e : CallEdge) : Json :=
  .obj [("source", Json.option Method.toJson e.source?), ("site", Json.option .num e.site?),
    ("target", e.target.toJson)]

/-! ## reading -/

/-- the parts of a field, as they are written -/
structure Field.Parts where
  className : String
  type : String
  name : String

def Field.Parts.declare (p : Field.Parts) : Except Malformed Field :=
  Field.declare p.className p.type p.name

open Json in
/-- the parts of a field -/
def Field.partsReader : Reader Field.Parts := fun ts => do
  match ← Reader.record "struct FieldDescriptor" ["class", "type_", "name"] Reader.string ts with
  | ⟨[className, type, name], rest, h⟩ => .ok ⟨⟨className, type, name⟩, rest, h⟩
  | _ => .error .notJson

open Json in
/-- a field; parts that make no field are a fault of the text -/
def Field.reader : Reader Field := fun ts => do
  let r ← Field.partsReader ts
  match r.value.declare with
  | .ok f => .ok ⟨f, r.rest, r.shorter⟩
  | .error m => .error (.refused m.message)

/-- the field that a text describes -/
def Field.ofJson (text : String) : Except Json.Fault Field := Field.reader.run text

end InfoFlow
