import InfoFlow.Location.Json
import InfoFlow.Value.Set

/-!
# Values as JSON

An atom is written as an object with one member, named for its constructor.  `Atom.reader` reads it back.
-/

namespace InfoFlow

/-! ## writing -/

def Atom.toJson : Atom → Json
  | taint l => .obj [("Taint", .str l)]
  | constant t => .obj [("Constant", .str t)]
  | token k l => .obj [("Token", .obj [("kind", .str k), ("label", .str l)])]

def Value.toJson : Value → Json
  | address a => .obj [("Address", a.toJson)]
  | atom a => .obj [("Opaque", a.toJson)]

def ValueSet.toJson (s : ValueSet) : Json := .arr (s.toList.map Value.toJson)

/-! ## reading -/

/-- the constructors of atoms -/
inductive Atom.Form
  | taint
  | constant
  | token

namespace Atom

open Json

def formNames : List String := ["Taint", "Constant", "Token"]

/-- the constructor of this name -/
def Form.ofName (name : String) : Except Fault Form :=
  if name = "Taint" then .ok .taint
  else if name = "Constant" then .ok .constant
  else if name = "Token" then .ok .token
  else .error (.unknownVariant name formNames)

/-- what a message calls the thing that belongs to a constructor -/
def Form.expected : Form → String
  | taint | constant => "newtype variant"
  | token => "struct variant"

/-- what belongs to a constructor -/
def Form.payload : Form → Reader Atom
  | taint, ts => (Reader.string ts).map fun r => ⟨.taint r.value, r.rest, r.shorter⟩
  | constant, ts => (Reader.string ts).map fun r => ⟨.constant r.value, r.rest, r.shorter⟩
  | token, ts => do
    match ← Reader.record "struct variant Opaque::Token" ["kind", "label"] Reader.string ts with
    | ⟨[kind, label], rest, h⟩ => .ok ⟨.token kind label, rest, h⟩
    | _ => .error .notJson

/-- the rest of an atom after the name of its constructor -/
def Form.afterName (form : Form) : Reader Atom
  | .colon :: ts => do
    match ← form.payload ts with
    | ⟨a, .rbrace :: rest, h⟩ => .ok ⟨a, rest, Nat.lt_succ_of_lt (Nat.lt_of_succ_lt h)⟩
    | _ => .error .notJson
  | _ => .error .notJson

/-- an atom: an object with one member, whose name is looked at before anything that follows it; what is no string in
    the place of the name is no JSON -/
def reader : Reader Atom
  | .lbrace :: .string ps :: ts => do
    let name ← Reader.string (.string ps :: ts)
    let form ← Form.ofName name.value
    (form.afterName ts).map (·.widenTwo)
  | .string ps :: ts => do
    let name ← Reader.string (.string ps :: ts)
    let form ← Form.ofName name.value
    .error (.wrongType .bareName form.expected)
  | _ => .error .notJson

/-- the atom that a text describes -/
def ofJson (text : String) : Except Fault Atom := reader.run text

end Atom

end InfoFlow
